import Sinkhole.Proofs.Fetch.Sending

/-! Encrypted connections, and where a fetch gives them up.

A fetch asks along chains of redirects, one chain for each time that it sends a request
(`Chained`). None of them comes back to `http` once it was on `https`. A chain that would
is cut before that hop, and then the whole fetch fails and names it (`fetch_redirects`).
From one chain to the next nothing is promised: a list that lies on `http` is asked for
there again after its server led to `https` and failed (`encryption_given_up`). -/
namespace Sinkhole

namespace Work

variable {σ α β : Type} {p : List Url → Prop}

/-- The URLs that the work asks are put together from chains that `p` takes. -/
def Chained (p : List Url → Prop) (work : Work σ α) : Prop :=
  ∀ u : Updater σ, ∃ (deeds : List Deed) (chains : List (List Url)),
    (upon work u).2.deeds = u.deeds ++ deeds ∧ deeds.filterMap Deed.url? = chains.flatten ∧
      ∀ urls ∈ chains, p urls

namespace Chained

/-- Work that does nothing to the outside. -/
theorem of_deeds {work : Work σ α} (h : ∀ u, (upon work u).2.deeds = u.deeds) : Chained p work :=
  fun u => ⟨[], [], by rw [h, List.append_nil], rfl, by simp⟩

theorem pure (a : α) : Chained p (pure a : Work σ α) := of_deeds fun _ => rfl

theorem throw (e : Error) : Chained p (throw e : Work σ α) := of_deeds fun _ => rfl

theorem bind {work : Work σ α} {next : α → Work σ β} (hw : Chained p work)
    (hn : ∀ a, Chained p (next a)) : Chained p (work >>= next) := by
  intro u
  obtain ⟨deeds, chains, hdeeds, hflat, hall⟩ := hw u
  rw [upon_bind]
  cases h : upon work u with
  | mk r u' =>
    rw [h] at hdeeds
    cases r with
    | error e => exact ⟨deeds, chains, hdeeds, hflat, hall⟩
    | ok a =>
      obtain ⟨deeds', chains', hdeeds', hflat', hall'⟩ := hn a u'
      refine ⟨deeds ++ deeds', chains ++ chains', ?_, ?_, ?_⟩
      · rw [hdeeds', hdeeds, List.append_assoc]
      · rw [List.filterMap_append, hflat, hflat', List.flatten_append]
      · exact List.forall_mem_append.mpr ⟨hall, hall'⟩

theorem outcome {work : Work σ α} (hw : Chained p work) : Chained p (outcome work) := by
  intro u
  rw [upon_outcome]
  exact hw u

end Chained

end Work

namespace Fetch

open Work (Chained upon)

variable {σ : Type} {w : World σ} {s : Settings} {source : Source} {url : Url}
variable {r : Request} {u x : Updater σ}

/-! ### Chains of a fetch -/

theorem url?_sentTo (r : Request) (urls : List Url) :
    (sentTo r urls).filterMap Deed.url? = urls := by
  induction urls with
  | nil => rfl
  | cons url urls ih => exact congrArg (url :: ·) ih

theorem url?_laterCourse (r : Request) (base retry : Nat) (chains : List (List Url)) :
    (laterCourse r base retry chains).filterMap Deed.url? = chains.flatten := by
  induction chains generalizing retry with
  | nil => rfl
  | cons urls chains ih =>
    have hwait : Deed.url? (.waited (backoff base retry)) = none := rfl
    rw [laterCourse, List.cons_append, List.filterMap_cons_none hwait, List.filterMap_append,
      url?_sentTo, ih, List.flatten_cons]

theorem url?_course (r : Request) (base : Nat) (chains : List (List Url)) :
    (course r base chains).filterMap Deed.url? = chains.flatten := by
  cases chains with
  | nil => rfl
  | cons urls chains =>
    rw [course, List.filterMap_append, url?_sentTo, url?_laterCourse, List.flatten_cons]

/-- A chain of URLs from one of those that `starts` takes, followed as far as it may be. -/
structure Unbroken (mostHops : Nat) (starts : Url → Prop) (urls : List Url) : Prop where
  start : ∃ first hops, urls = first :: hops ∧ starts first ∧ hops.length ≤ mostHops
  secure : Secure urls

theorem send_chained {starts : Url → Prop} (w : World σ) (s : Settings) (r : Request)
    (hstart : starts r.url) : Chained (Unbroken s.http.maxRedirects starts) (send w s r) := by
  intro u
  obtain ⟨first, chains, -, -, hdeeds, hall⟩ := send_trial w s r u
  cases hsendable : r.isSendable with
  | false =>
    have hnone : (first :: chains).flatten = [] :=
      List.flatten_eq_nil_iff.mpr fun urls hurls => (hall urls hurls).none hsendable
    exact ⟨_, [], hdeeds, (url?_course _ _ _).trans hnone, by simp⟩
  | true =>
    refine ⟨_, first :: chains, hdeeds, url?_course _ _ _, fun urls hurls => ?_⟩
    obtain ⟨hops, rfl, hfollowed⟩ := (hall urls hurls).some hsendable
    obtain ⟨hshort, hsecure⟩ := followed_iff.mp hfollowed
    exact ⟨⟨r.url, hops, rfl, hstart, hshort⟩, hsecure⟩

/-- Where a fetch of the list at `url` starts to ask: there, or at its forge. -/
def Starts (s : Settings) (url first : Url) : Prop :=
  first = url ∨ commitsUrl? s.forge url = some first

theorem download_chained (w : World σ) (s : Settings) (source : Source) (url : Url)
    (conditional : Bool) :
    Chained (Unbroken s.http.maxRedirects (Starts s url))
      (download w s source url conditional) := by
  refine .bind (send_chained w s _ (.inl rfl)) fun response => ?_
  cases ofResponse url response with
  | ok fetched => exact .pure fetched
  | error e => exact .throw e

theorem forgeTime_chained (w : World σ) (s : Settings) (url : Url) :
    Chained (Unbroken s.http.maxRedirects (Starts s url)) (forgeTime w s url) := by
  rw [forgeTime]
  split
  · exact .pure none
  · rename_i api hasked
    refine .bind (send_chained w s _ (.inr hasked)).outcome fun answer => ?_
    cases answer with
    | ok response => exact .pure _
    | error e => exact .pure none

theorem fetchRemote_chained (w : World σ) (s : Settings) (source : Source) (url : Url) :
    Chained (Unbroken s.http.maxRedirects (Starts s url)) (fetchRemote w s source url) := by
  refine .bind (forgeTime_chained w s url) fun forge => ?_
  cases forge with
  | none => exact download_chained w s source url true
  | some modified =>
    show Chained _ (if _ then _ else _)
    split
    · exact .pure _
    · exact .bind (download_chained w s source url false) fun fetched => .pure _

/-! ### Chains that are cut -/

/-- A fetch of the list at `url` from `u` sends the request `r` for it at `x`: at first, or again
after answers that may pass. -/
inductive Tries (w : World σ) (s : Settings) (source : Source) (url : Url) (u : Updater σ) :
    Request → Updater σ → Prop where
  | list {forge u₁ i} (told : upon (forgeTime w s url) u = (.ok forge, u₁))
      (wanted : ∀ modified, forge = some modified →
        source.applied.any (Time.Instant.le modified ·) = false)
      (left : i < attempts s.http.maxRetries)
      (passing : ∀ j < i,
        Passing (trial w s (listRequest s source url forge.isNone) 1 u₁ j).1) :
      Tries w s source url u (listRequest s source url forge.isNone)
        (before w s (listRequest s source url forge.isNone) 1 u₁ i)

theorem Tries.request_url (h : Tries w s source url u r x) : r.url = url := by
  cases h
  rfl

/-- An error that does not pass ends the fetch. -/
theorem Tries.fetch_error (h : Tries w s source url u r x)
    (hplace : source.place = .ok (.remote url)) {e : Error} {last : Updater σ}
    (hfailed : upon (attempt w s r) x = (.error e, last)) (hfinal : e.isTransient = false) :
    upon (fetch w s source) u = (.error e, last) := by
  cases h with
  | @list forge u₁ i told wanted left passing =>
    have hsend : upon (send w s (listRequest s source url forge.isNone)) u₁ = (.error e, last) := by
      refine (upon_attemptsFrom passing (by omega) fun _ => ?_).trans hfailed
      rw [trial, hfailed]
      rintro ⟨e', he, htransient⟩
      cases he
      rw [hfinal] at htransient
      cases htransient
    have hdownload : upon (download w s source url forge.isNone) u₁ = (.error e, last) :=
      Work.upon_bind_of_error hsend
    rw [fetch_remote w s hplace, fetchRemote, Work.upon_bind_of_ok told]
    cases forge with
    | none => exact hdownload
    | some modified =>
      dsimp only
      rw [wanted modified rfl, if_neg Bool.false_ne_true]
      exact Work.upon_bind_of_error hdownload

/-- A chain that a fetch goes along up to a hop that it does not take, and why it fails there. -/
structure Cut (w : World σ) (s : Settings) (source : Source) (url : Url) (u : Updater σ)
    (r : Request) (x : Updater σ) (front : List Url) (bad : Url) : Prop where
  /-- No hop before it has a fault. -/
  followed : Followed s.http.maxRedirects [url] front
  asked : (upon (fetch w s source) u).2.deeds = x.deeds ++ sentTo r (url :: front)
  fails : (front.length < s.http.maxRedirects ∧ isDowngrade (url :: front) bad = true ∧
      (upon (fetch w s source) u).1 = .error (.insecureRedirect bad.text)) ∨
    (front.length = s.http.maxRedirects ∧
      (upon (fetch w s source) u).1 = .error (.network .tooManyRedirects))

theorem Tries.cut (h : Tries w s source url u r x) (hplace : source.place = .ok (.remote url))
    (hsendable : r.isSendable = true) {hops : List Url} {r' : Request} {x' : Updater σ}
    (hled : Leads w r x hops r' x') (hfree : ¬Followed s.http.maxRedirects [url] hops) :
    ∃ front bad back, hops = front ++ bad :: back ∧ Cut w s source url u r x front bad := by
  rw [← h.request_url] at hfree
  obtain ⟨front, bad, back, fault, rfl, hfollowed, hfault, hanswer, hdeeds⟩ := hled.to_fault hfree
  rw [h.request_url] at hfollowed hfault hdeeds
  have hshort := (followed_iff.mp hfollowed).1
  have hattempt : upon (attempt w s r) x = (.error fault,
      (upon (follow w s.http.maxRedirects s.http.maxRedirects [] r) x).2) := by
    rw [upon_attempt hsendable, hanswer]
    rfl
  rcases hopFault?_eq_some hfault with ⟨hfar, rfl⟩ | ⟨hroom, hdown, rfl⟩
  · have hfetch := h.fetch_error hplace hattempt rfl
    refine ⟨front, bad, back, rfl, hfollowed, ?_, .inr ⟨?_, ?_⟩⟩
    · rw [hfetch, hdeeds]
    · rw [List.length_cons] at hfar
      omega
    · rw [hfetch]
  · have hfetch := h.fetch_error hplace hattempt rfl
    refine ⟨front, bad, back, rfl, hfollowed, ?_, .inl ⟨hroom, hdown, ?_⟩⟩
    · rw [hfetch, hdeeds]
    · rw [hfetch]

/-- **Redirects and encryption in a fetch.** A chain of redirects is followed to its end exactly if
it is no longer than allowed and nowhere comes to `http` after `https`. Where a fetch is led along
such a chain, it asks all of it and goes by the answer at its end; any other chain it asks up to
the first hop that has a fault, and it fails with that. All in all it asks nothing but chains that
never leave `https` for `http`. -/
theorem fetch_redirects (w : World σ) (s : Settings) (u : Updater σ)
    (hplace : source.place = .ok (.remote url)) :
    (∀ mostHops first hops, Followed mostHops [first] hops ↔
      hops.length ≤ mostHops ∧ Secure (first :: hops)) ∧
    (∀ r x hops r' x', Tries w s source url u r x → r.isSendable = true → Leads w r x hops r' x' →
      (Followed s.http.maxRedirects [url] hops →
        ∀ answer last, upon (exchange w r') x' = (answer, last) →
          (∀ response, answer = .ok response → response.target? r'.url = none) →
          upon (attempt w s r) x = (answer.bind fun response =>
            if response.isUsable then .ok response else .error (.http response.status url.text),
              last) ∧
          last.deeds = x.deeds ++ sentTo r (url :: hops)) ∧
      (¬Followed s.http.maxRedirects [url] hops →
        ∃ front bad back, hops = front ++ bad :: back ∧ Cut w s source url u r x front bad)) ∧
    ∃ (deeds : List Deed) (chains : List (List Url)),
      (upon (fetch w s source) u).2.deeds = u.deeds ++ deeds ∧
      deeds.filterMap Deed.url? = chains.flatten ∧
      ∀ urls ∈ chains, Unbroken s.http.maxRedirects (Starts s url) urls := by
  refine ⟨fun _ _ _ => followed_iff, fun r x hops r' x' htries hsendable hled => ⟨?_, ?_⟩, ?_⟩
  · intro hfollowed answer last hasked hend
    rw [← htries.request_url] at hfollowed ⊢
    obtain ⟨hupon, hdeeds⟩ := hled.to_end hfollowed hasked hend
    refine ⟨?_, hdeeds⟩
    rw [upon_attempt hsendable, hupon]
  · exact htries.cut hplace hsendable hled
  · rw [fetch_remote w s hplace]
    exact fetchRemote_chained w s source url u

/-! ### Servers with two sides -/

/-- Every server answers with `plain` on `http` and with `secured` on `https`. -/
def sided (plain secured : Response) : World Unit :=
  { facts := fun _ _ => { answer := .error "", world := () }
    openFile := fun _ _ => { answer := .error "", world := () }
    exchange := fun r _ => { answer := .ok (if r.url.isHttps then secured else plain), world := () }
    resolves := fun _ => true }

def movedTo (text : String) : Response := { status := 302, headers := [("location", text)] }

def unencrypted : Url :=
  { scheme := "http".toList, site := some (.domain "a.b".toList), path := ['/'] }

def encrypted : Url := { unencrypted with scheme := "https".toList }

/-- A source whose list is asked for without encryption. -/
def careless : Source := { id := 2, label := "l", location := "http://a.b/" }

def beforehand : Updater Unit := { store := .empty, world := () }

/-- A server that leads to its encrypted side and back is not followed back. -/
theorem fetch_redirects_careless :
    careless.place = .ok (.remote unencrypted) ∧
      ∃ front bad back, [encrypted, unencrypted] = front ++ bad :: back ∧
        Cut (sided (movedTo "https://a.b/") (movedTo "http://a.b/"))
          { userAgent := "" } careless unencrypted beforehand
          { method := .get, url := unencrypted, userAgent := "" } beforehand front bad := by
  have hplace : careless.place = .ok (.remote unencrypted) := by decide +kernel
  refine ⟨hplace, ?_⟩
  generalize hworld : sided (movedTo "https://a.b/") (movedTo "http://a.b/") = w
  have htold : upon (forgeTime w { userAgent := "" } unencrypted) beforehand =
      (.ok none, beforehand) := by
    rw [forgeTime, show commitsUrl? publicForge unencrypted = none by decide +kernel]
    rfl
  have hled : ∃ r' x', Leads w { method := .get, url := unencrypted, userAgent := "" } beforehand
      [encrypted, unencrypted] r' x' := by
    subst hworld
    refine ⟨_, _, .hop rfl ?_ (.hop rfl ?_ .here)⟩
    · decide +kernel
    · decide +kernel
  obtain ⟨r', x', hled⟩ := hled
  have htries : Tries w { userAgent := "" } careless unencrypted beforehand
      { method := .get, url := unencrypted, userAgent := "" } beforehand :=
    .list (i := 0) htold (by simp) (by decide) (by simp)
  exact ((fetch_redirects w { userAgent := "" } beforehand hplace).2.1 _ _ _ _ _ htries rfl hled).2
    (by decide +kernel)

/-- The URLs that are asked in a fetch, and whether it has a result. -/
def askedIn (w : World Unit) (s : Settings) (source : Source) : List String × Bool :=
  (((upon (fetch w s source) beforehand).2.deeds.filterMap Deed.url?).map Url.text,
    (upon (fetch w s source) beforehand).1.isOk)

/-- Where the encrypted side of a server fails for a passing reason, its other side is asked again:
`https` is left for `http` between two attempts. And a forge that leads from `https` to `http` is
done without: it makes no fetch fail, and the list is asked for where it lies. -/
theorem encryption_given_up :
    askedIn (sided (movedTo "https://a.b/") { status := 503 })
        { http := { maxRetries := 2 }, userAgent := "" } careless =
      (["http://a.b/", "https://a.b/", "http://a.b/", "https://a.b/"], false) ∧
    askedIn (sided { status := 200 } (movedTo "http://a.b/")) { userAgent := "" }
        { careless with location := "http://raw.githubusercontent.com/o/r/main/hosts" } =
      (["https://api.github.com/repos/o/r/commits?path=hosts&sha=main&per_page=1",
        "http://raw.githubusercontent.com/o/r/main/hosts"], true) ∧
    ¬Secure [unencrypted, encrypted, unencrypted, encrypted] := by
  decide +kernel

end Fetch

end Sinkhole
