import Sinkhole.Proofs.History.Rows
import Sinkhole.Proofs.Update.Sent

/-! Whose validators a request carries.

A request for a list may carry an entity tag and a time, and then the server need not
answer with a body. By the ledger, the tag is always that of the body taken over last,
and is missing if that one came with none. The time is not: `learned` keeps the time that
is there when the new body came without one, so what is sent is the time of the last body
that had one, and it can be older than the items that are in force. -/
namespace Sinkhole.History

open Update (Setup Visit)
open Work (upon Yields)

variable {σ : Type}

namespace Account

/-- The entity tag of what was taken over last. -/
def tag? (a : Account σ) : Option String := a.trusted.head?.bind (·.download.entityTag)

/-- The time of the last body that came with one, in microseconds. -/
def time? (a : Account σ) : Option Int :=
  (a.trusted.findSome? (·.download.lastModified)).map (·.micros)

/-- What is known of a source is what its account says, and what it says of a list on a server the
server or its forge reported. -/
structure Vouches (a : Account σ) (source : Source) : Prop where
  tag : source.entityTag = a.tag?
  time : source.appliedModified = a.time?
  /-- The last content that is trusted is the one that is in force. -/
  latest : ∀ t, a.trusted.head? = some t → a.latest = some t
  reported : ∀ url, source.place = .ok (.remote url) →
    ∀ t ∈ a.trusted, Fetch.Reported t.world t.download

namespace Vouches

variable {a : Account σ} {x y : Source}

theorem congr (h : a.Vouches x) (hlocation : y.location = x.location)
    (htag : y.entityTag = x.entityTag) (htime : y.appliedModified = x.appliedModified) :
    a.Vouches y where
  tag := by rw [htag, h.tag]
  time := by rw [htime, h.time]
  latest := h.latest
  reported := by
    rw [Source.place, hlocation]
    exact h.reported

/-- Of a source without validators an account says nothing that is trusted. -/
theorem untrusted (latest : Option (Taken σ)) (htag : x.entityTag = none)
    (htime : x.appliedModified = none) : Vouches { latest } x where
  tag := htag
  time := htime
  latest := by
    intro t h
    cases h
  reported := fun _ _ _ h => absurd h List.not_mem_nil

/-- A source that is unchanged is asked for under the same conditions again. -/
theorem kept (h : a.Vouches x) (remoteModified : Option Time.Instant) :
    a.Vouches (Store.learned x (Update.keptMetadata x remoteModified)) :=
  h.congr rfl rfl rfl

/-- What is taken over brings its tag, and its time if it has one. -/
theorem taken (h : a.Vouches x) (t : Taken σ)
    (hreported : ∀ url, x.place = .ok (.remote url) → Fetch.Reported t.world t.download) :
    (a.take (some t)).Vouches (Store.learned x (Update.newMetadata t.download)) where
  tag := rfl
  time := by
    have htime := h.time
    rw [time?] at htime
    rw [time?, Store.learned, Update.newMetadata, take, List.findSome?_cons, htime]
    cases t.download.lastModified <;> rfl
  latest := fun _ h => h
  reported := by
    intro url hplace t' ht
    rcases List.mem_cons.mp ht with rfl | ht
    · exact hreported url hplace
    · exact h.reported url hplace t' ht

end Vouches

end Account

/-- What comes from a server was reported by it. -/
theorem contentAt_reported {w : World σ} {s : Setup} {source : Source} {u : Updater σ}
    {t : Taken σ} (h : contentAt w s source u = some t) {url : Url}
    (hplace : source.place = .ok (.remote url)) : Fetch.Reported t.world t.download := by
  rw [contentAt, Fetch.fetch_remote w s.fetch hplace] at h
  cases hupon : upon (Fetch.fetchRemote w s.fetch source url) u with
  | mk answer u' =>
    rw [hupon] at h
    cases answer with
    | error e => cases h
    | ok fetched =>
      have hreported := Fetch.fetchRemote_reported w s.fetch source url u fetched u' hupon
      cases fetched with
      | unchanged remoteModified => cases h
      | downloaded d =>
        dsimp only at h
        cases hopen : (d.content.opening w u'.world).answer with
        | error reason =>
          rw [hopen] at h
          cases h
        | ok opened =>
          rw [hopen] at h
          injection h with h
          subst h
          exact hreported d rfl

/-! ### Acts -/

/-- Every account vouches for its source. -/
def Vouched (l : Ledger σ) (s : Store) : Prop :=
  ∀ source ∈ s.sources, (l.account source.id).Vouches source

namespace Vouched

variable {l l' : Ledger σ} {s s' : Store}

/-- One source changed together with its account. -/
theorem of_modify (h : Vouched l s) {id : Int} {f : Source → Source}
    {g : Account σ → Account σ} (hid : ∀ x, (f x).id = x.id)
    (hfg : ∀ x ∈ s.sources, x.id = id → (g (l.account id)).Vouches (f x))
    (hs : s'.sources = (s.modifySource id f).sources) : Vouched (l.amend id g) s' := by
  intro source hsource
  rw [hs] at hsource
  obtain ⟨old, hold, rfl⟩ := List.mem_map.mp hsource
  by_cases hold' : old.id = id
  · simpa [Ledger.amend, hold', hid] using hfg old hold hold'
  · simpa [Ledger.amend, hold'] using h old hold

/-- One source changed with neither its validators nor its location. -/
theorem of_edit (h : Vouched l s) {id : Int} {f : Source → Source} (hid : ∀ x, (f x).id = x.id)
    (hf : ∀ x ∈ s.sources, x.id = id → (f x).location = x.location ∧
      (f x).entityTag = x.entityTag ∧ (f x).appliedModified = x.appliedModified)
    (hs : s'.sources = (s.modifySource id f).sources) : Vouched l s' := by
  rw [← l.amend_take_none id]
  refine h.of_modify hid (fun x hx hxid => ?_) hs
  obtain ⟨hlocation, htag, htime⟩ := hf x hx hxid
  subst hxid
  exact (h x hx).congr hlocation htag htime

theorem register (h : Vouched l s) (hn : Tallies l s) (u : Updater σ) (hu : u.store = s)
    (r : Registration) : Vouched (l.recordRole u r) (s.upsert r).2 := by
  subst hu
  unfold Ledger.recordRole Store.upsert
  cases hfind : u.store.sources.find? (·.location == Store.placeOf r) with
  | none =>
    intro source hs
    rcases List.mem_append.mp hs with hold | hnew
    · exact h source hold
    · -- nothing is known of it, and its id has no account yet
      obtain rfl := List.mem_singleton.mp hnew
      have hunknown : u.store.knows (u.store.lastId + 1) = false := by
        refine Bool.eq_false_iff.mpr fun hk => ?_
        obtain ⟨old, hold, hid⟩ := List.mem_map.mp (Store.knows_iff.mp hk)
        have hgiven := hn.numbered.given old hold
        omega
      have haccount := hn.unknown _ hunknown
      show ((l.account (u.store.lastId + 1)).Vouches _)
      rw [haccount]
      exact .untrusted none rfl rfl
  | some old =>
    have hold := List.mem_of_find?_eq_some hfind
    have hsame : ∀ x ∈ u.store.sources, x.id = old.id → x = old :=
      fun x hx hid => hn.numbered.keyed.eq_of_id hx hold hid
    dsimp only
    split
    · rename_i hrole
      refine h.of_edit (f := (Store.refreshed · r)) (fun _ => rfl) (fun x hx hid => ?_) rfl
      rw [hsame x hx hid, Store.refreshed, hrole]
      exact ⟨rfl, rfl, rfl⟩
    · rename_i hrole
      have hrole : (old.allowList == r.allowList && old.redirects == r.redirects) = false :=
        Bool.eq_false_iff.mpr hrole
      refine h.of_modify (f := (Store.refreshed · r)) (fun _ => rfl) (fun x hx hid => ?_) rfl
      rw [hsame x hx hid]
      refine .untrusted (l.account old.id).latest ?_ ?_
      · simp [Store.refreshed, hrole]
      · simp [Store.refreshed, hrole]

theorem setEnabled (h : Vouched l s) {id : Int} {enabled : Bool}
    (hset : s.setEnabled id enabled = .ok s') : Vouched l s' := by
  unfold Store.setEnabled at hset
  split at hset
  · injection hset with hs'
    subst hs'
    exact h.of_edit (f := ({ · with enabled })) (fun _ => rfl) (fun _ _ _ => ⟨rfl, rfl, rfl⟩) rfl
  · cases hset

theorem remove (h : Vouched l s) {id : Int} (hremove : s.remove id = .ok s') :
    Vouched (l.amend id fun _ => {}) s' := by
  unfold Store.remove at hremove
  split at hremove
  · cases hremove
  split at hremove
  · injection hremove with hs'
    subst hs'
    intro source hs
    obtain ⟨hmem, hne⟩ := List.mem_filter.mp hs
    have hid : source.id ≠ id := by simpa using hne
    simpa [Ledger.amend, hid] using h source hmem
  · cases hremove

theorem check (h : Vouched l s) (hc : s'.unprobed = s.unprobed) : Vouched l s' := by
  intro source hs
  obtain ⟨old, hold, heq⟩ := Store.of_unprobed hc hs
  have hid : old.unprobed.id = source.unprobed.id := by rw [heq]
  have hlocation : old.unprobed.location = source.unprobed.location := by rw [heq]
  have htag : old.unprobed.entityTag = source.unprobed.entityTag := by rw [heq]
  have htime : old.unprobed.appliedModified = source.unprobed.appliedModified := by rw [heq]
  rw [show source.id = old.id from hid.symm]
  exact (h old hold).congr hlocation.symm htag.symm htime.symm

/-! ### Runs -/

/-- Sources that were cleared have lost their validators with their accounts. -/
theorem cleared (h : Vouched l s) (hk : s.Keyed) {x : Source} (hx : x ∈ s.sources) :
    Account.Vouches (if (Update.idle s).any (·.id == x.id) then {} else l.account x.id)
      x.clearedIfIdle := by
  rw [Update.any_idle hk hx, Source.clearedIfIdle]
  cases x.isUser || x.enabled with
  | true => exact h x hx
  | false => exact .untrusted none rfl rfl

theorem withheld (h : Vouched l s) (hk : s.Keyed) {clearing : Bool}
    (hw : Update.Withheld clearing s s')
    (haccount : ∀ id, l'.account id =
      if clearing && (Update.idle s).any (·.id == id) then {} else l.account id) :
    Vouched l' s' := by
  intro source hs
  rw [hw.sources] at hs
  cases clearing with
  | false =>
    rw [haccount]
    exact h source hs
  | true =>
    obtain ⟨x, hx, rfl⟩ := List.mem_map.mp hs
    have hid : x.clearedIfIdle.id = x.id := Source.clearedIfIdle_map (fun _ => rfl) x
    rw [haccount, Bool.true_and, hid]
    exact h.cleared hk hx

/-- **After a run over all sources that takes effect every account vouches for its source
again.** -/
theorem outcome {w : World σ} {t : Setup} {u start last : Updater σ} {visits : List (Visit σ)}
    (h : Vouched l u.store) (hk : u.store.Keyed)
    (run : Update.FullRun w t u start visits last) (hgoing : last.control.stopped = false)
    (haccount : ∀ id, l'.account id = if (Update.idle u.store).any (·.id == id) then {}
      else (l.account id).take ((Update.visitTo visits id).bind (takenOn w t))) :
    Vouched l' (Update.FullRun.outcome u last visits) := by
  intro source hs
  rw [run.outcome_sources hk hgoing] at hs
  obtain ⟨x, hx, rfl⟩ := List.mem_map.mp hs
  have hid : (Update.sourceAfter visits x).id = x.id :=
    Update.sourceAfter_map (fun _ _ => rfl) (fun _ => rfl) visits x
  rw [hid, haccount, Update.sourceAfter]
  cases hv : Update.visitTo visits x.id with
  | none => exact h.cleared hk hx
  | some v =>
    obtain ⟨hmem, hvid⟩ := Update.visitTo_some hv
    have hvx : v.source = x := hk.eq_of_id (Update.mem_fetchable.mp (run.planned v hmem)).1 hx hvid
    subst hvx
    rw [Tallies.not_idle_of_visit run hk hmem, if_neg Bool.false_ne_true, Option.bind_some]
    dsimp only
    have hends := run.chain.ends run.knows v hmem
    rw [takenOn]
    cases hsettled : v.settled with
    | failed reason => exact h v.source hx
    | stopped => exact h v.source hx
    | unchanged learned =>
      rw [hsettled] at hends
      cases hends with
      | unchanged fetched => exact (h v.source hx).kept _
    | updated learned =>
      rw [hsettled] at hends
      cases hends with
      | updated fetched read items =>
        have hcontent := contentAt_read fetched read
        rw [if_neg (show ¬Update.Settled.isKept (.updated _) = true from Bool.false_ne_true),
          hcontent]
        exact (h v.source hx).taken _ fun url hplace => contentAt_reported hcontent hplace

/-- A run over one source that is fetched and takes effect. -/
theorem fetched {w : World σ} {t : Setup} {task : Option String} {u u' : Updater σ}
    {source : Source} {r : Except Error Update.Report} (h : Vouched l u.store)
    (hk : u.store.Keyed) (hmem : source ∈ u.store.sources)
    (ends : Update.OneEnds w t source u.store.active
      (upon (Fetch.fetch w t.fetch source) (Update.atFetch task source u)).1
      (upon (Fetch.fetch w t.fetch source) (Update.atFetch task source u)).2 r u')
    (heffect : Update.hasTakenEffect r = true) :
    Vouched (l.amend source.id (·.take (contentAt w t source (Update.atFetch task source u))))
      { u'.store with durability := .normal } := by
  have hrelaxed : Vouched l { u.store with durability := .relaxed } := h
  rcases fetched_cases ends heffect with
    ⟨hnone, hsame⟩ | ⟨taken, staged, hcontent, -, hchanges, -, hstore⟩
  · rw [hnone, l.amend_take_none]
    have hchecked : Vouched l u'.store := hrelaxed.check hsame
    exact hchecked
  · rw [hcontent, hstore]
    refine h.of_modify (f := (Store.learned · (Update.newMetadata taken.download))) (fun _ => rfl)
      (fun x hx hid => ?_) ?_
    · obtain rfl := hk.eq_of_id hx hmem hid
      exact (h x hmem).taken taken fun url hplace => contentAt_reported hcontent hplace
    · show (staged.sources.map _) = _
      rw [hchanges.sources]
      rfl

theorem updateOne (w : World σ) (t : Setup) (id : Int) (task : Option String) {u : Updater σ}
    (h : Vouched l u.store) (hk : u.store.Keyed) :
    Vouched (l.recordOne u w t id task) (Update.updateOne w t id task u).2.store := by
  rcases l.recordOne_cases w t id task hk with ⟨hsame, hw⟩ | ⟨source, hmem,
    ⟨huser, hsame, hstore⟩ | ⟨huser, hrecord, hstore⟩ |
      ⟨huser, hrecord, r, u', heffect, ends, hstore⟩⟩
  · rw [hsame]
    exact h.withheld hk hw fun _ => rfl
  · rw [hsame, hstore]
    exact h
  · rw [hrecord, hstore]
    exact h.of_modify (f := Source.unread) (fun _ => rfl)
      (fun _ _ _ => .untrusted none rfl rfl) rfl
  · rw [hrecord, hstore]
    exact h.fetched hk hmem ends heffect

theorem updateAll (w : World σ) (t : Setup) (task : Option String) {u : Updater σ}
    (h : Vouched l u.store) (hk : u.store.Keyed) (hu : u.running = false) :
    Vouched (l.recordAll u w t task) (Update.updateAll w t task u).2.store := by
  rcases l.recordAll_cases w t task hk hu with
    ⟨-, haccount, hw⟩ | ⟨start, visits, last, run, hgoing, -, haccount, hstore⟩
  · exact h.withheld hk hw haccount
  · rw [hstore]
    exact h.outcome hk run hgoing haccount

end Vouched

theorem perform_vouched {l : Ledger σ} {u : Updater σ} (hu : u.running = false)
    (hn : Tallies l u.store) (h : Vouched l u.store) (a : Act σ) :
    Vouched (l.record u a) (a.perform u).store := by
  cases a with
  | register r => exact h.register hn u rfl r
  | setEnabled id enabled =>
    show Vouched l (edited u (u.store.setEnabled id enabled)).store
    cases hset : u.store.setEnabled id enabled with
    | ok store => exact h.setEnabled hset
    | error e => exact h
  | remove id =>
    show Vouched (l.recordRemoval u id) (edited u (u.store.remove id)).store
    rw [Ledger.recordRemoval]
    cases hremove : u.store.remove id with
    | ok store => exact h.remove hremove
    | error e => exact h
  | addUser e =>
    show Vouched (l.recordEntry u e) (edited u (u.store.addUser e)).store
    rw [Ledger.recordEntry]
    cases hadd : u.store.addUser e with
    | ok store =>
      have hsources : store.sources = u.store.sources := by
        unfold Store.addUser at hadd
        split at hadd
        · injection hadd with hstore
          rw [← hstore]
        · cases hadd
      intro source hs
      exact h source (hsources ▸ hs)
    | error e => exact h
  | removeUser host => exact h
  | check w s => exact h.check (Update.check_unprobed w s u)
  | updateAll w s task => exact h.updateAll w s task hn.numbered.keyed hu
  | updateOne w s id task => exact h.updateOne w s id task hn.numbered.keyed

/-! ### Requests -/

/-- A request that is under no conditions, or under those that the account of its source vouches
for: the tag of what is in force, and the time of the last body that came with one. -/
inductive Warranted (l : Ledger σ) (s : Store) (r : Fetch.Request) : Prop where
  | unconditional (h : Update.Unconditional r)
  | vouched {source : Source} {url : Url} {t : Taken σ} {earlier : List (Taken σ)}
      (known : source ∈ s.sources) (place : source.place = .ok (.remote url))
      (stored : s.itemsOf source.id s.active = t.entries.map (Item.ofEntry source.id s.active))
      (trusted : (l.account source.id).trusted = t :: earlier)
      (reported : ∀ t' ∈ t :: earlier, Fetch.Reported t'.world t'.download)
      (tag : r.ifNoneMatch = t.download.entityTag)
      (time : r.ifModifiedSince = ((t :: earlier).findSome? (·.download.lastModified)).map
        fun at_ => Time.httpDate (.ofMicros at_.micros))

/-- A request that may go out for a source is warranted by its account. -/
theorem warranted_of_maySend {l : Ledger σ} {u : Updater σ} (hn : Tallies l u.store)
    (h : Vouched l u.store) {s : Fetch.Settings} {source : Source} {r : Fetch.Request}
    (hmem : source ∈ u.store.sources) (huser : source.isUser = false)
    (hr : Fetch.MaySend s source r) : Warranted l u.store r := by
  cases hr with
  | plain method url => exact .unconditional ⟨rfl, rfl⟩
  | conditional at_ url =>
    have hvouches := h source hmem
    cases htrusted : (l.account source.id).trusted with
    | nil =>
      refine .unconditional ⟨?_, ?_⟩
      · have htag := hvouches.tag
        rw [Account.tag?, htrusted] at htag
        exact htag
      · have htime := hvouches.time
        rw [Account.time?, htrusted] at htime
        simp [Fetch.listRequest, Source.applied, htime]
    | cons t earlier =>
      have hlatest := hvouches.latest t (by rw [htrusted]; rfl)
      refine .vouched hmem at_ ?_ htrusted ?_ ?_ ?_
      · rw [hn.items source.id (beq_eq_false_iff_ne.mp huser), Account.items, hlatest]
        rfl
      · rw [← htrusted]
        exact hvouches.reported _ at_
      · have htag := hvouches.tag
        rw [Account.tag?, htrusted] at htag
        exact htag
      · have htime := hvouches.time
        rw [Account.time?, htrusted] at htime
        simp [Fetch.listRequest, Source.applied, htime, Function.comp_def]

/-- **After every history the conditions that a run makes are vouched for**: the tag is that of the
content in force, or missing if it came with none, and the time is that of the last content taken
over that came with one. A check makes no conditions. -/
theorem course_warranted (world : σ) (acts : List (Act σ)) (w : World σ) (s : Setup) :
    let u := (course world acts).1
    let l := (course world acts).2
    (∀ task r, Deed.sent r ∈ (Update.updateAll w s task u).2.deeds → Warranted l u.store r) ∧
    (∀ id task r, Deed.sent r ∈ (Update.updateOne w s id task u).2.deeds →
      Warranted l u.store r) ∧
    ∀ r, Deed.sent r ∈ (Update.check w s u).2.deeds → Update.Unconditional r := by
  intro u l
  obtain ⟨⟨hn, h⟩, hu⟩ := course_induction
    (p := fun (u : Updater σ) l => Tallies l u.store ∧ Vouched l u.store) world
    ⟨.empty, fun source hs => by
      rw [List.mem_singleton.mp hs]
      exact .untrusted none rfl rfl⟩
    (fun _ _ a hu hp => ⟨perform_tallies hu hp.1 a, perform_vouched hu hp.1 hp.2 a⟩) acts
  refine ⟨fun task r hr => ?_, fun id task r hr => ?_, Update.check_unconditional w s hu⟩
  · obtain ⟨source, hsource, hsend⟩ := Update.updateAll_sends w s task hu r hr
    obtain ⟨hmem, -, huser, -⟩ := Update.mem_fetchable.mp hsource
    exact warranted_of_maySend hn h hmem huser hsend
  · obtain ⟨source, hsource, huser, hsend⟩ := Update.updateOne_sends w s id task hu r hr
    exact warranted_of_maySend hn h (Store.mem_of_source hsource).1 huser hsend

/-- A server whose list came with a tag and a time at first, and later with neither. -/
def forgetful : World Nat :=
  { facts := fun _ n => { answer := .error "no such file", world := n }
    openFile := fun _ n => { answer := .error "no such file", world := n }
    exchange := fun _ n =>
      { answer := .ok
          { status := 200, body := [97, 46, 98, 10]
            headers := if n = 0 then
              [("etag", "\"1\""), ("last-modified", "Mon, 01 Jan 2024 00:00:00 GMT")] else [] }
        world := n + 1 }
    resolves := fun _ => true }

/-- The list of that server, taken over twice. -/
def takenTwice : List (Act Nat) :=
  [.register { label := "list", location := "http://a.b/" },
    .updateAll forgetful Update.plain none, .updateAll forgetful Update.plain none]

/-- The request that comes after that. -/
def thirdRequest : Fetch.Request :=
  { method := .get
    url := { scheme := "http".toList, site := some (.domain "a.b".toList), path := ['/'] }
    userAgent := ""
    ifModifiedSince := some "Mon, 01 Jan 2024 00:00:00 GMT" }

/-- The content in force came with no time, and the next request is made under the time of the one
before it. The tag is gone. -/
theorem course_warranted_forgetful :
    Deed.sent thirdRequest ∈
        (Update.updateOne forgetful Update.plain 2 none (course 0 takenTwice).1).2.deeds ∧
      Warranted (course 0 takenTwice).2 (course 0 takenTwice).1.store thirdRequest ∧
      ((course 0 takenTwice).2.account 2).trusted.map (·.download.lastModified) =
        [none, some (.ofMicros 1704067200000000)] := by
  have hsent : Deed.sent thirdRequest ∈
      (Update.updateOne forgetful Update.plain 2 none (course 0 takenTwice).1).2.deeds := by
    decide +kernel
  have hbodies : ((course 0 takenTwice).2.account 2).trusted.map (·.download.lastModified) =
      [none, some (.ofMicros 1704067200000000)] := by decide +kernel
  obtain ⟨-, hone, -⟩ := course_warranted 0 takenTwice forgetful Update.plain
  exact ⟨hsent, hone 2 none thirdRequest hsent, hbodies⟩

end Sinkhole.History
