import Sinkhole.Proofs.Fetch

/-! Chains of redirects, from hop to hop.

A hop is judged by the URLs asked before it and by nothing that comes later, so a chain is
followed up to its first hop that has a fault. What that says of the chain as a whole is
`followed_iff`: it is followed to its end if it is no longer than allowed and nowhere comes
to `http` after `https` (`Secure`). A world leads a request along a chain (`Leads`), and
`follow` goes with it as far as that. -/
namespace Sinkhole.Fetch

open Work (upon)

/-! ### Which chains are followed -/

/-- No URL on `http` comes after one on `https`. -/
def Secure (urls : List Url) : Prop :=
  urls.Pairwise fun earlier later => ¬(earlier.isHttps = true ∧ later.isHttp = true)

instance : DecidablePred Secure := fun urls => inferInstanceAs (Decidable (urls.Pairwise _))

/-- No hop has a fault, when `previous` were asked before. -/
def Followed (mostHops : Nat) : (previous hops : List Url) → Prop
  | _, [] => True
  | previous, next :: rest =>
    hopFault? mostHops previous next = none ∧ Followed mostHops (previous ++ [next]) rest

instance decidableFollowed (mostHops : Nat) :
    (previous hops : List Url) → Decidable (Followed mostHops previous hops)
  | _, [] => inferInstanceAs (Decidable True)
  | previous, next :: rest =>
    have := decidableFollowed mostHops (previous ++ [next]) rest
    inferInstanceAs (Decidable (_ ∧ _))

variable {mostHops : Nat} {previous hops front : List Url} {first next bad : Url}

theorem hopFault?_eq_none : hopFault? mostHops previous next = none ↔
    previous.length ≤ mostHops ∧ isDowngrade previous next = false := by
  unfold hopFault?
  split
  · exact iff_of_false (by simp) fun h => by omega
  · rename_i hroom
    cases isDowngrade previous next with
    | true => simp
    | false => simpa using hroom

/-- A hop within the limit has no fault but to leave `https`. -/
theorem hopFault?_eq_some {fault : Error} (h : hopFault? mostHops previous bad = some fault) :
    (mostHops < previous.length ∧ fault = .network .tooManyRedirects) ∨
      (previous.length ≤ mostHops ∧ isDowngrade previous bad = true ∧
        fault = .insecureRedirect bad.text) := by
  unfold hopFault? at h
  split at h
  · rename_i hfar
    cases h
    exact .inl ⟨hfar, rfl⟩
  · rename_i hroom
    split at h
    · rename_i hdown
      cases h
      exact .inr ⟨by omega, hdown, rfl⟩
    · cases h

theorem secure_concat : Secure (previous ++ [next]) ↔
    Secure previous ∧ isDowngrade previous next = false := by
  rw [Secure, List.pairwise_append]
  refine and_congr_right fun _ => ?_
  simp only [List.pairwise_singleton, true_and, List.mem_singleton, forall_eq, isDowngrade]
  cases next.isHttp with
  | false => simp
  | true => simp

theorem secure_singleton (url : Url) : Secure [url] := List.pairwise_singleton _ url

/-- A chain is followed from where `previous` led if it is no longer than allowed and secure. -/
theorem followed_append_iff (hsecure : Secure previous) : Followed mostHops previous hops ↔
    (hops ≠ [] → previous.length + hops.length ≤ mostHops + 1) ∧ Secure (previous ++ hops) := by
  induction hops generalizing previous with
  | nil => simpa [Followed] using hsecure
  | cons next rest ih =>
    rw [Followed, hopFault?_eq_none, List.append_cons previous next rest]
    have hlength : (previous ++ [next]).length = previous.length + 1 := by simp
    constructor
    · rintro ⟨⟨hroom, hdown⟩, hrest⟩
      obtain ⟨hshort, hall⟩ := (ih (secure_concat.mpr ⟨hsecure, hdown⟩)).mp hrest
      refine ⟨fun _ => ?_, hall⟩
      cases rest with
      | nil => simpa using hroom
      | cons after rest =>
        have hlong := hshort (by simp)
        simp only [List.length_cons] at hlong ⊢
        omega
    · rintro ⟨hshort, hall⟩
      have hnext : Secure (previous ++ [next]) := (List.pairwise_append.mp hall).1
      have hlong := hshort (by simp)
      rw [List.length_cons] at hlong
      refine ⟨⟨by omega, (secure_concat.mp hnext).2⟩, (ih hnext).mpr ⟨fun _ => ?_, hall⟩⟩
      omega

/-- **A chain is followed to its end exactly if it is no longer than allowed and secure.** -/
theorem followed_iff : Followed mostHops [first] hops ↔
    hops.length ≤ mostHops ∧ Secure (first :: hops) := by
  rw [followed_append_iff (secure_singleton first), List.singleton_append]
  refine and_congr_left fun _ => ?_
  cases hops with
  | nil => simp
  | cons next rest =>
    simp only [ne_eq, reduceCtorEq, not_false_eq_true, forall_const, List.length_cons,
      List.length_nil]
    omega

/-- A chain that is not followed to its end is followed up to a first hop that has a fault. -/
theorem exists_fault (h : ¬Followed mostHops previous hops) :
    ∃ front bad back fault, hops = front ++ bad :: back ∧ Followed mostHops previous front ∧
      hopFault? mostHops (previous ++ front) bad = some fault := by
  induction hops generalizing previous with
  | nil => exact absurd trivial h
  | cons next rest ih =>
    cases hfault : hopFault? mostHops previous next with
    | some fault => exact ⟨[], next, rest, fault, rfl, trivial, by rwa [List.append_nil]⟩
    | none =>
      obtain ⟨front, bad, back, fault, rfl, hfront, hbad⟩ := ih fun hrest => h ⟨hfault, hrest⟩
      rw [← List.append_cons] at hbad
      exact ⟨next :: front, bad, back, fault, rfl, ⟨hfault, hfront⟩, hbad⟩

/-! ### Where a world leads -/

variable {σ : Type}

/-- What is done when a request is sent to one URL after the other. -/
def sentTo (r : Request) (urls : List Url) : List Deed := urls.map fun url => .sent { r with url }

/-- The world leads `r` along `hops`, so that `r'` is asked next. -/
inductive Leads (w : World σ) : Request → Updater σ → List Url → Request → Updater σ → Prop where
  | here {r u} : Leads w r u [] r u
  | hop {r u u₁ response next hops r' u'} (asked : upon (exchange w r) u = (.ok response, u₁))
      (moved : response.target? r.url = some next)
      (rest : Leads w { r with url := next } u₁ hops r' u') : Leads w r u (next :: hops) r' u'

variable {w : World σ} {r r' : Request} {u u' : Updater σ} {room : Nat}

/-- An exchange comes to what the world answers. -/
theorem upon_exchange (w : World σ) (r : Request) (u : Updater σ) :
    (upon (exchange w r) u).1 = (w.exchange r u.world).answer.mapError .network ∧
      (upon (exchange w r) u).2.deeds = u.deeds ++ [.sent r] := by
  have hnote : upon (Work.note (.sent r)) u =
      (.ok (), { u with deeds := u.deeds ++ [.sent r] }) := rfl
  rw [exchange, Work.upon_bind_of_ok hnote, Work.upon_bind_of_ok (Work.upon_observe _ _)]
  cases (w.exchange r u.world).answer with
  | ok response => exact ⟨rfl, Updater.hearAll_deeds _ _⟩
  | error fault => exact ⟨rfl, Updater.hearAll_deeds _ _⟩

theorem exchange_deeds {answer : Except Error Response}
    (h : upon (exchange w r) u = (answer, u')) : u'.deeds = u.deeds ++ [.sent r] := by
  have hdeeds := (upon_exchange w r u).2
  rwa [h] at hdeeds

theorem answer_of_exchange {response : Response} (h : upon (exchange w r) u = (.ok response, u')) :
    (w.exchange r u.world).answer = .ok response := by
  have hanswer := (upon_exchange w r u).1
  rw [h] at hanswer
  cases hworld : (w.exchange r u.world).answer with
  | error fault =>
    rw [hworld] at hanswer
    cases hanswer
  | ok given =>
    rw [hworld] at hanswer
    cases hanswer
    rfl

/-- Once a chain was followed up to `r'`, only that is still to be sent. -/
theorem Leads.deeds (h : Leads w r u hops r' u') :
    u'.deeds ++ [.sent r'] = u.deeds ++ sentTo r (r.url :: hops) := by
  induction h with
  | here => rfl
  | @hop r u u₁ response next hops r' u' asked moved rest ih =>
    rw [ih, exchange_deeds asked, List.append_assoc]
    rfl

/-- Where a chain goes on, an answer said so. -/
theorem Leads.split {back : List Url} (h : Leads w r u (front ++ bad :: back) r' u') :
    ∃ q x response x', Leads w r u front q x ∧ upon (exchange w q) x = (.ok response, x') ∧
      response.target? q.url = some bad := by
  induction front generalizing r u with
  | nil =>
    cases h with
    | @hop _ _ u₁ response _ _ _ _ asked moved rest =>
      exact ⟨r, u, response, u₁, .here, asked, moved⟩
  | cons next front ih =>
    cases h with
    | hop asked moved rest =>
      obtain ⟨q, x, response, x', hfront, hasked, hmoved⟩ := ih rest
      exact ⟨q, x, response, x', .hop asked moved hfront, hasked, hmoved⟩

/-! ### Following -/

theorem upon_follow_error {e : Error} (hasked : upon (exchange w r) u = (.error e, u')) :
    upon (follow w mostHops room previous r) u = (.error e, u') := by
  rw [follow, Work.upon_bind_of_error hasked]

theorem upon_follow_end {response : Response}
    (hasked : upon (exchange w r) u = (.ok response, u')) (hlast : response.target? r.url = none) :
    upon (follow w mostHops room previous r) u = (.ok response, u') := by
  rw [follow, Work.upon_bind_of_ok hasked, hlast]
  rfl

/-- A hop with a fault is not taken. -/
theorem upon_follow_fault {response : Response} {fault : Error}
    (hasked : upon (exchange w r) u = (.ok response, u'))
    (hmoved : response.target? r.url = some next)
    (hfault : hopFault? mostHops (previous ++ [r.url]) next = some fault) :
    upon (follow w mostHops room previous r) u = (.error fault, u') := by
  rw [follow, Work.upon_bind_of_ok hasked, hmoved]
  dsimp only
  rw [hfault]
  rfl

/-- A hop that is taken leaves room for the next ones. -/
theorem upon_follow_hop {response : Response}
    (hasked : upon (exchange w r) u = (.ok response, u'))
    (hmoved : response.target? r.url = some next)
    (hfree : hopFault? mostHops (previous ++ [r.url]) next = none)
    (hroom : previous.length + room = mostHops) :
    ∃ left, (previous ++ [r.url]).length + left = mostHops ∧
      upon (follow w mostHops room previous r) u =
        upon (follow w mostHops left (previous ++ [r.url]) { r with url := next }) u' := by
  have hshort := (hopFault?_eq_none.mp hfree).1
  rw [List.length_append, List.length_singleton] at hshort ⊢
  cases room with
  | zero => omega
  | succ left =>
    refine ⟨left, by omega, ?_⟩
    rw [follow, Work.upon_bind_of_ok hasked, hmoved]
    dsimp only
    rw [hfree]

/-- A chain without a fault is gone along. -/
theorem Leads.along (h : Leads w r u hops r' u') (previous : List Url)
    (hfree : Followed mostHops (previous ++ [r.url]) hops)
    (hroom : previous.length + room = mostHops) :
    ∃ before left, before ++ [r'.url] = previous ++ r.url :: hops ∧
      upon (follow w mostHops room previous r) u = upon (follow w mostHops left before r') u' := by
  induction h generalizing previous room with
  | here => exact ⟨previous, room, rfl, rfl⟩
  | @hop r u u₁ response next hops r' u' asked moved rest ih =>
    obtain ⟨left, hleft, hgoes⟩ := upon_follow_hop asked moved hfree.1 hroom
    obtain ⟨before, left', hbefore, hupon⟩ := ih _ hfree.2 hleft
    refine ⟨before, left', ?_, hgoes.trans hupon⟩
    rw [hbefore, List.append_assoc, List.singleton_append]

/-- A chain without a fault is followed to its end, and what is answered there counts. -/
theorem Leads.to_end (h : Leads w r u hops r' u') (hfree : Followed mostHops [r.url] hops)
    {answer : Except Error Response} {last : Updater σ}
    (hasked : upon (exchange w r') u' = (answer, last))
    (hend : ∀ response, answer = .ok response → response.target? r'.url = none) :
    upon (follow w mostHops mostHops [] r) u = (answer, last) ∧
      last.deeds = u.deeds ++ sentTo r (r.url :: hops) := by
  obtain ⟨before, left, -, hupon⟩ := h.along [] hfree (Nat.zero_add mostHops)
  refine ⟨hupon.trans ?_, (exchange_deeds hasked).trans h.deeds⟩
  cases answer with
  | error e => exact upon_follow_error hasked
  | ok response => exact upon_follow_end hasked (hend response rfl)

/-- Any other chain is followed up to its first hop that has a fault, and that is not taken. -/
theorem Leads.to_fault (h : Leads w r u hops r' u') (hfree : ¬Followed mostHops [r.url] hops) :
    ∃ front bad back fault, hops = front ++ bad :: back ∧ Followed mostHops [r.url] front ∧
      hopFault? mostHops (r.url :: front) bad = some fault ∧
      (upon (follow w mostHops mostHops [] r) u).1 = .error fault ∧
      (upon (follow w mostHops mostHops [] r) u).2.deeds =
        u.deeds ++ sentTo r (r.url :: front) := by
  obtain ⟨front, bad, back, fault, rfl, hfront, hfault⟩ := exists_fault hfree
  obtain ⟨q, x, response, x', hled, hasked, hmoved⟩ := h.split
  obtain ⟨before, left, hbefore, hupon⟩ :=
    hled.along [] hfront (Nat.zero_add mostHops)
  have hstop : upon (follow w mostHops left before q) x = (.error fault, x') :=
    upon_follow_fault hasked hmoved (by rw [hbefore]; exact hfault)
  refine ⟨front, bad, back, fault, rfl, hfront, hfault, ?_, ?_⟩
  · rw [hupon, hstop]
  · rw [hupon, hstop]
    exact (exchange_deeds hasked).trans hled.deeds

/-- Whatever the world answers, the request is sent along a chain that is followed, and just once
if nothing sends it on. -/
theorem follow_sent (w : World σ) (previous : List Url) (r : Request) (u : Updater σ)
    (hroom : previous.length + room = mostHops) :
    ∃ hops, (upon (follow w mostHops room previous r) u).2.deeds =
        u.deeds ++ sentTo r (r.url :: hops) ∧
      Followed mostHops (previous ++ [r.url]) hops ∧
      ((∀ x response, (w.exchange r x).answer = .ok response → response.target? r.url = none) →
        hops = []) := by
  induction room using Nat.strongRecOn generalizing previous r u with
  | ind room ih =>
    cases hasked : upon (exchange w r) u with
    | mk answer u₁ =>
      have hdeeds := exchange_deeds hasked
      cases answer with
      | error e => exact ⟨[], by rw [upon_follow_error hasked]; exact hdeeds, trivial, fun _ => rfl⟩
      | ok response =>
        cases hmoved : response.target? r.url with
        | none =>
          exact ⟨[], by rw [upon_follow_end hasked hmoved]; exact hdeeds, trivial, fun _ => rfl⟩
        | some next =>
          have hredirected : ¬∀ x response, (w.exchange r x).answer = .ok response →
              response.target? r.url = none := fun h => by
            rw [h _ _ (answer_of_exchange hasked)] at hmoved
            cases hmoved
          cases hfault : hopFault? mostHops (previous ++ [r.url]) next with
          | some fault =>
            exact ⟨[], by rw [upon_follow_fault hasked hmoved hfault]; exact hdeeds, trivial,
              fun _ => rfl⟩
          | none =>
            obtain ⟨left, hleft, hgoes⟩ := upon_follow_hop hasked hmoved hfault hroom
            have hless : left < room := by
              rw [List.length_append, List.length_singleton] at hleft
              omega
            obtain ⟨hops, hsent, hfollowed, -⟩ := ih left hless _ { r with url := next } u₁ hleft
            refine ⟨next :: hops, ?_, ⟨hfault, hfollowed⟩, fun h => absurd h hredirected⟩
            rw [hgoes, hsent, hdeeds, List.append_assoc]
            rfl

end Sinkhole.Fetch
