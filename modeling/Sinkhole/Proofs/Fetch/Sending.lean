import Mathlib.Data.Nat.Find
import Sinkhole.Proofs.Fetch.Redirect

/-! How often a request is sent.

A trial of a request is one attempt, from the updater as the trials before it and the wait
after the last of them left it. The first trial that does not fail for a passing reason
counts, or else the last that is allowed (`upon_attemptsFrom`). `send_tries` says so of a
whole sending, and what was done meanwhile: its course is the URLs that each trial asked,
with a wait before each trial but the first. -/
namespace Sinkhole

/-- How long a deed takes. -/
def Deed.waits : Deed → Nat
  | .sent _ => 0
  | .waited millis => millis

/-- The URL that a deed asks, if it asks one. -/
def Deed.url? : Deed → Option Url
  | .sent r => some r.url
  | .waited _ => none

namespace Fetch

open Work (upon)

variable {σ : Type} {w : World σ} {s : Settings} {r : Request} {u : Updater σ}
variable {left retry m : Nat}

/-- The request may be sent again after this answer. -/
def Passing (answer : Except Error Response) : Prop :=
  ∃ e, answer = .error e ∧ e.isTransient = true

/-! ### Waiting -/

theorem backoff_le (base retry : Nat) : backoff base retry ≤ longestWait := Nat.min_le_right _ _

/-- How long is waited in all. -/
def waits : List Deed → Nat
  | [] => 0
  | deed :: deeds => deed.waits + waits deeds

/-- What is done in the trials after the first: a wait each, and the URLs that are asked. -/
def laterCourse (r : Request) (base : Nat) : (retry : Nat) → List (List Url) → List Deed
  | _, [] => []
  | retry, urls :: chains =>
    .waited (backoff base retry) :: sentTo r urls ++ laterCourse r base (retry + 1) chains

/-- What is done in trials that ask these URLs. -/
def course (r : Request) (base : Nat) : List (List Url) → List Deed
  | [] => []
  | urls :: chains => sentTo r urls ++ laterCourse r base 1 chains

theorem waits_append (a b : List Deed) : waits (a ++ b) = waits a + waits b := by
  induction a with
  | nil => exact (Nat.zero_add _).symm
  | cons deed a ih => rw [List.cons_append, waits, ih, waits, Nat.add_assoc]

theorem waits_sentTo (r : Request) (urls : List Url) : waits (sentTo r urls) = 0 := by
  induction urls with
  | nil => rfl
  | cons url urls ih => exact (Nat.zero_add _).trans ih

/-- A minute for each trial but the first is never exceeded. -/
theorem waits_laterCourse (r : Request) (base retry : Nat) (chains : List (List Url)) :
    waits (laterCourse r base retry chains) ≤ chains.length * longestWait := by
  induction chains generalizing retry with
  | nil => exact Nat.zero_le _
  | cons urls chains ih =>
    have hfirst : waits (laterCourse r base retry (urls :: chains)) =
        backoff base retry + waits (laterCourse r base (retry + 1) chains) := by
      rw [laterCourse, List.cons_append, waits, waits_append, waits_sentTo, Nat.zero_add]
      rfl
    have hwait := backoff_le base retry
    have hrest := ih (retry + 1)
    rw [hfirst, List.length_cons, Nat.succ_mul]
    omega

theorem waits_course (r : Request) (base : Nat) (chains : List (List Url)) :
    waits (course r base chains) ≤ (chains.length - 1) * longestWait := by
  cases chains with
  | nil => exact Nat.zero_le _
  | cons urls chains =>
    rw [course, waits_append, waits_sentTo, Nat.zero_add]
    exact waits_laterCourse r base 1 chains

/-! ### One attempt -/

/-- The URLs that an attempt may ask: none if the request cannot be written down, and else its own
and then those that it is redirected to. -/
structure Asked (w : World σ) (s : Settings) (r : Request) (urls : List Url) : Prop where
  none : r.isSendable = false → urls = []
  some : r.isSendable = true →
    ∃ hops, urls = r.url :: hops ∧ Followed s.http.maxRedirects [r.url] hops
  once : r.isSendable = true →
    (∀ x response, (w.exchange r x).answer = .ok response → response.target? r.url = .none) →
    urls = [r.url]

/-- Whether a response is of use is seen after it was followed to. -/
theorem upon_attempt (h : r.isSendable = true) : upon (attempt w s r) u =
    ((upon (follow w s.http.maxRedirects s.http.maxRedirects [] r) u).1.bind fun response =>
        if response.isUsable then .ok response else .error (.http response.status r.url.text),
      (upon (follow w s.http.maxRedirects s.http.maxRedirects [] r) u).2) := by
  rw [attempt, if_pos h, Work.upon_bind]
  cases upon (follow w s.http.maxRedirects s.http.maxRedirects [] r) u with
  | mk answer u' =>
    cases answer with
    | error e => rfl
    | ok response =>
      dsimp only [Except.bind]
      split <;> rfl

theorem attempt_asked (w : World σ) (s : Settings) (r : Request) (u : Updater σ) :
    ∃ urls, (upon (attempt w s r) u).2.deeds = u.deeds ++ sentTo r urls ∧ Asked w s r urls := by
  cases hsendable : r.isSendable with
  | false =>
    refine ⟨[], ?_, fun _ => rfl, by simp [hsendable], by simp [hsendable]⟩
    rw [attempt, hsendable]
    exact (List.append_nil _).symm
  | true =>
    obtain ⟨hops, hsent, hfollowed, honce⟩ :=
      follow_sent w [] r u (Nat.zero_add s.http.maxRedirects)
    refine ⟨r.url :: hops, ?_, by simp [hsendable], fun _ => ⟨hops, rfl, hfollowed⟩,
      fun _ hdirect => by rw [honce hdirect]⟩
    rw [upon_attempt hsendable]
    exact hsent

/-! ### Trials -/

/-- The updater after an attempt and the wait before retry number `retry`. -/
def again (w : World σ) (s : Settings) (r : Request) (retry : Nat) (u : Updater σ) : Updater σ :=
  { (upon (attempt w s r) u).2 with
    deeds := (upon (attempt w s r) u).2.deeds ++ [.waited (backoff s.http.retryDelayMs retry)] }

/-- The updater before the trial after so many more, when retry number `retry` comes next. -/
def before (w : World σ) (s : Settings) (r : Request) : (retry : Nat) → Updater σ → Nat → Updater σ
  | _, u, 0 => u
  | retry, u, m + 1 => before w s r (retry + 1) (again w s r retry u) m

/-- What comes of that trial, and the updater after it. -/
def trial (w : World σ) (s : Settings) (r : Request) (retry : Nat) (u : Updater σ) (m : Nat) :
    Except Error Response × Updater σ :=
  upon (attempt w s r) (before w s r retry u m)

theorem trial_succ :
    trial w s r retry u (m + 1) = trial w s r (retry + 1) (again w s r retry u) m := rfl

theorem upon_attemptsFrom_passing (h : Passing (upon (attempt w s r) u).1) :
    upon (attemptsFrom w s r (left + 1) retry) u =
      upon (attemptsFrom w s r left (retry + 1)) (again w s r retry u) := by
  obtain ⟨e, he, htransient⟩ := h
  rw [attemptsFrom, Work.upon_bind_of_ok (Work.upon_outcome _ u), he]
  dsimp only
  rw [if_pos htransient]
  rfl

theorem upon_attemptsFrom_of_not_passing (h : ¬Passing (upon (attempt w s r) u).1) :
    upon (attemptsFrom w s r left retry) u = upon (attempt w s r) u := by
  cases left with
  | zero => rfl
  | succ left =>
    rw [attemptsFrom, Work.upon_bind_of_ok (Work.upon_outcome _ u)]
    cases hanswer : upon (attempt w s r) u with
    | mk answer u' =>
      rw [hanswer] at h
      cases answer with
      | ok response => rfl
      | error e =>
        dsimp only
        rw [if_neg fun htransient => h ⟨e, rfl, htransient⟩]
        rfl

/-- The first trial counts that does not fail for a passing reason, or else the last one. -/
theorem upon_attemptsFrom (hpassing : ∀ i < m, Passing (trial w s r retry u i).1) (hleft : m ≤ left)
    (hlast : m < left → ¬Passing (trial w s r retry u m).1) :
    upon (attemptsFrom w s r left retry) u = trial w s r retry u m := by
  induction m generalizing left retry u with
  | zero =>
    cases left with
    | zero => rfl
    | succ left => exact upon_attemptsFrom_of_not_passing (hlast (Nat.succ_pos left))
  | succ m ih =>
    obtain ⟨left, rfl⟩ : ∃ k, left = k + 1 := ⟨left - 1, by omega⟩
    have hfirst : Passing (upon (attempt w s r) u).1 := hpassing 0 (Nat.succ_pos m)
    rw [upon_attemptsFrom_passing hfirst, trial_succ]
    exact ih (fun i hi => hpassing (i + 1) (Nat.succ_lt_succ hi)) (Nat.le_of_succ_le_succ hleft)
      fun h => hlast (Nat.succ_lt_succ h)

/-- A trial has asked some URLs, and so have those before it, with a wait after each. -/
theorem trial_asked (w : World σ) (s : Settings) (r : Request) (retry : Nat) (u : Updater σ)
    (m : Nat) : ∃ first chains, chains.length = m ∧
      (trial w s r retry u m).2.deeds =
        u.deeds ++ sentTo r first ++ laterCourse r s.http.retryDelayMs retry chains ∧
      ∀ urls ∈ first :: chains, Asked w s r urls := by
  obtain ⟨first, hfirst, hasked⟩ := attempt_asked w s r u
  induction m generalizing retry u first with
  | zero => exact ⟨first, [], rfl, by rw [laterCourse, List.append_nil]; exact hfirst, by simpa⟩
  | succ m ih =>
    obtain ⟨next, hnext, hnextAsked⟩ := attempt_asked w s r (again w s r retry u)
    obtain ⟨next, chains, hlength, hdeeds, hall⟩ :=
      ih (retry + 1) (again w s r retry u) next hnext hnextAsked
    refine ⟨first, next :: chains, congrArg (· + 1) hlength, ?_, ?_⟩
    · rw [trial_succ, hdeeds, again, hfirst, laterCourse]
      simp only [List.append_assoc, List.cons_append, List.nil_append]
    · exact List.forall_mem_cons.mpr ⟨hasked, hall⟩

/-! ### Whole sendings -/

theorem attempts_pos (configured : Nat) : 0 < attempts configured := by
  simp only [attempts, mostAttempts]
  omega

/-- The number of the last trial, and that it counts. -/
theorem exists_last (w : World σ) (s : Settings) (r : Request) (u : Updater σ) :
    ∃ m < attempts s.http.maxRetries, (∀ i < m, Passing (trial w s r 1 u i).1) ∧
      (m + 1 < attempts s.http.maxRetries → ¬Passing (trial w s r 1 u m).1) := by
  have hpos := attempts_pos s.http.maxRetries
  have hend : ∃ m, m + 1 = attempts s.http.maxRetries ∨ ¬Passing (trial w s r 1 u m).1 :=
    ⟨attempts s.http.maxRetries - 1, .inl (by omega)⟩
  classical
  refine ⟨Nat.find hend, ?_, fun i hi => ?_, fun hm => ?_⟩
  · have hle := Nat.find_min' hend (m := attempts s.http.maxRetries - 1) (.inl (by omega))
    omega
  · by_contra h
    exact Nat.find_min hend hi (.inr h)
  · rcases Nat.find_spec hend with h | h
    · omega
    · exact h

/-- A sending is trials up to the one that counts. -/
theorem send_trial (w : World σ) (s : Settings) (r : Request) (u : Updater σ) :
    ∃ first chains, (chains.length < attempts s.http.maxRetries ∧
        (∀ i < chains.length, Passing (trial w s r 1 u i).1) ∧
        (chains.length + 1 < attempts s.http.maxRetries →
          ¬Passing (trial w s r 1 u chains.length).1)) ∧
      upon (send w s r) u = trial w s r 1 u chains.length ∧
      (upon (send w s r) u).2.deeds =
        u.deeds ++ course r s.http.retryDelayMs (first :: chains) ∧
      ∀ urls ∈ first :: chains, Asked w s r urls := by
  obtain ⟨m, hm, hpassing, hlast⟩ := exists_last w s r u
  obtain ⟨first, chains, rfl, hdeeds, hall⟩ := trial_asked w s r 1 u m
  have hsend : upon (send w s r) u = trial w s r 1 u chains.length :=
    upon_attemptsFrom hpassing (by omega) fun h => hlast (by omega)
  refine ⟨first, chains, ⟨hm, hpassing, hlast⟩, hsend, ?_, hall⟩
  rw [hsend, hdeeds, course, List.append_assoc]

/-- **How often a request is sent, how long is waited in between, and what comes of it.** If trial
number `k`, counted from 0, is the first that does not fail for a passing reason, there are
`k + 1` of them, or as many as are allowed if these are fewer; the last one counts. -/
theorem send_tries (w : World σ) (s : Settings) (r : Request) (u : Updater σ) :
    ∃ chains : List (List Url),
      (∀ k, (∀ i < k, Passing (trial w s r 1 u i).1) → ¬Passing (trial w s r 1 u k).1 →
        chains.length = min (k + 1) (attempts s.http.maxRetries)) ∧
      ((∀ i, Passing (trial w s r 1 u i).1) → chains.length = attempts s.http.maxRetries) ∧
      upon (send w s r) u = trial w s r 1 u (chains.length - 1) ∧
      (upon (send w s r) u).2.deeds = u.deeds ++ course r s.http.retryDelayMs chains ∧
      (∀ urls ∈ chains, Asked w s r urls) ∧
      waits (course r s.http.retryDelayMs chains) ≤
        (attempts s.http.maxRetries - 1) * longestWait := by
  obtain ⟨first, chains, ⟨hm, hpassing, hlast⟩, hsend, hdeeds, hall⟩ := send_trial w s r u
  refine ⟨first :: chains, fun k hk hfirst => ?_, fun hevery => ?_, hsend, hdeeds, hall, ?_⟩
  · have hle : chains.length ≤ k := Nat.le_of_not_lt fun h => hfirst (hpassing k h)
    rw [List.length_cons]
    rcases Nat.lt_or_eq_of_le hle with hless | rfl
    · have hspent : ¬(chains.length + 1 < attempts s.http.maxRetries) :=
        fun h => hlast h (hk _ hless)
      omega
    · omega
  · have hspent : ¬(chains.length + 1 < attempts s.http.maxRetries) :=
      fun h => hlast h (hevery _)
    rw [List.length_cons]
    omega
  · refine Nat.le_trans (waits_course r _ _) (Nat.mul_le_mul_right _ ?_)
    rw [List.length_cons]
    omega

end Fetch

end Sinkhole
