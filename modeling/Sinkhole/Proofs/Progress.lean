import Mathlib.Logic.Relation
import Mathlib.Order.Nat
import Mathlib.Data.List.Basic
import Sinkhole.Progress.Shared

/-! What the watchers of a shared meter see.

No request lowers a percentage, and neither does a snapshot, so in the order they were
taken snapshots never go back (`Orderly`). They need not be sent in that order: the
watchers see percentages go back exactly where a snapshot is sent after one that was
taken later and shows other percentages (`sent_rising_iff`). That cannot be as long as
there is never more than one snapshot on its way (`sent_rising`). -/
namespace Sinkhole

/-- What a snapshot says about how far the run has come: check, download, parse, overall. -/
def Snapshot.percents (s : Snapshot) : Nat × Nat × Nat × Nat :=
  (s.check.shown, s.download.shown, s.parse.shown, s.overallPercent)

namespace Progress

/-! ### Percentages of the meter -/

/-- What a request writes is no percentage. -/
theorem Request.write_percents (r : Request) (p : Progress) :
    (r.write p).now.percents = p.now.percents := by
  cases r with
  | setTotal phase total => cases phase <;> rfl
  | complete phase => cases phase <;> rfl
  | _ => rfl

/-- A request that has only written has no snapshot in hand. -/
theorem Request.rest_ne_holding (r : Request) (before : Nat) (s : Snapshot) :
    r.rest ≠ .holding before s := by
  cases r <;> exact Worker.noConfusion

/-- A request is what it writes, and the snapshot that comes with it. -/
theorem Request.carryOut_eq (r : Request) (p : Progress) :
    r.carryOut p = match r.rest with
      | .publishing => (r.write p).publish
      | .looking => (r.write p).snapshot
      | _ => r.write p := by
  cases r <;> rfl

/-- A snapshot shows no less than was shown before. -/
theorem percents_le_snapshot (p : Progress) : p.now.percents ≤ p.snapshot.now.percents :=
  ⟨Nat.le_max_left .., Nat.le_max_left .., Nat.le_max_left .., Nat.le_max_left ..⟩

namespace Board

variable {ι : Type}

/-! ### Snapshots in the order they were taken -/

/-- What holds of the snapshots at any moment. -/
structure Orderly (b : Board ι) : Prop where
  rising : b.taken.Pairwise (·.percents ≤ ·.percents)
  below : ∀ s ∈ b.taken, s.percents ≤ b.meter.now.percents
  held : ∀ i before s, b.workers i = .holding before s → b.taken[before]? = some s
  sent : ∀ m ∈ b.sent, b.taken[m.1]? = some m.2

theorem getElem?_append_of_some {α : Type} {xs : List α} {n : Nat} {a : α} (h : xs[n]? = some a)
    (ys : List α) : (xs ++ ys)[n]? = some a := by
  rw [List.getElem?_append_left (List.getElem?_eq_some_iff.mp h).1, h]

theorem orderly_start (ι : Type) (meter : Progress) : (start ι meter).Orderly where
  rising := .nil
  below := fun _ hs => absurd hs List.not_mem_nil
  held := fun _ _ _ h => nomatch h
  sent := fun _ hm => absurd hm List.not_mem_nil

namespace Orderly

variable {b : Board ι} (h : b.Orderly)

include h

theorem rising_snapshot :
    (b.taken ++ [b.meter.snapshot.now]).Pairwise (·.percents ≤ ·.percents) := by
  refine List.pairwise_append.mpr ⟨h.rising, List.pairwise_singleton .., fun s hs t ht => ?_⟩
  rw [List.mem_singleton.mp ht]
  exact (h.below s hs).trans (percents_le_snapshot b.meter)

theorem below_snapshot {s : Snapshot} (hs : s ∈ b.taken ++ [b.meter.snapshot.now]) :
    s.percents ≤ b.meter.snapshot.now.percents := by
  rcases List.mem_append.mp hs with hold | hnew
  · exact (h.below s hold).trans (percents_le_snapshot b.meter)
  · rw [List.mem_singleton.mp hnew]

/-- A snapshot that was taken no later shows no more. -/
theorem percents_le {m m' : Nat × Snapshot} (hm : m ∈ b.sent) (hm' : m' ∈ b.sent)
    (hle : m.1 ≤ m'.1) : m.2.percents ≤ m'.2.percents := by
  obtain ⟨hlt, hs⟩ := List.getElem?_eq_some_iff.mp (h.sent m hm)
  obtain ⟨hlt', hs'⟩ := List.getElem?_eq_some_iff.mp (h.sent m' hm')
  rw [← hs, ← hs']
  rcases Nat.lt_or_eq_of_le hle with hbefore | hsame
  · exact List.pairwise_iff_getElem.mp h.rising _ _ hlt hlt' hbefore
  · simp only [hsame]
    exact le_refl _

theorem sent_lt {m : Nat × Snapshot} (hm : m ∈ b.sent) : m.1 < b.taken.length :=
  (List.getElem?_eq_some_iff.mp (h.sent m hm)).1

end Orderly

/-! ### Steps -/

variable [DecidableEq ι] {b b' : Board ι} {meter : Progress}

/-- Nobody has a snapshot in hand but those who had it, and the one who just took it. -/
theorem held_update {i j : ι} {w : Worker} {before : Nat} {s : Snapshot}
    (h : Function.update b.workers i w j = .holding before s) :
    w = .holding before s ∨ j ≠ i ∧ b.workers j = .holding before s := by
  by_cases hj : j = i
  · subst hj
    rw [Function.update_self] at h
    exact .inl h
  · rw [Function.update_of_ne hj] at h
    exact .inr ⟨hj, h⟩

theorem Orderly.step (h : b.Orderly) (hstep : Step b b') : b'.Orderly := by
  cases hstep with
  | write i r =>
    refine ⟨h.rising, fun s hs => ?_, fun j before s hj => ?_, h.sent⟩
    · rw [r.write_percents]
      exact h.below s hs
    · exact h.held j before s ((held_update hj).resolve_left (r.rest_ne_holding before s)).2
  | look i =>
    refine ⟨h.rising_snapshot, fun s => h.below_snapshot, fun j before s hj => ?_, fun m hm => ?_⟩
    · have hold := ((held_update hj).resolve_left Worker.noConfusion).2
      exact getElem?_append_of_some (h.held j before s hold) _
    · exact getElem?_append_of_some (h.sent m hm) _
  | take i =>
    refine ⟨h.rising_snapshot, fun s => h.below_snapshot, fun j before s hj => ?_, fun m hm => ?_⟩
    · rcases held_update hj with hnew | ⟨-, hold⟩
      · cases hnew
        exact List.getElem?_concat_length
      · exact getElem?_append_of_some (h.held j before s hold) _
    · exact getElem?_append_of_some (h.sent m hm) _
  | send i holding =>
    refine ⟨h.rising, h.below, fun j before s hj => ?_, fun m hm => ?_⟩
    · exact h.held j before s ((held_update hj).resolve_left Worker.noConfusion).2
    · rcases List.mem_append.mp hm with hold | hnew
      · exact h.sent m hold
      · rw [List.mem_singleton.mp hnew]
        exact h.held i _ _ holding

/-- Boards that come of one by any number of steps, whoever takes them. -/
abbrev Reaches (b b' : Board ι) : Prop := Relation.ReflTransGen Step b b'

theorem Orderly.reaches (h : b.Orderly) (hreach : Reaches b b') : b'.Orderly := by
  induction hreach with
  | refl => exact h
  | tail _ hstep ih => exact ih.step hstep

/-- What a worker does while the others wait comes to its request as one step. -/
theorem reaches_carryOut (i : ι) (r : Request) (hidle : b.workers i = .idle) :
    ∃ b', Reaches b b' ∧ b'.meter = r.carryOut b.meter ∧ b'.workers = b.workers := by
  have hback : ∀ w, Function.update (Function.update b.workers i w) i .idle = b.workers := by
    intro w
    rw [Function.update_idem, ← hidle, Function.update_eq_self]
  have hat : ∀ w, Function.update b.workers i w i = w := fun w => Function.update_self ..
  have hwrite := Step.write i r hidle
  rw [r.carryOut_eq]
  cases hrest : r.rest with
  | idle =>
    refine ⟨_, .single hwrite, rfl, ?_⟩
    rw [hrest, ← hidle]
    exact Function.update_eq_self ..
  | looking =>
    exact ⟨_, .tail (.single hwrite) (.look i ((hat _).trans hrest)), rfl, hback _⟩
  | publishing =>
    have htake := Step.take (b := { b with
      meter := r.write b.meter, workers := Function.update b.workers i r.rest })
      i ((hat _).trans hrest)
    refine ⟨_, .tail (.tail (.single hwrite) htake) (.send i (Function.update_self ..)), rfl, ?_⟩
    show Function.update (Function.update (Function.update b.workers i _) i _) i _ = _
    rw [Function.update_idem, hback]
  | holding before s => exact absurd hrest (r.rest_ne_holding before s)

/-! ### What is sent -/

/-- **Snapshots are taken in rising order, and watchers see them rise exactly if none is
overtaken** by one that was taken later and shows other percentages. -/
theorem sent_rising_iff (hreach : Reaches (start ι meter) b) :
    b.taken.Pairwise (·.percents ≤ ·.percents) ∧
      (b.sent.Pairwise (fun m m' => m.2.percents ≤ m'.2.percents) ↔
        b.sent.Pairwise fun m m' => m'.1 < m.1 → m'.2.percents = m.2.percents) := by
  have h := (orderly_start ι meter).reaches hreach
  refine ⟨h.rising, fun hrising => ?_, fun hsame => ?_⟩
  · refine hrising.imp_of_mem fun hm hm' hle hlater => ?_
    exact le_antisymm (h.percents_le hm' hm (Nat.le_of_lt hlater)) hle
  · refine hsame.imp_of_mem fun {m m'} hm hm' hovertaken => ?_
    rcases Nat.lt_or_ge m'.1 m.1 with hlater | hle
    · exact le_of_eq (hovertaken hlater).symm
    · exact h.percents_le hm hm' hle

/-- Downloads of which there are two. -/
def pair : Progress := (Progress.begin {} none).setTotal .download 2

/-- The worker that comes second to take a snapshot is the first to send it. -/
theorem overtaking : ∃ b, Reaches (start Bool pair) b ∧
    b.sent.map (fun m => (m.1, m.2.download.shown)) = [(1, 100), (0, 50)] :=
  ⟨_,
    .head (.write true (.complete .download) rfl) <|
    .head (.take true rfl) <|
    .head (.write false (.complete .download) rfl) <|
    .head (.take false rfl) <|
    .head (.send false rfl) <|
    .single (.send true rfl),
    rfl⟩

/-- Two workers complete a download each, and one overtakes the other. -/
theorem sent_rising_iff_overtaking : ∃ b, Reaches (start Bool pair) b ∧
    b.sent.map (fun m => (m.1, m.2.download.shown)) = [(1, 100), (0, 50)] ∧
    b.taken.Pairwise (·.percents ≤ ·.percents) ∧
    (b.sent.Pairwise (fun m m' => m.2.percents ≤ m'.2.percents) ↔
      b.sent.Pairwise fun m m' => m'.1 < m.1 → m'.2.percents = m.2.percents) := by
  obtain ⟨b, hreach, hsent⟩ := overtaking
  exact ⟨b, hreach, hsent, sent_rising_iff hreach⟩

/-- Watchers may see percentages go back, from 100 to 50. -/
theorem exists_sent_back : ∃ b, Reaches (start Bool pair) b ∧
    ¬b.sent.Pairwise fun m m' => m.2.percents ≤ m'.2.percents := by
  obtain ⟨b, hreach, hsent⟩ := overtaking
  refine ⟨b, hreach, fun hrising => ?_⟩
  have hdownloads : (b.sent.map fun m => (m.1, m.2.download.shown)).Pairwise (·.2 ≤ ·.2) :=
    List.pairwise_map.mpr (hrising.imp fun hle => hle.2.1)
  rw [hsent] at hdownloads
  exact absurd hdownloads (by decide)

/-! ### One snapshot at a time -/

/-- No two workers have a snapshot in hand. -/
def Single (b : Board ι) : Prop :=
  ∀ i j before s before' s',
    b.workers i = .holding before s → b.workers j = .holding before' s' → i = j

/-- Snapshots are sent in the order they were taken, and the one on its way comes next. -/
structure InTurn (b : Board ι) : Prop extends b.Orderly where
  turns : b.sent.Pairwise (·.1 < ·.1)
  next : ∀ i before s, b.workers i = .holding before s → ∀ m ∈ b.sent, m.1 < before

theorem InTurn.step (h : b.InTurn) (hsingle : b.Single) (hstep : Step b b') : b'.InTurn := by
  refine ⟨h.toOrderly.step hstep, ?_, ?_⟩
  · cases hstep with
    | send i holding =>
      refine List.pairwise_append.mpr ⟨h.turns, List.pairwise_singleton .., fun m hm m' hm' => ?_⟩
      rw [List.mem_singleton.mp hm']
      exact h.next i _ _ holding m hm
    | write | look | take => exact h.turns
  · cases hstep with
    | write i r =>
      intro j before s hj
      exact h.next j before s ((held_update hj).resolve_left (r.rest_ne_holding before s)).2
    | look i =>
      intro j before s hj
      exact h.next j before s ((held_update hj).resolve_left Worker.noConfusion).2
    | take i =>
      intro j before s hj m hm
      rcases held_update hj with hnew | ⟨-, hold⟩
      · cases hnew
        exact h.sent_lt hm
      · exact h.next j before s hold m hm
    | send i holding =>
      intro j before s hj
      obtain ⟨hne, hold⟩ := (held_update hj).resolve_left Worker.noConfusion
      exact absurd (hsingle j i _ _ _ _ hold holding) hne

/-- **Where there is never more than one snapshot on its way, watchers never see a percentage go
back.** -/
theorem sent_rising
    (hreach : Relation.ReflTransGen (fun b b' => b.Single ∧ Step b b') (start ι meter) b) :
    b.sent.Pairwise fun m m' => m.2.percents ≤ m'.2.percents := by
  have h : b.InTurn := by
    induction hreach with
    | refl => exact ⟨orderly_start ι meter, .nil, fun _ _ _ h => nomatch h⟩
    | tail _ hstep ih => exact ih.step hstep.1 hstep.2
  exact h.turns.imp_of_mem fun hm hm' hlt => h.percents_le hm hm' (Nat.le_of_lt hlt)

end Board

end Progress

end Sinkhole
