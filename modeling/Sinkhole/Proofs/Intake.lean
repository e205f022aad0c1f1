import Sinkhole.Intake
import Sinkhole.Proofs.Store.Items

/-! What taking a list in leaves in the store.

The batches are only a way to write: put together they are the entries, and as the
owner of the items is there, none of them is refused. So an intake that reached the
end of its content has put exactly the entries of that content in place of what the
source had in the generation, and an intake of any kind touches nothing else. -/
namespace Sinkhole.Intake

variable (t : Target)

/-- The items that an intake may write. -/
def Target.owns (i : Item) : Bool := i.isOf t.source t.generation

/-- The entries that the lines of a content are classified as. -/
def listed (r : Reading) : List Entry := (chunks r).filterMap t.classify

/-- The entries that a content comes to when all of it is read. -/
def entriesOf (settings : Settings) (r : Reading) (arrival : Option Arrival) : List Entry :=
  handedOn settings.dedupCap arrival (listed t r)

/-! ### Replacing items -/

/-- Where a source's items in the generation give way to entries, these are what it has there. -/
theorem Target.itemsOf_replaced (s : Store) (entries : List Entry) :
    Store.itemsOf { s with
      items := (s.clearItems t.source (some t.generation)).items ++
        entries.map (Item.ofEntry t.source t.generation) } t.source t.generation =
      entries.map (Item.ofEntry t.source t.generation) := by
  have hcleared := s.clearItems_itemsOf t.source t.generation
  rw [Store.itemsOf] at hcleared
  rw [Store.itemsOf, List.filter_append, hcleared, List.nil_append]
  refine List.filter_eq_self.mpr fun i hi => ?_
  obtain ⟨e, -, rfl⟩ := List.mem_map.mp hi
  exact Item.isOf_ofEntry t.source t.generation e

/-- And nothing else is new. -/
theorem Target.replaced_changes (s : Store) (entries : List Entry) :
    Store.ChangesOnly t.owns s { s with
      items := (s.clearItems t.source (some t.generation)).items ++
        entries.map (Item.ofEntry t.source t.generation) } := by
  have hcleared := s.clearItems_changes t.source t.generation
  refine ⟨rfl, ?_⟩
  rw [List.filter_append]
  refine (congrArg _ (List.filter_eq_nil_iff.mpr fun i hmem => ?_)).trans
    ((List.append_nil _).trans hcleared.others)
  obtain ⟨e, -, rfl⟩ := List.mem_map.mp hmem
  rw [Target.owns, Item.isOf_ofEntry]
  exact Bool.false_ne_true

/-! ### Batches -/

theorem batches_flatten (size : Nat) (pending entries : List Entry) :
    (batches size pending entries).flatten = pending ++ entries := by
  induction entries generalizing pending with
  | nil =>
    rw [batches, List.append_nil]
    split
    · rename_i hempty
      exact (List.isEmpty_iff.mp hempty).symm
    · exact List.append_nil pending
  | cons e entries ih =>
    rw [batches]
    split
    · rw [List.flatten_cons, ih, List.nil_append, List.append_assoc, List.singleton_append]
    · rw [ih, List.append_assoc, List.singleton_append]

/-- Writing on, wherever it stands. -/
theorem writeBatch_ok {w : Written} (batch : List Entry) (hf : w.fault = none)
    (hk : w.store.knows t.source = true) :
    (writeBatch t w batch).fault = none ∧ (writeBatch t w batch).store =
      { w.store with
        items := w.store.items ++ batch.map (Item.ofEntry t.source t.generation) } := by
  rw [writeBatch, hf, Option.isSome_none, if_neg Bool.false_ne_true]
  cases hi : w.store.insertItems t.source t.generation batch with
  | ok store => exact ⟨rfl, w.store.insertItems_eq hi⟩
  | error e =>
    rw [Store.insertItems, hk] at hi
    split at hi <;> cases hi

theorem foldl_writeBatch {w : Written} (bs : List (List Entry)) (hf : w.fault = none)
    (hk : w.store.knows t.source = true) :
    (bs.foldl (writeBatch t) w).fault = none ∧ (bs.foldl (writeBatch t) w).store =
      { w.store with
        items := w.store.items ++ bs.flatten.map (Item.ofEntry t.source t.generation) } := by
  induction bs generalizing w with
  | nil => exact ⟨hf, by simp⟩
  | cons b bs ih =>
    obtain ⟨hf', hs'⟩ := writeBatch_ok t b hf hk
    obtain ⟨hf'', hs''⟩ := ih hf' (by rw [hs']; exact hk)
    refine ⟨hf'', hs''.trans ?_⟩
    rw [hs', List.flatten_cons, List.map_append, List.append_assoc]

/-- A batch that is written adds items of the source in the generation, and one that is refused
adds none. -/
theorem writeBatch_changes (w : Written) (batch : List Entry) :
    Store.ChangesOnly t.owns w.store (writeBatch t w batch).store := by
  rw [writeBatch]
  split
  · exact .refl _ _
  · cases hi : w.store.insertItems t.source t.generation batch with
    | error e => exact .refl _ _
    | ok store =>
      refine ⟨by rw [w.store.insertItems_eq hi], ?_⟩
      rw [w.store.insertItems_eq hi, List.filter_append]
      refine (congrArg _ (List.filter_eq_nil_iff.mpr fun i hmem => ?_)).trans (List.append_nil _)
      obtain ⟨e, -, rfl⟩ := List.mem_map.mp hmem
      rw [Target.owns, Item.isOf_ofEntry]
      exact Bool.false_ne_true

theorem foldl_writeBatch_changes (w : Written) (bs : List (List Entry)) :
    Store.ChangesOnly t.owns w.store (bs.foldl (writeBatch t) w).store := by
  induction bs generalizing w with
  | nil => exact .refl _ _
  | cons b bs ih => exact (writeBatch_changes t w b).trans (ih (writeBatch t w b))

/-- What was counted is what the source has in the generation. -/
theorem writeBatch_counted {w : Written} (batch : List Entry)
    (h : (w.store.itemsOf t.source t.generation).length = w.inserted) :
    ((writeBatch t w batch).store.itemsOf t.source t.generation).length =
      (writeBatch t w batch).inserted := by
  rw [writeBatch]
  split
  · exact h
  · cases hi : w.store.insertItems t.source t.generation batch with
    | error e => exact h
    | ok store =>
      have hnew : (batch.map (Item.ofEntry t.source t.generation)).filter
          (·.isOf t.source t.generation) = batch.map (Item.ofEntry t.source t.generation) := by
        refine List.filter_eq_self.mpr fun i hmem => ?_
        obtain ⟨e, -, rfl⟩ := List.mem_map.mp hmem
        exact Item.isOf_ofEntry t.source t.generation e
      show (store.itemsOf t.source t.generation).length = w.inserted + batch.length
      rw [w.store.insertItems_eq hi, Store.itemsOf, List.filter_append, hnew, List.length_append,
        List.length_map, ← h]
      rfl

theorem foldl_writeBatch_counted {w : Written} (bs : List (List Entry))
    (h : (w.store.itemsOf t.source t.generation).length = w.inserted) :
    ((bs.foldl (writeBatch t) w).store.itemsOf t.source t.generation).length =
      (bs.foldl (writeBatch t) w).inserted := by
  induction bs generalizing w with
  | nil => exact h
  | cons b bs ih => exact ih (writeBatch_counted t b h)

/-- An intake counts the items that its source then has in the generation, however it ends. -/
theorem run_counted (settings : Settings) (halted : Nat → Bool) (r : Reading) (s : Store)
    (arrival : Option Arrival) : (run settings t halted r s arrival).counted =
      ((run settings t halted r s arrival).store.itemsOf t.source t.generation).length := by
  have hcleared := s.clearItems_itemsOf t.source t.generation
  refine (foldl_writeBatch_counted t
    (w := { store := s.clearItems t.source (some t.generation) }) _ ?_).symm
  exact congrArg List.length hcleared

/-- An intake touches nothing but what it replaces, however it ends. -/
theorem run_changes (settings : Settings) (halted : Nat → Bool) (r : Reading) (s : Store)
    (arrival : Option Arrival) :
    Store.ChangesOnly t.owns s (run settings t halted r s arrival).store := by
  have hcleared := s.clearItems_changes t.source t.generation
  exact hcleared.trans
    (foldl_writeBatch_changes t { store := s.clearItems t.source (some t.generation) } _)

/-! ### When reading ends -/

theorem halted_of_haltLine? {halted : Nat → Bool} {lines n : Nat}
    (h : haltLine? halted lines = some n) : halted n = true := List.find?_some h

/-- An ending comes from a stop that was noticed, from a fault, or from the end of the content. -/
theorem deliver_finished {halted : Nat → Bool} {r : Reading} {n : Nat}
    (h : (deliver halted r).2 = .finished n) :
    haltLine? halted (chunks r).length = none ∧ r.fault = none ∧
      (deliver halted r).1 = chunks r := by
  unfold deliver at h ⊢
  dsimp only at h ⊢
  cases hl : haltLine? halted (chunks r).length with
  | some n =>
    rw [hl] at h
    cases h
  | none =>
    rw [hl] at h
    cases hr : r.fault with
    | some reason =>
      rw [hr] at h
      cases h
    | none => exact ⟨rfl, rfl, rfl⟩

/-! ### Whole intakes -/

variable {t} {settings : Settings} {halted : Nat → Bool} {r : Reading} {s : Store}
  {arrival : Option Arrival}

/-- An intake into a store that knows the source: how it ends is how reading ends, and the
items are the ones that were there but for the source's in the generation, and then the entries
of the lines that were handed on. -/
theorem run_eq (settings : Settings) (halted : Nat → Bool) (r : Reading)
    (arrival : Option Arrival) (hk : s.knows t.source = true) :
    (run settings t halted r s arrival).outcome = (match (deliver halted r).2 with
      | .failed reason => .error (.parseFailure t.label reason)
      | .finished lines => .ok ⟨lines, (run settings t halted r s arrival).counted, false⟩
      | .stopped lines => .ok ⟨lines, (run settings t halted r s arrival).counted, true⟩) ∧
    (run settings t halted r s arrival).store = { s with
      items := (s.clearItems t.source (some t.generation)).items ++
        (handedOn settings.dedupCap arrival ((deliver halted r).1.filterMap t.classify)).map
          (Item.ofEntry t.source t.generation) } := by
  obtain ⟨hf, hs⟩ := foldl_writeBatch t
    (w := { store := s.clearItems t.source (some t.generation) })
    (batches (max settings.batchSize 1) [] (handedOn settings.dedupCap arrival
      ((deliver halted r).1.filterMap t.classify))) rfl hk
  rw [batches_flatten, List.nil_append] at hs
  refine ⟨?_, hs⟩
  unfold run
  dsimp only
  rw [hf]
  cases (deliver halted r).2 <;> rfl

theorem run_stopped {outcome : Outcome} (hk : s.knows t.source = true)
    (h : (run settings t halted r s arrival).outcome = .ok outcome) (hs : outcome.stopped = true) :
    ∃ n, haltLine? halted (chunks r).length = some n := by
  rw [(run_eq _ _ _ _ hk).1] at h
  cases hl : haltLine? halted (chunks r).length with
  | some n => exact ⟨n, rfl⟩
  | none =>
    rw [deliver, hl] at h
    cases hr : r.fault with
    | some reason =>
      rw [hr] at h
      cases h
    | none =>
      rw [hr] at h
      cases h
      cases hs

/-- **An intake that read its content to the end** has put the entries of the content in place
of what the source had in the generation; no stop was noticed and reading did not fail. -/
theorem run_finished {outcome : Outcome} (hk : s.knows t.source = true)
    (h : (run settings t halted r s arrival).outcome = .ok outcome) (hs : outcome.stopped = false) :
    haltLine? halted (chunks r).length = none ∧ r.fault = none ∧
      (run settings t halted r s arrival).store.itemsOf t.source t.generation =
        (entriesOf t settings r arrival).map (Item.ofEntry t.source t.generation) := by
  obtain ⟨ho, hstore⟩ := run_eq settings halted r arrival hk
  rw [ho] at h
  cases hend : (deliver halted r).2 with
  | failed reason =>
    rw [hend] at h
    cases h
  | stopped lines =>
    rw [hend] at h
    cases h
    cases hs
  | finished lines =>
    obtain ⟨hl, hr, hall⟩ := deliver_finished hend
    refine ⟨hl, hr, ?_⟩
    rw [hstore, hall]
    exact t.itemsOf_replaced s (entriesOf t settings r arrival)

/-- An intake whose content has no fault and during which no stop is noticed reads to the end. -/
theorem run_unhindered (settings : Settings) (arrival : Option Arrival)
    (hk : s.knows t.source = true)
    (hl : haltLine? halted (chunks r).length = none) (hr : r.fault = none) :
    ∃ outcome, (run settings t halted r s arrival).outcome = .ok outcome ∧
      outcome.stopped = false := by
  refine ⟨⟨(chunks r).length, (run settings t halted r s arrival).counted, false⟩, ?_, rfl⟩
  rw [(run_eq _ _ _ _ hk).1, deliver, hl, hr]

end Sinkhole.Intake
