import Sinkhole.Proofs.Store.Items

/-! Items on their way from one generation to another.

To carry over is to copy a source's items, and to promote is to move them; either way
they take the place of what the source had in the other generation, and all other items
stay as they are. Within one generation there is nowhere to go. Carrying over then does
nothing, but promoting clears the place first, and with it what was to be moved into it.
So promoting puts a source's items into place exactly where the generations differ or
there are none to lose (`items_relocated`). -/
namespace Sinkhole.Store

variable (s : Store) {source old new : Int}

theorem carryForward_self (source generation : Int) :
    (s.carryForward source generation generation).2 = s := by
  rw [carryForward, if_pos rfl]

/-- What is copied is still where it was. -/
theorem carryForward_itemsOf_old (source old new : Int) :
    (s.carryForward source old new).2.itemsOf source old = s.itemsOf source old := by
  by_cases h : old = new
  · rw [h, carryForward_self]
  · refine (s.carryForward_changes source old new).itemsOf_eq fun i hi => ?_
    refine Bool.eq_false_iff.mpr fun hn => h ?_
    exact (Item.isOf_iff.mp hi).2.symm.trans (Item.isOf_iff.mp hn).2

/-- The source has in the new generation what it had in the old one, be it the same. -/
theorem carryForward_replaces (source old new : Int) :
    (s.carryForward source old new).2.itemsOf source new =
      (s.itemsOf source old).map (Item.within new) := by
  by_cases h : old = new
  · rw [h, carryForward_self, itemsOf_within]
  · exact s.carryForward_itemsOf h

/-- Within one generation nothing is left to move. -/
theorem promote_self (source generation : Int) :
    (s.promote source generation generation).2.itemsOf source generation = [] := by
  refine List.filter_eq_nil_iff.mpr fun i hi => ?_
  obtain ⟨j, hj, rfl⟩ := List.mem_map.mp hi
  have hother : j.isOf source generation = false := by
    simpa using (List.mem_filter.mp hj).2
  rw [hother, if_neg Bool.false_ne_true, hother]
  exact Bool.false_ne_true

/-- Nothing of the source is left where it was staged. -/
theorem promote_itemsOf_old (source staged new : Int) :
    (s.promote source staged new).2.itemsOf source staged = [] := by
  by_cases h : staged = new
  · rw [h, promote_self]
  · exact s.promote_itemsOf_staged h

/-- Moving touches the source's items of the two generations alone. -/
theorem promote_changes_between (source staged new : Int) :
    ChangesOnly (fun i => i.isOf source staged || i.isOf source new) s
      (s.promote source staged new).2 := by
  refine ⟨rfl, ?_⟩
  show ((s.items.filter (!·.isOf source new)).map
    fun i => if i.isOf source staged then i.within new else i).filter _ = _
  -- an item that is moved ends in the new generation, so it is of the source there or then
  have hmoved : ((fun i : Item => !(i.isOf source staged || i.isOf source new)) ∘
      fun i : Item => if i.isOf source staged then i.within new else i) =
        fun i => !(i.isOf source staged || i.isOf source new) := by
    funext i
    rw [Function.comp]
    by_cases hs : i.isOf source staged = true
    · have hn : (i.within new).isOf source new = true :=
        Item.isOf_iff.mpr ⟨(Item.isOf_iff.mp hs).1, rfl⟩
      rw [if_pos hs, hn, hs, Bool.or_true, Bool.true_or]
    · rw [if_neg hs]
  rw [List.filter_map, hmoved, filter_filter_of_imp fun i hi => by
    rw [Bool.not_eq_true', Bool.or_eq_false_iff] at hi
    rw [hi.2, Bool.not_false]]
  refine (List.map_congr_left fun i hi => if_neg fun hs => ?_).trans (List.map_id _)
  have hneither := (List.mem_filter.mp hi).2
  rw [hs, Bool.true_or] at hneither
  cases hneither

/-- **Carrying over copies a source's items into another generation, and promoting moves them
there**, in place of what the source had there, with no other item touched. Within one generation
carrying over changes nothing, while promoting loses what there is. -/
theorem items_relocated (s : Store) (source old new : Int) :
    ((s.carryForward source old new).2.itemsOf source new =
        (s.itemsOf source old).map (Item.within new) ∧
      (s.carryForward source old new).2.itemsOf source old = s.itemsOf source old ∧
      ChangesOnly (·.isOf source new) s (s.carryForward source old new).2) ∧
    ((s.promote source old new).2.itemsOf source new =
        (if old = new then [] else (s.itemsOf source old).map (Item.within new)) ∧
      (s.promote source old new).2.itemsOf source old = [] ∧
      ChangesOnly (fun i => i.isOf source old || i.isOf source new) s
        (s.promote source old new).2 ∧
      ((s.promote source old new).2.itemsOf source new =
          (s.itemsOf source old).map (Item.within new) ↔
        old ≠ new ∨ s.itemsOf source old = [])) := by
  have hplace : (s.promote source old new).2.itemsOf source new =
      if old = new then [] else (s.itemsOf source old).map (Item.within new) := by
    split
    · rename_i h
      rw [h, promote_self]
    · exact s.promote_itemsOf ‹_›
  refine ⟨⟨s.carryForward_replaces source old new, s.carryForward_itemsOf_old source old new,
    s.carryForward_changes source old new⟩, hplace, s.promote_itemsOf_old source old new,
    s.promote_changes_between source old new, ?_⟩
  rw [hplace]
  by_cases h : old = new
  · rw [if_pos h, eq_comm, List.map_eq_nil_iff]
    exact ⟨.inr, fun hnone => hnone.resolve_left fun hne => hne h⟩
  · rw [if_neg h]
    exact ⟨fun _ => .inl h, fun _ => rfl⟩

/-- A list with one item in force. -/
def single : Store :=
  { sources := [userSource, { id := 2, label := "Ads", location := "/lists/ads" }]
    lastId := 2
    items := [{ source := 2, generation := 1, host := "ads.test", kind := Kind.blocked.number }]
    table := []
    active := 1 }

/-- Moved to where it is, the item is lost. -/
theorem single_promoted_in_place :
    (single.promote 2 1 1).2.itemsOf 2 1 = [] ∧
      (single.promote 2 1 1).2.itemsOf 2 1 ≠ (single.itemsOf 2 1).map (Item.within 1) := by
  decide

end Sinkhole.Store
