import Sinkhole.Store.Items
import Mathlib.Data.List.Basic

/-! What the steps on items leave alone.

A step on items is told by the items it may touch: `ChangesOnly p` relates two stores
that are the same but for items that `p` takes. Such steps compose, and what is read
of the items outside `p` is read the same before and after. For the steps that move
items between generations, what they put into place is stated as well. -/
namespace Sinkhole

/-- Filtering first by less is filtering by more. -/
theorem filter_filter_of_imp {α : Type} {p q : α → Bool} (h : ∀ a, p a = true → q a = true)
    (xs : List α) : (xs.filter q).filter p = xs.filter p := by
  rw [List.filter_filter]
  refine List.filter_congr fun a _ => ?_
  cases hp : p a
  · rfl
  · rw [h a hp]
    rfl

theorem filter_filter_eq_nil {α : Type} {p q : α → Bool} (h : ∀ a, p a = true → q a = false)
    (xs : List α) : (xs.filter q).filter p = [] := by
  rw [List.filter_filter, List.filter_eq_nil_iff]
  intro a _ hpq
  rw [Bool.and_eq_true] at hpq
  rw [h a hpq.1] at hpq
  exact absurd hpq.2 Bool.false_ne_true

namespace Item

theorem isOf_iff {i : Item} {source generation : Int} :
    i.isOf source generation = true ↔ i.source = source ∧ i.generation = generation := by
  simp [isOf]

theorem isOf_ofEntry (source generation : Int) (e : Entry) :
    (ofEntry source generation e).isOf source generation = true :=
  isOf_iff.mpr ⟨rfl, rfl⟩

/-- The item in another generation. -/
def within (generation : Int) (i : Item) : Item := { i with generation }

/-- Items that are the same in one generation differ in nothing but theirs. -/
theorem eq_within {i j : Item} {generation : Int}
    (h : j.within generation = i.within generation) : j = i.within j.generation := by
  have hback := congrArg (within j.generation) h
  exact hback

end Item

namespace Store

/-- The items of one source in all generations. -/
def owned (s : Store) (source : Int) : List Item := s.items.filter (·.source == source)

/-- A source's items of one generation are among all that it has. -/
theorem owned_itemsOf (s : Store) (source generation : Int) :
    (s.owned source).filter (·.isOf source generation) = s.itemsOf source generation :=
  filter_filter_of_imp (fun _ hi => beq_iff_eq.mpr (Item.isOf_iff.mp hi).1) s.items

/-- Where all of a source's items are of one generation, that one has all of them. -/
theorem itemsOf_eq_owned {s : Store} {source generation : Int}
    (h : ∀ i ∈ s.items, i.source = source → i.generation = generation) :
    s.itemsOf source generation = s.owned source := by
  refine List.filter_congr fun i hi => ?_
  by_cases hid : i.source = source
  · simp [Item.isOf, hid, h i hi hid]
  · simp [Item.isOf, hid]

/-- Items are in the generation they are of. -/
theorem itemsOf_within (s : Store) (source generation : Int) :
    (s.itemsOf source generation).map (Item.within generation) = s.itemsOf source generation := by
  refine (List.map_congr_left fun i hi => ?_).trans (List.map_id _)
  rw [← (Item.isOf_iff.mp (List.mem_filter.mp hi).2).2]
  rfl

/-! ### Stores that differ in some items -/

/-- The same store but for items that `p` takes. -/
structure ChangesOnly (p : Item → Bool) (s s' : Store) : Prop where
  same : s' = { s with items := s'.items }
  others : s'.items.filter (!p ·) = s.items.filter (!p ·)

namespace ChangesOnly

variable {p q : Item → Bool} {s s' s'' : Store}

theorem refl (p : Item → Bool) (s : Store) : ChangesOnly p s s := ⟨rfl, rfl⟩

theorem trans (h : ChangesOnly p s s') (h' : ChangesOnly p s' s'') : ChangesOnly p s s'' := by
  refine ⟨?_, h'.others.trans h.others⟩
  rw [h'.same, h.same]

theorem sources (h : ChangesOnly p s s') : s'.sources = s.sources := by rw [h.same]

theorem knows (h : ChangesOnly p s s') (id : Int) : s'.knows id = s.knows id := by
  rw [Store.knows, Store.knows, h.sources]

theorem active (h : ChangesOnly p s s') : s'.active = s.active := by rw [h.same]

theorem table (h : ChangesOnly p s s') : s'.table = s.table := by rw [h.same]

theorem lastId (h : ChangesOnly p s s') : s'.lastId = s.lastId := by rw [h.same]

/-- Items outside `p` are the same ones in the same order. -/
theorem filter_eq (h : ChangesOnly p s s') (hq : ∀ i, q i = true → p i = false) :
    s'.items.filter q = s.items.filter q := by
  have hpq : ∀ i, q i = true → (!p i) = true := fun i hi => by rw [hq i hi]; rfl
  rw [← filter_filter_of_imp hpq s'.items, h.others, filter_filter_of_imp hpq]

theorem mono (h : ChangesOnly p s s') (hpq : ∀ i, p i = true → q i = true) :
    ChangesOnly q s s' := by
  refine ⟨h.same, h.filter_eq fun i hi => ?_⟩
  cases hp : p i
  · rfl
  · rw [hpq i hp] at hi
    cases hi

theorem eq_of_none (h : ChangesOnly (fun _ => false) s s') : s' = s := by
  have hitems := h.others
  simp only [Bool.not_false, List.filter_true] at hitems
  rw [h.same, hitems]

/-- An item that `p` does not take was there before. -/
theorem mem (h : ChangesOnly p s s') {i : Item} (hi : i ∈ s'.items) (hp : p i = false) :
    i ∈ s.items := by
  have hmem : i ∈ s'.items.filter (!p ·) := by simp [hi, hp]
  rw [h.others] at hmem
  exact List.mem_of_mem_filter hmem

/-- Items of another source or generation than the changed ones. -/
theorem itemsOf_eq {source generation : Int} (h : ChangesOnly p s s')
    (hp : ∀ i, i.isOf source generation = true → p i = false) :
    s'.itemsOf source generation = s.itemsOf source generation :=
  h.filter_eq hp

section

variable {id other generation g : Int}

/-- Items staged for a source are in no other generation. -/
theorem itemsOf_of_staged (h : ChangesOnly (·.isOf id generation) s s') (hg : g ≠ generation) :
    s'.itemsOf other g = s.itemsOf other g := by
  refine h.itemsOf_eq fun i hi => Bool.eq_false_iff.mpr fun hp => hg ?_
  exact (Item.isOf_iff.mp hi).2.symm.trans (Item.isOf_iff.mp hp).2

/-- Items of one generation of a source are items of the source. -/
theorem ofSource (h : ChangesOnly (·.isOf id generation) s s') :
    ChangesOnly (·.source == id) s s' :=
  h.mono fun _ hi => beq_iff_eq.mpr (Item.isOf_iff.mp hi).1

variable (h : ChangesOnly (·.source == id) s s') (hne : other ≠ id)

include h hne

theorem itemsOf_of_ne : s'.itemsOf other g = s.itemsOf other g :=
  h.itemsOf_eq fun i hi => by simp [(Item.isOf_iff.mp hi).1, hne]

theorem owned_of_ne : s'.owned other = s.owned other :=
  h.filter_eq fun i hi => by simp [beq_iff_eq.mp hi, hne]

end

end ChangesOnly

/-! ### Steps on the items of one source -/

variable (s : Store)

theorem clearItems_changes (source generation : Int) :
    ChangesOnly (·.isOf source generation) s (s.clearItems source (some generation)) := by
  refine ⟨rfl, filter_filter_of_imp (fun i hi => ?_) s.items⟩
  simp only [Item.isOf, Bool.not_eq_true', Bool.and_eq_false_iff, beq_eq_false_iff_ne] at hi
  simp only [Option.isNone_some, Bool.false_or, Bool.not_eq_true', Bool.and_eq_false_iff,
    beq_eq_false_iff_ne, ne_eq, Option.some.injEq]
  exact hi.imp_right Ne.symm

theorem clearItems_itemsOf (source generation : Int) :
    (s.clearItems source (some generation)).itemsOf source generation = [] := by
  refine filter_filter_eq_nil (fun i hi => ?_) s.items
  obtain ⟨hs, hg⟩ := Item.isOf_iff.mp hi
  simp [hs, hg]

/-- Clearing all that a source has touches no items of another source. -/
theorem clearAll_changes (source : Int) :
    ChangesOnly (·.source == source) s (s.clearItems source none) :=
  ⟨rfl, filter_filter_of_imp (fun i hi => by simpa using hi) s.items⟩

theorem clearAll_itemsOf (source generation : Int) :
    (s.clearItems source none).itemsOf source generation = [] := by
  refine filter_filter_eq_nil (fun i hi => ?_) s.items
  simp [(Item.isOf_iff.mp hi).1]

theorem insertItems_eq {source generation : Int} {entries : List Entry} {s' : Store}
    (h : s.insertItems source generation entries = .ok s') :
    s' = { s with items := s.items ++ entries.map (Item.ofEntry source generation) } := by
  unfold insertItems at h
  split at h
  · rename_i hempty
    obtain rfl := List.isEmpty_iff.mp hempty
    cases h
    simp
  · split at h
    · cases h
      rfl
    · cases h

/-- Carrying over puts copies into place and touches nothing else. -/
theorem carryForward_changes (source old new : Int) :
    ChangesOnly (·.isOf source new) s (s.carryForward source old new).2 := by
  unfold carryForward
  split
  · exact .refl _ s
  · refine ⟨rfl, ?_⟩
    rw [List.filter_append, filter_filter_of_imp (fun _ hi => hi)]
    have hcopies : ((s.itemsOf source old).map (Item.within new)).filter
        (!Item.isOf · source new) = [] := by
      rw [List.filter_eq_nil_iff]
      intro i hi hn
      obtain ⟨j, hj, rfl⟩ := List.mem_map.mp hi
      have hof := Item.isOf_iff.mp (List.mem_filter.mp hj).2
      have : (Item.within new j).isOf source new = true := Item.isOf_iff.mpr ⟨hof.1, rfl⟩
      rw [this] at hn
      cases hn
    exact (congrArg _ hcopies).trans (List.append_nil _)

theorem carryForward_itemsOf {source old new : Int} (h : old ≠ new) :
    (s.carryForward source old new).2.itemsOf source new =
      (s.itemsOf source old).map (Item.within new) := by
  unfold carryForward
  rw [if_neg h]
  show ((s.items.filter (!·.isOf source new)) ++
    (s.itemsOf source old).map (Item.within new)).filter (·.isOf source new) = _
  rw [List.filter_append, filter_filter_eq_nil (fun i hi => by rw [hi]; rfl), List.nil_append]
  refine List.filter_eq_self.mpr fun i hi => ?_
  obtain ⟨j, hj, rfl⟩ := List.mem_map.mp hi
  exact Item.isOf_iff.mpr ⟨(Item.isOf_iff.mp (List.mem_filter.mp hj).2).1, rfl⟩

/-- What was moved is there as it was staged, and nothing else of the source in the generation. -/
theorem promote_itemsOf {source staged new : Int} (h : staged ≠ new) :
    (s.promote source staged new).2.itemsOf source new =
      (s.itemsOf source staged).map (Item.within new) := by
  have hmoved : ∀ i : Item, i.isOf source new = false →
      (if i.isOf source staged then i.within new else i).isOf source new =
        i.isOf source staged := by
    intro i hi
    by_cases hs : i.isOf source staged = true
    · simp only [hs, if_true]
      exact Item.isOf_iff.mpr ⟨(Item.isOf_iff.mp hs).1, rfl⟩
    · simp only [hs, hi, Bool.false_eq_true, if_false]
  show ((s.items.filter (!·.isOf source new)).map
    fun i => if i.isOf source staged then i.within new else i).filter (·.isOf source new) = _
  rw [List.filter_map, List.filter_filter, itemsOf]
  have hfilter : (s.items.filter fun i =>
      ((·.isOf source new) ∘ fun i : Item => if i.isOf source staged then i.within new else i) i &&
        !i.isOf source new) = s.items.filter (·.isOf source staged) := by
    refine List.filter_congr fun i _ => ?_
    cases hi : i.isOf source new with
    | false => rw [Function.comp, hmoved i hi, Bool.not_false, Bool.and_true]
    | true =>
      rw [Bool.not_true, Bool.and_false]
      refine (Bool.eq_false_iff.mpr fun hs => h ?_).symm
      rw [← (Item.isOf_iff.mp hs).2, (Item.isOf_iff.mp hi).2]
  rw [hfilter]
  refine List.map_congr_left fun i hi => ?_
  rw [if_pos (List.mem_filter.mp hi).2]

/-- What was moved is no longer where it was staged. -/
theorem promote_itemsOf_staged {source staged new : Int} (h : staged ≠ new) :
    (s.promote source staged new).2.itemsOf source staged = [] := by
  refine List.filter_eq_nil_iff.mpr fun i hi => ?_
  obtain ⟨j, -, rfl⟩ := List.mem_map.mp hi
  split
  · intro hof
    exact h (Item.isOf_iff.mp hof).2.symm
  · assumption

/-- Moving touches no items of another source. -/
theorem promote_changes (source staged new : Int) :
    ChangesOnly (·.source == source) s (s.promote source staged new).2 := by
  refine ⟨rfl, ?_⟩
  show ((s.items.filter (!·.isOf source new)).map
    fun i => if i.isOf source staged then i.within new else i).filter (!·.source == source) = _
  rw [List.filter_map]
  have hsource : ((fun i : Item => !i.source == source) ∘
      fun i : Item => if i.isOf source staged then i.within new else i) =
        (!·.source == source) := by
    funext i
    rw [Function.comp]
    split <;> rfl
  rw [hsource, filter_filter_of_imp fun i hi => by
    rw [Bool.not_eq_true', beq_eq_false_iff_ne] at hi
    simp [Item.isOf, hi]]
  refine (List.map_congr_left fun i hi => if_neg fun hs => ?_).trans (List.map_id _)
  simp [(Item.isOf_iff.mp hs).1] at hi

/-- What is moved ends in one generation, and what is not stays where it is. -/
theorem of_mem_promote {source staged new : Int} {i : Item}
    (h : i ∈ (s.promote source staged new).2.items) : i ∈ s.items ∨ i.generation = new := by
  obtain ⟨j, hj, rfl⟩ := List.mem_map.mp h
  split
  · exact .inr rfl
  · exact .inl (List.mem_of_mem_filter hj)

/-! ### Steps on generations -/

/-- Recording what a run learned changes sources only. -/
theorem foldl_updateMetadata_eq (learned : List (Int × Metadata)) :
    learned.foldl (fun s (id, m) => s.updateMetadata id m) s =
      { s with sources := (learned.foldl (fun s (id, m) => s.updateMetadata id m) s).sources } := by
  induction learned generalizing s with
  | nil => rfl
  | cons l learned ih => exact ih (s.updateMetadata l.1 l.2)

theorem commit_eq (target : Int) (learned : List (Int × Metadata)) :
    s.commit target learned =
      { s with active := target, sources := (s.commit target learned).sources } :=
  foldl_updateMetadata_eq { s with active := target } learned

theorem commit_items (target : Int) (learned : List (Int × Metadata)) :
    (s.commit target learned).items = s.items ∧ (s.commit target learned).active = target := by
  rw [commit_eq]
  exact ⟨rfl, rfl⟩

theorem purge_items :
    s.purge.2.items =
      s.items.filter fun i => i.source == Source.userId || i.generation == s.active := rfl

theorem discard_items :
    s.discard.2.items =
      s.items.filter fun i => i.source == Source.userId || decide (i.generation ≤ s.active) := rfl

end Store

end Sinkhole
