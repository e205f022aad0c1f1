import Sinkhole.Order
import Mathlib.Data.List.Perm.Basic

/-! Sorting keeps the elements and puts them in order.

Each fact is about one insertion first. The order is any relation in which of two
elements one may stand before the other and which carries over a third. Elements that
may stand either way are left as they stood. -/
namespace Sinkhole

variable {α : Type} {le : α → α → Bool}

theorem insertBy_perm (x : α) (xs : List α) : (insertBy le x xs).Perm (x :: xs) := by
  induction xs with
  | nil => exact List.Perm.refl _
  | cons y ys ih =>
    rw [insertBy]
    split
    · exact List.Perm.refl _
    · exact (ih.cons y).trans (List.Perm.swap x y ys)

theorem sortBy_perm (xs : List α) : (sortBy le xs).Perm xs := by
  induction xs with
  | nil => exact List.Perm.refl _
  | cons x xs ih => exact (insertBy_perm x (sortBy le xs)).trans (ih.cons x)

@[simp]
theorem mem_sortBy {x : α} {xs : List α} : x ∈ sortBy le xs ↔ x ∈ xs := (sortBy_perm xs).mem_iff

theorem insertBy_pairwise (total : ∀ a b, le a b = true ∨ le b a = true)
    (trans : ∀ a b c, le a b = true → le b c = true → le a c = true) (x : α) {xs : List α}
    (h : xs.Pairwise (le · · = true)) : (insertBy le x xs).Pairwise (le · · = true) := by
  induction xs with
  | nil => exact List.pairwise_singleton _ x
  | cons y ys ih =>
    obtain ⟨hy, hys⟩ := List.pairwise_cons.mp h
    rw [insertBy]
    split
    · rename_i hxy
      refine List.pairwise_cons.mpr ⟨fun z hz => ?_, h⟩
      rcases List.mem_cons.mp hz with rfl | hz
      · exact hxy
      · exact trans x y z hxy (hy z hz)
    · rename_i hxy
      have hyx : le y x = true := (total x y).resolve_left hxy
      refine List.pairwise_cons.mpr ⟨fun z hz => ?_, ih hys⟩
      rcases List.mem_cons.mp ((insertBy_perm x ys).mem_iff.mp hz) with rfl | hz
      · exact hyx
      · exact hy z hz

theorem sortBy_pairwise (total : ∀ a b, le a b = true ∨ le b a = true)
    (trans : ∀ a b c, le a b = true → le b c = true → le a c = true) (xs : List α) :
    (sortBy le xs).Pairwise (le · · = true) := by
  induction xs with
  | nil => exact .nil
  | cons x xs ih => exact insertBy_pairwise total trans x ih

theorem insertBy_filter {p : α → Bool} (hp : ∀ a b, p a = true → p b = true → le a b = true)
    (x : α) (xs : List α) : (insertBy le x xs).filter p = (x :: xs).filter p := by
  induction xs with
  | nil => rfl
  | cons y ys ih =>
    rw [insertBy]
    split
    · rfl
    · rename_i hxy
      cases hx : p x with
      | false => simp [List.filter_cons, ih, hx]
      | true =>
        have hy : p y = false := Bool.eq_false_iff.mpr fun hy => hxy (hp x y hx hy)
        simp [ih, hx, hy]

/-- Elements that may stand either way are in the order they were in. -/
theorem sortBy_filter {p : α → Bool} (hp : ∀ a b, p a = true → p b = true → le a b = true)
    (xs : List α) : (sortBy le xs).filter p = xs.filter p := by
  induction xs with
  | nil => rfl
  | cons x xs ih =>
    show (insertBy le x (sortBy le xs)).filter p = _
    rw [insertBy_filter hp, List.filter_cons, List.filter_cons, ih]

end Sinkhole
