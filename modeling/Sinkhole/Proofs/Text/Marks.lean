import Sinkhole.Text.Blank
import Mathlib.Data.List.Infix

/-! Marks in a text.

A mark is looked for at the front of a text (`after?`), or anywhere, and then its first
place counts (`afterFirst?`, `holds`). No mark comes about where two texts are joined,
if the second begins with a character that is not in the mark (`holds_append`). -/
namespace Sinkhole.Text

variable {mark front cs rest : List Char}

theorem after?_eq_some : after? mark cs = some rest ↔ cs = mark ++ rest := by
  induction mark generalizing cs with
  | nil => simp [after?]
  | cons m mark ih =>
    cases cs with
    | nil => simp [after?]
    | cons c cs =>
      rw [after?]
      by_cases hc : m = c
      · rw [if_pos hc, ih, List.cons_append, List.cons.injEq]
        exact (and_iff_right hc.symm).symm
      · rw [if_neg hc, List.cons_append, List.cons.injEq]
        exact ⟨nofun, fun h => absurd h.1.symm hc⟩

theorem isSome_after? : (after? mark cs).isSome = true ↔ mark <+: cs := by
  rw [Option.isSome_iff_exists]
  exact exists_congr fun rest => after?_eq_some.trans eq_comm

/-- A mark is not found where one of its characters is missing. -/
theorem after?_eq_none {m : Char} (hm : m ∈ mark) (hcs : m ∉ cs) : after? mark cs = none := by
  refine Option.eq_none_iff_forall_ne_some.mpr fun rest h => hcs ?_
  rw [after?_eq_some.mp h]
  exact List.mem_append_left rest hm

/-- What does not begin as the mark does is passed over. -/
theorem afterFirst?_append {m : Char} (hfront : ∀ c ∈ front, c ≠ m) (cs : List Char) :
    afterFirst? (m :: mark) (front ++ cs) = afterFirst? (m :: mark) cs := by
  induction front with
  | nil => rfl
  | cons c front ih =>
    obtain ⟨hc, hfront⟩ := List.forall_mem_cons.mp hfront
    rw [List.cons_append, afterFirst?, after?, if_neg (Ne.symm hc)]
    exact ih hfront

theorem afterFirst?_mark (mark rest : List Char) :
    afterFirst? mark (mark ++ rest) = some rest := by
  have hfound := after?_eq_some.mpr (rfl : mark ++ rest = mark ++ rest)
  cases hcs : mark ++ rest with
  | nil => rwa [hcs] at hfound
  | cons c cs =>
    rw [hcs] at hfound
    rw [afterFirst?, hfound]

theorem holds_iff : holds mark cs = true ↔ mark <:+: cs := by
  rw [holds]
  induction cs with
  | nil => rw [afterFirst?, isSome_after?, List.prefix_nil, List.infix_nil]
  | cons c cs ih =>
    rw [afterFirst?, List.infix_cons_iff, ← isSome_after?, ← ih]
    cases after? mark (c :: cs) <;> simp

/-- A mark that is in neither of two texts is not in both together, if it could not go on into the
second. -/
theorem holds_append (h : ∀ c ∈ rest.head?, c ∉ mark) :
    holds mark (cs ++ rest) = (holds mark cs || holds mark rest) := by
  rw [Bool.eq_iff_iff, Bool.or_eq_true, holds_iff, holds_iff, holds_iff, List.infix_append_iff]
  refine ⟨?_, Or.imp_right .inl⟩
  rintro (hcs | hrest | ⟨first, second, rfl, hfirst, hsecond⟩)
  · exact .inl hcs
  · exact .inr hrest
  · cases second with
    | nil => exact .inl (by rw [List.append_nil]; exact hfirst.isInfix)
    | cons c second =>
      obtain ⟨more, rfl⟩ := hsecond
      exact absurd (List.mem_append_right first List.mem_cons_self) (h c rfl)

/-- Nothing that a text lacks is in a mark that it holds. -/
theorem holds_eq_false {m : Char} (hm : m ∈ mark) (hcs : m ∉ cs) : holds mark cs = false :=
  Bool.eq_false_iff.mpr fun h => hcs ((holds_iff.mp h).mem hm)

/-- What stands before the first mark of one character. -/
theorem takeWhile_mark {m : Char} (hfront : m ∉ front) (rest : List Char) :
    (front ++ m :: rest).takeWhile (· != m) = front := by
  have hinside : ∀ c ∈ front, (c != m) = true := fun c hc =>
    bne_iff_ne.mpr fun hmark => hfront (hmark ▸ hc)
  rw [List.takeWhile_append_of_pos hinside, List.takeWhile_cons_of_neg (by simp), List.append_nil]

end Sinkhole.Text
