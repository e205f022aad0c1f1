import Mathlib.Algebra.Group.Nat.Defs
import Sinkhole.Text.Decimal

/-! Whole numbers, written and read back.

A text of digits is read as the number that they spell, and zeros before them change
nothing (`natural?_padded`). A number that fits has as many digits as it is padded to. -/
namespace Sinkhole.Text

variable {cs : List Char} {width n : Nat}

theorem foldl_digits (h : ∀ c ∈ cs, c.isDigit = true) (value : Nat) :
    cs.foldl (fun value c => do return (← value) * 10 + (← digit? c)) (some value) =
      some (Nat.ofDigitChars 10 cs value) := by
  induction cs generalizing value with
  | nil => rfl
  | cons c cs ih =>
    obtain ⟨hc, hcs⟩ := List.forall_mem_cons.mp h
    have hdigit : digit? c = some (c.toNat - 48) := if_pos hc
    rw [List.foldl_cons, Nat.ofDigitChars_cons, Nat.mul_comm 10 value, hdigit]
    exact ih hcs _

theorem natural?_digits (hne : cs ≠ []) (h : ∀ c ∈ cs, c.isDigit = true) :
    natural? cs = some (Nat.ofDigitChars 10 cs 0) := by
  rw [natural?, if_neg (by simpa using hne), foldl_digits h]

/-! ### Padding -/

theorem toList_padded (width n : Nat) : (padded width n).toList =
    List.replicate (width - (Nat.toDigits 10 n).length) '0' ++ Nat.toDigits 10 n := by
  rw [padded, padStart, repeated, Nat.toString_eq_ofList_toDigits, String.toList_append,
    String.length_ofList, String.toList_ofList, String.toList_ofList]

theorem padded_ne_nil (width n : Nat) : (padded width n).toList ≠ [] := by
  rw [toList_padded]
  exact List.append_ne_nil_of_right_ne_nil _ Nat.toDigits_ne_nil

theorem isDigit_padded : ∀ c ∈ (padded width n).toList, c.isDigit = true := by
  intro c hc
  rw [toList_padded] at hc
  rcases List.mem_append.mp hc with hzero | hdigit
  · rw [List.eq_of_mem_replicate hzero]
    rfl
  · exact Nat.isDigit_of_mem_toDigits (by omega) (by omega) hdigit

theorem length_padded (hwidth : 0 < width) (hn : n < 10 ^ width) :
    (padded width n).toList.length = width := by
  have hdigits := (Nat.length_toDigits_le_iff (by omega) hwidth).mpr hn
  rw [toList_padded, List.length_append, List.length_replicate]
  omega

/-- **A padded number is read back.** -/
theorem natural?_padded (width n : Nat) : natural? (padded width n).toList = some n := by
  rw [natural?_digits (padded_ne_nil width n) isDigit_padded, toList_padded,
    Nat.ofDigitChars_append, Nat.ofDigitChars_replicate_zero, Nat.mul_zero,
    Nat.ofDigitChars_ten_toDigits]

end Sinkhole.Text
