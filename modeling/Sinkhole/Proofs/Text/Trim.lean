import Sinkhole.Text.Blank
import Mathlib.Data.List.DropRight

namespace Sinkhole.Text

variable {p : Char → Bool} {cs front back : List Char}

/-! ### Lower case -/

/-- Only the letters from `A` to `Z` change, each to the one 32 places on. -/
theorem toLower_cases (c : Char) : c.toLower = c ∨
    (65 ≤ c.toNat ∧ c.toNat ≤ 90 ∧ c.toLower.toNat = c.toNat + 32) := by
  by_cases h : c.val ≥ 'A'.val ∧ c.val ≤ 'Z'.val
  · have hlow : 65 ≤ c.val.toNat := UInt32.le_iff_toNat_le.mp h.1
    have hhigh : c.val.toNat ≤ 90 := UInt32.le_iff_toNat_le.mp h.2
    have hmoved : (c.val + 32).toNat = c.val.toNat + 32 := by
      rw [UInt32.toNat_add]
      exact Nat.mod_eq_of_lt (show c.val.toNat + 32 < 2 ^ 32 by omega)
    exact .inr ⟨hlow, hhigh, (congrArg Char.toNat (dif_pos h : c.toLower = _)).trans hmoved⟩
  · exact .inl (dif_neg h)

theorem lower_lower (cs : List Char) : lower (lower cs) = lower cs := by
  rw [lower, lower, List.map_map]
  refine List.map_congr_left fun c _ => ?_
  rcases toLower_cases c with h | ⟨hlow, -, h⟩
  · exact congrArg Char.toLower h
  · rcases toLower_cases c.toLower with h' | ⟨-, hhigh, -⟩
    · exact h'
    · omega

/-- No blank lies between the exclamation mark and the tilde. -/
theorem isBlank_of_graphic {c : Char} (hlow : 33 ≤ c.toNat) (hhigh : c.toNat ≤ 126) :
    isBlank c = false := by
  simp only [isBlank, Bool.or_eq_false_iff, Bool.and_eq_false_iff, decide_eq_false_iff_not,
    beq_eq_false_iff_ne]
  omega

theorem isBlank_toLower (c : Char) : isBlank c.toLower = isBlank c := by
  rcases toLower_cases c with h | ⟨hlow, hhigh, h⟩
  · rw [h]
  · exact (isBlank_of_graphic (by omega) (by omega)).trans
      (isBlank_of_graphic (by omega) (by omega)).symm

theorem toLower_eq_dot {c : Char} : c.toLower = '.' ↔ c = '.' := by
  constructor
  · intro h
    rcases toLower_cases c with hsame | ⟨hlow, -, hmoved⟩
    · rw [← hsame, h]
    · rw [h, show '.'.toNat = 46 from rfl] at hmoved
      omega
  · rintro rfl
    rfl

/-! ### Ends of a text -/

theorem dropEndWhile_split (p : Char → Bool) (cs : List Char) :
    ∃ back, cs = dropEndWhile p cs ++ back ∧ ∀ c ∈ back, p c = true :=
  ⟨cs.rtakeWhile p, List.rdropWhile_append_rtakeWhile.symm,
    fun _ hc => List.mem_rtakeWhile_imp hc⟩

theorem getLast?_dropEndWhile (p : Char → Bool) (cs : List Char) :
    ∀ c ∈ (dropEndWhile p cs).getLast?, p c = false := by
  intro c hc
  obtain ⟨hne, rfl⟩ := List.mem_getLast?_eq_getLast hc
  exact eq_false_of_ne_true (List.rdropWhile_last_not p cs hne)

theorem dropEndWhile_append (hback : ∀ c ∈ back, p c = true) (cs : List Char) :
    dropEndWhile p (cs ++ back) = dropEndWhile p cs := by
  rw [dropEndWhile, List.reverse_append, List.dropWhile_append_of_pos, dropEndWhile]
  exact fun c hc => hback c (List.mem_reverse.mp hc)

theorem dropEndWhile_self (h : ∀ c ∈ cs.getLast?, p c = false) : dropEndWhile p cs = cs := by
  refine List.rdropWhile_eq_self_iff.mpr fun hne => ?_
  simpa using h _ (List.getLast?_eq_some_getLast hne)

/-- Nothing before the last character that stays is dropped. -/
theorem dropEndWhile_cons {c : Char} (h : p c = false) (cs : List Char) :
    dropEndWhile p (c :: cs) = c :: dropEndWhile p cs := by
  rw [dropEndWhile, dropEndWhile, List.reverse_cons, List.dropWhile_append]
  split
  · rename_i hall
    rw [List.dropWhile_cons_of_neg (by simp [h]), List.isEmpty_iff.mp hall]
    rfl
  · rw [List.reverse_append]
    rfl

/-! ### Trimming -/

/-- No blank stands at either end. -/
structure Unpadded (cs : List Char) : Prop where
  head : ∀ c ∈ cs.head?, isBlank c = false
  last : ∀ c ∈ cs.getLast?, isBlank c = false

theorem trim_split (cs : List Char) : ∃ front back, cs = front ++ trim cs ++ back ∧
    (∀ c ∈ front, isBlank c = true) ∧ ∀ c ∈ back, isBlank c = true := by
  obtain ⟨back, hback, hblank⟩ := dropEndWhile_split isBlank (trimStart cs)
  refine ⟨cs.takeWhile isBlank, back, ?_, fun c hc => List.mem_takeWhile_imp hc, hblank⟩
  rw [trim, trimEnd, List.append_assoc, ← hback, trimStart, List.takeWhile_append_dropWhile]

theorem trim_unpadded (cs : List Char) : Unpadded (trim cs) where
  head c hc := by
    obtain ⟨back, hsplit, -⟩ := dropEndWhile_split isBlank (trimStart cs)
    have hhead : (trimStart cs).head? = some c := by
      have hkept : (dropEndWhile isBlank (trimStart cs)).head? = some c := hc
      rw [hsplit, List.head?_append, hkept]
      rfl
    have hnot := List.head?_dropWhile_not isBlank cs
    rw [show (cs.dropWhile isBlank).head? = some c from hhead] at hnot
    exact hnot
  last := getLast?_dropEndWhile isBlank (trimStart cs)

theorem trim_padded (hfront : ∀ c ∈ front, isBlank c = true)
    (hback : ∀ c ∈ back, isBlank c = true) (h : Unpadded cs) :
    trim (front ++ cs ++ back) = cs := by
  rw [trim, trimStart, List.append_assoc, List.dropWhile_append_of_pos hfront]
  cases cs with
  | nil =>
    rw [List.nil_append, List.dropWhile_eq_nil_iff.mpr hback]
    rfl
  | cons c cs =>
    rw [List.cons_append, List.dropWhile_cons_of_neg (by simp [h.head c rfl]), ← List.cons_append,
      trimEnd, dropEndWhile_append hback, dropEndWhile_self h.last]

theorem trim_self (h : Unpadded cs) : trim cs = cs := by
  have hnone : ∀ c ∈ ([] : List Char), isBlank c = true := nofun
  simpa using trim_padded hnone hnone h

end Sinkhole.Text
