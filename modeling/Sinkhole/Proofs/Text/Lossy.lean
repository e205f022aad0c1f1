import Sinkhole.Text.Lossy

/-! Reading the bytes of a text.

Every character takes the bytes that its first byte announces, so a text is read back
from its bytes, character by character. -/
namespace Sinkhole.Text

/-! ### Bytes -/

theorem toList_loop (bytes : ByteArray) (i : Nat) (read : List UInt8) :
    ByteArray.toList.loop bytes i read = read.reverse ++ bytes.data.toList.drop i := by
  fun_induction ByteArray.toList.loop bytes i read with
  | case1 i read h ih =>
    have hlt : i < bytes.data.toList.length := h
    rw [ih, List.drop_eq_getElem_cons hlt]
    simp [ByteArray.get!, h]
  | case2 i read h =>
    have hle : bytes.data.toList.length ≤ i := Nat.le_of_not_lt h
    rw [List.drop_eq_nil_of_le hle, List.append_nil]

theorem encode_ofList (cs : List Char) :
    encode (String.ofList cs) = cs.flatMap String.utf8EncodeChar := by
  rw [encode, String.toUTF8, String.toByteArray_ofList, List.utf8Encode, ByteArray.toList,
    toList_loop, List.data_toByteArray]
  simp

/-! ### Characters by the number of their bytes -/

section

variable {a b c d : UInt8} {v : Nat} (rest : List UInt8)

theorem beq_byte_iff {byte : UInt8} : (a == byte) = true ↔ a.toNat = byte.toNat := by
  rw [beq_iff_eq, UInt8.toNat_inj]

theorem isTail_of (h : b.toNat = v % 64 + 128) : isTail b = true := by
  simp only [isTail, Bool.and_eq_true, decide_eq_true_eq, UInt8.le_iff_toNat_le, h,
    UInt8.reduceToNat]
  omega

/-- A byte that is no character of its own. -/
theorem not_one (h : 128 ≤ a.toNat) : ¬a ≤ 0x7F := by
  simp only [UInt8.le_iff_toNat_le, UInt8.reduceToNat]
  omega

theorem firstChar_one (ha : a.toNat = v) (hv : v ≤ 127) :
    firstChar a rest = (Char.ofNat v, 1) := by
  have hone : a ≤ 0x7F := by
    simp only [UInt8.le_iff_toNat_le, UInt8.reduceToNat]
    omega
  unfold firstChar
  rw [if_pos hone, ha]

theorem firstChar_two (ha : a.toNat = v / 64 % 32 + 192) (hb : b.toNat = v % 64 + 128)
    (hlow : 128 ≤ v) (hhigh : v ≤ 0x7FF) : firstChar a (b :: rest) = (Char.ofNat v, 2) := by
  have htwo : (0xC2 ≤ a && a ≤ 0xDF) = true := by
    simp only [Bool.and_eq_true, decide_eq_true_eq, UInt8.le_iff_toNat_le, ha, UInt8.reduceToNat]
    omega
  unfold firstChar
  rw [if_neg (not_one (by omega)), if_pos htwo]
  simp only [isTail_of hb, if_true, ha, hb]
  congr 2
  omega

theorem firstChar_three (ha : a.toNat = v / 4096 % 16 + 224) (hb : b.toNat = v / 64 % 64 + 128)
    (hc : c.toNat = v % 64 + 128) (hlow : 0x800 ≤ v) (hhigh : v ≤ 0xFFFF)
    (hvalid : v < 0xD800 ∨ 0xDFFF < v) :
    firstChar a (b :: c :: rest) = (Char.ofNat v, 3) := by
  have htwo : ¬(0xC2 ≤ a && a ≤ 0xDF) = true := by
    simp only [Bool.and_eq_true, decide_eq_true_eq, UInt8.le_iff_toNat_le, ha, UInt8.reduceToNat]
    omega
  have hthree : (0xE0 ≤ a && a ≤ 0xEF) = true := by
    simp only [Bool.and_eq_true, decide_eq_true_eq, UInt8.le_iff_toNat_le, ha, UInt8.reduceToNat]
    omega
  -- there is no shorter form, and no half of a pair either
  have hsecond : isSecondOfThree a b = true := by
    simp only [isSecondOfThree, isTail, bne, Bool.or_eq_true, Bool.and_eq_true, Bool.not_eq_true',
      ← Bool.not_eq_true, beq_byte_iff, decide_eq_true_eq, UInt8.le_iff_toNat_le, ha, hb,
      UInt8.reduceToNat]
    omega
  unfold firstChar
  rw [if_neg (not_one (by omega)), if_neg htwo, if_pos hthree]
  simp only [hsecond, isTail_of hc, if_true, ha, hb, hc]
  congr 2
  omega

theorem firstChar_four (ha : a.toNat = v / 262144 % 8 + 240) (hb : b.toNat = v / 4096 % 64 + 128)
    (hc : c.toNat = v / 64 % 64 + 128) (hd : d.toNat = v % 64 + 128) (hlow : 0x10000 ≤ v)
    (hvalid : v < 0x110000) :
    firstChar a (b :: c :: d :: rest) = (Char.ofNat v, 4) := by
  have htwo : ¬(0xC2 ≤ a && a ≤ 0xDF) = true := by
    simp only [Bool.and_eq_true, decide_eq_true_eq, UInt8.le_iff_toNat_le, ha, UInt8.reduceToNat]
    omega
  have hthree : ¬(0xE0 ≤ a && a ≤ 0xEF) = true := by
    simp only [Bool.and_eq_true, decide_eq_true_eq, UInt8.le_iff_toNat_le, ha, UInt8.reduceToNat]
    omega
  have hfour : (0xF0 ≤ a && a ≤ 0xF4) = true := by
    simp only [Bool.and_eq_true, decide_eq_true_eq, UInt8.le_iff_toNat_le, ha, UInt8.reduceToNat]
    omega
  have hsecond : isSecondOfFour a b = true := by
    simp only [isSecondOfFour, isTail, bne, Bool.or_eq_true, Bool.and_eq_true, Bool.not_eq_true',
      ← Bool.not_eq_true, beq_byte_iff, decide_eq_true_eq, UInt8.le_iff_toNat_le, ha, hb,
      UInt8.reduceToNat]
    omega
  unfold firstChar
  rw [if_neg (not_one (by omega)), if_neg htwo, if_neg hthree, if_pos hfour]
  simp only [hsecond, isTail_of hc, isTail_of hd, if_true, ha, hb, hc, hd]
  congr 2
  omega

end

/-- The first byte of a character tells how many belong to it, and they tell which it is. -/
theorem firstChar_encoded (c : Char) (rest : List UInt8) :
    ∃ b more, String.utf8EncodeChar c = b :: more ∧
      firstChar b (more ++ rest) = (c, more.length + 1) := by
  have hvalid : c.val.toNat < 0xD800 ∨ 0xDFFF < c.val.toNat ∧ c.val.toNat < 0x110000 := c.valid
  have hc : Char.ofNat c.val.toNat = c := Char.ofNat_toNat c
  have hbyte : ∀ {n : Nat}, n < 256 → (UInt8.ofNat n).toNat = n := fun h =>
    UInt8.toNat_ofNat_of_lt' h
  unfold String.utf8EncodeChar
  generalize c.val.toNat = v at hvalid hc
  rw [← hc]
  dsimp only
  by_cases h1 : v ≤ 127
  · rw [if_pos h1]
    exact ⟨_, _, rfl, firstChar_one rest (hbyte (by omega)) h1⟩
  by_cases h2 : v ≤ 2047
  · rw [if_neg h1, if_pos h2]
    exact ⟨_, _, rfl,
      firstChar_two rest (hbyte (by omega)) (hbyte (by omega)) (by omega) (by omega)⟩
  by_cases h3 : v ≤ 65535
  · rw [if_neg h1, if_neg h2, if_pos h3]
    exact ⟨_, _, rfl, firstChar_three rest (hbyte (by omega)) (hbyte (by omega))
      (hbyte (by omega)) (by omega) (by omega) (by omega)⟩
  · rw [if_neg h1, if_neg h2, if_neg h3]
    exact ⟨_, _, rfl, firstChar_four rest (hbyte (by omega)) (hbyte (by omega))
      (hbyte (by omega)) (hbyte (by omega)) (by omega) (by omega)⟩

/-! ### Texts -/

theorem decodeFrom_skip (bytes rest : List UInt8) (read : Array Char) :
    decodeFrom bytes.length read (bytes ++ rest) = decodeFrom 0 read rest := by
  induction bytes with
  | nil => rfl
  | cons b bytes ih => exact ih

theorem decodeFrom_encoded (cs : List Char) (read : Array Char) :
    (decodeFrom 0 read (cs.flatMap String.utf8EncodeChar)).toList = read.toList ++ cs := by
  induction cs generalizing read with
  | nil => simp [decodeFrom]
  | cons c cs ih =>
    obtain ⟨b, more, hbytes, hfirst⟩ := firstChar_encoded c (cs.flatMap String.utf8EncodeChar)
    rw [List.flatMap_cons, hbytes, List.cons_append, decodeFrom, hfirst]
    show (decodeFrom more.length (read.push c) (more ++ _)).toList = _
    rw [decodeFrom_skip, ih, Array.toList_push, List.append_assoc]
    rfl

/-- **A text is what its bytes are read as.** -/
theorem decode?_encode (s : String) : decode? (encode s) = some s.toList := by
  have hdecode : decode (encode s) = s.toList := by
    rw [← String.ofList_toList (s := s), encode_ofList, decode, decodeFrom_encoded]
    simp
  rw [decode?, hdecode, String.ofList_toList]
  simp

end Sinkhole.Text
