import Sinkhole.Url.Percent
import Sinkhole.Proofs.Text.Pieces
import Sinkhole.Proofs.Text.Marks

/-! What was encoded, read back.

The parameters of a query come back as they were, behind what the query held before
(`readPairs_appendPairs`): no name or value has a mark that parts them left in it. A text
comes back from its percent signs as it stands just when none of them is an escape
(`percentDecode_eq_utf8`), since an escape is three characters for one byte. -/
namespace Sinkhole.Url

open Text

variable {c : Char} {cs rest : List Char}

/-- The bytes of a text. -/
def utf8 (cs : List Char) : List UInt8 := cs.flatMap String.utf8EncodeChar

@[simp] theorem utf8_nil : utf8 [] = [] := rfl

@[simp] theorem utf8_cons (c : Char) (cs : List Char) :
    utf8 (c :: cs) = String.utf8EncodeChar c ++ utf8 cs := rfl

@[simp] theorem utf8_append (a b : List Char) : utf8 (a ++ b) = utf8 a ++ utf8 b :=
  List.flatMap_append

/-! ### Bytes -/

theorem digit?_hexDigit : ∀ n < 16, Address.digit? 16 (hexDigit n) = some n := by decide

theorem mem_encodeByte {b : UInt8} (h : c ∈ encodeByte b) :
    c = '%' ∨ ∃ n < 16, c = hexDigit n := by
  have hb := b.toNat_lt
  simp only [encodeByte, List.mem_cons, List.not_mem_nil, or_false] at h
  exact h.imp_right fun h => h.elim (⟨_, by omega, ·⟩) (⟨_, by omega, ·⟩)

/-- What an encoded text consists of. -/
theorem mem_percentEncode {keeps : Char → Bool} (h : c ∈ percentEncode keeps cs) :
    keeps c = true ∨ c = '%' ∨ ∃ n < 16, c = hexDigit n := by
  obtain ⟨d, -, hc⟩ := List.mem_flatMap.mp h
  split at hc
  · rename_i hkeeps
    rw [List.mem_singleton.mp hc]
    exact .inl hkeeps
  · obtain ⟨b, -, hb⟩ := List.mem_flatMap.mp hc
    exact .inr (mem_encodeByte hb)

theorem hexByte?_hexDigit (b : UInt8) :
    hexByte? (hexDigit (b.toNat / 16)) (hexDigit (b.toNat % 16)) = some b := by
  have hb := b.toNat_lt
  rw [hexByte?, digit?_hexDigit _ (by omega), digit?_hexDigit _ (by omega)]
  show some (UInt8.ofNat (b.toNat / 16 * 16 + b.toNat % 16)) = some b
  rw [Nat.div_add_mod', UInt8.ofNat_toNat]

theorem percentDecode_cons (h : c ≠ '%') (rest : List Char) :
    percentDecode (c :: rest) = String.utf8EncodeChar c ++ percentDecode rest := by
  rw [percentDecode]
  rintro high low rest rfl
  exact absurd rfl h

theorem percentDecode_encodeBytes (bs : List UInt8) (rest : List Char) :
    percentDecode (bs.flatMap encodeByte ++ rest) = bs ++ percentDecode rest := by
  induction bs with
  | nil => rfl
  | cons b bs ih =>
    rw [List.flatMap_cons, List.append_assoc, encodeByte, List.cons_append, List.cons_append,
      List.cons_append, List.nil_append, percentDecode, hexByte?_hexDigit]
    exact congrArg (b :: ·) ih

/-! ### Names and values -/

theorem keepsInForm_marks (h : keepsInForm c = true) : c ∉ ['%', '+', '&', '='] := by
  intro hc
  simp only [List.mem_cons, List.not_mem_nil, or_false] at hc
  rcases hc with rfl | rfl | rfl | rfl <;> exact absurd h (by decide)

/-- Neither mark of a query stands in a name or value. -/
theorem mark_not_mem_formEncode {mark : Char} (h : mark = '&' ∨ mark = '=') (cs : List Char) :
    mark ∉ formEncode cs := by
  intro hmem
  obtain ⟨d, -, hmark⟩ := List.mem_flatMap.mp hmem
  split at hmark
  · rw [List.mem_singleton.mp hmark] at h
    revert h
    decide
  · rcases mem_percentEncode hmark with hkeeps | rfl | ⟨n, hn, rfl⟩
    · exact keepsInForm_marks hkeeps (by rcases h with rfl | rfl <;> decide)
    · revert h
      decide
    · exact (by decide : ∀ n < 16, ¬(hexDigit n = '&' ∨ hexDigit n = '=')) n hn h

/-- An encoded character comes back as its bytes. -/
theorem formDecode_formEncode_append (c : Char) (rest : List Char) :
    formDecode (formEncode [c] ++ rest) = String.utf8EncodeChar c ++ formDecode rest := by
  rw [formDecode, formEncode, List.flatMap_cons, List.flatMap_nil, List.append_nil,
    List.map_append]
  by_cases hblank : c = ' '
  · rw [if_pos hblank, hblank]
    exact percentDecode_cons (by decide) _
  · rw [if_neg hblank, percentEncode, List.flatMap_cons, List.flatMap_nil, List.append_nil]
    split
    · rename_i hkeeps
      have hmarks := keepsInForm_marks hkeeps
      simp only [List.mem_cons, List.not_mem_nil, or_false, not_or] at hmarks
      rw [List.map_singleton, if_neg hmarks.2.1]
      exact percentDecode_cons hmarks.1 _
    · have hsame : ((String.utf8EncodeChar c).flatMap encodeByte).map
          (fun c => if c = '+' then ' ' else c) = (String.utf8EncodeChar c).flatMap encodeByte := by
        conv_rhs => rw [← List.map_id ((String.utf8EncodeChar c).flatMap encodeByte)]
        refine List.map_congr_left fun d hd => if_neg ?_
        obtain ⟨b, -, hb⟩ := List.mem_flatMap.mp hd
        rintro rfl
        exact absurd (mem_encodeByte hb) (by decide)
      rw [hsame, percentDecode_encodeBytes]
      rfl

theorem formDecode_formEncode (cs : List Char) : formDecode (formEncode cs) = utf8 cs := by
  induction cs with
  | nil => rfl
  | cons c cs ih =>
    have hcons : formEncode (c :: cs) = formEncode [c] ++ formEncode cs := by
      rw [formEncode, formEncode, List.flatMap_singleton]
      rfl
    rw [hcons, formDecode_formEncode_append, ih, utf8_cons]

/-! ### Parameters -/

/-- A parameter as the reader of a query takes it: what stands before the first equals sign and
what stands behind it. -/
def readPair (piece : List Char) : List UInt8 × List UInt8 :=
  let name := piece.takeWhile (· != '=')
  (formDecode name, formDecode (piece.drop (name.length + 1)))

/-- The parameters of a query; nothing between two ampersands is none. -/
def readPairs (query : List Char) : List (List UInt8 × List UInt8) :=
  ((pieces (· == '&') query).filter (!·.isEmpty)).map readPair

theorem readPair_formPair (name value : List Char) :
    readPair (formPair name value) = (utf8 name, utf8 value) := by
  have hname : (formPair name value).takeWhile (· != '=') = formEncode name :=
    takeWhile_mark (mark_not_mem_formEncode (.inr rfl) name) _
  have hvalue : (formPair name value).drop ((formEncode name).length + 1) = formEncode value := by
    rw [formPair, List.drop_append, List.drop_eq_nil_of_le (Nat.le_succ _), Nat.add_sub_cancel_left]
    rfl
  simp only [readPair, hname, hvalue, formDecode_formEncode]

theorem readPairs_formPair (name value : List Char) :
    readPairs (formPair name value) = [(utf8 name, utf8 value)] := by
  have hone : ∀ c ∈ formPair name value, (c == '&') = false := by
    intro c hc
    refine beq_eq_false_iff_ne.mpr ?_
    rintro rfl
    rcases List.mem_append.mp hc with hname | hvalue
    · exact mark_not_mem_formEncode (.inl rfl) name hname
    · rcases List.mem_cons.mp hvalue with hequals | hvalue
      · exact absurd hequals (by decide)
      · exact mark_not_mem_formEncode (.inl rfl) value hvalue
  rw [readPairs, pieces_unmarked hone, List.filter_cons_of_pos (by simp [formPair]),
    List.filter_nil, List.map_singleton, readPair_formPair]

theorem readPairs_append (query rest : List Char) :
    readPairs (query ++ '&' :: rest) = readPairs query ++ readPairs rest := by
  rw [readPairs, pieces_append rfl, List.filter_append, List.map_append]
  rfl

/-- Parameters behind a query come back behind those of the query. -/
theorem readPairs_appendPairs (query : List Char) (pairs : List (List Char × List Char)) :
    readPairs (appendPairs query pairs) =
      readPairs query ++ pairs.map fun p => (utf8 p.1, utf8 p.2) := by
  induction pairs generalizing query with
  | nil => exact (List.append_nil _).symm
  | cons p pairs ih =>
    have hone : readPairs ((if query.isEmpty then query else query ++ ['&']) ++ formPair p.1 p.2) =
        readPairs query ++ [(utf8 p.1, utf8 p.2)] := by
      cases query with
      | nil => exact readPairs_formPair p.1 p.2
      | cons c query =>
        rw [List.isEmpty_cons, if_neg Bool.false_ne_true, List.append_assoc, List.singleton_append,
          readPairs_append, readPairs_formPair]
    refine (ih _).trans ?_
    rw [hone, List.append_assoc]
    rfl

/-! ### Escapes -/

/-- A percent sign with two digits behind it stands somewhere in the text. -/
def Escaped (cs : List Char) : Prop :=
  ∃ high low, (hexByte? high low).isSome ∧ ['%', high, low] <:+: cs

theorem escaped_cons (h : ∀ high low more, c :: rest = '%' :: high :: low :: more →
    hexByte? high low = none) : Escaped (c :: rest) ↔ Escaped rest := by
  refine exists_congr fun high => exists_congr fun low => and_congr_right fun hbyte => ?_
  refine List.infix_cons_iff.trans (or_iff_right ?_)
  rintro ⟨more, hfront⟩
  rw [h high low more hfront.symm] at hbyte
  cases hbyte

theorem length_utf8EncodeChar_pos (c : Char) : 0 < (String.utf8EncodeChar c).length := by
  rw [String.length_utf8EncodeChar]
  exact c.utf8Size_pos

/-- Reading the percent signs shortens a text that holds an escape, and no other. -/
theorem percentDecode_cases (cs : List Char) :
    (¬Escaped cs ∧ percentDecode cs = utf8 cs) ∨
      (Escaped cs ∧ (percentDecode cs).length < (utf8 cs).length) := by
  have step {c : Char} {rest : List Char}
      (ih : (¬Escaped rest ∧ percentDecode rest = utf8 rest) ∨
        (Escaped rest ∧ (percentDecode rest).length < (utf8 rest).length))
      (hnone : ∀ high low more, c :: rest = '%' :: high :: low :: more → hexByte? high low = none)
      (hread : percentDecode (c :: rest) = String.utf8EncodeChar c ++ percentDecode rest) :
      (¬Escaped (c :: rest) ∧ percentDecode (c :: rest) = utf8 (c :: rest)) ∨
        (Escaped (c :: rest) ∧ (percentDecode (c :: rest)).length < (utf8 (c :: rest)).length) := by
    rw [escaped_cons hnone, hread, utf8_cons, List.append_right_inj, List.length_append,
      List.length_append]
    exact ih.imp_right (And.imp_right (Nat.add_lt_add_left · _))
  induction cs using percentDecode.induct with
  | case1 high low rest b hbyte ih =>
    refine .inr ⟨⟨high, low, by rw [hbyte]; rfl, (List.prefix_append _ rest).isInfix⟩, ?_⟩
    have hrest : (percentDecode rest).length ≤ (utf8 rest).length := by
      rcases ih with ⟨-, heq⟩ | ⟨-, hlt⟩
      · rw [heq]
      · exact hlt.le
    have hhigh := length_utf8EncodeChar_pos high
    have hlow := length_utf8EncodeChar_pos low
    rw [percentDecode, hbyte]
    simp only [utf8_cons, List.length_append, List.length_cons]
    omega
  | case2 high low rest hbyte ih =>
    refine step ih ?_ (by rw [percentDecode, hbyte]; rfl)
    rintro _ _ _ ⟨⟩
    exact hbyte
  | case3 c rest hc ih =>
    refine step ih (fun high low more h => ?_) (percentDecode.eq_2 c rest hc)
    injection h with hmark hrest
    exact absurd hrest (hc high low more hmark)
  | case4 =>
    refine .inl ⟨?_, rfl⟩
    rintro ⟨_, _, _, h⟩
    exact absurd (List.infix_nil.mp h) (List.cons_ne_nil _ _)

/-- A text stands for itself, as far as its percent signs go, if none of them is an escape. -/
theorem percentDecode_eq_utf8 : percentDecode cs = utf8 cs ↔ ¬Escaped cs := by
  rcases percentDecode_cases cs with ⟨hnot, heq⟩ | ⟨hesc, hlt⟩
  · exact iff_of_true heq hnot
  · exact iff_of_false (fun heq => (heq ▸ hlt).false) (not_not_intro hesc)

/-! ### Texts between slashes -/

/-- Bytes with slashes between them. -/
def joined (texts : List (List UInt8)) : List UInt8 := [0x2F].intercalate texts

theorem utf8_intercalate (segments : List (List Char)) :
    utf8 (['/'].intercalate segments) = joined (segments.map utf8) := by
  induction segments with
  | nil => rfl
  | cons s segments ih =>
    cases segments with
    | nil => simp only [joined, List.map_cons, List.map_nil, List.intercalate_singleton]
    | cons t rest =>
      rw [List.intercalate_cons_cons, utf8_append, utf8_append, ih]
      simp only [joined, List.map_cons, List.intercalate_cons_cons]
      rfl

theorem length_joined_percentDecode (segments : List (List Char)) :
    (joined (segments.map percentDecode)).length ≤ (joined (segments.map utf8)).length ∧
      ((∃ s ∈ segments, Escaped s) →
        (joined (segments.map percentDecode)).length < (joined (segments.map utf8)).length) := by
  have one (s : List Char) : (percentDecode s).length ≤ (utf8 s).length ∧
      (Escaped s → (percentDecode s).length < (utf8 s).length) := by
    rcases percentDecode_cases s with ⟨hnot, heq⟩ | ⟨-, hlt⟩
    · exact ⟨(congrArg _ heq).le, fun h => absurd h hnot⟩
    · exact ⟨hlt.le, fun _ => hlt⟩
  induction segments with
  | nil => exact ⟨le_rfl, by rintro ⟨s, hs, -⟩; cases hs⟩
  | cons s segments ih =>
    have hs := one s
    cases segments with
    | nil =>
      simpa only [joined, List.map_cons, List.map_nil, List.intercalate_singleton,
        List.mem_singleton, exists_eq_left] using hs
    | cons t rest =>
      simp only [joined, List.map_cons, List.intercalate_cons_cons, List.length_append] at ih ⊢
      refine ⟨by omega, fun ⟨x, hx, hesc⟩ => ?_⟩
      rcases List.mem_cons.mp hx with rfl | hx
      · have := hs.2 hesc
        omega
      · have := ih.2 ⟨x, hx, hesc⟩
        omega

/-- Segments stand for themselves if none of them holds an escape. -/
theorem joined_percentDecode_eq (segments : List (List Char)) :
    utf8 (['/'].intercalate segments) = joined (segments.map percentDecode) ↔
      ∀ s ∈ segments, ¬Escaped s := by
  rw [utf8_intercalate]
  constructor
  · intro heq s hs hesc
    have hlt := (length_joined_percentDecode segments).2 ⟨s, hs, hesc⟩
    rw [heq] at hlt
    exact hlt.false
  · intro hnone
    rw [List.map_congr_left fun s hs => (percentDecode_eq_utf8.mpr (hnone s hs)).symm]

end Sinkhole.Url
