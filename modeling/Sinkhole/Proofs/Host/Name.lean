import Sinkhole.Host.Name
import Sinkhole.Proofs.Text.Pieces
import Sinkhole.Proofs.Text.Trim

/-! The one spelling of a host, and what the checks say about its characters.

A host has many spellings, which differ in the case of letters, in blanks around it and
in dots behind it (`Spells`), and one of them is normal. `normal` takes every spelling
of a host to that one and no other text (`normal_eq_iff`). What has passed a check is
made of letters, digits, hyphens, underscores and dots, and wildcards if it is a pattern;
it has no blank in it, so it cannot keep one at an end. -/
namespace Sinkhole.Host

open Text

variable {host raw spelling : List Char}

/-! ### Spellings -/

/-- The form in which a host is stored: ASCII letters in lower case, no blank at either end and
no dot behind. -/
structure IsNormal (host : List Char) : Prop where
  lower : lower host = host
  unpadded : Unpadded host
  noDot : ∀ c ∈ host.getLast?, c ≠ '.'

/-- A text that differs from a host in the case of ASCII letters, in dots behind it and in blanks
around these. -/
def Spells (spelling host : List Char) : Prop :=
  ∃ front body dots back, spelling = front ++ (body ++ dots) ++ back ∧ lower body = host ∧
    (∀ c ∈ dots, c = '.') ∧ (∀ c ∈ front, isBlank c = true) ∧ ∀ c ∈ back, isBlank c = true

/-- A body in another case has no blank at an end either, with dots behind it or without. -/
theorem IsNormal.unpadded_body (h : IsNormal host) {body dots : List Char}
    (hbody : Text.lower body = host) (hdots : ∀ c ∈ dots, c = '.') :
    Unpadded (body ++ dots) := by
  have hdot : isBlank '.' = false := rfl
  have hhead : ∀ c ∈ body.head?, isBlank c = false := by
    intro c hc
    rw [← isBlank_toLower]
    exact h.unpadded.head _ (by rw [← hbody, Text.lower, List.head?_map, hc]; rfl)
  have hlast : ∀ c ∈ body.getLast?, isBlank c = false := by
    intro c hc
    rw [← isBlank_toLower]
    exact h.unpadded.last _ (by rw [← hbody, Text.lower, List.getLast?_map, hc]; rfl)
  constructor
  · intro c hc
    rw [List.head?_append] at hc
    rcases Option.or_eq_some_iff.mp hc with hc | ⟨-, hc⟩
    · exact hhead c hc
    · rw [hdots c (List.mem_of_mem_head? hc)]
      exact hdot
  · intro c hc
    rw [List.getLast?_append] at hc
    rcases Option.or_eq_some_iff.mp hc with hc | ⟨-, hc⟩
    · rw [hdots c (List.mem_of_mem_getLast? hc)]
      exact hdot
    · exact hlast c hc

/-- **The spellings of a host are the texts whose normal form it is.** -/
theorem normal_eq_iff (h : IsNormal host) : normal spelling = host ↔ Spells spelling host := by
  constructor
  · intro hnormal
    obtain ⟨front, back, hsplit, hfront, hback⟩ := trim_split spelling
    obtain ⟨dots, htrim, hdots⟩ := dropEndWhile_split (· == '.') (trim spelling)
    refine ⟨front, _, dots, back, ?_, hnormal, fun c hc => beq_iff_eq.mp (hdots c hc), hfront,
      hback⟩
    rw [← htrim, ← hsplit]
  · rintro ⟨front, body, dots, back, rfl, hbody, hdots, hfront, hback⟩
    have hlast : ∀ c ∈ body.getLast?, (c == '.') = false := by
      intro c hc
      have hne := h.noDot c.toLower
        (by rw [← hbody, Text.lower, List.getLast?_map, hc]; rfl)
      exact beq_eq_false_iff_ne.mpr fun hdot => hne (toLower_eq_dot.mpr hdot)
    rw [normal, trim_padded hfront hback (h.unpadded_body hbody hdots),
      dropEndWhile_append fun c hc => beq_iff_eq.mpr (hdots c hc), dropEndWhile_self hlast, hbody]

theorem normal_isNormal (h : ∀ c ∈ normal raw, isBlank c = false) : IsNormal (normal raw) where
  lower := lower_lower _
  unpadded := ⟨fun c hc => h c (List.mem_of_mem_head? hc),
    fun c hc => h c (List.mem_of_mem_getLast? hc)⟩
  noDot c hc := by
    rw [normal, Text.lower, List.getLast?_map] at hc
    obtain ⟨d, hd, rfl⟩ := Option.map_eq_some_iff.mp hc
    have hdot := getLast?_dropEndWhile (· == '.') (trim raw) d hd
    exact fun hlower => beq_eq_false_iff_ne.mp hdot (toLower_eq_dot.mp hlower)

/-- What neither blanks nor dots can take away is still there. -/
theorem mem_normal {c : Char} (hc : c ∈ host) (hblank : Text.isBlank c = false) (hdot : c ≠ '.') :
    c.toLower ∈ normal host := by
  obtain ⟨front, back, hsplit, hfront, hback⟩ := trim_split host
  obtain ⟨dots, htrim, hdots⟩ := dropEndWhile_split (· == '.') (trim host)
  rw [hsplit, htrim] at hc
  simp only [List.mem_append] at hc
  rcases hc with (hc | hc | hc) | hc
  · rw [hfront c hc] at hblank
    cases hblank
  · exact List.mem_map_of_mem hc
  · exact absurd (beq_iff_eq.mp (hdots c hc)) hdot
  · rw [hback c hc] at hblank
    cases hblank

/-! ### Characters of names and patterns -/

/-- The characters that a host pattern can be made of; a name has no wildcards among them. -/
def IsHostChar (c : Char) : Prop := c = '.' ∨ isLabelChar c = true ∨ isWildcard c = true

theorem mem_withoutRootDot {c : Char} (hc : c ∈ host) : c = '.' ∨ c ∈ withoutRootDot host := by
  unfold withoutRootDot
  split
  · rename_i hdot
    rw [← List.dropLast_append_getLast? '.' (beq_iff_eq.mp hdot)] at hc
    exact (List.mem_append.mp hc).symm.imp_left List.mem_singleton.mp
  · exact .inr hc

theorem isName_chars (h : isName host = true) {c : Char} (hc : c ∈ host) :
    c = '.' ∨ isLabelChar c = true := by
  simp only [isName, Bool.and_eq_true, List.all_eq_true] at h
  rcases mem_withoutRootDot hc with hdot | hbare
  · exact .inl hdot
  by_cases hdot : c = '.'
  · exact .inl hdot
  obtain ⟨label, hlabel, hcl⟩ := mem_pieces (p := (· == '.')) hbare (beq_eq_false_iff_ne.mpr hdot)
  have hchars := h.2 label hlabel
  simp only [isLabel, Bool.and_eq_true, List.all_eq_true] at hchars
  exact .inr (hchars.2 c hcl)

theorem isPattern_chars (h : isPattern host = true) {c : Char} (hc : c ∈ host) : IsHostChar c := by
  by_cases hwild : isWildcard c = true
  · exact .inr (.inr hwild)
  have hplain := Bool.eq_false_iff.mpr hwild
  have hname : c = '.' ∨ isLabelChar c = true := by
    unfold isPattern at h
    split at h
    · -- a character that is no wildcard is in both names that are asked about
      rcases Bool.or_eq_true_iff.mp h with hstripped | hreplaced
      · exact isName_chars hstripped (List.mem_filter.mpr ⟨hc, by rw [hplain]; rfl⟩)
      · exact isName_chars hreplaced (List.mem_map.mpr ⟨c, hc, by rw [hplain]; rfl⟩)
    · exact isName_chars h hc
  exact hname.imp_right .inl

theorem isLabelChar_graphic {c : Char} (h : isLabelChar c = true) :
    33 ≤ c.toNat ∧ c.toNat ≤ 126 := by
  simp only [isLabelChar, isAsciiAlnum, Bool.or_eq_true, beq_iff_eq] at h
  rcases h with ((hletter | hdigit) | rfl) | rfl
  · rcases Bool.or_eq_true_iff.mp hletter with hupper | hlower
    · have hc : 65 ≤ c.toNat ∧ c.toNat ≤ 90 := of_decide_eq_true hupper
      omega
    · obtain ⟨hlow, hhigh⟩ := Bool.and_eq_true_iff.mp hlower
      have hlow : 97 ≤ c.toNat := of_decide_eq_true hlow
      have hhigh : c.toNat ≤ 122 := of_decide_eq_true hhigh
      omega
  · obtain ⟨hlow, hhigh⟩ := Bool.and_eq_true_iff.mp hdigit
    have hlow : 48 ≤ c.toNat := of_decide_eq_true hlow
    have hhigh : c.toNat ≤ 57 := of_decide_eq_true hhigh
    omega
  · decide
  · decide

/-- A letter in lower case was a letter before. -/
theorem isLabelChar_of_toLower {c : Char} (h : isLabelChar c.toLower = true) :
    isLabelChar c = true := by
  rcases toLower_cases c with hsame | ⟨hlow, hhigh, -⟩
  · rwa [hsame] at h
  · have hupper : c.isUpper = true := decide_eq_true ⟨hlow, hhigh⟩
    have hletter : c.isAlpha = true := Bool.or_eq_true_iff.mpr (.inl hupper)
    rw [isLabelChar, isAsciiAlnum, hletter]
    rfl

/-- Host characters are graphic ones of ASCII. -/
theorem IsHostChar.graphic {c : Char} (h : IsHostChar c) : 33 ≤ c.toNat ∧ c.toNat ≤ 126 := by
  rcases h with rfl | hlabel | hwild
  · decide
  · exact isLabelChar_graphic hlabel
  · simp only [isWildcard, Bool.or_eq_true, beq_iff_eq] at hwild
    rcases hwild with rfl | rfl <;> decide

theorem IsHostChar.isBlank {c : Char} (h : IsHostChar c) : Text.isBlank c = false :=
  isBlank_of_graphic h.graphic.1 h.graphic.2

/-- A name with no dot behind it is no address. -/
theorem isName_isText (h : isName host = true) (hdot : ∀ c ∈ host.getLast?, c ≠ '.') :
    Address.isText host = false := by
  have hbare : withoutRootDot host = host := by
    unfold withoutRootDot
    rw [if_neg]
    exact fun hlast => hdot '.' (beq_iff_eq.mp hlast) rfl
  simp only [isName, hbare, Bool.and_eq_true, Bool.not_eq_true'] at h
  exact h.1.2

end Sinkhole.Host
