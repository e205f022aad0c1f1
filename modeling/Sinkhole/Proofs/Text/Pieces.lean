import Sinkhole.Text.Blank
import Sinkhole.Proofs.Text.Trim

/-! The pieces of a text between marks.

No character gets lost: each is a mark or in a piece, and pieces that hold no mark come
apart again where they were put together. -/
namespace Sinkhole.Text

variable {p : Char → Bool} {w cs : List Char}

theorem pieces_cons_mark {c : Char} (h : p c = true) (cs : List Char) :
    pieces p (c :: cs) = [] :: pieces p cs := by
  simp [pieces, h]

theorem pieces_ne_nil (p : Char → Bool) (cs : List Char) : pieces p cs ≠ [] := by
  cases cs with
  | nil => exact List.cons_ne_nil _ _
  | cons c cs =>
    by_cases h : p c = true
    · simp [pieces_cons_mark h]
    · unfold pieces
      rw [List.foldr_cons, if_neg h]
      split <;> exact List.cons_ne_nil _ _

theorem pieces_cons {c : Char} (h : p c = false) (cs : List Char) :
    ∃ w ws, pieces p cs = w :: ws ∧ pieces p (c :: cs) = (c :: w) :: ws := by
  cases hcs : pieces p cs with
  | nil => exact absurd hcs (pieces_ne_nil p cs)
  | cons w ws =>
    refine ⟨w, ws, rfl, ?_⟩
    unfold pieces at hcs
    simp [pieces, h, hcs]

theorem not_mark_of_mem_pieces (h : w ∈ pieces p cs) : ∀ c ∈ w, p c = false := by
  induction cs generalizing w with
  | nil =>
    rw [List.mem_singleton.mp h]
    exact nofun
  | cons c cs ih =>
    by_cases hc : p c = true
    · rw [pieces_cons_mark hc] at h
      rcases List.mem_cons.mp h with rfl | h
      · exact nofun
      · exact ih h
    · obtain ⟨v, ws, hcs, hcons⟩ := pieces_cons (by simpa using hc) cs
      rw [hcons] at h
      rcases List.mem_cons.mp h with rfl | h
      · intro x hx
        rcases List.mem_cons.mp hx with rfl | hx
        · simpa using hc
        · exact ih (hcs ▸ List.mem_cons_self) x hx
      · exact ih (hcs ▸ List.mem_cons_of_mem v h)

theorem mem_of_mem_pieces (h : w ∈ pieces p cs) : w ⊆ cs := by
  induction cs generalizing w with
  | nil =>
    rw [List.mem_singleton.mp h]
    exact List.nil_subset _
  | cons c cs ih =>
    by_cases hc : p c = true
    · rw [pieces_cons_mark hc] at h
      rcases List.mem_cons.mp h with rfl | h
      · exact List.nil_subset _
      · exact List.subset_cons_of_subset c (ih h)
    · obtain ⟨v, ws, hcs, hcons⟩ := pieces_cons (by simpa using hc) cs
      rw [hcons] at h
      rcases List.mem_cons.mp h with rfl | h
      · exact List.cons_subset_cons c (ih (hcs ▸ List.mem_cons_self))
      · exact List.subset_cons_of_subset c (ih (hcs ▸ List.mem_cons_of_mem v h))

/-- What is no mark is in a piece. -/
theorem mem_pieces {c : Char} (hc : c ∈ cs) (h : p c = false) : ∃ w ∈ pieces p cs, c ∈ w := by
  induction cs with
  | nil => cases hc
  | cons d cs ih =>
    by_cases hd : p d = true
    · rw [pieces_cons_mark hd]
      rcases List.mem_cons.mp hc with rfl | hc
      · rw [h] at hd
        cases hd
      · obtain ⟨w, hw, hcw⟩ := ih hc
        exact ⟨w, List.mem_cons_of_mem _ hw, hcw⟩
    · obtain ⟨v, ws, hcs, hcons⟩ := pieces_cons (by simpa using hd) cs
      rw [hcons]
      rcases List.mem_cons.mp hc with rfl | hc
      · exact ⟨_, List.mem_cons_self, List.mem_cons_self⟩
      · obtain ⟨w, hw, hcw⟩ := ih hc
        rw [hcs] at hw
        rcases List.mem_cons.mp hw with rfl | hw
        · exact ⟨_, List.mem_cons_self, List.mem_cons_of_mem _ hcw⟩
        · exact ⟨w, List.mem_cons_of_mem _ hw, hcw⟩

theorem pieces_unmarked (h : ∀ c ∈ w, p c = false) : pieces p w = [w] := by
  induction w with
  | nil => rfl
  | cons c w ih =>
    obtain ⟨v, ws, hw, hcons⟩ := pieces_cons (h c List.mem_cons_self) w
    rw [ih fun x hx => h x (List.mem_cons_of_mem c hx)] at hw
    injection hw with hv hws
    rw [hcons, ← hv, ← hws]

/-- A text is parted at each of its marks. -/
theorem pieces_append {mark : Char} (hm : p mark = true) (front rest : List Char) :
    pieces p (front ++ mark :: rest) = pieces p front ++ pieces p rest := by
  induction front with
  | nil => exact pieces_cons_mark hm rest
  | cons c front ih =>
    by_cases hc : p c = true
    · rw [List.cons_append, pieces_cons_mark hc, pieces_cons_mark hc, ih, List.cons_append]
    · have hc : p c = false := by simpa using hc
      obtain ⟨w, ws, hfront, hcons⟩ := pieces_cons hc front
      obtain ⟨v, vs, hboth, hcons'⟩ := pieces_cons hc (front ++ mark :: rest)
      rw [ih, hfront, List.cons_append] at hboth
      injection hboth with hv hvs
      rw [List.cons_append, hcons', hcons, ← hv, ← hvs, List.cons_append]

theorem pieces_append_mark {mark : Char} (hw : ∀ c ∈ w, p c = false) (hm : p mark = true)
    (rest : List Char) : pieces p (w ++ mark :: rest) = w :: pieces p rest := by
  rw [pieces_append hm, pieces_unmarked hw]
  rfl

/-- Pieces that were put together come apart again. -/
theorem pieces_intercalate {mark : Char} (hm : p mark = true) {ws : List (List Char)}
    (hne : ws ≠ []) (hws : ∀ w ∈ ws, ∀ c ∈ w, p c = false) :
    pieces p ([mark].intercalate ws) = ws := by
  induction ws with
  | nil => exact absurd rfl hne
  | cons w ws ih =>
    cases ws with
    | nil => simpa [List.intercalate] using pieces_unmarked (hws w List.mem_cons_self)
    | cons v ws =>
      have hsplit : [mark].intercalate (w :: v :: ws) =
          w ++ mark :: [mark].intercalate (v :: ws) := by
        simp [List.intercalate, List.intersperse]
      rw [hsplit, pieces_append_mark (hws w List.mem_cons_self) hm,
        ih (List.cons_ne_nil _ _) fun x hx => hws x (List.mem_cons_of_mem w hx)]

/-! ### Words -/

theorem words_append {mark : Char} (hm : isBlank mark = true) (front rest : List Char) :
    words (front ++ mark :: rest) = words front ++ words rest := by
  rw [words, pieces_append hm, List.filter_append]
  rfl

theorem words_blank_append {front : List Char} (h : ∀ c ∈ front, isBlank c = true)
    (rest : List Char) : words (front ++ rest) = words rest := by
  induction front with
  | nil => rfl
  | cons c front ih =>
    obtain ⟨hc, hfront⟩ := List.forall_mem_cons.mp h
    exact (words_append hc [] (front ++ rest)).trans (ih hfront)

theorem words_append_blank {back : List Char} (h : ∀ c ∈ back, isBlank c = true)
    (cs : List Char) : words (cs ++ back) = words cs := by
  cases back with
  | nil => rw [List.append_nil]
  | cons c back =>
    obtain ⟨hc, hback⟩ := List.forall_mem_cons.mp h
    have hnone : words back = [] := by
      rw [← List.append_nil back]
      exact words_blank_append hback []
    rw [words_append hc, hnone, List.append_nil]

/-- Trimming takes no word away. -/
theorem words_trim (cs : List Char) : words (trim cs) = words cs := by
  obtain ⟨front, back, hsplit, hfront, hback⟩ := trim_split cs
  conv_rhs => rw [hsplit, words_append_blank hback, words_blank_append hfront]

theorem words_of_word (hne : w ≠ []) (h : ∀ c ∈ w, isBlank c = false) : words w = [w] := by
  rw [words, pieces_unmarked h, List.filter_cons_of_pos (by simpa using hne), List.filter_nil]

/-- A word ends at a blank. -/
theorem words_word_append (hne : w ≠ []) (h : ∀ c ∈ w, isBlank c = false) {rest : List Char}
    (hrest : ∀ c ∈ rest.head?, isBlank c = true) : words (w ++ rest) = w :: words rest := by
  cases rest with
  | nil => rw [List.append_nil, words_of_word hne h]; rfl
  | cons c rest =>
    have hc : isBlank c = true := hrest c rfl
    rw [words_append hc, words_of_word hne h, List.singleton_append]
    exact congrArg _ (words_append hc [] rest).symm

/-- A trimmed text begins with its first word. -/
theorem head?_trim (cs : List Char) : (trim cs).head? = (words cs).head?.bind List.head? := by
  rw [← words_trim]
  obtain ⟨hhead, -⟩ := trim_unpadded cs
  cases htrim : trim cs with
  | nil => rfl
  | cons c rest =>
    have hc : isBlank c = false := hhead c (by rw [htrim]; rfl)
    obtain ⟨v, ws, -, hcons⟩ := pieces_cons hc rest
    rw [words, hcons, List.filter_cons_of_pos (by rfl)]
    rfl

end Sinkhole.Text
