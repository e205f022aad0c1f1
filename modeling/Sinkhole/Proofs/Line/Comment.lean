import Sinkhole.Proofs.Line

/-! What a comment behind a line of a block list does to it.

A line of a hosts file keeps its first two words, so a comment makes no difference to
it, whatever the comment says. The other forms are looked at for the marks of rules
about page elements before the comment is cut off, and those marks begin with the sign
that begins a comment. So a comment that holds one hides the host before it, and no
other comment does (`classify_commented`). -/
namespace Sinkhole.Line

open Text

variable {line rest gap : List Char}

/-! ### Parts of the check -/

/-- No mark of page elements lies across a blank. -/
theorem elementMarks_append (h : ∀ c ∈ rest.head?, isBlank c = true) (cs : List Char) :
    elementMarks.any (holds · (cs ++ rest)) =
      (elementMarks.any (holds · cs) || elementMarks.any (holds · rest)) := by
  have hunbroken : elementMarks.all (·.all (!isBlank ·)) = true := by decide
  rw [Bool.eq_iff_iff, Bool.or_eq_true]
  simp only [List.any_eq_true]
  rw [← exists_or]
  refine exists_congr fun mark => ?_
  rw [← and_or_left]
  refine and_congr_right fun hmark => ?_
  rw [holds_append, Bool.or_eq_true]
  intro c hc hin
  have := List.all_eq_true.mp (List.all_eq_true.mp hunbroken mark hmark) c hin
  rw [h c hc] at this
  cases this

theorem elementMarks_blank_append (h : ∀ c ∈ gap, isBlank c = true) (cs : List Char) :
    elementMarks.any (holds · (gap ++ cs)) = elementMarks.any (holds · cs) := by
  have hsign : ∀ mark ∈ elementMarks, mark = '#' :: mark.tail := by decide
  rw [Bool.eq_iff_iff]
  simp only [List.any_eq_true]
  refine exists_congr fun mark => and_congr_right fun hmark => ?_
  rw [hsign mark hmark, holds, afterFirst?_append, ← holds]
  rintro c hc rfl
  exact absurd (h _ hc) (by decide)

theorem elementMarks_trimEnd (comment : List Char) :
    elementMarks.any (holds · ('#' :: trimEnd comment)) =
      elementMarks.any (holds · ('#' :: comment)) := by
  obtain ⟨back, hcomment, hback⟩ := dropEndWhile_split isBlank comment
  have hnone : elementMarks.any (holds · back) = false := by
    rw [← List.append_nil back, elementMarks_blank_append hback]
    rfl
  have hsplit := elementMarks_append (fun c hc => hback c (List.mem_of_mem_head? hc))
    ('#' :: trimEnd comment)
  rw [hnone, Bool.or_false, List.cons_append, trimEnd, ← hcomment] at hsplit
  exact hsplit.symm

theorem words_sign (kept : List Char) : ∃ w ws, words ('#' :: kept) = ('#' :: w) :: ws := by
  obtain ⟨w, ws, -, hcons⟩ := pieces_cons (p := isBlank) (c := '#') rfl kept
  exact ⟨w, _, by rw [words, hcons, List.filter_cons_of_pos rfl]⟩

/-- A comment is at best the second word of a line, and then the line has no host. -/
theorem hostsFields_commented (hline : words line ≠ []) (hgap : gap ≠ [])
    (hblank : ∀ c ∈ gap, isBlank c = true) (kept : List Char) :
    hostsFields? (line ++ gap ++ '#' :: kept) = hostsFields? line := by
  obtain ⟨d, gap, rfl⟩ := List.exists_cons_of_ne_nil hgap
  obtain ⟨hd, hblank⟩ := List.forall_mem_cons.mp hblank
  obtain ⟨w, more, hcomment⟩ := words_sign kept
  have hwords : words (line ++ (d :: gap) ++ '#' :: kept) = words line ++ ('#' :: w) :: more := by
    rw [List.append_assoc, List.cons_append, words_append hd, words_blank_append hblank, hcomment]
  rw [hostsFields?, hostsFields?, hwords]
  cases hfirst : words line with
  | nil => exact absurd hfirst hline
  | cons address others =>
    cases others with
    | nil => rfl
    | cons host others => rfl

/-- A comment begins at the first sign for one. -/
theorem withoutComment_append {front : List Char} (h : '#' ∉ front) (rest : List Char) :
    withoutComment (front ++ '#' :: rest) = trimEnd front := by
  rw [withoutComment, if_pos (by simp), takeWhile_mark h]

/-- With a comment goes the blank before it, and no more. -/
theorem withoutComment_commented (hline : ∀ c ∈ line.getLast?, isBlank c = false)
    (hblank : ∀ c ∈ gap, isBlank c = true) (kept : List Char) :
    withoutComment (line ++ gap ++ '#' :: kept) = withoutComment line := by
  by_cases hsign : '#' ∈ line
  · obtain ⟨front, rest, rfl, hfront⟩ := List.eq_append_cons_of_mem hsign
    rw [List.append_assoc, List.append_assoc, List.cons_append, withoutComment_append hfront,
      withoutComment_append hfront]
  · have hfront : '#' ∉ line ++ gap := by
      rw [List.mem_append, not_or]
      exact ⟨hsign, fun hgap => absurd (hblank _ hgap) (by decide)⟩
    rw [withoutComment_append hfront, trimEnd, dropEndWhile_append hblank,
      dropEndWhile_self hline, withoutComment, if_neg (by simpa using hsign)]

theorem formEntry_commented (hline : Unpadded line) (hne : line ≠ []) (hgap : gap ≠ [])
    (hblank : ∀ c ∈ gap, isBlank c = true) (kept : List Char) :
    formEntry? (line ++ gap ++ '#' :: kept) =
      if elementMarks.any (holds · ('#' :: kept)) then none else formEntry? line := by
  obtain ⟨c, rest, rfl⟩ := List.exists_cons_of_ne_nil hne
  by_cases hopens : Opens c
  · have hjoined : ∀ x ∈ (gap ++ '#' :: kept).head?, isBlank x = true := by
      obtain ⟨d, gap, rfl⟩ := List.exists_cons_of_ne_nil hgap
      intro x hx
      cases hx
      exact hblank d List.mem_cons_self
    have hmarks : elementMarks.any (holds · (c :: rest ++ gap ++ '#' :: kept)) =
        (elementMarks.any (holds · (c :: rest)) || elementMarks.any (holds · ('#' :: kept))) := by
      rw [List.append_assoc, elementMarks_append hjoined, elementMarks_blank_append hblank]
    have hcut := withoutComment_commented hline.last hblank kept
    simp only [List.cons_append] at hmarks hcut ⊢
    rw [formEntry_of_opens hopens, formEntry_of_opens hopens, hmarks, hcut]
    cases elementMarks.any (holds · (c :: rest)) <;>
      cases elementMarks.any (holds · ('#' :: kept)) <;> rfl
  · have hnone : ∀ rest, formEntry? (c :: rest) = none := by
      refine fun rest => Option.eq_none_iff_forall_ne_some.mpr fun e he => ?_
      obtain ⟨_, _, hcons, hd⟩ := formEntry_opens he
      exact hopens ((List.cons_eq_cons.mp hcons).1 ▸ hd)
    rw [List.cons_append, List.cons_append, hnone, hnone, ite_self]

/-! ### Whole lines -/

/-- Trimming takes blanks off the front of the line and off the end of its comment. -/
theorem trim_commented (hne : trim line ≠ []) (comment : List Char) :
    ∃ gap, gap ≠ [] ∧ (∀ c ∈ gap, isBlank c = true) ∧
      trim (line ++ ' ' :: '#' :: comment) = trim line ++ gap ++ '#' :: trimEnd comment := by
  obtain ⟨front, gap, hline, hfront, hgap⟩ := trim_split line
  obtain ⟨back, hcomment, hback⟩ := dropEndWhile_split isBlank ('#' :: comment)
  rw [dropEndWhile_cons rfl] at hcomment
  have hunpadded : Unpadded (trim line ++ (gap ++ [' ']) ++ '#' :: trimEnd comment) := by
    constructor
    · intro c hc
      obtain ⟨d, rest, hd⟩ := List.exists_cons_of_ne_nil hne
      refine (trim_unpadded line).head c ?_
      rw [hd] at hc ⊢
      exact hc
    · intro c hc
      rw [List.getLast?_append_of_ne_nil _ (List.cons_ne_nil _ _)] at hc
      refine getLast?_dropEndWhile isBlank ('#' :: comment) c ?_
      rwa [dropEndWhile_cons rfl]
  refine ⟨gap ++ [' '], by simp, fun c hc => ?_, ?_⟩
  · exact (List.mem_append.mp hc).elim (hgap c) fun hc => by
      rw [List.mem_singleton.mp hc]
      rfl
  · rw [← trim_padded hfront hback hunpadded, hcomment]
    conv_lhs => rw [hline]
    simp only [trimEnd, List.append_assoc, List.cons_append, List.nil_append]

theorem blockEntry_commented (redirects : Bool) (hline : Unpadded line) (hne : line ≠ [])
    (hwords : words line ≠ []) (hgap : gap ≠ []) (hblank : ∀ c ∈ gap, isBlank c = true)
    (kept : List Char) :
    blockEntry? redirects (line ++ gap ++ '#' :: kept) =
      if hostsFields? line = none ∧ elementMarks.any (holds · ('#' :: kept)) then none
      else blockEntry? redirects line := by
  unfold blockEntry?
  rw [hostsFields_commented hwords hgap hblank,
    formEntry_commented hline hne hgap hblank]
  cases hostsFields? line with
  | none => simp only [true_and]
  | some => simp only [reduceCtorEq, false_and, if_false]

/-- **A comment behind a line of a block list changes what the line comes to in one case only**:
the line is none of a hosts file, and the comment with its sign holds a mark of page elements.
Then the line comes to nothing. -/
theorem classify_commented (redirects : Bool) (line comment : List Char) :
    classify .block redirects (line ++ ' ' :: '#' :: comment) =
      if hostsFields? line = none ∧ elementMarks.any (holds · ('#' :: comment)) then none
      else classify .block redirects line := by
  by_cases hne : trim line = []
  · -- nothing but the comment is left
    obtain ⟨w, ws, hcomment⟩ := words_sign comment
    have hstart : (trim (line ++ ' ' :: '#' :: comment)).head? = some '#' := by
      rw [head?_trim, words_append rfl, ← words_trim line, hne, hcomment]
      rfl
    simp [classify, hne, hstart]
  obtain ⟨gap, hgap, hblank, htrim⟩ := trim_commented hne comment
  have hfields : hostsFields? (trim line) = hostsFields? line := by
    rw [hostsFields?, words_trim, hostsFields?]
  have hwords : words (trim line) ≠ [] := by
    intro hnone
    have hhead := head?_trim line
    rw [← words_trim, hnone] at hhead
    exact hne (List.head?_eq_none_iff.mp hhead)
  have hentry := blockEntry_commented redirects (trim_unpadded line) hne hwords hgap hblank
    (trimEnd comment)
  rw [hfields, elementMarks_trimEnd] at hentry
  obtain ⟨c, rest, hc⟩ := List.exists_cons_of_ne_nil hne
  have hstart : (trim (line ++ ' ' :: '#' :: comment)).head? = (trim line).head? := by
    rw [htrim, hc]
    rfl
  have hempty : (trim (line ++ ' ' :: '#' :: comment)).isEmpty = (trim line).isEmpty := by
    rw [htrim, hc]
    rfl
  rw [classify, classify, hstart, hempty]
  rw [htrim, hentry]
  split
  · rw [ite_self]
  · split <;> rfl

/-- A comment that reads like a rule hides the host before it. -/
theorem classify_hidden :
    classify .block false "ads.example.com".toList = some (.blocked "ads.example.com") ∧
      classify .block false ("ads.example.com".toList ++ ' ' :: '#' :: "#.banner".toList) =
        none := by
  decide +kernel

end Sinkhole.Line
