import Sinkhole.Disk
import Sinkhole.Proofs.Text.Pieces

/-! Paths and the folders they are in.

What names the folder of a path names everything on the way to it but the last
segment, so a path leads one step further than the path to its folder, or no step at
all where the last segment is a point. -/
namespace Sinkhole

namespace Path

open Text

/-! ### The folder of a path -/

/-- Segments that lead nowhere. -/
theorem dropIdle_names (absolute : Bool) (segments : List (List Char)) :
    ∃ idle, segments = idle ++ dropIdle absolute segments ∧
      idle.filter (fun s => !s.isEmpty && s != ['.']) = [] := by
  induction segments with
  | nil => exact ⟨[], rfl, rfl⟩
  | cons last before ih =>
    cases hnaming : isNaming absolute before last with
    | true => exact ⟨[], by simp [dropIdle, hnaming], rfl⟩
    | false =>
      obtain ⟨idle, hsplit, hnone⟩ := ih
      refine ⟨last :: idle, ?_, ?_⟩
      · rw [dropIdle, hnaming, if_neg Bool.false_ne_true, List.cons_append, ← hsplit]
      · rw [List.filter_cons_of_neg, hnone]
        unfold isNaming at hnaming
        split at hnaming
        · simp [*]
        · simpa using fun h => absurd h (by simpa using hnaming)

theorem not_slash_of_mem_body {path w : List Char} (h : w ∈ body path) :
    ∀ c ∈ w, (c == '/') = false := by
  unfold body at h
  split at h
  · exact not_mark_of_mem_pieces (List.mem_of_mem_drop h)
  · exact not_mark_of_mem_pieces h

/-- Segments between slashes name what they name apart. -/
theorem pieces_names {segments : List (List Char)}
    (h : ∀ w ∈ segments, ∀ c ∈ w, (c == '/') = false) :
    (pieces (· == '/') (['/'].intercalate segments)).filter (fun s => !s.isEmpty && s != ['.']) =
      segments.filter fun s => !s.isEmpty && s != ['.'] := by
  cases segments with
  | nil => rfl
  | cons w ws => rw [pieces_intercalate (by rfl) (List.cons_ne_nil w ws) h]

/-- A path that does not begin at the root begins with a segment that has characters, if it has
any. -/
theorem body_head {path : List Char} (h : isAbsolute path = false) :
    path = [] ∨ ∃ c w ws, (c == '/') = false ∧ body path = (c :: w) :: ws := by
  cases path with
  | nil => exact .inl rfl
  | cons c path =>
    have hc : (c == '/') = false := by simpa [isAbsolute] using h
    obtain ⟨w, ws, -, hcons⟩ := pieces_cons (p := (· == '/')) hc path
    exact .inr ⟨c, w, ws, hc, by rw [body, h, if_neg Bool.false_ne_true, hcons]⟩

/-- The segments of the folder, and behind them the last one among segments that lead nowhere. -/
theorem body_split {path last : List Char} {before : List (List Char)}
    (h : fromEnd path = last :: before) :
    ∃ behind, body path = (dropIdle (isAbsolute path) before).reverse ++ behind ∧
      behind.filter (fun s => !s.isEmpty && s != ['.']) =
        [last].filter fun s => !s.isEmpty && s != ['.'] := by
  obtain ⟨idle, hsplit, hidle⟩ := dropIdle_names (isAbsolute path) (body path).reverse
  obtain ⟨idle', hsplit', hidle'⟩ := dropIdle_names (isAbsolute path) before
  rw [show dropIdle (isAbsolute path) (body path).reverse = last :: before from h,
    hsplit'] at hsplit
  refine ⟨idle'.reverse ++ ([last] ++ idle.reverse), ?_, ?_⟩
  · rw [← List.reverse_reverse (body path), hsplit]
    simp
  · simp only [List.filter_append, List.filter_reverse, hidle, hidle', List.reverse_nil,
      List.nil_append, List.append_nil]

theorem isAbsolute_intercalate {path : List Char} {segments behind : List (List Char)}
    (hne : path ≠ []) (h : isAbsolute path = false) (hbody : body path = segments ++ behind) :
    isAbsolute (['/'].intercalate segments) = false := by
  cases segments with
  | nil => rfl
  | cons first others =>
    obtain rfl | ⟨c, w, ws, hc, hhead⟩ := body_head h
    · exact absurd rfl hne
    · rw [hbody] at hhead
      injection hhead with hfirst
      rw [hfirst]
      cases others <;> simpa [List.intercalate, List.intersperse, isAbsolute] using hc

/-- The way to the folder of a path, and one name at most behind it. -/
theorem names_parent {path folder : List Char} (h : parent? path = some folder) :
    isAbsolute folder = isAbsolute path ∧
      ∃ last, last.length ≤ 1 ∧ names path = names folder ++ last := by
  unfold parent? at h
  split at h
  · rename_i last before hend
    injection h with hfolder
    obtain ⟨behind, hbody, hbehind⟩ := body_split hend
    generalize (dropIdle (isAbsolute path) before).reverse = segments at hfolder hbody
    have hplain : ∀ w ∈ segments, ∀ c ∈ w, (c == '/') = false := fun w hw =>
      not_slash_of_mem_body (hbody ▸ List.mem_append_left _ hw)
    have hnames : names path = segments.filter (fun s => !s.isEmpty && s != ['.']) ++
        [last].filter fun s => !s.isEmpty && s != ['.'] := by
      rw [names, hbody, List.filter_append, hbehind]
    have hlast : ([last].filter fun s => !s.isEmpty && s != ['.']).length ≤ 1 :=
      List.length_filter_le _ [last]
    cases habs : isAbsolute path with
    | true =>
      rw [habs, if_pos rfl] at hfolder
      subst hfolder
      refine ⟨rfl, _, hlast, hnames.trans (congrArg (· ++ _) ?_)⟩
      rw [names, body, isAbsolute, List.head?_cons, if_pos (by rfl), pieces_cons_mark (by rfl),
        List.drop_succ_cons, List.drop_zero, pieces_names hplain]
    | false =>
      rw [habs, if_neg Bool.false_ne_true] at hfolder
      subst hfolder
      have hne : path ≠ [] := by
        rintro rfl
        cases hend
      have hrelative := isAbsolute_intercalate hne habs hbody
      refine ⟨hrelative, _, hlast, hnames.trans (congrArg (· ++ _) ?_)⟩
      rw [names, body, hrelative, if_neg Bool.false_ne_true, pieces_names hplain]
  · cases h

/-- A path without a folder names nothing. -/
theorem names_of_parent_none {path : List Char} (h : parent? path = none) : names path = [] := by
  unfold parent? at h
  split at h
  · cases h
  · rename_i hend
    obtain ⟨idle, hsplit, hidle⟩ := dropIdle_names (isAbsolute path) (body path).reverse
    rw [show dropIdle (isAbsolute path) (body path).reverse = [] from hend,
      List.append_nil] at hsplit
    rw [names, ← List.reverse_reverse (body path), hsplit, List.filter_reverse, hidle]
    rfl

end Path

end Sinkhole
