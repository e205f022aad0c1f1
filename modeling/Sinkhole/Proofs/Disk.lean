import Mathlib.Data.List.Infix
import Sinkhole.Proofs.Path

/-! What is on a disk after it was written to.

A disk is in order if everything on it lies in folders, which is how it stays: folders
are made one inside the other, and a file is put where there is none or instead of
another. Where it is in order a path leads to what is at its place. -/
namespace Sinkhole.Disk

variable {d d' : Disk} {place : Trail} {node : Node}

/-! ### Places -/

@[simp]
theorem at?_root (d : Disk) : d.at? [] = some .folder := rfl

theorem lookup_filter_ne {nodes : List (Trail × Node)} {p : Trail} (h : p ≠ place) :
    (nodes.filter (·.1 != place)).lookup p = nodes.lookup p := by
  induction nodes with
  | nil => rfl
  | cons e nodes ih =>
    by_cases he : e.1 = place
    · have hp : (p == e.1) = false := beq_false_of_ne (he ▸ h)
      rw [List.filter_cons_of_neg (by simpa using he), ih, List.lookup_cons, hp]
    · rw [List.filter_cons_of_pos (by simpa using he), List.lookup_cons, List.lookup_cons, ih]

theorem root_ne_of_free (h : d.at? place ≠ some .folder) : place ≠ [] := by
  rintro rfl
  exact h rfl

theorem at?_put_self (hp : place ≠ []) : (d.put place node).at? place = some node := by
  simp [at?, put, hp]

theorem at?_put_of_ne {p : Trail} (h : p ≠ place) : (d.put place node).at? p = d.at? p := by
  cases p with
  | nil => rfl
  | cons name p =>
    have hne : (name :: p == place) = false := beq_false_of_ne h
    simp only [at?, put, List.isEmpty_cons, List.lookup_cons, hne]
    exact lookup_filter_ne h

/-- Everything on the disk lies in folders, and so does whoever works on it. -/
structure Sound (d : Disk) : Prop where
  inFolders : ∀ p n, d.at? p = some n → ∀ q, q <+: p → q ≠ p → d.at? q = some .folder
  here : d.at? d.here = some .folder

theorem sound_empty : Sound {} where
  inFolders := by
    intro p n hat q hq hne
    cases p with
    | nil => exact absurd (List.prefix_nil.mp hq) hne
    | cons name p => cases hat
  here := rfl

/-! ### Where a path leads -/

theorem at?_of_findFrom {rest : Trail} (h : d.findFrom place rest = .ok node) :
    d.at? (place ++ rest) = some node := by
  induction rest generalizing place with
  | nil =>
    rw [findFrom] at h
    split at h
    · injection h with h
      rwa [List.append_nil, ← h]
    · cases h
  | cons name rest ih =>
    rw [findFrom] at h
    split at h
    · rw [List.append_cons]
      exact ih h
    · cases h
    · cases h

theorem findFrom_of_at? {rest : Trail} (h : d.at? (place ++ rest) = some node)
    (hway : ∀ q, q <+: place ++ rest → q ≠ place ++ rest → d.at? q = some .folder) :
    d.findFrom place rest = .ok node := by
  induction rest generalizing place with
  | nil =>
    rw [List.append_nil] at h
    rw [findFrom, h]
  | cons name rest ih =>
    rw [findFrom, hway place (List.prefix_append _ _) (by simp)]
    refine ih ?_ ?_
    · rwa [← List.append_cons]
    · rwa [← List.append_cons]

namespace Sound

variable (h : d.Sound) {path : String}

include h

theorem find_of_at? (hpath : path.isEmpty = false) (hat : d.at? (d.trail path) = some node) :
    d.find path = .ok node := by
  rw [find, hpath, if_neg Bool.false_ne_true]
  exact findFrom_of_at? hat (h.inFolders _ node hat)

end Sound

theorem at?_of_find {path : String} (h : d.find path = .ok node) :
    d.at? (d.trail path) = some node := by
  unfold find at h
  split at h
  · cases h
  · simpa using at?_of_findFrom h

theorem find_of_at?_none {path : String} (h : d.at? (d.trail path) = none) :
    ∃ e, d.find path = .error e := by
  cases hfind : d.find path with
  | error e => exact ⟨e, rfl⟩
  | ok n =>
    rw [at?_of_find hfind] at h
    cases h

/-- The way to a folder leads through folders. -/
theorem Sound.folder_of_prefix (h : d.Sound) {way q : Trail} (hway : d.at? way = some .folder)
    (hq : q <+: way) : d.at? q = some .folder := by
  by_cases he : q = way
  · exact he ▸ hway
  · exact h.inFolders way .folder hway q hq he

/-- Nothing but folders is on the way to a place in a folder. -/
theorem Sound.folder_of_concat (h : d.Sound) {way q : Trail} {name : List Char}
    (hway : d.at? way = some .folder) (hq : q <+: way ++ [name]) (hne : q ≠ way ++ [name]) :
    d.at? q = some .folder := by
  rcases List.prefix_concat_iff.mp hq with he | hq
  · exact absurd he hne
  · exact h.folder_of_prefix hway hq

/-! ### Putting something somewhere -/

/-- A disk stays in order if what is put on it lies in folders and does not take one away. -/
theorem Sound.put (h : d.Sound) (hfree : d.at? place ≠ some .folder)
    (hway : ∀ q, q <+: place → q ≠ place → d.at? q = some .folder) :
    (d.put place node).Sound where
  inFolders := by
    intro p n hp q hq hne
    -- the way to what is there does not lead through the place
    have hother : ∀ q, d.at? q = some .folder → (d.put place node).at? q = some .folder := by
      intro q hfolder
      have hne : q ≠ place := by
        rintro rfl
        exact hfree hfolder
      rw [at?_put_of_ne hne, hfolder]
    by_cases hplace : p = place
    · exact hother q (hway q (hplace ▸ hq) fun he => hne (he.trans hplace.symm))
    · rw [at?_put_of_ne hplace] at hp
      exact hother q (h.inFolders p n hp q hq hne)
  here := by
    have hne : d.here ≠ place := fun he => hfree (he ▸ h.here)
    exact (at?_put_of_ne hne).trans h.here

/-! ### Making folders -/

/-- All that was done was to make the folders that were missing on a way. -/
structure Made (way : Trail) (d d' : Disk) : Prop where
  sound : d'.Sound
  here : d'.here = d.here
  folders : ∀ q, q <+: way → d'.at? q = some .folder
  others : ∀ p, d'.at? p = d.at? p ∨ d.at? p = none ∧ p <+: way

/-- Where there are folders all the way nothing is made. -/
theorem Sound.made_refl (h : d.Sound) {way : Trail} (hway : d.at? way = some .folder) :
    Made way d d where
  sound := h
  here := rfl
  folders := fun _ hq => h.folder_of_prefix hway hq
  others := fun _ => .inl rfl

theorem makeFolders_made {rest : Trail} (h : d.Sound) (hplace : d.at? place = some .folder)
    (hmake : d.makeFolders place rest = .ok d') : Made (place ++ rest) d d' := by
  induction rest generalizing place d with
  | nil =>
    injection hmake with hd
    subst hd
    rw [List.append_nil]
    exact h.made_refl hplace
  | cons name rest ih =>
    rw [List.append_cons]
    rw [makeFolders] at hmake
    split at hmake
    · rename_i hnext
      exact ih h hnext hmake
    · cases hmake
    · rename_i hnext
      have hput : (d.put (place ++ [name]) .folder).Sound :=
        h.put (by simp [hnext]) fun _ => h.folder_of_concat hplace
      have hmade := ih hput (at?_put_self (by simp)) hmake
      refine ⟨hmade.sound, hmade.here, hmade.folders, fun p => ?_⟩
      by_cases hp : p = place ++ [name]
      · exact .inr ⟨hp ▸ hnext, hp ▸ List.prefix_append _ _⟩
      · have hothers := hmade.others p
        rwa [at?_put_of_ne hp] at hothers

theorem makeFolders_of_folders {rest : Trail}
    (h : ∀ q, q <+: place ++ rest → d.at? q = some .folder) : d.makeFolders place rest = .ok d := by
  induction rest generalizing place with
  | nil => rfl
  | cons name rest ih =>
    rw [List.append_cons] at h
    rw [makeFolders, h _ (List.prefix_append _ _)]
    exact ih h

/-! ### The folder of a path -/

/-- The way to the folder that a path is in. -/
def way (d : Disk) (path : String) : Trail :=
  match Path.parent? path.toList with
  | some folder => d.trail (String.ofList folder)
  | none => d.trail path

theorem trail_congr (h : d'.here = d.here) : d'.trail = d.trail := by
  funext path
  rw [trail, trail, h]

theorem way_congr (h : d'.here = d.here) : d'.way = d.way := by
  funext path
  rw [way, way, trail_congr h]

/-- A path leads to its folder and one step further at most. -/
theorem trail_eq (d : Disk) (path : String) :
    ∃ last : Trail, last.length ≤ 1 ∧ d.trail path = last.foldl step (d.way path) := by
  unfold way
  split
  · rename_i folder hparent
    obtain ⟨habs, last, hlast, hnames⟩ := Path.names_parent hparent
    refine ⟨last, hlast, ?_⟩
    simp only [trail, hnames, List.foldl_append, String.toList_ofList, habs]
  · exact ⟨[], Nat.zero_le _, rfl⟩

theorem makeParent_made {path : String} (h : d.Sound) (hmake : d.makeParent path = .ok d') :
    Made (d.way path) d d' := by
  unfold makeParent at hmake
  unfold way
  split at hmake
  · rename_i hparent
    injection hmake with hd
    subst hd
    rw [hparent]
    show Made (d.trail path) d d
    refine h.made_refl ?_
    rw [trail, Path.names_of_parent_none hparent, List.foldl_nil]
    split
    · rfl
    · exact h.here
  · rename_i hparent
    injection hmake with hd
    subst hd
    rw [hparent]
    exact h.made_refl h.here
  · rename_i folder _ hparent
    rw [hparent]
    exact makeFolders_made h (at?_root d) hmake

/-- Where the folder of a path is, nothing is made. -/
theorem makeParent_of_folders {path : String}
    (h : ∀ q, q <+: d.way path → d.at? q = some .folder) : d.makeParent path = .ok d := by
  unfold makeParent
  unfold way at h
  split
  · rfl
  · rfl
  · rename_i folder _ hparent
    rw [hparent] at h
    exact makeFolders_of_folders h

/-- What is no folder lies right in the folder of the path that leads there. -/
theorem Made.trail_eq_concat {path : String} (h : Made (d.way path) d d')
    (hplace : d'.at? (d.trail path) ≠ some .folder) :
    ∃ name, d.trail path = d.way path ++ [name] := by
  obtain ⟨last, hlast, htrail⟩ := d.trail_eq path
  match last, hlast with
  | [], _ =>
    rw [htrail] at hplace
    exact absurd (h.folders _ (List.prefix_refl _)) hplace
  | [name], _ =>
    by_cases hup : name = ['.', '.']
    · rw [htrail, List.foldl_cons, List.foldl_nil, step, if_pos hup] at hplace
      exact absurd (h.folders _ (List.dropLast_prefix _)) hplace
    · refine ⟨name, ?_⟩
      rw [htrail, List.foldl_cons, List.foldl_nil, step, if_neg hup]

/-- Once the folder of a path is there, anything can be put where the path leads. -/
theorem Made.put_sound {path : String} (h : Made (d.way path) d d')
    (hfree : d'.at? (d.trail path) ≠ some .folder) (node : Node) :
    (d'.put (d.trail path) node).Sound := by
  obtain ⟨name, hname⟩ := h.trail_eq_concat hfree
  refine h.sound.put hfree fun q hq hne => ?_
  rw [hname] at hq hne
  exact h.sound.folder_of_concat (h.folders _ (List.prefix_refl _)) hq hne

end Sinkhole.Disk
