import Sinkhole.Store.Sources
import Mathlib.Data.List.Nodup

/-! What the steps on sources leave alone.

A step on a source is told by its id, and ids are a key: no two sources have the same.
So a source that no step names is the same record after any number of steps. Ids stay
a key because a new source gets one beyond all that were given out (`Numbered`), and
no step on a source that is there gives it another. -/
namespace Sinkhole

/-- The source with nothing known of its content. -/
def Source.unread (s : Source) : Source :=
  { s with entityTag := none, remoteModified := none, appliedModified := none, sizeHint := 0 }

/-- What a source is registered as. -/
def Source.registration (s : Source) : Registration :=
  { label := s.label, location := s.location, enabled := s.enabled, allowList := s.allowList,
    redirects := s.redirects }

namespace Store

/-- Ids are a key of the sources. -/
def Keyed (s : Store) : Prop := (s.sources.map (·.id)).Nodup

instance (s : Store) : Decidable s.Keyed := inferInstanceAs (Decidable (List.Nodup _))

theorem Keyed.eq_of_id {s : Store} (h : s.Keyed) {a b : Source} (ha : a ∈ s.sources)
    (hb : b ∈ s.sources) (hid : a.id = b.id) : a = b :=
  List.inj_on_of_nodup_map h ha hb hid

theorem knows_iff {s : Store} {id : Int} : s.knows id = true ↔ id ∈ s.sources.map (·.id) := by
  rw [knows, List.any_eq_true, List.mem_map]
  exact exists_congr fun source => and_congr_right fun _ => beq_iff_eq

theorem knows_congr {s s' : Store} (h : s'.sources.map (·.id) = s.sources.map (·.id)) :
    s'.knows = s.knows := by
  funext id
  rw [Bool.eq_iff_iff, knows_iff, knows_iff, h]

theorem knows_of_mem {s : Store} {source : Source} (h : source ∈ s.sources) :
    s.knows source.id = true := knows_iff.mpr (List.mem_map_of_mem h)

theorem mem_of_source {s : Store} {id : Int} {source : Source} (h : s.source id = .ok source) :
    source ∈ s.sources ∧ source.id = id := by
  unfold Store.source at h
  split at h
  · rename_i found hfind
    injection h with h
    subst h
    have hid := List.find?_some (p := fun source : Source => source.id == id) hfind
    exact ⟨List.mem_of_find?_eq_some hfind, beq_iff_eq.mp hid⟩
  · cases h

theorem not_mem_of_source {s : Store} {id : Int} {e : Error} (h : s.source id = .error e) :
    id ∉ s.sources.map (·.id) := by
  unfold Store.source Store.source? at h
  split at h
  · cases h
  · rename_i hnone
    rw [List.find?_eq_none] at hnone
    simpa using hnone

/-! ### One source changed -/

variable (s : Store) {id : Int} {f : Source → Source} {source : Source}

theorem of_mem_modifySource (h : source ∈ (s.modifySource id f).sources) :
    ∃ old ∈ s.sources, source = old ∨ source = f old := by
  obtain ⟨old, hold, rfl⟩ := List.mem_map.mp h
  refine ⟨old, hold, ?_⟩
  split
  · exact .inr rfl
  · exact .inl rfl

theorem mem_modifySource_of_ne (h : source ∈ s.sources) (hne : source.id ≠ id) :
    source ∈ (s.modifySource id f).sources := by
  refine List.mem_map.mpr ⟨source, h, ?_⟩
  rw [if_neg (by simpa using hne)]

theorem mem_modifySource_self (h : source ∈ s.sources) :
    f source ∈ (s.modifySource source.id f).sources := by
  refine List.mem_map.mpr ⟨source, h, ?_⟩
  rw [if_pos (beq_self_eq_true _)]

/-- Where ids are a key only the one source is changed. -/
theorem Keyed.modifySource_sources {s : Store} (hk : s.Keyed) (h : source ∈ s.sources)
    (f : Source → Source) : (s.modifySource source.id f).sources =
      s.sources.map fun x => if x.id == source.id then f source else x := by
  refine List.map_congr_left fun x hx => ?_
  by_cases hid : x.id = source.id
  · rw [hk.eq_of_id hx h hid]
  · simp [hid]

/-- A change that keeps a property of sources keeps it for all of them. -/
theorem modifySource_map {α : Type} {g : Source → α} (hf : ∀ source, g (f source) = g source) :
    (s.modifySource id f).sources.map g = s.sources.map g := by
  rw [modifySource, List.map_map]
  refine List.map_congr_left fun source _ => ?_
  rw [Function.comp]
  split
  · exact hf source
  · rfl

/-- Sources of a kind that the changed ones are not of, before and after. -/
theorem modifySource_filter {p : Source → Bool}
    (h : ∀ x ∈ s.sources, x.id = id → p x = false ∧ p (f x) = false) :
    (s.modifySource id f).sources.filter p = s.sources.filter p := by
  rw [modifySource, List.filter_map]
  have hp : s.sources.filter (p ∘ fun x => if x.id == id then f x else x) = s.sources.filter p := by
    refine List.filter_congr fun x hx => ?_
    rw [Function.comp]
    split
    · rename_i hid
      rw [(h x hx (beq_iff_eq.mp hid)).1, (h x hx (beq_iff_eq.mp hid)).2]
    · rfl
  rw [hp]
  refine (List.map_congr_left fun x hx => ?_).trans (List.map_id _)
  rw [List.mem_filter] at hx
  refine if_neg fun hid => ?_
  rw [(h x hx.1 (beq_iff_eq.mp hid)).1] at hx
  exact absurd hx.2 Bool.false_ne_true

/-! ### Ids as they are given out -/

/-- Ids are a key, and none is beyond the last one that was given out. -/
structure Numbered (s : Store) : Prop where
  keyed : s.Keyed
  given : ∀ source ∈ s.sources, source.id ≤ s.lastId

namespace Numbered

variable {s s' : Store}

/-- The same sources by their ids, with no fewer ids given out. -/
theorem of_ids (h : s.Numbered) (hids : s'.sources.map (·.id) = s.sources.map (·.id))
    (hlast : s.lastId ≤ s'.lastId) : s'.Numbered where
  keyed := by
    rw [Keyed, hids]
    exact h.keyed
  given := by
    intro source hs
    have hid : source.id ∈ s'.sources.map (·.id) := List.mem_map_of_mem hs
    rw [hids, List.mem_map] at hid
    obtain ⟨old, hold, hid⟩ := hid
    have hgiven := h.given old hold
    omega

/-- A new source gets an id that none has. -/
theorem register (h : s.Numbered) (r : Registration) :
    { s with
      sources := s.sources ++ [newSource (s.lastId + 1) r]
      lastId := s.lastId + 1 }.Numbered where
  keyed := by
    show ((s.sources ++ [newSource (s.lastId + 1) r]).map (·.id)).Nodup
    rw [List.map_append]
    refine List.Nodup.append h.keyed (List.nodup_singleton _) fun id hid hnew => ?_
    obtain ⟨source, hs, rfl⟩ := List.mem_map.mp hid
    have hgiven := h.given source hs
    have hbeyond : source.id = s.lastId + 1 := by simpa [newSource] using hnew
    omega
  given := by
    intro source hs
    show source.id ≤ s.lastId + 1
    rcases List.mem_append.mp hs with hold | hnew
    · have hgiven := h.given source hold
      omega
    · have hid : source.id = s.lastId + 1 := by simp [List.mem_singleton.mp hnew, newSource]
      omega

end Numbered

theorem empty_numbered : empty.Numbered := ⟨by decide, by decide⟩

section

variable {s : Store} (h : s.Numbered)

include h

theorem upsert_numbered (r : Registration) : (s.upsert r).2.Numbered := by
  unfold upsert
  split
  · rename_i old hold
    have hids : (s.modifySource old.id (refreshed · r)).sources.map (·.id) =
        s.sources.map (·.id) := s.modifySource_map fun _ => rfl
    exact h.of_ids hids (show s.lastId ≤ s.lastId + 1 by omega)
  · exact h.register r

theorem remove_numbered {id : Int} {s' : Store} (hremove : s.remove id = .ok s') :
    s'.Numbered := by
  unfold remove at hremove
  split at hremove
  · cases hremove
  · split at hremove
    · injection hremove with hs'
      subst hs'
      exact ⟨h.keyed.sublist (List.filter_sublist.map _),
        fun source hs => h.given source (List.mem_of_mem_filter hs)⟩
    · cases hremove

end

/-! ### What a run learned -/

theorem mem_foldl_updateMetadata {learned : List (Int × Metadata)} (h : source ∈ s.sources)
    (hn : source.id ∉ learned.map Prod.fst) :
    source ∈ (learned.foldl (fun s l => s.updateMetadata l.1 l.2) s).sources := by
  induction learned generalizing s with
  | nil => exact h
  | cons l learned ih =>
    rw [List.map_cons, List.mem_cons, not_or] at hn
    exact ih (s.updateMetadata l.1 l.2) (s.mem_modifySource_of_ne h hn.1) hn.2

theorem foldl_updateMetadata_ids (learned : List (Int × Metadata)) :
    (learned.foldl (fun s l => s.updateMetadata l.1 l.2) s).sources.map (·.id) =
      s.sources.map (·.id) := by
  induction learned generalizing s with
  | nil => rfl
  | cons l learned ih =>
    exact (ih (s.updateMetadata l.1 l.2)).trans
      (s.modifySource_map (f := (Store.learned · l.2)) fun _ => rfl)

/-- With one record a source, each source has learned what there is of it. -/
theorem foldl_updateMetadata_sources {learned : List (Int × Metadata)}
    (hn : (learned.map Prod.fst).Nodup) :
    (learned.foldl (fun s l => s.updateMetadata l.1 l.2) s).sources =
      s.sources.map fun x => (learned.lookup x.id).elim x (Store.learned x) := by
  induction learned generalizing s with
  | nil => simp
  | cons l learned ih =>
    obtain ⟨id, m⟩ := l
    rw [List.map_cons, List.nodup_cons] at hn
    rw [List.foldl_cons, ih (s.updateMetadata id m) hn.2, updateMetadata, modifySource,
      List.map_map]
    refine List.map_congr_left fun x _ => ?_
    by_cases hid : x.id = id
    · subst hid
      have hnone : learned.lookup x.id = none := by
        refine List.lookup_eq_none_iff.mpr fun l hl => ?_
        have hmem : l.1 ∈ learned.map Prod.fst := List.mem_map_of_mem hl
        have hne : x.id ≠ l.1 := fun he => hn.1 (he ▸ hmem)
        simpa using hne
      have hsame : (Store.learned x m).id = x.id := rfl
      simp [hsame, hnone]
    · simp [hid, List.lookup_cons, beq_false_of_ne hid]

end Store

end Sinkhole
