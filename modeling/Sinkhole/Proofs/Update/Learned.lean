import Sinkhole.Proofs.Update.Adopted
import Sinkhole.Proofs.Update.Withheld

/-! What a committed run over all sources has learned.

Each source was visited once or not at all. What is known of it after the run depends on
its own visit only: `sourceAfter` reads it off the visits, and `FullRun.outcome_sources`
says that this is all there is to the sources of the store that the run leaves. -/
namespace Sinkhole.Update

variable {σ : Type} {w : World σ} {s : Setup}

/-! ### The visit to a source -/

/-- The visit to the source with this id, if there was one. -/
def visitTo (visits : List (Visit σ)) (id : Int) : Option (Visit σ) :=
  visits.find? (·.source.id == id)

section

variable {visits : List (Visit σ)} {id : Int}

theorem visitTo_some {v : Visit σ} (h : visitTo visits id = some v) :
    v ∈ visits ∧ v.source.id = id :=
  ⟨List.mem_of_find?_eq_some h, by simpa using List.find?_some h⟩

theorem visitTo_eq_none : visitTo visits id = none ↔ ∀ v ∈ visits, v.source.id ≠ id := by
  simp [visitTo]

/-! ### What was learned -/

theorem learnedOf_cons (v : Visit σ) (visits : List (Visit σ)) :
    learnedOf ((v :: visits).map Visit.result) =
      (v.settled.learned?.map fun m => (v.source.id, m)).toList ++
        learnedOf (visits.map Visit.result) := by
  have hresult : v.result.settled = v.settled := rfl
  rw [List.map_cons, learnedOf, learnedOf, List.filterMap_cons, hresult]
  cases v.settled.learned? <;> rfl

/-- Of an id nothing is learned but on a visit to it. -/
theorem mem_learnedOf (h : id ∈ (learnedOf (visits.map Visit.result)).map Prod.fst) :
    id ∈ visits.map (·.source.id) := by
  refine Classical.byContradiction fun hn => ?_
  refine FullRun.not_mem_learnedOf (fun v hv hid => ?_) h
  exact absurd (hid ▸ List.mem_map_of_mem hv) hn

theorem learnedOf_nodup (hn : (visits.map (·.source.id)).Nodup) :
    ((learnedOf (visits.map Visit.result)).map Prod.fst).Nodup := by
  induction visits with
  | nil => exact List.nodup_nil
  | cons v visits ih =>
    rw [List.map_cons, List.nodup_cons] at hn
    rw [learnedOf_cons]
    cases v.settled.learned? with
    | none => exact ih hn.2
    | some m =>
      refine List.nodup_cons.mpr ⟨fun h => hn.1 (mem_learnedOf h), ih hn.2⟩

/-- What was learned of a source is what its visit learned. -/
theorem lookup_learnedOf (hn : (visits.map (·.source.id)).Nodup) :
    (learnedOf (visits.map Visit.result)).lookup id =
      (visitTo visits id).bind (·.settled.learned?) := by
  induction visits with
  | nil => rfl
  | cons v visits ih =>
    rw [List.map_cons, List.nodup_cons] at hn
    have hrest := ih hn.2
    rw [learnedOf_cons, visitTo, List.find?_cons]
    by_cases hid : v.source.id = id
    · have hnone : visitTo visits id = none :=
        visitTo_eq_none.mpr fun v' hv' he => hn.1 (hid ▸ he ▸ List.mem_map_of_mem hv')
      rw [hnone] at hrest
      cases hm : v.settled.learned? with
      | none => simpa [hid, hm] using hrest
      | some m => simp [hid, hm]
    · have hother : (v.source.id == id) = false := beq_false_of_ne hid
      have hother' : (id == v.source.id) = false := beq_false_of_ne fun he => hid he.symm
      cases v.settled.learned? with
      | none => simpa [hother, visitTo] using hrest
      | some m => simpa [hother, hother', visitTo, List.lookup_cons] using hrest

end

/-! ### The sources after a run -/

/-- The source as a committed run with these visits leaves it. -/
def sourceAfter (visits : List (Visit σ)) (x : Source) : Source :=
  match visitTo visits x.id with
  | some v => v.settled.learned?.elim x (Store.learned x)
  | none => x.clearedIfIdle

/-- What neither learning nor clearing touches is as it was. -/
theorem sourceAfter_map {α : Type} {g : Source → α} (hl : ∀ x m, g (Store.learned x m) = g x)
    (hu : ∀ x, g x.unread = g x) (visits : List (Visit σ)) (x : Source) :
    g (sourceAfter visits x) = g x := by
  unfold sourceAfter
  split
  · rename_i v _
    cases v.settled.learned? with
    | none => rfl
    | some m => exact hl x m
  · exact Source.clearedIfIdle_map hu x

theorem adopt_sources (store : Store) (active : Int) (results : List Result)
    (hn : ((learnedOf results).map Prod.fst).Nodup) :
    (adopt store active results).sources =
      store.sources.map fun x => ((learnedOf results).lookup x.id).elim x (Store.learned x) := by
  have hcarried := (carryAll_changes store (keptIds results) active (active + 1)).sources
  refine (Store.foldl_updateMetadata_sources
    { carryAll store (keptIds results) active (active + 1) with active := active + 1 } hn).trans ?_
  exact congrArg _ hcarried

/-- **After a committed run each source is known as its own visit leaves it**; one that was not
visited is as it was, or cleared if it is off. -/
theorem FullRun.outcome_sources {u start last : Updater σ} {visits : List (Visit σ)}
    (h : FullRun w s u start visits last) (hk : u.store.Keyed)
    (hs : last.control.stopped = false) :
    (FullRun.outcome u last visits).sources = u.store.sources.map (sourceAfter visits) := by
  have hnodup := h.nodup hk hs
  have hlast : last.store.sources = u.store.sources.map Source.clearedIfIdle := by
    rw [h.sources, forgetAll_idle hk]
  refine (adopt_sources _ _ _ (learnedOf_nodup hnodup)).trans ?_
  show last.store.sources.map _ = _
  rw [hlast, List.map_map]
  refine List.map_congr_left fun x hx => ?_
  have hid : x.clearedIfIdle.id = x.id := Source.clearedIfIdle_map (fun _ => rfl) x
  rw [Function.comp, hid, lookup_learnedOf hnodup, sourceAfter]
  cases hv : visitTo visits x.id with
  | none => rfl
  | some v =>
    -- a source that was visited is on, so it was not cleared
    obtain ⟨hmem, hvid⟩ := visitTo_some hv
    obtain ⟨hvs, henabled, -, -⟩ := mem_fetchable.mp (h.planned v hmem)
    rw [hk.eq_of_id hvs hx hvid] at henabled
    have hkept : x.clearedIfIdle = x := by simp [Source.clearedIfIdle, henabled]
    rw [hkept]
    rfl

end Sinkhole.Update
