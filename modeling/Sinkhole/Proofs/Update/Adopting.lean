import Sinkhole.Update.All
import Sinkhole.Proofs.Store.Items
import Sinkhole.Proofs.Store.Sources

/-! What forgetting and adopting make of a store.

These are the two ends of a run over all sources. Forgetting takes everything from the
sources that have no part in the run. Adopting fills the staged generation up with the
items of the sources that keep theirs, makes it the active one and takes out the rest;
`adopt_owned` says what each source holds after that, by how it came out. -/
namespace Sinkhole.Update

variable (s : Store)

/-! ### Forgetting -/

/-- The store without what it held for the sources. -/
def forgetAll (sources : List Source) : Store :=
  sources.foldl (fun s source => forget s source.id) s

theorem forget_sources (id : Int) :
    (forget s id).sources = (s.modifySource id Source.unread).sources := rfl

theorem forgetAll_items (sources : List Source) :
    (forgetAll s sources).items =
      s.items.filter fun i => !sources.any fun source => source.id == i.source := by
  induction sources generalizing s with
  | nil => exact (List.filter_true s.items).symm
  | cons source sources ih =>
    refine (ih (forget s source.id)).trans ?_
    show (s.items.filter _).filter _ = _
    rw [List.filter_filter]
    refine List.filter_congr fun i _ => ?_
    rw [List.any_cons, Option.isNone_none, Bool.true_or, Bool.and_true, Bool.not_or, Bool.and_comm,
      Bool.beq_comm]

/-- Nothing but items and sources changes. -/
theorem forgetAll_eq (sources : List Source) :
    forgetAll s sources =
      { s with
        sources := (forgetAll s sources).sources
        items := (forgetAll s sources).items } := by
  induction sources generalizing s with
  | nil => rfl
  | cons source sources ih => exact ih (forget s source.id)

theorem forgetAll_ids (sources : List Source) :
    (forgetAll s sources).sources.map (·.id) = s.sources.map (·.id) := by
  induction sources generalizing s with
  | nil => rfl
  | cons source sources ih =>
    exact (ih (forget s source.id)).trans (s.modifySource_map (f := Source.unread) fun _ => rfl)

theorem forgetAll_numbered (h : s.Numbered) (sources : List Source) :
    (forgetAll s sources).Numbered := by
  have hlast : (forgetAll s sources).lastId = s.lastId := by rw [forgetAll_eq]
  exact h.of_ids (forgetAll_ids s sources) (by omega)

theorem mem_forgetAll_of_not_mem {sources : List Source} {source : Source}
    (h : source ∈ s.sources) (hn : ∀ other ∈ sources, source.id ≠ other.id) :
    source ∈ (forgetAll s sources).sources := by
  induction sources generalizing s with
  | nil => exact h
  | cons other sources ih =>
    refine ih (forget s other.id) ?_ fun x hx => hn x (List.mem_cons_of_mem other hx)
    exact s.mem_modifySource_of_ne h (hn other List.mem_cons_self)

/-- A source that was forgotten is there with nothing known of its content. -/
theorem mem_forgetAll_of_mem {sources : List Source} {source : Source} (h : source ∈ s.sources)
    (hm : source ∈ sources) : source.unread ∈ (forgetAll s sources).sources := by
  -- forgetting a source again changes nothing, so it may be named any number of times
  have again : ∀ (sources : List Source) (s : Store), source.unread ∈ s.sources →
      source.unread ∈ (forgetAll s sources).sources := by
    intro sources
    induction sources with
    | nil => exact fun s hs => hs
    | cons other sources ih =>
      refine fun s hs => ih (forget s other.id) ?_
      by_cases hid : source.unread.id = other.id
      · rw [forget_sources, ← hid]
        exact s.mem_modifySource_self hs
      · exact s.mem_modifySource_of_ne hs hid
  induction sources generalizing s with
  | nil => cases hm
  | cons other sources ih =>
    by_cases hid : source.id = other.id
    · refine again sources (forget s other.id) ?_
      rw [forget_sources, ← hid]
      exact s.mem_modifySource_self h
    · rcases List.mem_cons.mp hm with rfl | hm
      · exact absurd rfl hid
      · exact ih (forget s other.id) (s.mem_modifySource_of_ne h hid) hm

/-- Forgetting disabled sources leaves the enabled ones as they are. -/
theorem forgetAll_enabled {sources : List Source}
    (h : ∀ source ∈ sources, ∀ x ∈ s.sources, x.id = source.id → x.enabled = false) :
    (forgetAll s sources).sources.filter (·.enabled) = s.sources.filter (·.enabled) := by
  induction sources generalizing s with
  | nil => rfl
  | cons source sources ih =>
    refine (ih (forget s source.id) fun other hother x hx hid => ?_).trans ?_
    · obtain ⟨y, hy, rfl | rfl⟩ := s.of_mem_modifySource hx
      · exact h other (List.mem_cons_of_mem source hother) x hy hid
      · exact h other (List.mem_cons_of_mem source hother) y hy hid
    · refine s.modifySource_filter fun x hx hid => ?_
      have hdisabled := h source List.mem_cons_self x hx hid
      exact ⟨hdisabled, hdisabled⟩

/-! ### Before the first visit -/

/-- The sources that have no part in a run over all: the disabled ones. -/
def idle (s : Store) : List Source := (s.sources.filter (!·.isUser)).filter (!·.enabled)

/-- The store that the visits of a run start from. -/
def cleared (s : Store) : Store := { (forgetAll s (idle s)).discard.2 with durability := .relaxed }

theorem mem_idle {source : Source} :
    source ∈ idle s ↔ source ∈ s.sources ∧ source.isUser = false ∧ source.enabled = false := by
  rw [idle, List.mem_filter, List.mem_filter, Bool.not_eq_true', Bool.not_eq_true', and_assoc]

theorem cleared_active : (cleared s).active = s.active := by
  show (forgetAll s (idle s)).active = s.active
  rw [forgetAll_eq]

theorem cleared_table : (cleared s).table = s.table := by
  show (forgetAll s (idle s)).table = s.table
  rw [forgetAll_eq]

theorem cleared_items :
    (cleared s).items =
      (s.items.filter fun i => !(idle s).any fun source => source.id == i.source).filter
        fun i => i.source == Source.userId || decide (i.generation ≤ s.active) := by
  have hactive : (forgetAll s (idle s)).active = s.active := cleared_active s
  refine (Store.discard_items _).trans ?_
  rw [hactive, forgetAll_items]

/-- The items of a source that has a part in the run, as they are in force. -/
theorem cleared_itemsOf_active {id : Int} (h : ∀ source ∈ idle s, source.id ≠ id) :
    (cleared s).itemsOf id s.active = s.itemsOf id s.active := by
  rw [Store.itemsOf, cleared_items, filter_filter_of_imp, filter_filter_of_imp]
  · rfl
  · intro i hi
    rw [Bool.not_eq_true', List.any_eq_false]
    intro source hs hid
    exact h source hs ((beq_iff_eq.mp hid).trans (Item.isOf_iff.mp hi).1)
  · intro i hi
    rw [(Item.isOf_iff.mp hi).2, decide_eq_true (Int.le_refl s.active), Bool.or_true]

/-- Nothing that an earlier run staged is left. -/
theorem cleared_itemsOf_next {id : Int} (hu : id ≠ Source.userId) :
    (cleared s).itemsOf id (s.active + 1) = [] := by
  rw [Store.itemsOf, cleared_items]
  refine filter_filter_eq_nil (fun i hi => ?_) _
  obtain ⟨hid, hg⟩ := Item.isOf_iff.mp hi
  rw [hid, hg, beq_false_of_ne hu, Bool.false_or, decide_eq_false_iff_not]
  omega

theorem cleared_owned_user : (cleared s).owned Source.userId = s.owned Source.userId := by
  rw [Store.owned, cleared_items, filter_filter_of_imp, filter_filter_of_imp]
  · rfl
  · intro i hi
    rw [Bool.not_eq_true', List.any_eq_false]
    intro source hs hid
    have huser : source.isUser = true := by
      rw [Source.isUser, beq_iff_eq.mp hid]
      exact hi
    rw [((mem_idle s).mp hs).2.1] at huser
    cases huser
  · intro i hi
    rw [hi, Bool.true_or]

theorem cleared_enabled (hk : s.Keyed) :
    (cleared s).sources.filter (·.enabled) = s.sources.filter (·.enabled) := by
  refine forgetAll_enabled s fun source hs x hx hid => ?_
  obtain ⟨hmem, -, henabled⟩ := (mem_idle s).mp hs
  rw [hk.eq_of_id hx hmem hid]
  exact henabled

/-! ### Carrying over -/

/-- The store with the items of the sources carried over. -/
def carryAll (ids : List Int) (old new : Int) : Store :=
  ids.foldl (fun s id => (s.carryForward id old new).2) s

theorem carryAll_changes (ids : List Int) (old new : Int) :
    Store.ChangesOnly (fun i => i.generation == new && ids.contains i.source) s
      (carryAll s ids old new) := by
  induction ids generalizing s with
  | nil => exact .refl _ s
  | cons id ids ih =>
    refine ((s.carryForward_changes id old new).mono fun i hi => ?_).trans
      ((ih (s.carryForward id old new).2).mono fun i hi => ?_)
    · obtain ⟨hid, hg⟩ := Item.isOf_iff.mp hi
      rw [hid, hg, beq_self_eq_true, List.contains_cons, beq_self_eq_true]
      rfl
    · rw [Bool.and_eq_true] at hi ⊢
      rw [List.contains_cons, hi.2, Bool.or_true]
      exact ⟨hi.1, rfl⟩

/-- What was carried over is a copy of what there was. -/
theorem carryAll_itemsOf {ids : List Int} {id old new : Int} (hid : id ∈ ids) (h : old ≠ new) :
    (carryAll s ids old new).itemsOf id new = (s.itemsOf id old).map (Item.within new) := by
  induction ids generalizing s with
  | nil => cases hid
  | cons first ids ih =>
    show (carryAll (s.carryForward first old new).2 ids old new).itemsOf id new = _
    have hold : (s.carryForward first old new).2.itemsOf id old = s.itemsOf id old :=
      (s.carryForward_changes first old new).itemsOf_eq fun i hi => by
        have hg := (Item.isOf_iff.mp hi).2
        refine Bool.eq_false_iff.mpr fun hn => h ?_
        rw [← hg, (Item.isOf_iff.mp hn).2]
    by_cases hin : id ∈ ids
    · rw [ih (s.carryForward first old new).2 hin, hold]
    · have hfirst : id = first := (List.mem_cons.mp hid).resolve_right hin
      subst hfirst
      rw [← s.carryForward_itemsOf h]
      refine (carryAll_changes _ ids old new).itemsOf_eq fun i hi => ?_
      rw [(Item.isOf_iff.mp hi).1, Bool.and_eq_false_iff]
      exact .inr (by simpa using hin)

/-! ### Adopting -/

/-- The sources that keep what they have, by their ids. -/
def keptIds (results : List Result) : List Int :=
  (results.filter (·.settled.isKept)).map (·.source.id)

/-- What was learned, by the ids of the sources it is about. -/
def learnedOf (results : List Result) : List (Int × Metadata) :=
  results.filterMap fun r => r.settled.learned?.map fun m => (r.source.id, m)

variable (active : Int) (results : List Result)

theorem adopt_active : (adopt s active results).active = active + 1 :=
  (Store.commit_items _ (active + 1) (learnedOf results)).2

theorem adopt_items :
    (adopt s active results).items =
      (carryAll s (keptIds results) active (active + 1)).items.filter fun i =>
        i.source == Source.userId || i.generation == active + 1 := by
  obtain ⟨hitems, hactive⟩ := Store.commit_items
    (carryAll s (keptIds results) active (active + 1)) (active + 1) (learnedOf results)
  refine (Store.purge_items (Store.commit _ _ _)).trans ?_
  rw [← hitems]
  exact List.filter_congr fun i _ =>
    congrArg (i.source == Source.userId || i.generation == ·) hactive

/-- After adopting, what is not the user's is of the generation that was staged. -/
theorem adopt_generation {i : Item} (h : i ∈ (adopt s active results).items)
    (hu : i.source ≠ Source.userId) : i.generation = active + 1 := by
  rw [adopt_items, List.mem_filter, Bool.or_eq_true, beq_iff_eq, beq_iff_eq] at h
  exact h.2.resolve_left hu

theorem adopt_owned_user (hn : Source.userId ∉ keptIds results) :
    (adopt s active results).owned Source.userId = s.owned Source.userId := by
  rw [Store.owned, adopt_items, filter_filter_of_imp fun i hi => by rw [hi, Bool.true_or]]
  refine (carryAll_changes s (keptIds results) active (active + 1)).filter_eq fun i hi => ?_
  rw [beq_iff_eq.mp hi, Bool.and_eq_false_iff]
  exact .inr (by simpa using hn)

/-- A source holds what the staged generation has for it. -/
theorem adopt_owned {id : Int} (hu : id ≠ Source.userId) :
    (adopt s active results).owned id =
      (carryAll s (keptIds results) active (active + 1)).itemsOf id (active + 1) := by
  rw [Store.owned, adopt_items, List.filter_filter]
  refine List.filter_congr fun i _ => ?_
  cases hid : i.source == id with
  | false => rw [Item.isOf, hid, Bool.false_and, Bool.false_and]
  | true =>
    have hne : (i.source == Source.userId) = false := by
      rw [beq_iff_eq.mp hid]
      exact beq_false_of_ne hu
    rw [Item.isOf, hid, hne, Bool.false_or]

/-- **A source that keeps its items holds them as they were**, in the new generation. -/
theorem adopt_kept {id : Int} (hu : id ≠ Source.userId) (hk : id ∈ keptIds results) :
    (adopt s active results).owned id =
      (s.itemsOf id active).map (Item.within (active + 1)) := by
  rw [adopt_owned s active results hu]
  exact carryAll_itemsOf s hk (by omega)

/-- **Any other source holds what was staged for it.** -/
theorem adopt_staged {id : Int} (hu : id ≠ Source.userId) (hk : id ∉ keptIds results) :
    (adopt s active results).owned id = s.itemsOf id (active + 1) := by
  rw [adopt_owned s active results hu]
  refine (carryAll_changes s (keptIds results) active (active + 1)).itemsOf_eq fun i hi => ?_
  rw [(Item.isOf_iff.mp hi).1, Bool.and_eq_false_iff]
  exact .inr (by simpa using hk)

theorem adopt_ids : (adopt s active results).sources.map (·.id) = s.sources.map (·.id) := by
  refine (Store.foldl_updateMetadata_ids
    { carryAll s (keptIds results) active (active + 1) with active := active + 1 } _).trans ?_
  exact congrArg _ (carryAll_changes s (keptIds results) active (active + 1)).sources

theorem adopt_table : (adopt s active results).table = s.table := by
  show ((carryAll s (keptIds results) active (active + 1)).commit (active + 1)
    (learnedOf results)).table = s.table
  rw [Store.commit_eq]
  show (carryAll s (keptIds results) active (active + 1)).table = s.table
  rw [(carryAll_changes s (keptIds results) active (active + 1)).same]

theorem adopt_lastId : (adopt s active results).lastId = s.lastId := by
  show ((carryAll s (keptIds results) active (active + 1)).commit (active + 1)
    (learnedOf results)).lastId = s.lastId
  rw [Store.commit_eq]
  show (carryAll s (keptIds results) active (active + 1)).lastId = s.lastId
  rw [(carryAll_changes s (keptIds results) active (active + 1)).same]

theorem adopt_numbered (h : s.Numbered) : (adopt s active results).Numbered :=
  h.of_ids (adopt_ids s active results) (Int.le_of_eq (adopt_lastId s active results).symm)

/-- What is known of a source that nothing was learned about stays as it is. -/
theorem mem_adopt_sources {source : Source} (h : source ∈ s.sources)
    (hn : source.id ∉ (learnedOf results).map Prod.fst) :
    source ∈ (adopt s active results).sources := by
  have hcarried := (carryAll_changes s (keptIds results) active (active + 1)).sources
  refine Store.mem_foldl_updateMetadata
    { carryAll s (keptIds results) active (active + 1) with active := active + 1 } ?_ hn
  show source ∈ (carryAll s (keptIds results) active (active + 1)).sources
  rw [hcarried]
  exact h

end Sinkhole.Update
