import Sinkhole.Proofs.Update.All

/-! What a committed run over all sources makes of the store.

`Adopted` says it source by source, by how each came out: one that was taken over holds
what its own content brought, one that was not holds what it held, and one with no part
in the run holds nothing. What earlier runs staged has no part in it, nor has the order
of the visits. -/
namespace Sinkhole.Update

variable {σ : Type} {w : World σ} {s : Setup}

/-- What a committed run over all sources has made of a store, by how the visited sources came
out. -/
structure Adopted (w : World σ) (s : Setup) (before : Store) (visits : List (Visit σ))
    (after : Store) : Prop where
  active : after.active = before.active + 1
  /-- Nothing of another generation is left but what is the user's. -/
  generation : ∀ i ∈ after.items, i.source ≠ Source.userId → i.generation = before.active + 1
  /-- The sources are the same ones, by their ids. -/
  ids : after.sources.map (·.id) = before.sources.map (·.id)
  /-- Every source came to an end of its own. -/
  settled : ∀ v ∈ visits, v.settled ≠ .stopped
  updated : ∀ v ∈ visits, ∀ learned, v.settled = .updated learned → ∃ opened,
    Brings w s v.source v.before opened ∧
      after.owned v.source.id = s.itemsFrom v.source (before.active + 1) opened
  /-- A source that is unchanged or failed, at whatever point, holds the items it held. -/
  kept : ∀ v ∈ visits, v.settled.isKept = true → after.owned v.source.id =
    (before.itemsOf v.source.id before.active).map (Item.within (before.active + 1))
  failed : ∀ v ∈ visits, v.settled.isFailed = true → v.source ∈ after.sources
  disabled : ∀ source ∈ before.sources, source.isUser = false → source.enabled = false →
    after.owned source.id = [] ∧ source.unread ∈ after.sources
  /-- A source whose location is of no kind that can be fetched. -/
  unsupported : ∀ source ∈ before.enabledSources, source.isFetchable = false →
    after.owned source.id = []
  user : after.owned Source.userId = before.owned Source.userId

/-- What was staged and adopted is all that a source has. -/
theorem Adopted.itemsOf_active {before after : Store} {visits : List (Visit σ)}
    (h : Adopted w s before visits after) {id : Int} (hid : id ≠ Source.userId) :
    after.itemsOf id after.active = after.owned id := by
  refine Store.itemsOf_eq_owned fun i hi hsource => ?_
  rw [h.active]
  exact h.generation i hi (hsource ▸ hid)

namespace FullRun

variable {u start last : Updater σ} {visits : List (Visit σ)}

theorem mem_keptIds {id : Int} : id ∈ keptIds (visits.map Visit.result) ↔
    ∃ v ∈ visits, v.settled.isKept = true ∧ v.source.id = id := by
  rw [keptIds, List.filter_map, List.map_map, List.mem_map]
  refine exists_congr fun v => ?_
  rw [List.mem_filter, and_assoc]
  rfl

theorem not_mem_learnedOf {id : Int}
    (h : ∀ v ∈ visits, v.source.id = id → v.settled.learned? = none) :
    id ∉ (learnedOf (visits.map Visit.result)).map Prod.fst := by
  rw [List.mem_map]
  rintro ⟨l, hl, rfl⟩
  obtain ⟨r, hr, hsome⟩ := List.mem_filterMap.mp hl
  obtain ⟨v, hv, rfl⟩ := List.mem_map.mp hr
  obtain ⟨m, hm, rfl⟩ := Option.map_eq_some_iff.mp hsome
  rw [show v.result.settled = v.settled from rfl, h v hv rfl] at hm
  cases hm

/-- Visits to one source are one visit. -/
theorem eq_of_id (hn : (visits.map (·.source.id)).Nodup) {v v' : Visit σ} (hv : v ∈ visits)
    (hv' : v' ∈ visits) (hid : v.source.id = v'.source.id) : v = v' :=
  List.inj_on_of_nodup_map hn hv hv' hid

/-- A source that no visit was to has nothing in the end. -/
theorem owned_unvisited (h : FullRun w s u start visits last) {id : Int}
    (hu : id ≠ Source.userId) (hid : ∀ v ∈ visits, v.source.id ≠ id) :
    (outcome u last visits).owned id = [] := by
  refine (adopt_staged _ _ _ hu ?_).trans (h.itemsOf_next hu hid)
  rw [mem_keptIds]
  rintro ⟨v, hv, -, hv'⟩
  exact hid v hv hv'

/-- A source that was taken over has what its own content brought. -/
theorem owned_updated (h : FullRun w s u start visits last) (hk : u.store.Keyed)
    (hs : last.control.stopped = false) {v : Visit σ} (hv : v ∈ visits) {learned : Metadata}
    (hsettled : v.settled = .updated learned) :
    ∃ opened, Brings w s v.source v.before opened ∧ (outcome u last visits).owned v.source.id =
      s.itemsFrom v.source (u.store.active + 1) opened := by
  have hnodup := h.nodup hk hs
  obtain ⟨opened, hbrings, hitems⟩ := h.chain.updated h.knows hnodup v hv learned hsettled
  refine ⟨opened, hbrings, (adopt_staged _ _ _ (h.id_ne_user v hv) ?_).trans hitems⟩
  rw [mem_keptIds]
  rintro ⟨v', hv', hkept, hid⟩
  rw [eq_of_id hnodup hv' hv hid, hsettled] at hkept
  cases hkept

/-- A source that was not taken over has what it had. -/
theorem owned_kept (h : FullRun w s u start visits last) (hk : u.store.Keyed) {v : Visit σ}
    (hv : v ∈ visits) (hkept : v.settled.isKept = true) :
    (outcome u last visits).owned v.source.id =
      (u.store.itemsOf v.source.id u.store.active).map (Item.within (u.store.active + 1)) := by
  obtain ⟨hmem, henabled, -, -⟩ := mem_fetchable.mp (h.planned v hv)
  rw [← h.itemsOf_active (idle_ne hk hmem henabled)]
  exact adopt_kept _ _ _ (h.id_ne_user v hv) (mem_keptIds.mpr ⟨v, hv, hkept, rfl⟩)

/-- Nothing was learned of a source that failed. -/
theorem mem_failed (h : FullRun w s u start visits last) (hk : u.store.Keyed)
    (hs : last.control.stopped = false) {v : Visit σ} (hv : v ∈ visits)
    (hfailed : v.settled.isFailed = true) : v.source ∈ (outcome u last visits).sources := by
  obtain ⟨hmem, henabled, -, -⟩ := mem_fetchable.mp (h.planned v hv)
  refine mem_adopt_sources _ _ _ ?_ (not_mem_learnedOf fun v' hv' hid => ?_)
  · show v.source ∈ last.store.sources
    rw [h.sources]
    exact mem_forgetAll_of_not_mem _ hmem fun other hother =>
      (idle_ne hk hmem henabled other hother).symm
  · rw [eq_of_id (h.nodup hk hs) hv' hv hid]
    cases hsettled : v.settled with
    | failed reason => rfl
    | stopped => rfl
    | updated m =>
      rw [hsettled] at hfailed
      cases hfailed
    | unchanged m =>
      rw [hsettled] at hfailed
      cases hfailed

/-- A disabled source has nothing, and nothing is known of its content. -/
theorem disabled_unread (h : FullRun w s u start visits last) (hk : u.store.Keyed)
    {source : Source} (hmem : source ∈ u.store.sources) (huser : source.isUser = false)
    (hdisabled : source.enabled = false) :
    (outcome u last visits).owned source.id = [] ∧
      source.unread ∈ (outcome u last visits).sources := by
  have hn : source ∉ fetchable u.store := fun hf => by
    rw [(mem_fetchable.mp hf).2.1] at hdisabled
    cases hdisabled
  have hid := h.id_ne_of_not_mem hk hmem hn
  refine ⟨h.owned_unvisited (beq_eq_false_iff_ne.mp huser) hid, mem_adopt_sources _ _ _ ?_
    (not_mem_learnedOf fun v hv hv' => absurd hv' (hid v hv))⟩
  show source.unread ∈ last.store.sources
  rw [h.sources]
  exact mem_forgetAll_of_mem _ hmem ((mem_idle _).mpr ⟨hmem, huser, hdisabled⟩)

theorem owned_unsupported (h : FullRun w s u start visits last) (hk : u.store.Keyed)
    {source : Source} (hmem : source ∈ u.store.enabledSources)
    (hunsupported : source.isFetchable = false) :
    (outcome u last visits).owned source.id = [] := by
  obtain ⟨hmem, hflags⟩ := List.mem_filter.mp hmem
  rw [Bool.and_eq_true, Bool.not_eq_true'] at hflags
  have hn : source ∉ fetchable u.store := fun hf => by
    rw [(mem_fetchable.mp hf).2.2.2] at hunsupported
    cases hunsupported
  exact h.owned_unvisited (beq_eq_false_iff_ne.mp hflags.2) (h.id_ne_of_not_mem hk hmem hn)

/-- What is the user's is of no visit, so it is neither carried over nor taken out. -/
theorem owned_by_user (h : FullRun w s u start visits last) :
    (outcome u last visits).owned Source.userId = u.store.owned Source.userId := by
  refine (adopt_owned_user _ _ _ ?_).trans h.owned_user
  rw [mem_keptIds]
  rintro ⟨v, hv, -, hid⟩
  exact h.id_ne_user v hv hid

theorem outcome_ids (h : FullRun w s u start visits last) :
    (outcome u last visits).sources.map (·.id) = u.store.sources.map (·.id) := by
  refine (adopt_ids _ _ _).trans ?_
  show last.store.sources.map (·.id) = _
  rw [h.sources, forgetAll_ids]

/-- **What the visits staged is adopted**, source by source. -/
theorem adopted (h : FullRun w s u start visits last) (hk : u.store.Keyed)
    (hs : last.control.stopped = false) :
    Adopted w s u.store visits (outcome u last visits) where
  active := adopt_active _ _ _
  generation := fun _ hi hu => adopt_generation _ _ _ hi hu
  ids := h.outcome_ids
  settled := h.chain.settled_ne_stopped hs h.knows
  updated := fun _ hv _ hsettled => h.owned_updated hk hs hv hsettled
  kept := fun _ hv hkept => h.owned_kept hk hv hkept
  failed := fun _ hv hfailed => h.mem_failed hk hs hv hfailed
  disabled := fun _ hmem huser hdisabled => h.disabled_unread hk hmem huser hdisabled
  unsupported := fun _ hmem hunsupported => h.owned_unsupported hk hmem hunsupported
  user := h.owned_by_user

end FullRun

/-! ### A run with a source of each kind -/

/-- Files that were all changed at one time and hold the one line `a.b`; one is missing. -/
def shelf : World Unit :=
  { facts := fun path _ =>
      { answer := if path = "/gone" then .error "no such file"
          else .ok { modified := some (.ofMicros 5), size := 4 }
        world := () }
    openFile := fun _ _ =>
      { answer := .ok { reading := { bytes := [97, 46, 98, 10] } }, world := () }
    exchange := fun _ _ => { answer := .error .unreachable, world := () }
    resolves := fun _ => false }

def plain : Setup := { fetch := { userAgent := "" }, sizing := ⟨1, 1, 1, 10⟩ }

/-- A source that is new, one as it was, one that is missing, one that is off and one whose
location is of no kind, with items in force and one that an earlier run staged. -/
def assorted : Store :=
  { sources :=
      [Store.userSource, { id := 2, label := "new", location := "/new" },
        { id := 3, label := "same", location := "/same", appliedModified := some 5, sizeHint := 4 },
        { id := 4, label := "gone", location := "/gone", entityTag := some "e" },
        { id := 5, label := "off", location := "/off", enabled := false, entityTag := some "f" },
        { id := 6, label := "odd", location := "odd" }]
    lastId := 6
    items :=
      [{ source := 1, generation := 0, host := "u.x", kind := 0 },
        { source := 3, generation := 7, host := "s.x", kind := 0, enabled := false },
        { source := 4, generation := 7, host := "g.x", kind := 0 },
        { source := 4, generation := 8, host := "left.x", kind := 0 },
        { source := 5, generation := 7, host := "o.x", kind := 0 },
        { source := 6, generation := 7, host := "q.x", kind := 0 }]
    table := []
    active := 7 }

def atDesk : Updater Unit := { store := assorted, world := () }

def assortedReport : Report :=
  { generation := 8, committed := true, updated := 1, unchanged := 1
    failed := ["gone: I/O error: no such file"]
    hostsParsed := 1
    summary := some { blocked := 3 } }

/-! ### Committed runs -/

/-- **A committed run over all sources has adopted what its sources brought and kept.** -/
theorem updateAll_adopts (w : World σ) (s : Setup) (task : Option String) (u : Updater σ)
    {report : Report} (hk : u.store.Keyed) (h : (updateAll w s task u).1 = .ok report)
    (hc : report.committed = true) :
    ∃ start visits last, start.world = u.world ∧ start.store = cleared u.store ∧
      Visits w s (u.store.active + 1) start visits last ∧
      (visits.map (·.source)).Perm (fetchable u.store) ∧
      Adopted w s u.store visits (updateAll w s task u).2.store := by
  have hends := updateAll_ends w s task u
  rw [h] at hends
  generalize (updateAll w s task u).2.store = after at hends ⊢
  generalize (updateAll w s task u).2.control.stopped = halted at hends
  cases hends with
  | stopped _ _ _ hcommit =>
    rw [hc] at hcommit
    exact nomatch hcommit
  | @adopted start visits last _ run going _ _ =>
    exact ⟨start, visits, last, run.world, run.store, run.chain, run.complete going,
      run.adopted hk going⟩

/-- A committed run over the sources of `assorted`. -/
theorem updateAll_adopts_assorted :
    assorted.Keyed ∧ (updateAll shelf plain none atDesk).1 = .ok assortedReport ∧
      ∃ start visits last, start.world = () ∧ start.store = cleared assorted ∧
        Visits shelf plain 8 start visits last ∧
        (visits.map (·.source)).Perm (fetchable assorted) ∧
        Adopted shelf plain assorted visits (updateAll shelf plain none atDesk).2.store := by
  have hkeyed : assorted.Keyed := by decide
  have hrun : (updateAll shelf plain none atDesk).1 = .ok assortedReport := by decide +kernel
  exact ⟨hkeyed, hrun, updateAll_adopts shelf plain none atDesk hkeyed hrun rfl⟩

end Sinkhole.Update
