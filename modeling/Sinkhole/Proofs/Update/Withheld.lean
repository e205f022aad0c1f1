import Sinkhole.Proofs.Update.Stopping

/-! What a run that does not commit leaves behind.

There are many ways out of a run: no network, a list that cannot be fetched or read, a
stop at any point, all servers failing after files were staged. None of them reaches what
is in force. `Withheld` bounds what may be different: items that were staged, and, after a
run over all sources, the ones that are off, which were cleared. Each step of a run keeps
within it, so whatever way the run ends does. -/
namespace Sinkhole

/-- The source as a run leaves it that clears the ones that are off. -/
def Source.clearedIfIdle (source : Source) : Source :=
  if source.isUser || source.enabled then source else source.unread

theorem Source.clearedIfIdle_map {α : Type} {g : Source → α} (hg : ∀ x, g x.unread = g x)
    (x : Source) : g x.clearedIfIdle = g x := by
  unfold clearedIfIdle
  split
  · rfl
  · exact hg x

namespace Update

open Work (upon)

variable {σ : Type}

/-- Whether an item is of a source that is off. -/
def isIdleItem (s : Store) (i : Item) : Bool := (idle s).any (·.id == i.source)

/-- Whether an item is in the active generation or the user's, and of no source that is off. -/
def isHeld (s : Store) (i : Item) : Bool :=
  (i.generation == s.active || i.source == Source.userId) && !isIdleItem s i

/-- The items that a run may stage: of the next generation and of a source that is on. -/
def isStageable (s : Store) (i : Item) : Bool := isStaged s.active i && !isIdleItem s i

/-- What is different is of generations that are not active, or of sources that are off. These
were all cleared, or hold what they held in the active generation. -/
structure Withheld (clearing : Bool) (before after : Store) : Prop where
  active : after.active = before.active
  table : after.table = before.table
  lastId : after.lastId = before.lastId
  sources : after.sources =
    if clearing then before.sources.map Source.clearedIfIdle else before.sources
  held : after.items.filter (isHeld before) = before.items.filter (isHeld before)
  /-- What is new was staged. -/
  added : ∀ i ∈ after.items, i ∈ before.items ∨ isStageable before i = true
  idle : ∀ source ∈ idle before,
    if clearing then after.owned source.id = []
    else after.itemsOf source.id before.active = before.itemsOf source.id before.active

/-! ### Clearing what is off -/

theorem isIdleItem_iff {s : Store} {i : Item} :
    isIdleItem s i = true ↔ ∃ source ∈ idle s, source.id = i.source := by
  simp [isIdleItem]

/-- The user's items are of no source that is off. -/
theorem isIdleItem_user {s : Store} {i : Item} (h : i.source = Source.userId) :
    isIdleItem s i = false := by
  refine Bool.eq_false_iff.mpr fun hi => ?_
  obtain ⟨source, hs, hid⟩ := isIdleItem_iff.mp hi
  have huser := ((mem_idle s).mp hs).2.1
  simp [Source.isUser, hid, h] at huser

/-- Nor are those of a source that is on. -/
theorem isIdleItem_enabled {s : Store} (hk : s.Keyed) {source : Source} (hs : source ∈ s.sources)
    (he : source.enabled = true) {i : Item} (hi : i.source = source.id) :
    isIdleItem s i = false := by
  refine Bool.eq_false_iff.mpr fun hidle => ?_
  obtain ⟨other, hother, hid⟩ := isIdleItem_iff.mp hidle
  exact FullRun.idle_ne hk hs he other hother (hid.trans hi)

theorem forgetAll_sources (s : Store) (sources : List Source) :
    (forgetAll s sources).sources =
      s.sources.map fun x => if sources.any (·.id == x.id) then x.unread else x := by
  induction sources generalizing s with
  | nil => simp [forgetAll]
  | cons source sources ih =>
    refine (ih (forget s source.id)).trans ?_
    rw [forget_sources, Store.modifySource, List.map_map]
    refine List.map_congr_left fun x _ => ?_
    by_cases hid : x.id = source.id
    · have hunread : x.unread.unread = x.unread := rfl
      simp [hid, Source.unread]
    · have hne : ¬source.id = x.id := fun h => hid h.symm
      simp [hid, hne]

/-- Whether some source that is off has the id is whether the one that has it is off. -/
theorem any_idle {s : Store} (hk : s.Keyed) {x : Source} (hx : x ∈ s.sources) :
    (idle s).any (·.id == x.id) = !(x.isUser || x.enabled) := by
  cases hx' : x.isUser || x.enabled with
  | false =>
    rw [Bool.or_eq_false_iff] at hx'
    exact List.any_eq_true.mpr ⟨x, (mem_idle s).mpr ⟨hx, hx'⟩, beq_self_eq_true _⟩
  | true =>
    refine List.any_eq_false.mpr fun y hy hid => ?_
    obtain ⟨hmem, huser, henabled⟩ := (mem_idle s).mp hy
    rw [hk.eq_of_id hmem hx (beq_iff_eq.mp hid)] at huser henabled
    simp [huser, henabled] at hx'

theorem forgetAll_idle {s : Store} (hk : s.Keyed) :
    (forgetAll s (idle s)).sources = s.sources.map Source.clearedIfIdle := by
  rw [forgetAll_sources]
  refine List.map_congr_left fun x hx => ?_
  rw [any_idle hk hx, Source.clearedIfIdle]
  cases x.isUser || x.enabled <;> rfl

namespace Withheld

variable {clearing : Bool} {before after : Store}

theorem refl (s : Store) : Withheld false s s :=
  ⟨rfl, rfl, rfl, rfl, rfl, fun _ hi => .inl hi, fun _ _ => rfl⟩

theorem durability (h : Withheld clearing before after) (d : Durability) :
    Withheld clearing before { after with durability := d } :=
  ⟨h.active, h.table, h.lastId, h.sources, h.held, h.added, h.idle⟩

theorem forgotten {s : Store} (hk : s.Keyed) : Withheld true s (forgetAll s (Update.idle s)) where
  active := cleared_active s
  table := cleared_table s
  lastId := by rw [forgetAll_eq]
  sources := forgetAll_idle hk
  held := by
    rw [forgetAll_items]
    refine filter_filter_of_imp (fun i hi => ?_) s.items
    rw [isHeld, Bool.and_eq_true] at hi
    exact hi.2
  added := by
    intro i hi
    rw [forgetAll_items] at hi
    exact .inl (List.mem_of_mem_filter hi)
  idle := by
    intro source hs
    rw [if_pos rfl, Store.owned, forgetAll_items]
    refine filter_filter_eq_nil (fun i hi => ?_) s.items
    have hany : (Update.idle s).any (·.id == i.source) = true :=
      isIdleItem_iff.mpr ⟨source, hs, (beq_iff_eq.mp hi).symm⟩
    rw [hany, Bool.not_true]

/-! ### Steps of a run -/

/-- Staged items may come and go. -/
theorem staged {after' : Store} (h : Withheld clearing before after)
    (hc : Store.ChangesOnly (isStageable before) after after') :
    Withheld clearing before after' where
  active := hc.active.trans h.active
  table := hc.table.trans h.table
  lastId := by rw [← h.lastId, hc.same]
  sources := hc.sources.trans h.sources
  held := by
    refine (hc.filter_eq fun i hi => ?_).trans h.held
    simp only [isHeld, isStageable, isStaged, Bool.and_eq_true, Bool.or_eq_true, beq_iff_eq,
      Bool.and_eq_false_iff, bne_eq_false_iff_eq, beq_eq_false_iff_ne] at hi ⊢
    rcases hi.1 with hactive | huser
    · exact .inl (.inl (by omega))
    · exact .inl (.inr huser)
  added := by
    intro i hi
    cases hp : isStageable before i with
    | true => exact .inr rfl
    | false =>
      have hadded := h.added i (hc.mem hi hp)
      rwa [hp] at hadded
  idle := by
    intro source hs
    have hoff : ∀ i : Item, i.source = source.id → isStageable before i = false := by
      intro i hi
      rw [isStageable, isIdleItem_iff.mpr ⟨source, hs, hi.symm⟩, Bool.not_true, Bool.and_false]
    have hidle := h.idle source hs
    cases clearing with
    | true =>
      rw [if_pos rfl] at hidle ⊢
      exact (hc.filter_eq fun i hi => hoff i (beq_iff_eq.mp hi)).trans hidle
    | false =>
      rw [if_neg Bool.false_ne_true] at hidle ⊢
      exact (hc.itemsOf_eq fun i hi => hoff i (Item.isOf_iff.mp hi).1).trans hidle

/-- What was staged may be thrown away. -/
theorem discarded (h : Withheld clearing before after) :
    Withheld clearing before after.discard.2 where
  active := h.active
  table := h.table
  lastId := h.lastId
  sources := h.sources
  held := by
    rw [← h.held, Store.discard_items]
    refine filter_filter_of_imp (fun i hi => ?_) after.items
    simp only [isHeld, Bool.and_eq_true, Bool.or_eq_true, beq_iff_eq] at hi
    simp only [h.active, Bool.or_eq_true, beq_iff_eq, decide_eq_true_eq]
    rcases hi.1 with hactive | huser
    · exact .inr (by omega)
    · exact .inl huser
  added := by
    intro i hi
    rw [Store.discard_items] at hi
    exact h.added i (List.mem_of_mem_filter hi)
  idle := by
    intro source hs
    have hidle := h.idle source hs
    cases clearing with
    | true =>
      rw [if_pos rfl, Store.owned, List.filter_eq_nil_iff] at hidle ⊢
      intro i hi
      rw [Store.discard_items] at hi
      exact hidle i (List.mem_of_mem_filter hi)
    | false =>
      rw [if_neg Bool.false_ne_true] at hidle ⊢
      rw [← hidle, Store.itemsOf, Store.discard_items]
      refine filter_filter_of_imp (fun i hi => ?_) after.items
      have hg := (Item.isOf_iff.mp hi).2
      simp [h.active, hg]

/-! ### What is in force -/

/-- What the active generation holds of a source is as it was, unless it is off. -/
theorem itemsOf_of_not_idle (h : Withheld clearing before after) {id : Int}
    (hid : ∀ source ∈ Update.idle before, source.id ≠ id) :
    after.itemsOf id before.active = before.itemsOf id before.active := by
  have hheld : ∀ i : Item, i.isOf id before.active = true → isHeld before i = true := by
    intro i hi
    obtain ⟨hsource, hg⟩ := Item.isOf_iff.mp hi
    have hidle : isIdleItem before i = false := by
      refine Bool.eq_false_iff.mpr fun hidle => ?_
      obtain ⟨source, hs, hi⟩ := isIdleItem_iff.mp hidle
      exact hid source hs (hi.trans hsource)
    simp [isHeld, hg, hidle]
  rw [Store.itemsOf, ← filter_filter_of_imp hheld after.items, h.held,
    filter_filter_of_imp hheld before.items, Store.itemsOf]

theorem itemsOf (h : Withheld clearing before after) (hk : before.Keyed) {source : Source}
    (hs : source ∈ before.sources) (he : source.enabled = true) :
    after.itemsOf source.id before.active = before.itemsOf source.id before.active :=
  h.itemsOf_of_not_idle (FullRun.idle_ne hk hs he)

theorem owned_user (h : Withheld clearing before after) :
    after.owned Source.userId = before.owned Source.userId := by
  have hheld : ∀ i : Item, (i.source == Source.userId) = true → isHeld before i = true := by
    intro i hi
    simp [isHeld, hi, isIdleItem_user (beq_iff_eq.mp hi)]
  rw [Store.owned, ← filter_filter_of_imp hheld after.items, h.held,
    filter_filter_of_imp hheld before.items, Store.owned]

/-- What is in force is as it was, and so is what is known of sources that are on. -/
theorem undisturbed (h : Withheld clearing before after) (hk : before.Keyed) :
    Undisturbed before after where
  active := h.active
  table := h.table
  sources := by
    have hsources := h.sources
    cases clearing with
    | false => rw [hsources, if_neg Bool.false_ne_true]
    | true =>
      have henabled : (fun x : Source => x.enabled) ∘ Source.clearedIfIdle = (·.enabled) := by
        funext x
        simp only [Function.comp, Source.clearedIfIdle]
        split <;> rfl
      rw [hsources, if_pos rfl, List.filter_map, henabled]
      refine (List.map_congr_left fun x hx => ?_).trans (List.map_id _)
      simp [Source.clearedIfIdle, (List.mem_filter.mp hx).2]
  items := fun source hs he => h.itemsOf hk hs he
  user := h.owned_user

end Withheld

/-! ### Whole runs -/

/-- Until it adopts what it staged, a run over all sources has withheld it. -/
theorem FullRun.withheld {w : World σ} {s : Setup} {u start last : Updater σ}
    {visits : List (Visit σ)} (h : FullRun w s u start visits last) (hk : u.store.Keyed) :
    Withheld true u.store last.store := by
  have hstart : Withheld true u.store start.store := by
    rw [h.store]
    exact (Withheld.forgotten hk).discarded.durability .relaxed
  refine hstart.staged (h.chain.confined fun v hv i hi => ?_).store
  obtain ⟨hid, hg⟩ := Item.isOf_iff.mp hi
  obtain ⟨hmem, henabled, -, -⟩ := mem_fetchable.mp (h.planned v hv)
  have hidle := isIdleItem_enabled hk hmem henabled hid
  simp [isStageable, isStaged, hid, hg, hidle, h.id_ne_user v hv]

section

variable (w : World σ) (s : Setup) (task : Option String) (u : Updater σ)

/-- A run over all sources that does not take effect clears the ones that are off, unless it is
refused. -/
theorem updateAll_withheld (hk : u.store.Keyed)
    (h : hasTakenEffect (updateAll w s task u).1 = false) :
    Unfinished (updateAll w s task u).1 ∧
      Withheld (!u.running) u.store (updateAll w s task u).2.store := by
  cases hr : u.running with
  | true =>
    rw [updateAll_refused w s task hr]
    exact ⟨rfl, .refl u.store⟩
  | false =>
    have hends := updateAll_ends w s task u
    generalize (updateAll w s task u).1 = r at h hends ⊢
    generalize (updateAll w s task u).2.store = after at hends ⊢
    generalize (updateAll w s task u).2.control.stopped = halted at hends
    cases hends with
    | refused hrunning =>
      rw [hr] at hrunning
      cases hrunning
    | unreachable => exact ⟨rfl, .forgotten hk⟩
    | stopped run halted hstop hcommit =>
      exact ⟨⟨hstop, hcommit⟩, (run.withheld hk).durability _⟩
    | fruitless run n going => exact ⟨rfl, ((run.withheld hk).durability _).discarded⟩
    | adopted run going hstop hcommit =>
      rw [hasTakenEffect, hasCommitted, hcommit] at h
      cases h
    | untabled run going => cases h

/-- A run over all sources that takes effect has put its visits in force. -/
theorem updateAll_effective (h : hasTakenEffect (updateAll w s task u).1 = true) :
    ∃ start last, FullRun w s u start (visitsOf w s task u) last ∧
      last.control.stopped = false ∧
      (updateAll w s task u).2.store = FullRun.outcome u last (visitsOf w s task u) := by
  have hends := updateAll_ends w s task u
  generalize (updateAll w s task u).1 = r at h hends
  generalize (updateAll w s task u).2.store = after at hends ⊢
  generalize (updateAll w s task u).2.control.stopped = halted at hends
  cases hends with
  | refused hr => cases h
  | unreachable => cases h
  | stopped run halted hstop hcommit =>
    rw [hasTakenEffect, hasCommitted, hcommit] at h
    cases h
  | fruitless run n going => cases h
  | adopted run going hstop hcommit staged | untabled run going staged =>
    rw [← staged]
    exact ⟨_, _, run, going, rfl⟩

/-- A run over one source that does not take effect clears nothing. -/
theorem updateOne_withheld (hk : u.store.Keyed) (id : Int)
    (h : hasTakenEffect (updateOne w s id task u).1 = false) :
    Unfinished (updateOne w s id task u).1 ∧
      Withheld false u.store (updateOne w s id task u).2.store := by
  have hends := updateOne_ends w s id task u
  generalize (updateOne w s id task u).1 = r at h hends ⊢
  generalize (updateOne w s id task u).2.store = after at hends ⊢
  generalize (updateOne w s id task u).2.control.stopped = halted at hends
  cases hends with
  | refused hr => exact ⟨rfl, .refl u.store⟩
  | early e why early => exact ⟨.of_isLate early, .refl u.store⟩
  | refreshed hs hidle hcommit hunchanged =>
    rw [hasTakenEffect, hasCommitted, hcommit] at h
    cases h
  | untabled hs hidle refused => cases h
  | @fetched source _ u' hr hs huser ends henabled =>
    obtain ⟨hunfinished, hchanges⟩ := ends.unfinished h
    rw [Fetch.fetch_store] at hchanges
    refine ⟨hunfinished, (((Withheld.refl u.store).durability .relaxed).staged
      (hchanges.mono fun i hi => ?_)).durability .normal⟩
    obtain ⟨hid, hg⟩ := Item.isOf_iff.mp hi
    have hidle := isIdleItem_enabled hk (Store.mem_of_source hs).1 henabled hid
    simp [isStageable, isStaged, hid, hg, hidle, beq_eq_false_iff_ne.mp huser]

/-- **A run that does not commit has failed or was stopped, and has withheld what it did**: what
is in force is as it was, and so is what is known of sources that are on. That is so unless what
failed is the store. -/
theorem uncommitted_withheld (hk : u.store.Keyed) :
    (hasCommitted (updateAll w s task u).1 = false →
      hasStorageFailed (updateAll w s task u).1 = false →
      Unfinished (updateAll w s task u).1 ∧
        Undisturbed u.store (updateAll w s task u).2.store ∧
        Withheld (!u.running) u.store (updateAll w s task u).2.store) ∧
    ∀ id, hasCommitted (updateOne w s id task u).1 = false →
      hasStorageFailed (updateOne w s id task u).1 = false →
      Unfinished (updateOne w s id task u).1 ∧
        Undisturbed u.store (updateOne w s id task u).2.store ∧
        Withheld false u.store (updateOne w s id task u).2.store := by
  constructor
  · intro hc hf
    obtain ⟨hunfinished, hwithheld⟩ :=
      updateAll_withheld w s task u hk (Bool.or_eq_false_iff.mpr ⟨hc, hf⟩)
    exact ⟨hunfinished, hwithheld.undisturbed hk, hwithheld⟩
  · intro id hc hf
    obtain ⟨hunfinished, hwithheld⟩ :=
      updateOne_withheld w s task u hk id (Bool.or_eq_false_iff.mpr ⟨hc, hf⟩)
    exact ⟨hunfinished, hwithheld.undisturbed hk, hwithheld⟩

end

/-- A run over all sources that is stopped while the new one is read, and one over the source
whose file is missing. -/
theorem uncommitted_withheld_assorted :
    assorted.Keyed ∧
      (updateAll hurried plain none atDesk).1 =
        .ok { generation := 7, stopped := true, hostsParsed := 1 } ∧
      Withheld true assorted (updateAll hurried plain none atDesk).2.store ∧
      (updateOne shelf plain 4 none atDesk).1 = .error (.io "no such file") ∧
      Withheld false assorted (updateOne shelf plain 4 none atDesk).2.store := by
  have hkeyed : assorted.Keyed := by decide
  have hall : (updateAll hurried plain none atDesk).1 =
      .ok { generation := 7, stopped := true, hostsParsed := 1 } := by decide +kernel
  have hone : (updateOne shelf plain 4 none atDesk).1 = .error (.io "no such file") := by
    decide +kernel
  obtain ⟨hstopped, -⟩ := uncommitted_withheld hurried plain none atDesk hkeyed
  obtain ⟨-, hfailed⟩ := uncommitted_withheld shelf plain none atDesk hkeyed
  exact ⟨hkeyed, hall, (hstopped (by rw [hall]; rfl) (by rw [hall]; rfl)).2.2, hone,
    (hfailed 4 (by rw [hone]; rfl) (by rw [hone]; rfl)).2.2⟩

end Update

end Sinkhole
