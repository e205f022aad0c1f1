import Sinkhole.Update.One
import Sinkhole.Proofs.Store.Sources
import Sinkhole.Proofs.Update.All

/-! A run over one source, by the ways it ends.

Either the source is not fetched at all, or it is fetched and then comes out like in a
run over all sources. What it comes out as decides what the run makes of the store: it
is left as it is but for what was staged, or a time is noted, or the source's items are
replaced and the table is made anew if it can be. `updateOne_ends` tells these apart. -/
namespace Sinkhole.Update

open Work (Confined upon)

variable {σ : Type} {w : World σ} {s : Setup} {source : Source} {active : Int}

/-- Whether a run committed. -/
def hasCommitted : Except Error Report → Bool
  | .ok report => report.committed
  | .error _ => false

/-- Whether a statement of the store failed. -/
def hasStorageFailed : Except Error Report → Bool
  | .ok _ => false
  | .error e => e.isStorage

/-- Whether what a run took over counts: it committed, or it had done all that comes before making
the table anew. -/
def hasTakenEffect (r : Except Error Report) : Bool := hasCommitted r || hasStorageFailed r

/-- A run that failed before it took anything over, or that was stopped and has not committed. -/
def Unfinished : Except Error Report → Prop
  | .error e => e.isStorage = false
  | .ok report => report.stopped = true ∧ report.committed = false

theorem Unfinished.of_isLate {e : Error} (h : e.isLate = false) : Unfinished (.error e) :=
  (Bool.or_eq_false_iff.mp h).2

theorem Unfinished.hasTakenEffect {r : Except Error Report} (h : Unfinished r) :
    hasTakenEffect r = false := by
  cases r with
  | ok report => exact Bool.or_eq_false_iff.mpr ⟨h.2, rfl⟩
  | error e => exact h

/-! ### A fetched source -/

/-- The ways a fetched source comes out of a run over it alone: what the run comes to and the
updater after it, from the answer to the fetch and the updater that the fetch left. -/
inductive OneEnds (w : World σ) (s : Setup) (source : Source) (active : Int) :
    Except Error Fetch.Fetched → Updater σ → Except Error Report → Updater σ → Prop where
  /-- The fetch failed. -/
  | lost {u₁ : Updater σ} (e e' : Error) (m : Progress)
      (early : e'.isLate = false) :
      OneEnds w s source active (.error e) u₁ (.error e') { u₁ with progress := m }
  | unchanged {u₁ : Updater σ} (remoteModified : Option Time.Instant) (m : Progress) :
      OneEnds w s source active (.ok (.unchanged remoteModified)) u₁
        (.ok { generation := active, committed := true, unchanged := 1 })
        { u₁ with
          progress := m
          store := if remoteModified.isSome then
            u₁.store.setRemoteModified source.id remoteModified else u₁.store }
  | updated {u₁ u₂ : Updater σ} {report : Report} (d : Fetch.Download) (opened : Opened)
      (m : Progress) (read : ReadThrough w d.content u₁ opened)
      (confined : u₁.Confined (·.isOf source.id (active + 1)) u₂)
      (hcommit : report.committed = true) (hunchanged : report.unchanged = 0)
      (items : u₂.store.itemsOf source.id (active + 1) = s.itemsFrom source (active + 1) opened)
      (hgoing : report.stopped = false)
      (made : (replace u₂.store source.id active (newMetadata d)).isRefused = false) :
      OneEnds w s source active (.ok (.downloaded d)) u₁ (.ok report)
        { u₂ with
          progress := m
          store := (replace u₂.store source.id active (newMetadata d)).synced }
  /-- It was taken over, but the table could not be made anew. -/
  | untabled {u₁ u₂ : Updater σ} (d : Fetch.Download) (opened : Opened) (m : Progress)
      (read : ReadThrough w d.content u₁ opened)
      (confined : u₁.Confined (·.isOf source.id (active + 1)) u₂)
      (items : u₂.store.itemsOf source.id (active + 1) = s.itemsFrom source (active + 1) opened)
      (refused : (replace u₂.store source.id active (newMetadata d)).isRefused = true) :
      OneEnds w s source active (.ok (.downloaded d)) u₁ (.error (.storage .patternTooLong))
        { u₂ with
          progress := m
          store := (replace u₂.store source.id active (newMetadata d)).synced }
  /-- It could not be read through, and what it staged is taken out again. -/
  | dropped {u₁ u₂ : Updater σ} {r : Except Error Report} (d : Fetch.Download)
      (unread : ∀ opened, ¬ReadThrough w d.content u₁ opened)
      (confined : u₁.Confined (·.isOf source.id (active + 1)) u₂) (unfinished : Unfinished r)
      (broken : u₂.control.stopped = false → Broken w d.content u₁)
      (emptied : u₂.store.itemsOf source.id (active + 1) = []) :
      OneEnds w s source active (.ok (.downloaded d)) u₁ r u₂

namespace OneEnds

variable {fetched : Except Error Fetch.Fetched} {u₁ u' : Updater σ} {r : Except Error Report}

/-- The run takes effect exactly when the source is unchanged or its content is read through. -/
theorem hasTakenEffect_iff (h : OneEnds w s source active fetched u₁ r u') :
    hasTakenEffect r = true ↔
      (∃ remoteModified, fetched = .ok (.unchanged remoteModified)) ∨
        ∃ d opened, fetched = .ok (.downloaded d) ∧ ReadThrough w d.content u₁ opened := by
  cases h with
  | lost e e' m early =>
    refine iff_of_false (Bool.eq_false_iff.mp (Unfinished.of_isLate early).hasTakenEffect) ?_
    rintro (⟨remoteModified, hf⟩ | ⟨d, opened, hf, -⟩)
    · cases hf
    · cases hf
  | unchanged remoteModified m => exact iff_of_true rfl (.inl ⟨remoteModified, rfl⟩)
  | updated d opened m read confined hcommit hunchanged =>
    exact iff_of_true (Bool.or_eq_true_iff.mpr (.inl hcommit)) (.inr ⟨d, opened, rfl, read⟩)
  | untabled d opened m read => exact iff_of_true rfl (.inr ⟨d, opened, rfl, read⟩)
  | dropped d unread confined unfinished =>
    refine iff_of_false (Bool.eq_false_iff.mp unfinished.hasTakenEffect) ?_
    rintro (⟨remoteModified, hf⟩ | ⟨d', opened, hf, hread⟩)
    · cases hf
    · injection hf with hf
      injection hf with hf
      subst hf
      exact unread opened hread

/-- A run that takes effect commits, unless the table could not be made anew. -/
theorem of_hasTakenEffect (h : OneEnds w s source active fetched u₁ r u')
    (heffect : hasTakenEffect r = true) :
    (∃ report, r = .ok report ∧ report.committed = true) ∨
      r = .error (.storage .patternTooLong) := by
  cases h with
  | lost e e' m early =>
    rw [(Unfinished.of_isLate early).hasTakenEffect] at heffect
    cases heffect
  | unchanged remoteModified m => exact .inl ⟨_, rfl, rfl⟩
  | updated d opened m read confined hcommit hunchanged => exact .inl ⟨_, rfl, hcommit⟩
  | untabled d opened m read => exact .inr rfl
  | dropped d unread confined unfinished =>
    rw [unfinished.hasTakenEffect] at heffect
    cases heffect

/-- A run that does not take effect touches nothing but what it staged. -/
theorem unfinished (h : OneEnds w s source active fetched u₁ r u')
    (hn : hasTakenEffect r = false) :
    Unfinished r ∧ Store.ChangesOnly (·.isOf source.id (active + 1)) u₁.store u'.store := by
  cases h with
  | lost e e' m early => exact ⟨.of_isLate early, .refl _ u₁.store⟩
  | unchanged remoteModified m => cases hn
  | updated d opened m read confined hcommit hunchanged =>
    rw [hasTakenEffect, hasCommitted, hcommit] at hn
    cases hn
  | untabled d opened m read => cases hn
  | dropped d unread confined unfinished => exact ⟨unfinished, confined.store⟩

/-- The ids of the sources stay as they are where a source's items are replaced. -/
theorem replace_numbered {u₁ u₂ : Updater σ} {learned : Metadata} (hn : u₁.store.Numbered)
    (confined : u₁.Confined (·.isOf source.id (active + 1)) u₂) :
    (replace u₂.store source.id active learned).synced.Numbered := by
  refine hn.of_ids ?_ (Int.le_of_eq (congrArg Store.lastId confined.store.same).symm)
  refine (u₂.store.modifySource_map (f := (Store.learned · learned)) fun _ => rfl).trans ?_
  rw [confined.store.sources]

theorem numbered (h : OneEnds w s source active fetched u₁ r u') (hn : u₁.store.Numbered) :
    u'.store.Numbered := by
  cases h with
  | lost e e' m => exact hn
  | unchanged remoteModified m =>
    dsimp only
    split
    · exact hn.of_ids (u₁.store.modifySource_map fun _ => rfl) (Int.le_refl _)
    · exact hn
  | updated d opened m read confined => exact replace_numbered hn confined
  | untabled d opened m read confined => exact replace_numbered hn confined
  | dropped d unread confined unfinished =>
    have hlast := congrArg Store.lastId confined.store.same
    exact hn.of_ids (by rw [confined.store.sources]) (Int.le_of_eq hlast.symm)

end OneEnds

/-- What was taken over replaces the source's items, and the run commits if the table can be made
anew. -/
theorem upon_conclude_updated (source : Source) (active : Int) (learned : Metadata)
    (u : Updater σ) :
    ((replace u.store source.id active learned).isRefused = true ∧
      upon (conclude source active (.updated learned)) u = (.error (.storage .patternTooLong),
        { u with store := (replace u.store source.id active learned).synced })) ∨
    ((replace u.store source.id active learned).isRefused = false ∧
      ∃ report m, upon (conclude source active (.updated learned)) u =
          (.ok report, { u with
            progress := m
            store := (replace u.store source.id active learned).synced }) ∧
        report.committed = true ∧ report.unchanged = 0 ∧ report.stopped = false) := by
  rw [conclude, Work.upon_bind_of_ok (Work.upon_onStore _ u)]
  rcases upon_syncTable_bind _ { u with store := replace u.store source.id active learned } with
    hrefused | ⟨hmade, hsync⟩
  · exact .inl hrefused
  · exact .inr ⟨hmade, _, _, hsync, rfl, rfl, rfl⟩

/-- A source that failed or was stopped is left with nothing staged. -/
theorem upon_conclude_dropped (source : Source) (active : Int) {settled : Settled}
    (h : (∃ reason, settled = .failed reason) ∨ settled = .stopped) (u : Updater σ) :
    ∃ r m, upon (conclude source active settled) u =
        (r, { u with
          progress := m
          store := u.store.clearItems source.id (some (active + 1)) }) ∧ Unfinished r := by
  rcases h with ⟨reason, rfl⟩ | rfl
  · exact ⟨_, _, rfl, rfl⟩
  · exact ⟨_, _, rfl, rfl, rfl⟩

/-- The part of a run over one source that begins with what was downloaded. -/
def takeOver (w : World σ) (s : Setup) (source : Source) (active : Int) (d : Fetch.Download) :
    Work σ Report := do
  let settled ← settle w s source d (active + 1)
  Work.onProgress (·.complete .parse)
  conclude source active settled

theorem takeOver_ends (w : World σ) (s : Setup) (source : Source) (active : Int)
    (d : Fetch.Download) (u : Updater σ) (hk : u.store.knows source.id = true) :
    OneEnds w s source active (.ok (.downloaded d)) u (upon (takeOver w s source active d) u).1
      (upon (takeOver w s source active d) u).2 := by
  obtain ⟨settled, u₂, hsettle⟩ := settle_ok w s source d (active + 1) u
  have hconfined := settle_confined w s source d (active + 1) u
  rw [hsettle] at hconfined
  rw [takeOver, Work.upon_bind_of_ok hsettle, Work.upon_bind_of_ok (Work.upon_onProgress _ u₂)]
  -- one that was not taken over could not be read through
  have hdropped : ((∃ reason, settled = .failed reason) ∨ settled = .stopped) →
      OneEnds w s source active (.ok (.downloaded d)) u
        (upon (conclude source active settled)
          { u₂ with progress := u₂.progress.complete .parse }).1
        (upon (conclude source active settled)
          { u₂ with progress := u₂.progress.complete .parse }).2 := by
    intro hsettled
    obtain ⟨r, m, hconclude, hr⟩ := upon_conclude_dropped source active hsettled
      { u₂ with progress := u₂.progress.complete .parse }
    rw [hconclude]
    have hunread : ∀ opened, ¬ReadThrough w d.content u opened := by
      intro opened hread
      have hupdated := settle_of_readThrough s source (active + 1) hread hk
      rw [hsettle] at hupdated
      injection hupdated with hupdated
      rcases hsettled with ⟨reason, rfl⟩ | rfl
      · cases hupdated
      · cases hupdated
    exact .dropped d hunread
      ⟨hconfined.store.trans (Store.clearItems_changes _ _ _), hconfined.stopped⟩ hr
      (fun hgoing => settle_broken hsettle hgoing hunread) (Store.clearItems_itemsOf _ _ _)
  cases settled with
  | updated learned =>
    obtain ⟨rfl, opened, hread, hitems⟩ := settle_updated hsettle hk
    rcases upon_conclude_updated source active (newMetadata d)
        { u₂ with progress := u₂.progress.complete .parse } with
      ⟨hrefused, hconclude⟩ | ⟨hmade, report, m, hconclude, hcommit, hunchanged, hgoing⟩
    · rw [hconclude]
      exact .untabled d opened _ hread ⟨hconfined.store, hconfined.stopped⟩ hitems hrefused
    · rw [hconclude]
      exact .updated d opened m hread ⟨hconfined.store, hconfined.stopped⟩ hcommit hunchanged
        hitems hgoing hmade
  | unchanged learned => exact absurd hsettle settle_ne_unchanged
  | failed reason => exact hdropped (.inl ⟨reason, rfl⟩)
  | stopped => exact hdropped (.inr rfl)

/-- The meter has no part in it. -/
theorem OneEnds.of_progress {u₁ u₁' u' : Updater σ} {d : Fetch.Download} {m : Progress}
    {r : Except Error Report} (h : OneEnds w s source active (.ok (.downloaded d)) u₁' r u')
    (hu : u₁' = { u₁ with progress := m }) :
    OneEnds w s source active (.ok (.downloaded d)) u₁ r u' := by
  cases h with
  | updated _ opened m' read confined hcommit hunchanged items hgoing made =>
    subst hu
    exact .updated d opened m' ⟨read.going, read.answer, read.sound, read.unseen⟩
      ⟨confined.store, confined.stopped⟩ hcommit hunchanged items hgoing made
  | untabled _ opened m' read confined items refused =>
    subst hu
    exact .untabled d opened m' ⟨read.going, read.answer, read.sound, read.unseen⟩
      ⟨confined.store, confined.stopped⟩ items refused
  | dropped _ unread confined unfinished broken emptied =>
    subst hu
    exact .dropped d (fun opened read =>
      unread opened ⟨read.going, read.answer, read.sound, read.unseen⟩)
      ⟨confined.store, confined.stopped⟩ unfinished broken emptied

/-! ### The fetch -/

/-- The updater with the meter of a run over one source. -/
def shown (source : Source) (u : Updater σ) : Updater σ :=
  { u with progress :=
      ((u.progress.setTotal .download 1).setTotal .parse 1).setCurrentItem source.label }

theorem upon_fetchOnly (w : World σ) (s : Setup) (source : Source) (isRemote : Bool)
    (u : Updater σ) :
    ∃ m, upon (fetchOnly w s source isRemote) u =
      ((upon (Fetch.fetch w s.fetch source) (shown source u)).1.mapError fun e =>
          if isRemote then .downloadFailed 1 else e,
        { (upon (Fetch.fetch w s.fetch source) (shown source u)).2 with progress := m }) := by
  rw [fetchOnly, Work.upon_bind_of_ok (Work.upon_onProgress _ u),
    Work.upon_bind_of_ok (Work.upon_onProgress _ _), Work.upon_bind_of_ok (Work.upon_outcome _ _),
    Work.upon_bind_of_ok (Work.upon_onProgress _ _)]
  refine ⟨(upon (Fetch.fetch w s.fetch source) (shown source u)).2.progress.complete .download, ?_⟩
  dsimp only [shown]
  generalize upon (Fetch.fetch w s.fetch source) _ = answered
  obtain ⟨answer, u₁⟩ := answered
  cases answer with
  | ok fetched => rfl
  | error e => rfl

theorem runFetched_ends (s : Setup) {source : Source} {location : Location}
    (hplace : source.place = .ok location) (active : Int) (u : Updater σ)
    (hk : u.store.knows source.id = true) :
    OneEnds w s source active (upon (Fetch.fetch w s.fetch source) (shown source u)).1
      (upon (Fetch.fetch w s.fetch source) (shown source u)).2
      (upon (runFetched w s source active location.isRemote) u).1
      (upon (runFetched w s source active location.isRemote) u).2 := by
  obtain ⟨m, hfetch⟩ := upon_fetchOnly w s source location.isRemote u
  have hstore : (upon (Fetch.fetch w s.fetch source) (shown source u)).2.store = u.store :=
    Fetch.fetch_store w s.fetch source (shown source u)
  have hfailed : ∀ e u', upon (Fetch.fetch w s.fetch source) (shown source u) = (.error e, u') →
      (if location.isRemote then .downloadFailed 1 else e : Error).isLate = false := by
    intro e u' hfetch
    cases hremote : location.isRemote with
    | true => rfl
    | false => exact Fetch.fetch_early w hplace hremote hfetch
  generalize upon (Fetch.fetch w s.fetch source) (shown source u) = answered
    at hfetch hstore hfailed ⊢
  obtain ⟨fetched, u₁⟩ := answered
  cases fetched with
  | error e =>
    rw [runFetched, Work.upon_bind_of_error hfetch]
    exact .lost e _ m (hfailed e u₁ rfl)
  | ok fetched =>
    rw [runFetched, Work.upon_bind_of_ok hfetch]
    cases fetched with
    | unchanged remoteModified =>
      cases remoteModified with
      | none => exact .unchanged none _
      | some time => exact .unchanged (some time) _
    | downloaded d =>
      have hends := takeOver_ends w s source active d { u₁ with progress := m }
        (show u₁.store.knows source.id = true by rw [hstore]; exact hk)
      exact hends.of_progress rfl

/-! ### Whole runs -/

/-- The updater that the fetch of a run over one source starts from. -/
def atFetch (task : Option String) (source : Source) (u : Updater σ) : Updater σ :=
  shown source
    { Work.started task u with store := { u.store with durability := .relaxed } }

/-- The run over a source that is enabled, once its location is known and there is a network. -/
def runInPlace (w : World σ) (s : Setup) (source : Source) (active : Int) (isRemote : Bool) :
    Work σ Report := do
  Work.onStore ({ · with durability := .relaxed })
  let result ← Work.outcome (runFetched w s source active isRemote)
  Work.onStore ({ · with durability := .normal })
  match result with
  | .ok report => return report
  | .error e => throw e

/-- The run over a source that is enabled. -/
def runEnabled (w : World σ) (s : Setup) (source : Source) (active : Int) : Work σ Report := do
  let location ← Fetch.place source
  if location.isRemote then preflight w [source]
  runInPlace w s source active location.isRemote

theorem runOne_eq (w : World σ) (s : Setup) (id : Int) : runOne w s id = (do
    let source ← sourceOf id
    let active := (← get).store.active
    if source.isUser || !source.enabled then refreshOnly source active
    else runEnabled w s source active) := rfl

theorem upon_runInPlace (isRemote : Bool) (u : Updater σ) :
    upon (runInPlace w s source active isRemote) u =
      let ended := upon (runFetched w s source active isRemote)
        { u with store := { u.store with durability := .relaxed } }
      (ended.1, { ended.2 with store := { ended.2.store with durability := .normal } }) := by
  rw [runInPlace, Work.upon_bind_of_ok (Work.upon_onStore _ u),
    Work.upon_bind_of_ok (Work.upon_outcome _ _), Work.upon_bind_of_ok (Work.upon_onStore _ _)]
  dsimp only
  cases (upon (runFetched w s source active isRemote)
    { u with store := { u.store with durability := .relaxed } }).1 <;> rfl

/-- What has no place to be fetched from was not parsed. -/
theorem place_early {source : Source} {e : Error} (h : source.place = .error e) :
    e.isLate = false := by
  unfold Source.place Location.ofText at h
  grind [Error.isLate, Error.isParseFailure, Error.isStorage]

theorem source_early {s : Store} {id : Int} {e : Error} (h : s.source id = .error e) :
    e.isLate = false := by
  unfold Store.source at h
  split at h
  · cases h
  · cases h
    rfl

/-- Whether a source can be fetched: its location is of a kind that can be, and if it is on a
server that has an address. -/
def isAvailable (w : World σ) (source : Source) : Bool :=
  source.isFetchable && isReachable w ([source].filterMap Source.remoteHost?)

/-- The store when a source is not fetched: one that is off is cleared. -/
def unfetched (source : Source) (s : Store) : Store :=
  if source.isUser then s else forget s source.id

/-- The ways a run over one source ends: what it comes to, the store after it, and whether a stop
is in force then. -/
inductive OneRunEnds (w : World σ) (s : Setup) (id : Int) (task : Option String) (u : Updater σ) :
    Except Error Report → Store → Bool → Prop where
  /-- Another run was under way. -/
  | refused (hr : u.running = true) :
      OneRunEnds w s id task u (.error .alreadyRunning) u.store u.control.stopped
  /-- There is no such source, or it is one that cannot be fetched from here. -/
  | early (e : Error) (why : ∀ source, u.store.source id = .ok source →
        source.isUser = false ∧ source.enabled = true ∧ isAvailable w source = false)
      (early : e.isLate = false) :
      OneRunEnds w s id task u (.error e) u.store false
  | refreshed {source : Source} {report : Report} (hs : u.store.source id = .ok source)
      (hidle : source.isUser = true ∨ source.enabled = false) (hcommit : report.committed = true)
      (hunchanged : report.unchanged = 0) (hgoing : report.updated = 0 ∧ report.stopped = false)
      (made : (unfetched source u.store).isRefused = false) :
      OneRunEnds w s id task u (.ok report) (unfetched source u.store).synced false
  /-- There is nothing to fetch, and the table could not be made anew. -/
  | untabled {source : Source} (hs : u.store.source id = .ok source)
      (hidle : source.isUser = true ∨ source.enabled = false)
      (refused : (unfetched source u.store).isRefused = true) :
      OneRunEnds w s id task u (.error (.storage .patternTooLong))
        (unfetched source u.store).synced false
  | fetched {source : Source} {r : Except Error Report} {u' : Updater σ} (hr : u.running = false)
      (hs : u.store.source id = .ok source) (huser : source.isUser = false)
      (ends : OneEnds w s source u.store.active
        (upon (Fetch.fetch w s.fetch source) (atFetch task source u)).1
        (upon (Fetch.fetch w s.fetch source) (atFetch task source u)).2 r u')
      (henabled : source.enabled = true) :
      OneRunEnds w s id task u r { u'.store with durability := .normal } u'.control.stopped

theorem upon_sourceOf (id : Int) (u : Updater σ) :
    upon (sourceOf id) u = match u.store.source id with
      | .ok source => (.ok source, u)
      | .error e => (.error e, u) := by
  rw [sourceOf, Work.upon_get_bind]
  cases u.store.source id <;> rfl

/-- Where there is nothing to fetch the run commits if the table can be made anew. -/
theorem upon_refreshOnly (source : Source) (active : Int) (u : Updater σ) :
    ((unfetched source u.store).isRefused = true ∧
      upon (refreshOnly source active) u = (.error (.storage .patternTooLong),
        { u with store := (unfetched source u.store).synced })) ∨
    ((unfetched source u.store).isRefused = false ∧
      ∃ report, upon (refreshOnly source active) u =
          (.ok report, { u with store := (unfetched source u.store).synced }) ∧
        report.committed = true ∧ report.unchanged = 0 ∧
          report.updated = 0 ∧ report.stopped = false) := by
  have hcleared : upon (refreshOnly source active) u = upon (do
      let summary ← syncTable
      return { generation := active, committed := true, summary := some summary })
        { u with store := unfetched source u.store } := by
    rw [refreshOnly, unfetched]
    cases source.isUser with
    | true => rfl
    | false => rfl
  rw [hcleared]
  rcases upon_syncTable_bind _ { u with store := unfetched source u.store } with
    hrefused | ⟨hmade, hsync⟩
  · exact .inl hrefused
  · exact .inr ⟨hmade, _, hsync, rfl, rfl, rfl, rfl⟩

/-- It fails before the fetch, or the source is fetched in place. -/
theorem upon_runEnabled (w : World σ) (s : Setup) (source : Source) (active : Int)
    (u : Updater σ) :
    (isAvailable w source = false ∧
      ∃ e, upon (runEnabled w s source active) u = (.error e, u) ∧ e.isLate = false) ∨
      ∃ location, source.place = .ok location ∧ upon (runEnabled w s source active) u =
        upon (runInPlace w s source active location.isRemote) u := by
  rw [runEnabled]
  cases hplace : source.place with
  | error e =>
    have hnone : upon (Fetch.place source) u = (.error e, u) := by
      rw [Fetch.place, hplace]
      rfl
    have hunfetchable : source.isFetchable = false := by
      simp [Source.isFetchable, Source.isFile, Source.isOnServer, hplace]
    exact .inl ⟨by simp [isAvailable, hunfetchable], e, Work.upon_bind_of_error hnone,
      place_early hplace⟩
  | ok location =>
    have hsome : upon (Fetch.place source) u = (.ok location, u) := by
      rw [Fetch.place, hplace]
      rfl
    rw [Work.upon_bind_of_ok hsome]
    cases hremote : location.isRemote with
    | false => exact .inr ⟨location, rfl, by rw [hremote]; rfl⟩
    | true =>
      rw [if_pos rfl]
      cases hreach : isReachable w ([source].filterMap Source.remoteHost?) with
      | false =>
        have h : upon (preflight w [source]) u = (.error .noConnection, u) := by
          rw [preflight, hreach]
          rfl
        exact .inl ⟨by simp [isAvailable, hreach], .noConnection, Work.upon_bind_of_error h, rfl⟩
      | true =>
        have h : upon (preflight w [source]) u = (.ok (), u) := by
          rw [preflight, hreach]
          rfl
        exact .inr ⟨location, rfl, by rw [Work.upon_bind_of_ok h, hremote]⟩

/-- **A run over one source** fails before its fetch, or has nothing to fetch, or fetches the
source in place. -/
theorem runOne_cases (w : World σ) (s : Setup) (id : Int) (u : Updater σ) :
    ((∀ source, u.store.source id = .ok source →
        source.isUser = false ∧ source.enabled = true ∧ isAvailable w source = false) ∧
      ∃ e, upon (runOne w s id) u = (.error e, u) ∧ e.isLate = false) ∨
    ∃ source, u.store.source id = .ok source ∧
      (((source.isUser = true ∨ source.enabled = false) ∧
          upon (runOne w s id) u = upon (refreshOnly source u.store.active) u) ∨
        (source.isUser = false ∧ source.enabled = true ∧ ∃ location,
          source.place = .ok location ∧ upon (runOne w s id) u =
            upon (runInPlace w s source u.store.active location.isRemote) u)) := by
  have hsource := upon_sourceOf id u
  rw [runOne_eq]
  cases hs : u.store.source id with
  | error e =>
    rw [hs] at hsource
    exact .inl ⟨by simp, e, Work.upon_bind_of_error hsource, source_early hs⟩
  | ok source =>
    rw [hs] at hsource
    rw [Work.upon_bind_of_ok hsource, Work.upon_get_bind]
    cases hidle : source.isUser || !source.enabled with
    | true =>
      rw [Bool.or_eq_true, Bool.not_eq_true'] at hidle
      rw [if_pos rfl]
      exact .inr ⟨source, rfl, .inl ⟨hidle, rfl⟩⟩
    | false =>
      obtain ⟨huser, henabled⟩ := Bool.or_eq_false_iff.mp hidle
      rw [Bool.not_eq_false'] at henabled
      rw [if_neg Bool.false_ne_true]
      rcases upon_runEnabled w s source u.store.active u with ⟨hmissing, hearly⟩ | hfetch
      · refine .inl ⟨fun other hother => ?_, hearly⟩
        injection hother with hother
        subst hother
        exact ⟨huser, henabled, hmissing⟩
      · exact .inr ⟨source, rfl, .inr ⟨huser, henabled, hfetch⟩⟩

theorem updateOne_ends (w : World σ) (s : Setup) (id : Int) (task : Option String) (u : Updater σ) :
    OneRunEnds w s id task u (updateOne w s id task u).1 (updateOne w s id task u).2.store
      (updateOne w s id task u).2.control.stopped := by
  rw [updateOne]
  rcases Work.supervised_cases task (runOne w s id) u with ⟨hr, hrefused⟩ | ⟨hr, m, hrun⟩
  · rw [hrefused]
    exact .refused hr
  · rw [hrun]
    dsimp only
    rcases runOne_cases w s id (Work.started task u) with ⟨hwhy, e, hearly, hearliest⟩ |
      ⟨source, hs, ⟨hidle, hrefresh⟩ | ⟨huser, henabled, location, hplace, hfetch⟩⟩
    · rw [hearly]
      exact .early e hwhy hearliest
    · rw [hrefresh]
      rcases upon_refreshOnly source u.store.active (Work.started task u) with
        ⟨hrefused, hsync⟩ | ⟨hmade, report, hsync, hcommit, hunchanged, hgoing⟩
      · rw [show (Work.started task u).store = u.store from rfl] at hrefused hsync ⊢
        rw [hsync]
        exact .untabled hs hidle hrefused
      · rw [show (Work.started task u).store = u.store from rfl] at hmade hsync ⊢
        rw [hsync]
        exact .refreshed hs hidle hcommit hunchanged hgoing hmade
    · have hknows : u.store.knows source.id = true :=
        Store.knows_of_mem (Store.mem_of_source hs).1
      rw [hfetch, upon_runInPlace]
      exact .fetched hr hs huser
        (runFetched_ends s hplace u.store.active
          { Work.started task u with store := { u.store with durability := .relaxed } } hknows)
        henabled

/-- A run over a source that there is not leaves the store as it was. -/
theorem updateOne_unknown (w : World σ) (s : Setup) {id : Int} (task : Option String)
    {u : Updater σ} {e : Error} (h : u.store.source id = .error e) :
    (updateOne w s id task u).2.store = u.store := by
  have hends := updateOne_ends w s id task u
  generalize (updateOne w s id task u).1 = r at hends
  generalize (updateOne w s id task u).2.store = after at hends ⊢
  generalize (updateOne w s id task u).2.control.stopped = halted at hends
  cases hends with
  | refused hr => rfl
  | early e why => rfl
  | refreshed hs =>
    rw [h] at hs
    cases hs
  | untabled hs =>
    rw [h] at hs
    cases hs
  | fetched hr hs huser ends henabled =>
    rw [h] at hs
    cases hs

/-- Whatever a run over one source comes to, ids are a key afterwards. -/
theorem updateOne_numbered (w : World σ) (s : Setup) (id : Int) (task : Option String)
    (u : Updater σ) (hn : u.store.Numbered) : (updateOne w s id task u).2.store.Numbered := by
  have hcleared : ∀ source, (unfetched source u.store).synced.Numbered := by
    intro source
    have hforgotten : (unfetched source u.store).Numbered := by
      unfold unfetched
      split
      · exact hn
      · exact hn.of_ids (u.store.modifySource_map (f := Source.unread) fun _ => rfl) (Int.le_refl _)
    exact ⟨hforgotten.keyed, hforgotten.given⟩
  have hends := updateOne_ends w s id task u
  generalize (updateOne w s id task u).1 = r at hends
  generalize (updateOne w s id task u).2.store = after at hends ⊢
  generalize (updateOne w s id task u).2.control.stopped = halted at hends
  cases hends with
  | refused hr => exact hn
  | early e => exact hn
  | refreshed => exact hcleared _
  | untabled => exact hcleared _
  | @fetched source _ u' hr hs huser ends =>
    have hfetched := ends.numbered (by
      rw [Fetch.fetch_store]
      exact ⟨hn.keyed, hn.given⟩)
    exact ⟨hfetched.keyed, hfetched.given⟩

end Sinkhole.Update
