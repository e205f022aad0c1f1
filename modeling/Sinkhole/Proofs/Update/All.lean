import Sinkhole.Proofs.Store.Rebuild
import Sinkhole.Proofs.Update.Adopting
import Sinkhole.Proofs.Update.Visits
import Sinkhole.Proofs.Order

/-! A run over all sources, from its plan to its report.

Such a run fails before it stages anything, or it visits the planned sources and then
ends in one of two ways: a stop is in force and everything that was in force before
still is, or what the visits staged is adopted, and then the table is made anew if it
can be. `runAll_cases` tells these apart, and what is proved of either way builds on
it. -/
namespace Sinkhole

namespace Source

/-- Whether a source is a list on a server. -/
def isOnServer (s : Source) : Bool :=
  match s.place with
  | .ok (.remote _) => true
  | _ => false

/-- Whether a source is a file. -/
def isFile (s : Source) : Bool :=
  match s.place with
  | .ok (.local _) => true
  | _ => false

/-- Whether a location is of a kind that can be fetched. -/
def isFetchable (s : Source) : Bool := s.isFile || s.isOnServer

theorem isOnServer_eq_false {s : Source} (h : s.isFile = true) : s.isOnServer = false := by
  unfold isFile at h
  unfold isOnServer
  split at h
  · rename_i hplace
    rw [hplace]
  · cases h

/-- Whether a source can be fetched depends on its location alone. -/
theorem isFetchable_congr {a b : Source} (h : a.location = b.location) :
    a.isFetchable = b.isFetchable := by
  simp only [isFetchable, isFile, isOnServer, place, h]

end Source

namespace Update

open Work (Confined upon)

variable {σ : Type} {w : World σ} {s : Setup}

/-! ### The plan -/

theorem foldl_planWith (p : Plan) (sources : List Source) :
    sources.foldl Plan.with p =
      { files := p.files ++ sources.filter (·.isFile)
        remote := p.remote ++ sources.filter (·.isOnServer) } := by
  induction sources generalizing p with
  | nil => simp
  | cons source sources ih =>
    rw [List.foldl_cons, ih, List.filter_cons, List.filter_cons]
    unfold Plan.with Source.isFile Source.isOnServer
    cases source.place with
    | error e => rfl
    | ok location => cases location <;> simp

/-- The plan for a store. -/
def planOf (s : Store) : Plan :=
  { files := s.enabledSources.filter (·.isFile)
    remote := s.enabledSources.filter (·.isOnServer) }

/-- The sources that a run visits unless it is stopped. -/
def fetchable (s : Store) : List Source := s.enabledSources.filter (·.isFetchable)

theorem upon_plan (u : Updater σ) :
    upon plan u = (.ok (planOf u.store),
      { u with store := forgetAll u.store (idle u.store) }) := by
  have henabled : (u.store.sources.filter (!·.isUser)).filter (·.enabled) =
      u.store.enabledSources := by
    rw [List.filter_filter]
    rfl
  show (Except.ok (List.foldl Plan.with {} _), _) = _
  rw [henabled, foldl_planWith]
  rfl

/-- In whatever order servers are asked, the planned sources are the ones to fetch. -/
theorem planOf_perm (s : Store) (le : Source → Source → Bool) :
    ((planOf s).files ++ sortBy le (planOf s).remote).Perm (fetchable s) := by
  have hfiles : (fetchable s).filter (·.isFile) = (planOf s).files :=
    filter_filter_of_imp (fun source h => by rw [Source.isFetchable, h, Bool.true_or]) _
  have hremote : (fetchable s).filter (!·.isFile) = (planOf s).remote := by
    rw [fetchable, List.filter_filter]
    refine List.filter_congr fun source _ => ?_
    rw [Source.isFetchable]
    cases hf : source.isFile with
    | true => rw [source.isOnServer_eq_false hf]; rfl
    | false => rw [Bool.false_or]; rfl
  have hsorted : (sortBy le (planOf s).remote).Perm ((fetchable s).filter (!·.isFile)) := by
    rw [hremote]
    exact sortBy_perm _
  rw [← hfiles]
  exact (hsorted.append_left _).trans (List.filter_append_perm (·.isFile) (fetchable s))

theorem mem_fetchable {s : Store} {source : Source} :
    source ∈ fetchable s ↔ source ∈ s.sources ∧ source.enabled = true ∧ source.isUser = false ∧
      source.isFetchable = true := by
  rw [fetchable, Store.enabledSources, List.mem_filter, List.mem_filter, Bool.and_eq_true,
    Bool.not_eq_true', and_assoc, and_assoc]

/-- What was fetched is of a kind that can be. -/
theorem fetch_isFetchable {source : Source} {fetched : Fetch.Fetched} {u u' : Updater σ}
    (h : upon (Fetch.fetch w s.fetch source) u = (.ok fetched, u')) :
    source.isFetchable = true := by
  rw [Fetch.fetch, Fetch.place] at h
  cases hplace : source.place with
  | error e =>
    rw [hplace] at h
    cases h
  | ok location =>
    cases location with
    | remote url => simp [Source.isFetchable, Source.isOnServer, hplace]
    | «local» path => simp [Source.isFetchable, Source.isFile, hplace]
    | user =>
      rw [hplace] at h
      cases h

/-- The visits of a run over all sources: they start from the cleared store and go to sources
that can be fetched, to all of them when there is no stop. -/
structure FullRun (w : World σ) (s : Setup) (u start : Updater σ) (visits : List (Visit σ))
    (last : Updater σ) : Prop where
  store : start.store = cleared u.store
  world : start.world = u.world
  chain : Visits w s (u.store.active + 1) start visits last
  planned : ∀ v ∈ visits, v.source ∈ fetchable u.store
  complete : last.control.stopped = false → (visits.map (·.source)).Perm (fetchable u.store)

/-! ### Ways to end -/

theorem upon_stoppedReport (active : Int) (u : Updater σ) :
    ∃ report p, upon (stoppedReport active) u = (.ok report, { u with progress := p }) ∧
      report.stopped = true ∧ report.committed = false :=
  ⟨_, _, rfl, rfl, rfl⟩

/-- The table is made anew or stays as it was. -/
theorem upon_syncTable (u : Updater σ) :
    upon syncTable u = (u.store.sync.map Prod.fst, { u with store := u.store.synced }) := by
  rw [syncTable, Work.upon_get_bind]
  cases hr : u.store.isRefused with
  | true =>
    rw [Store.sync_refused hr, Store.synced_refused hr]
    rfl
  | false =>
    rw [Store.sync_made hr]
    rfl

/-- What comes after it is done only if it was made anew. -/
theorem upon_syncTable_bind {α : Type} (next : Summary → Work σ α) (u : Updater σ) :
    (u.store.isRefused = true ∧ upon (syncTable >>= next) u =
      (.error (.storage .patternTooLong), { u with store := u.store.synced })) ∨
    (u.store.isRefused = false ∧ upon (syncTable >>= next) u =
      upon (next u.store.rebuild.1) { u with store := u.store.synced }) := by
  have hsync := upon_syncTable u
  cases hr : u.store.isRefused with
  | true =>
    rw [Store.sync_refused hr] at hsync
    exact .inl ⟨rfl, Work.upon_bind_of_error hsync⟩
  | false =>
    rw [Store.sync_made hr] at hsync
    exact .inr ⟨rfl, Work.upon_bind_of_ok hsync⟩

/-- The report of a run that commits. -/
def committedReport (active : Int) (results : List Result) (hosts : Nat) (summary : Summary) :
    Report where
  generation := active + 1
  committed := true
  updated := (results.filter fun r => !r.settled.isKept).length
  unchanged := (results.filter fun r => r.settled.isKept && r.settled.learned?.isSome).length
  failed := results.filterMap Result.failure?
  hostsParsed := hosts
  summary := some summary

/-- The end of a run that was not stopped and that could reach a server: what was staged is
adopted, and then the table is made anew. -/
def commitAll (active : Int) (results : List Result) (hosts : Nat) : Work σ Report := do
  Work.onStore (adopt · active results)
  return committedReport active results hosts (← syncTable)

/-- A run that was not stopped failed with all its servers, or goes on to commit. -/
theorem upon_finish (active : Int) (results : List Result) (u : Updater σ) :
    (∃ n p, upon (finish active results) u =
      (.error (.downloadFailed n), { u with store := u.store.discard.2, progress := p })) ∨
    ∃ hosts p, upon (finish active results) u =
      upon (commitAll active results hosts) { u with progress := p } := by
  rw [finish, Work.upon_bind_of_ok (Work.upon_onProgress _ u), Work.upon_get_bind]
  dsimp only
  split
  · exact .inl ⟨_, _, rfl⟩
  · exact .inr ⟨_, _, rfl⟩

/-- What was staged is adopted, and the run commits if the table can be made anew. -/
theorem upon_commitAll (active : Int) (results : List Result) (hosts : Nat) (u : Updater σ) :
    ((adopt u.store active results).isRefused = true ∧
      upon (commitAll active results hosts) u = (.error (.storage .patternTooLong),
        { u with store := (adopt u.store active results).synced })) ∨
    ((adopt u.store active results).isRefused = false ∧
      ∃ summary, upon (commitAll active results hosts) u =
        (.ok (committedReport active results hosts summary),
          { u with store := (adopt u.store active results).synced })) := by
  rw [commitAll, Work.upon_bind_of_ok (Work.upon_onStore _ u)]
  rcases upon_syncTable_bind _ { u with store := adopt u.store active results } with
    hrefused | ⟨hmade, hsync⟩
  · exact .inl hrefused
  · exact .inr ⟨hmade, _, hsync⟩

/-- The end of a run whose visits are over. -/
def conclusion (active : Int) (results : List Result) : Work σ Report := do
  if ← Work.isStopped then stoppedReport active else finish active results

/-- The ways that end comes out: what it comes to, and the updater after it. -/
inductive Concludes (active : Int) (results : List Result) (u : Updater σ) :
    Except Error Report → Updater σ → Prop where
  | stopped {report : Report} (p : Progress) (halted : u.control.stopped = true)
      (hstop : report.stopped = true) (hcommit : report.committed = false) :
      Concludes active results u (.ok report) { u with progress := p }
  /-- No server had its list. -/
  | fruitless (n : Nat) (p : Progress) (going : u.control.stopped = false) :
      Concludes active results u (.error (.downloadFailed n))
        { u with store := u.store.discard.2, progress := p }
  | adopted {report : Report} (p : Progress) (going : u.control.stopped = false)
      (hstop : report.stopped = false) (hcommit : report.committed = true)
      (made : (adopt u.store active results).isRefused = false) :
      Concludes active results u (.ok report)
        { u with store := (adopt u.store active results).synced, progress := p }
  /-- What was staged is adopted, but the table could not be made anew. -/
  | untabled (p : Progress) (going : u.control.stopped = false)
      (refused : (adopt u.store active results).isRefused = true) :
      Concludes active results u (.error (.storage .patternTooLong))
        { u with store := (adopt u.store active results).synced, progress := p }

/-- Nothing is asked for there, and the controls are left alone. -/
theorem Concludes.same {active : Int} {results : List Result} {u u' : Updater σ}
    {r : Except Error Report} (h : Concludes active results u r u') :
    u'.control = u.control ∧ u'.deeds = u.deeds := by
  cases h <;> exact ⟨rfl, rfl⟩

theorem conclusion_concludes (active : Int) (results : List Result) (u : Updater σ) :
    Concludes active results u (upon (conclusion active results) u).1
      (upon (conclusion active results) u).2 := by
  rw [conclusion, Work.upon_bind_of_ok (Work.upon_isStopped _)]
  cases hs : u.control.stopped with
  | true =>
    obtain ⟨report, p, hreport, hstop, hcommit⟩ := upon_stoppedReport active u
    rw [if_pos rfl, hreport]
    exact .stopped p hs hstop hcommit
  | false =>
    rw [if_neg Bool.false_ne_true]
    rcases upon_finish active results u with ⟨n, p, hfinish⟩ | ⟨hosts, p, hfinish⟩
    · rw [hfinish]
      exact .fruitless n p hs
    · rw [hfinish]
      rcases upon_commitAll active results hosts { u with progress := p } with
        ⟨hrefused, hcommit⟩ | ⟨hmade, summary, hcommit⟩
      · rw [hcommit]
        exact .untabled p hs hrefused
      · rw [hcommit]
        exact .adopted p hs rfl rfl hmade

/-- The run over a plan, once there is a network. -/
def runPlan (w : World σ) (s : Setup) (p : Plan) : Work σ Report := do
  Work.onStore fun s => { s.discard.2 with durability := .relaxed }
  let active := (← get).store.active
  Work.onProgress fun meter => (meter.setTotal .download p.size).setTotal .parse p.size
  let first ← updateSources w s (active + 1) true p.files
  let inTurn := sortBy (fun a b => w.turn a ≤ w.turn b) p.remote
  let second ← updateSources w s (active + 1) false inTurn
  Work.onStore fun s => { s with durability := .normal }
  conclusion active (first ++ second)

theorem runAll_eq (w : World σ) (s : Setup) : runAll w s = (do
    let p ← plan
    if !p.remote.isEmpty then preflight w p.remote
    runPlan w s p) := rfl

/-! ### The visits of a run -/

/-- What `runPlan` does before it concludes, with a record of each visit. -/
def stagePlan (w : World σ) (s : Setup) (p : Plan) : Work σ (List (Visit σ)) := do
  Work.onStore fun s => { s.discard.2 with durability := .relaxed }
  let active := (← get).store.active
  Work.onProgress fun meter => (meter.setTotal .download p.size).setTotal .parse p.size
  let first ← visitSources w s (active + 1) true p.files
  let inTurn := sortBy (fun a b => w.turn a ≤ w.turn b) p.remote
  let second ← visitSources w s (active + 1) false inTurn
  return first ++ second

/-- What `runAll` does before it concludes. -/
def stageAll (w : World σ) (s : Setup) : Work σ (List (Visit σ)) := do
  let p ← plan
  if !p.remote.isEmpty then preflight w p.remote
  stagePlan w s p

/-- The visits of a run over all sources. -/
def visitsOf (w : World σ) (s : Setup) (task : Option String) (u : Updater σ) : List (Visit σ) :=
  match (upon (stageAll w s) (Work.started task u)).1 with
  | .ok visits => visits
  | .error _ => []

theorem runPlan_cases (w : World σ) (s : Setup) (p : Plan) (u : Updater σ) :
    ∃ m visits last, upon (stagePlan w s p) u = (.ok visits, last) ∧
      Visits w s (u.store.discard.2.active + 1)
        { u with store := { u.store.discard.2 with durability := .relaxed }, progress := m }
        visits last ∧
      (visits.map (·.source)).Sublist
        (p.files ++ sortBy (fun a b => w.turn a ≤ w.turn b) p.remote) ∧
      (last.control.stopped = false → visits.map (·.source) =
        p.files ++ sortBy (fun a b => w.turn a ≤ w.turn b) p.remote) ∧
      upon (runPlan w s p) u = upon (conclusion u.store.discard.2.active
          (visits.map Visit.result))
        { last with store := { last.store with durability := .normal } } := by
  obtain ⟨first, middle, hfirst, hvisits, hsub, hall⟩ := visitSources_visits w s
    (u.store.discard.2.active + 1) true p.files
    { u with
      store := { u.store.discard.2 with durability := .relaxed }
      progress := (u.progress.setTotal .download p.size).setTotal .parse p.size }
  obtain ⟨second, last, hsecond, hvisits', hsub', hall'⟩ := visitSources_visits w s
    (u.store.discard.2.active + 1) false (sortBy (fun a b => w.turn a ≤ w.turn b) p.remote) middle
  refine ⟨_, first ++ second, last, ?_, hvisits.append hvisits', ?_, fun hs => ?_, ?_⟩
  · rw [stagePlan, Work.upon_bind_of_ok (Work.upon_onStore _ u), Work.upon_get_bind,
      Work.upon_bind_of_ok (Work.upon_onProgress _ _), Work.upon_bind_of_ok hfirst,
      Work.upon_bind_of_ok hsecond]
    rfl
  · rw [List.map_append]
    exact hsub.append hsub'
  · -- a stop at the end of the first part would still be in force
    have hmiddle : middle.control.stopped = false := by
      refine Bool.eq_false_iff.mpr fun hm => ?_
      rw [hvisits'.confined_any.stopped hm] at hs
      cases hs
    rw [List.map_append, hall hmiddle, hall' hs]
  · have hfirst' := (updateSources_eq w s _ true p.files _).trans (by rw [hfirst])
    have hsecond' := (updateSources_eq w s _ false _ middle).trans (by rw [hsecond])
    rw [runPlan, Work.upon_bind_of_ok (Work.upon_onStore _ u), Work.upon_get_bind,
      Work.upon_bind_of_ok (Work.upon_onProgress _ _), Work.upon_bind_of_ok hfirst',
      Work.upon_bind_of_ok hsecond', Work.upon_bind_of_ok (Work.upon_onStore _ last),
      List.map_append]

/-- Without a network the run fails; with one, or without need for it, the plan is carried out. -/
theorem upon_runAll (w : World σ) (s : Setup) (u : Updater σ) :
    upon (runAll w s) u =
      (.error .noConnection, { u with store := forgetAll u.store (idle u.store) }) ∨
    (upon (runAll w s) u = upon (runPlan w s (planOf u.store))
        { u with store := forgetAll u.store (idle u.store) } ∧
      upon (stageAll w s) u = upon (stagePlan w s (planOf u.store))
        { u with store := forgetAll u.store (idle u.store) }) := by
  rw [runAll_eq, stageAll, Work.upon_bind_of_ok (upon_plan u), Work.upon_bind_of_ok (upon_plan u)]
  cases (planOf u.store).remote.isEmpty with
  | true => exact .inr ⟨rfl, rfl⟩
  | false =>
    rw [Bool.not_false, if_pos rfl, if_pos rfl]
    rcases upon_preflight w (planOf u.store).remote
      { u with store := forgetAll u.store (idle u.store) } with h | h
    · exact .inl (Work.upon_bind_of_error h)
    · exact .inr ⟨Work.upon_bind_of_ok h, Work.upon_bind_of_ok h⟩

/-- Where the hosts of the servers can be found, the plan is carried out. -/
theorem upon_runAll_of_reachable (s : Setup) {u : Updater σ}
    (h : isReachable w ((planOf u.store).remote.filterMap Source.remoteHost?) = true) :
    upon (runAll w s) u = upon (runPlan w s (planOf u.store))
        { u with store := forgetAll u.store (idle u.store) } ∧
      upon (stageAll w s) u = upon (stagePlan w s (planOf u.store))
        { u with store := forgetAll u.store (idle u.store) } := by
  have hpreflight : upon (preflight w (planOf u.store).remote)
      { u with store := forgetAll u.store (idle u.store) } =
      (.ok (), { u with store := forgetAll u.store (idle u.store) }) := by
    rw [preflight, if_pos h]
    rfl
  rw [runAll_eq, stageAll, Work.upon_bind_of_ok (upon_plan u), Work.upon_bind_of_ok (upon_plan u)]
  cases (planOf u.store).remote.isEmpty with
  | true => exact ⟨rfl, rfl⟩
  | false => exact ⟨Work.upon_bind_of_ok hpreflight, Work.upon_bind_of_ok hpreflight⟩

/-- With nothing to fetch the run goes on to its conclusion. -/
theorem upon_runAll_of_empty (w : World σ) (s : Setup) {u : Updater σ} (h : planOf u.store = {}) :
    upon (runAll w s) u = upon (conclusion u.store.active [])
      { u with
        store := { cleared u.store with durability := .normal }
        progress := (u.progress.setTotal .download 0).setTotal .parse 0 } := by
  rw [runAll_eq, Work.upon_bind_of_ok (upon_plan u), h, ← cleared_active u.store]
  rfl

/-- A plan that is carried out visits the planned sources until there is a stop and then
concludes. -/
theorem runPlan_full (w : World σ) (s : Setup) (u : Updater σ) :
    ∃ start visits last, FullRun w s u start visits last ∧
      upon (stagePlan w s (planOf u.store)) { u with store := forgetAll u.store (idle u.store) } =
        (.ok visits, last) ∧
      upon (runPlan w s (planOf u.store)) { u with store := forgetAll u.store (idle u.store) } =
        upon (conclusion u.store.active (visits.map Visit.result))
          { last with store := { last.store with durability := .normal } } := by
  have hplanned := planOf_perm u.store fun a b => w.turn a ≤ w.turn b
  obtain ⟨m, visits, last, hstaged, hvisits, hsub, hall, hupon⟩ := runPlan_cases w s
    (planOf u.store) { u with store := forgetAll u.store (idle u.store) }
  rw [show (forgetAll u.store (idle u.store)).discard.2.active = u.store.active from
    cleared_active u.store] at hvisits hupon
  refine ⟨{ u with store := cleared u.store, progress := m }, visits, last,
    ⟨rfl, rfl, hvisits, fun v hv => ?_, fun hs => ?_⟩, hstaged, hupon⟩
  · exact hplanned.mem_iff.mp (hsub.subset (List.mem_map_of_mem hv))
  · rw [hall hs]
    exact hplanned

/-- **A run over all sources** fails before its first visit, or visits the planned sources until
there is a stop and then concludes. -/
theorem runAll_cases (w : World σ) (s : Setup) (u : Updater σ) :
    upon (runAll w s) u =
      (.error .noConnection, { u with store := forgetAll u.store (idle u.store) }) ∨
    ∃ start visits last, FullRun w s u start visits last ∧
      upon (stageAll w s) u = (.ok visits, last) ∧
      upon (runAll w s) u = upon (conclusion u.store.active (visits.map Visit.result))
        { last with store := { last.store with durability := .normal } } := by
  rcases upon_runAll w s u with hfailed | ⟨hrun, hstage⟩
  · exact .inl hfailed
  · obtain ⟨start, visits, last, hfull, hstaged, hupon⟩ := runPlan_full w s u
    exact .inr ⟨start, visits, last, hfull, hstage.trans hstaged, hrun.trans hupon⟩

/-! ### What a run leaves alone -/

/-- The items that the visits of a run may write. -/
def isStaged (active : Int) (i : Item) : Bool :=
  i.generation == active + 1 && i.source != Source.userId

namespace FullRun

variable {u start last : Updater σ} {visits : List (Visit σ)}

theorem id_ne_user (h : FullRun w s u start visits last) :
    ∀ v ∈ visits, v.source.id ≠ Source.userId := by
  intro v hv
  obtain ⟨-, -, huser, -⟩ := mem_fetchable.mp (h.planned v hv)
  exact beq_eq_false_iff_ne.mp huser

theorem confined (h : FullRun w s u start visits last) :
    start.Confined (isStaged u.store.active) last := by
  refine h.chain.confined fun v hv i hi => ?_
  obtain ⟨hid, hg⟩ := Item.isOf_iff.mp hi
  rw [isStaged, hid, hg, beq_self_eq_true, Bool.true_and, bne_iff_ne]
  exact h.id_ne_user v hv

/-- No visit is to a source that is not to be fetched, nor to one of the same id. -/
theorem id_ne_of_not_mem (h : FullRun w s u start visits last) (hk : u.store.Keyed)
    {source : Source} (hs : source ∈ u.store.sources) (hn : source ∉ fetchable u.store) :
    ∀ v ∈ visits, v.source.id ≠ source.id := by
  intro v hv hid
  have hplanned := h.planned v hv
  rw [hk.eq_of_id (mem_fetchable.mp hplanned).1 hs hid] at hplanned
  exact hn hplanned

/-- Without a stop every source that is to be fetched is visited. -/
theorem visited (h : FullRun w s u start visits last) (hs : last.control.stopped = false)
    {source : Source} (hplanned : source ∈ fetchable u.store) :
    ∃ v ∈ visits, v.source = source := by
  rw [← (h.complete hs).mem_iff] at hplanned
  exact List.mem_map.mp hplanned

theorem knows (h : FullRun w s u start visits last) :
    ∀ v ∈ visits, start.store.knows v.source.id = true := by
  intro v hv
  rw [Store.knows_iff, h.store]
  show v.source.id ∈ (forgetAll u.store (idle u.store)).sources.map (·.id)
  rw [forgetAll_ids]
  exact List.mem_map_of_mem (mem_fetchable.mp (h.planned v hv)).1

theorem nodup (h : FullRun w s u start visits last) (hk : u.store.Keyed)
    (hs : last.control.stopped = false) : (visits.map (·.source.id)).Nodup := by
  have hperm := (h.complete hs).map (·.id)
  rw [List.map_map] at hperm
  refine hperm.nodup_iff.mpr (List.Sublist.nodup (List.Sublist.map _ ?_) hk)
  exact List.filter_sublist.trans List.filter_sublist

/-- What the active generation has for a source in the run is as it was. -/
theorem itemsOf_active (h : FullRun w s u start visits last) {id : Int}
    (hid : ∀ source ∈ idle u.store, source.id ≠ id) :
    last.store.itemsOf id u.store.active = u.store.itemsOf id u.store.active := by
  rw [← cleared_itemsOf_active u.store hid, ← h.store]
  refine h.confined.store.itemsOf_eq fun i hi => ?_
  rw [isStaged, (Item.isOf_iff.mp hi).2, Bool.and_eq_false_iff]
  exact .inl (beq_false_of_ne (by omega))

/-- What is staged for a source that no visit was to is nothing, whatever earlier runs left. -/
theorem itemsOf_next (h : FullRun w s u start visits last) {id : Int} (hu : id ≠ Source.userId)
    (hid : ∀ v ∈ visits, v.source.id ≠ id) :
    last.store.itemsOf id (u.store.active + 1) = [] := by
  rw [← cleared_itemsOf_next u.store hu, ← h.store]
  have hothers := h.chain.confined (p := fun i => i.source != id) fun v hv i hi => by
    rw [(Item.isOf_iff.mp hi).1]
    exact bne_iff_ne.mpr (hid v hv)
  refine hothers.store.itemsOf_eq fun i hi => ?_
  rw [(Item.isOf_iff.mp hi).1, bne_self_eq_false]

theorem owned_user (h : FullRun w s u start visits last) :
    last.store.owned Source.userId = u.store.owned Source.userId := by
  rw [← cleared_owned_user u.store, ← h.store]
  refine h.confined.store.filter_eq fun i hi => ?_
  rw [isStaged, bne, hi, Bool.not_true, Bool.and_false]

theorem sources (h : FullRun w s u start visits last) :
    last.store.sources = (forgetAll u.store (idle u.store)).sources := by
  rw [h.confined.store.sources, h.store]
  rfl

/-- With ids as a key, a source that is not idle shares its id with none that is. -/
theorem idle_ne {store : Store} (hk : store.Keyed) {source : Source} (hs : source ∈ store.sources)
    (he : source.enabled = true) : ∀ other ∈ idle store, other.id ≠ source.id := by
  intro other hother hid
  obtain ⟨hmem, -, hdisabled⟩ := (mem_idle store).mp hother
  rw [hk.eq_of_id hmem hs hid, he] at hdisabled
  cases hdisabled

theorem numbered (h : FullRun w s u start visits last) (hn : u.store.Numbered) :
    last.store.Numbered := by
  have hlast : last.store.lastId = (forgetAll u.store (idle u.store)).lastId := by
    rw [h.confined.store.same, h.store]
    rfl
  exact (forgetAll_numbered u.store hn (idle u.store)).of_ids (congrArg _ h.sources) (by omega)

/-- The store once the results of the visits are adopted. -/
def adoption (u last : Updater σ) (visits : List (Visit σ)) : Store :=
  adopt { last.store with durability := .normal } u.store.active (visits.map Visit.result)

/-- The store after the run: its table is a new one if it could be made. -/
def outcome (u last : Updater σ) (visits : List (Visit σ)) : Store :=
  (adoption u last visits).synced

theorem outcome_numbered (h : FullRun w s u start visits last) (hn : u.store.Numbered) :
    (outcome u last visits).Numbered := by
  have hadopted : (adoption u last visits).Numbered :=
    adopt_numbered _ _ _ ⟨(h.numbered hn).keyed, (h.numbered hn).given⟩
  exact ⟨hadopted.keyed, hadopted.given⟩

end FullRun

/-! ### Whole runs -/

/-- The ways a run over all sources ends: what it comes to, the store after it, and whether a stop
is in force then. -/
inductive AllEnds (w : World σ) (s : Setup) (task : Option String) (u : Updater σ) :
    Except Error Report → Store → Bool → Prop where
  /-- Another run was under way. -/
  | refused (hr : u.running = true) :
      AllEnds w s task u (.error .alreadyRunning) u.store u.control.stopped
  /-- There was no network. -/
  | unreachable :
      AllEnds w s task u (.error .noConnection) (forgetAll u.store (idle u.store)) false
  | stopped {start visits last report} (run : FullRun w s u start visits last)
      (halted : last.control.stopped = true) (hstop : report.stopped = true)
      (hcommit : report.committed = false) :
      AllEnds w s task u (.ok report) { last.store with durability := .normal } true
  /-- No server had its list. -/
  | fruitless {start visits last} (run : FullRun w s u start visits last) (n : Nat)
      (going : last.control.stopped = false) :
      AllEnds w s task u (.error (.downloadFailed n))
        { last.store with durability := .normal }.discard.2 false
  | adopted {start visits last report} (run : FullRun w s u start visits last)
      (going : last.control.stopped = false) (hstop : report.stopped = false)
      (hcommit : report.committed = true) (staged : visits = visitsOf w s task u)
      (made : (FullRun.adoption u last visits).isRefused = false) :
      AllEnds w s task u (.ok report) (FullRun.outcome u last visits) false
  /-- What was staged is adopted, but the table could not be made anew. -/
  | untabled {start visits last} (run : FullRun w s u start visits last)
      (going : last.control.stopped = false) (staged : visits = visitsOf w s task u)
      (refused : (FullRun.adoption u last visits).isRefused = true) :
      AllEnds w s task u (.error (.storage .patternTooLong)) (FullRun.outcome u last visits) false

/-- While another run is under way nothing is changed. -/
theorem updateAll_refused (w : World σ) (s : Setup) (task : Option String) {u : Updater σ}
    (h : u.running = true) : updateAll w s task u = (.error .alreadyRunning, u) := by
  rcases Work.supervised_cases task (runAll w s) u with ⟨-, hrefused⟩ | ⟨hr, -⟩
  · exact hrefused
  · rw [h] at hr
    cases hr

theorem idle_of_updateAll {w : World σ} {s : Setup} {task : Option String} {u : Updater σ}
    {report : Report} (h : (updateAll w s task u).1 = .ok report) : u.running = false := by
  refine Bool.eq_false_iff.mpr fun hr => ?_
  rw [updateAll_refused w s task hr] at h
  cases h

theorem updateAll_ends (w : World σ) (s : Setup) (task : Option String) (u : Updater σ) :
    AllEnds w s task u (updateAll w s task u).1 (updateAll w s task u).2.store
      (updateAll w s task u).2.control.stopped := by
  rw [updateAll]
  rcases Work.supervised_cases task (runAll w s) u with ⟨hr, hrefused⟩ | ⟨-, m, hrun⟩
  · rw [hrefused]
    exact .refused hr
  · rw [hrun]
    dsimp only
    rcases runAll_cases w s (Work.started task u) with
      hupon | ⟨start, visits, last, hstarted, hstaged, hupon⟩
    · rw [hupon]
      exact .unreachable
    · have hfull : FullRun w s u start visits last :=
        ⟨hstarted.store, hstarted.world, hstarted.chain, hstarted.planned, hstarted.complete⟩
      have hstore : (Work.started task u).store = u.store := rfl
      have hvisits : visits = visitsOf w s task u := by rw [visitsOf, hstaged]
      have hends := conclusion_concludes u.store.active (visits.map Visit.result)
        { last with store := { last.store with durability := .normal } }
      rw [hupon, hstore]
      generalize upon (conclusion u.store.active (visits.map Visit.result)) _ = ended at hends ⊢
      obtain ⟨r, u'⟩ := ended
      dsimp only at hends ⊢
      cases hends with
      | stopped p halted hstop hcommit =>
        rw [show last.control.stopped = true from halted]
        exact .stopped hfull halted hstop hcommit
      | fruitless n p going =>
        rw [show last.control.stopped = false from going]
        exact .fruitless hfull n going
      | adopted p going hstop hcommit made =>
        rw [show last.control.stopped = false from going]
        exact .adopted hfull going hstop hcommit hvisits made
      | untabled p going refused =>
        rw [show last.control.stopped = false from going]
        exact .untabled hfull going hvisits refused

/-- A run over all sources that commits has put its visits in force. -/
theorem updateAll_committed (w : World σ) (s : Setup) (task : Option String) (u : Updater σ)
    {report : Report} (h : (updateAll w s task u).1 = .ok report) (hc : report.committed = true) :
    ∃ start last, FullRun w s u start (visitsOf w s task u) last ∧
      last.control.stopped = false ∧
      (FullRun.adoption u last (visitsOf w s task u)).isRefused = false ∧
      (updateAll w s task u).2.store = FullRun.outcome u last (visitsOf w s task u) := by
  have hends := updateAll_ends w s task u
  rw [h] at hends
  generalize (updateAll w s task u).2.store = after at hends ⊢
  generalize (updateAll w s task u).2.control.stopped = halted at hends
  cases hends with
  | stopped _ _ _ hcommit =>
    rw [hc] at hcommit
    cases hcommit
  | adopted run going hstop hcommit staged made =>
    rw [← staged]
    exact ⟨_, _, run, going, made, rfl⟩

/-- Whatever a run over all sources comes to, ids are a key afterwards. -/
theorem updateAll_numbered (w : World σ) (s : Setup) (task : Option String) (u : Updater σ)
    (hn : u.store.Numbered) : (updateAll w s task u).2.store.Numbered := by
  have hends := updateAll_ends w s task u
  generalize (updateAll w s task u).1 = r at hends
  generalize (updateAll w s task u).2.store = after at hends ⊢
  generalize (updateAll w s task u).2.control.stopped = halted at hends
  cases hends with
  | refused hr => exact hn
  | unreachable => exact forgetAll_numbered u.store hn (idle u.store)
  | stopped run halted hstop hcommit => exact ⟨(run.numbered hn).keyed, (run.numbered hn).given⟩
  | fruitless run n going => exact ⟨(run.numbered hn).keyed, (run.numbered hn).given⟩
  | adopted run going hstop hcommit => exact run.outcome_numbered hn
  | untabled run going => exact run.outcome_numbered hn

end Update

end Sinkhole
