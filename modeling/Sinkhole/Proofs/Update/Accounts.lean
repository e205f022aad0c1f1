import Mathlib.Data.List.Forall2
import Sinkhole.Proofs.Update.Adopted
import Sinkhole.Proofs.Update.Counted
import Sinkhole.Proofs.Update.Pool
import Sinkhole.Proofs.Url.Reader

/-! The account that a run over all sources gives of itself.

A run that is not stopped and finds a network fails to download just when there are
servers to ask and each of them failed; otherwise it adopts what it staged and commits,
and its report accounts for every planned source once (`updateAll_accounts`). Only the
table may come in between: if it cannot be made of what is adopted, the run has failed
after all. In any case the meter ends with every planned source counted in both phases. -/
namespace Sinkhole

namespace Source

variable {s : Source} {url : Url}

/-- What is on a server was read as the URL of a web server. -/
theorem web_of_place (h : s.place = .ok (.remote url)) :
    ∃ cs, Url.read? cs = some url ∧ (url.isHttp || url.isHttps) = true := by
  unfold place Location.ofText at h
  dsimp only at h
  split at h
  · cases h
  · split at h
    · cases h
    · split at h
      · cases h
      · rename_i read hread
        split at h
        · rename_i hweb
          cases h
          exact ⟨_, hread, hweb⟩
        · split at h
          · split at h <;> cases h
          · cases h

/-- The URL of a web server states its host. -/
theorem isSome_hostText? (h : s.place = .ok (.remote url)) : url.hostText?.isSome = true := by
  obtain ⟨cs, hread, hweb⟩ := web_of_place h
  have hscheme : url.scheme = "http".toList ∨ url.scheme = "https".toList := by
    simpa [Url.isHttp, Url.isHttps] using hweb
  have hspecial : Url.isSpecial url.scheme = true := by
    rcases hscheme with h | h <;> rw [h] <;> decide
  have hfile : url.isFile = false := by
    rw [Url.isFile]
    rcases hscheme with h | h <;> rw [h] <;> decide
  exact (Url.read?_made hread).hosted hspecial hfile

/-- What is on a server has a host to ask for. -/
theorem isSome_remoteHost? (s : Source) : s.remoteHost?.isSome = s.isOnServer := by
  unfold remoteHost? isOnServer
  cases hplace : s.place with
  | error e => rfl
  | ok location =>
    cases location with
    | «local» path => rfl
    | user => rfl
    | remote url => exact isSome_hostText? hplace

end Source

namespace Update

open Progress (Moved)
open Work (upon)

variable {σ : Type} {w : World σ} {s : Setup}

/-! ### Adding up results -/

/-- There were servers to ask, and each of them failed. -/
def Fruitless (results : List Result) : Prop :=
  (∃ r ∈ results, r.source.isOnServer = true) ∧
    ∀ r ∈ results, r.source.isOnServer = true → r.settled.isFailed = true

theorem filter_isRemote (results : List Result) :
    results.filter Result.isRemote = results.filter (·.source.isOnServer) :=
  List.filter_congr fun r _ => r.source.isSome_remoteHost?

theorem fruitless_iff (results : List Result) :
    (!(results.filter Result.isRemote).isEmpty &&
      (results.filter Result.isRemote).all (·.settled.isFailed)) = true ↔ Fruitless results := by
  rw [filter_isRemote, Bool.and_eq_true, Bool.not_eq_true', List.all_filter, Fruitless]
  refine and_congr ?_ ?_
  · rw [← Bool.not_eq_true, List.isEmpty_iff, List.filter_eq_nil_iff]
    simp
  · simp [List.all_eq_true, ← Bool.not_eq_true, ← imp_iff_not_or]

/-- Sources that did not come out as stopped are updated, unchanged or failed. -/
theorem settled_total {results : List Result} (h : ∀ r ∈ results, r.settled ≠ .stopped) :
    (results.filter fun r => !r.settled.isKept).length +
      (results.filter fun r => r.settled.isKept && r.settled.learned?.isSome).length +
      (results.filterMap Result.failure?).length = results.length := by
  induction results with
  | nil => rfl
  | cons r results ih =>
    have ih := ih fun x hx => h x (List.mem_cons_of_mem r hx)
    have hr := h r List.mem_cons_self
    obtain ⟨source, settled⟩ := r
    cases settled with
    | stopped => exact absurd rfl hr
    | updated m =>
      rw [List.filter_cons_of_pos (by rfl), List.filter_cons_of_neg Bool.false_ne_true,
        List.filterMap_cons_none rfl, List.length_cons, List.length_cons]
      omega
    | unchanged m =>
      rw [List.filter_cons_of_neg Bool.false_ne_true, List.filter_cons_of_pos (by rfl),
        List.filterMap_cons_none rfl, List.length_cons, List.length_cons]
      omega
    | failed reason =>
      rw [List.filter_cons_of_neg Bool.false_ne_true, List.filter_cons_of_neg Bool.false_ne_true,
        List.filterMap_cons_some (show Result.failure? ⟨source, .failed reason⟩ = some _ from rfl),
        List.length_cons, List.length_cons]
      omega

/-- The line about a source that failed. -/
def Fails (r : Result) (line : String) : Prop :=
  ∃ reason, r.settled = .failed reason ∧ line = r.source.label ++ ": " ++ reason

/-- There is one line for each source that failed, in the order they came. -/
theorem failure_lines (results : List Result) :
    List.Forall₂ Fails (results.filter (·.settled.isFailed))
      (results.filterMap Result.failure?) := by
  induction results with
  | nil => exact .nil
  | cons r results ih =>
    obtain ⟨source, settled⟩ := r
    cases settled with
    | failed reason => exact .cons ⟨reason, rfl, rfl⟩ ih
    | _ => exact ih

/-- A report that accounts for results, which are so many, and for the hosts that were counted. -/
structure Accounts (planned : Nat) (results : List Result) (hosts : Nat) (report : Report) :
    Prop where
  committed : report.committed = true
  going : report.stopped = false
  total : report.updated + report.unchanged + report.failed.length = planned
  failed : List.Forall₂ Fails (results.filter (·.settled.isFailed)) report.failed
  hosts : report.hostsParsed = hosts

/-- What a run that was not stopped comes to by its results, of so many servers and planned sources
in all, and by the store that it leaves: it fails if there are servers and each of them failed, and
accounts for all otherwise, unless the table could not be made. -/
structure Concluded (servers planned : Nat) (results : List Result) (hosts : Nat) (after : Store)
    (outcome : Except Error Report) : Prop where
  failed : ∀ n, outcome = .error (.downloadFailed n) ↔ n = servers ∧ 0 < n ∧
    ∀ r ∈ results, r.source.isOnServer = true → r.settled.isFailed = true
  committed : (∀ n, outcome ≠ .error (.downloadFailed n)) → after.isRefused = false →
    ∃ report, outcome = .ok report ∧ Accounts planned results hosts report
  untabled : (∀ n, outcome ≠ .error (.downloadFailed n)) → after.isRefused = true →
    outcome = .error (.storage .patternTooLong)

/-! ### The end of a run -/

theorem upon_finish_fruitless {results : List Result} (h : Fruitless results) (active : Int)
    (u : Updater σ) : upon (finish active results) u =
      (.error (.downloadFailed (results.filter (·.source.isOnServer)).length),
        { u with store := u.store.discard.2, progress := u.progress.snapshot }) := by
  rw [finish, Work.upon_bind_of_ok (Work.upon_onProgress _ u), Work.upon_get_bind]
  dsimp only
  rw [if_pos ((fruitless_iff results).mpr h), filter_isRemote]
  rfl

theorem upon_finish_fruitful {results : List Result} (h : ¬Fruitless results) (active : Int)
    (u : Updater σ) : upon (finish active results) u =
      upon (commitAll active results u.progress.now.hostsParsed)
        { u with progress := u.progress.snapshot } := by
  rw [finish, Work.upon_bind_of_ok (Work.upon_onProgress _ u), Work.upon_get_bind]
  dsimp only
  rw [if_neg fun hall => h ((fruitless_iff results).mp hall)]
  rfl

theorem committedReport_accounts {results : List Result}
    (hstop : ∀ r ∈ results, r.settled ≠ .stopped) (active : Int) (hosts : Nat)
    (summary : Summary) :
    Accounts results.length results hosts (committedReport active results hosts summary) where
  committed := rfl
  going := rfl
  total := settled_total hstop
  failed := failure_lines results
  hosts := rfl

/-- Results of every planned source, in whatever order, are accounted for by the end of the run. -/
theorem finish_concluded {results : List Result} {planned : List Source}
    (hplanned : (results.map Result.source).Perm planned)
    (hstop : ∀ r ∈ results, r.settled ≠ .stopped) (active : Int) (u : Updater σ) :
    Concluded (planned.filter (·.isOnServer)).length planned.length results
        u.progress.now.hostsParsed (upon (finish active results) u).2.store
        (upon (finish active results) u).1 ∧
      (upon (finish active results) u).2.progress = u.progress.snapshot := by
  have hlength : results.length = planned.length := by
    rw [← hplanned.length_eq, List.length_map]
  have hservers : (results.filter (·.source.isOnServer)).length =
      (planned.filter (·.isOnServer)).length := by
    rw [← (hplanned.filter _).length_eq, List.filter_map, List.length_map]
    rfl
  have hfruitless : Fruitless results ↔ 0 < (planned.filter (·.isOnServer)).length ∧
      ∀ r ∈ results, r.source.isOnServer = true → r.settled.isFailed = true := by
    rw [← hservers, List.length_pos_iff_exists_mem, Fruitless]
    simp
  by_cases h : Fruitless results
  · rw [upon_finish_fruitless h, hservers]
    obtain ⟨hpos, hfailed⟩ := hfruitless.mp h
    refine ⟨⟨fun n => ⟨?_, ?_⟩, fun hnot => absurd rfl (hnot _), fun hnot => absurd rfl (hnot _)⟩,
      rfl⟩
    · intro hn
      injection hn with hn
      injection hn with hn
      exact ⟨hn.symm, hn ▸ hpos, hfailed⟩
    · rintro ⟨rfl, -⟩
      rfl
  · have hnot : ∀ n, ¬(n = (planned.filter (·.isOnServer)).length ∧ 0 < n ∧
        ∀ r ∈ results, r.source.isOnServer = true → r.settled.isFailed = true) := by
      rintro _ ⟨rfl, hn⟩
      exact h (hfruitless.mpr hn)
    rw [upon_finish_fruitful h]
    rcases upon_commitAll active results u.progress.now.hostsParsed
        { u with progress := u.progress.snapshot } with
      ⟨hrefused, hcommit⟩ | ⟨hmade, summary, hcommit⟩
    · rw [hcommit]
      refine ⟨⟨fun n => iff_of_false nofun (hnot n), fun _ hmade => ?_, fun _ _ => rfl⟩, rfl⟩
      rw [Store.synced_isRefused, hrefused] at hmade
      cases hmade
    · rw [hcommit]
      refine ⟨⟨fun n => iff_of_false nofun (hnot n), fun _ _ => ?_, fun _ hrefused => ?_⟩, rfl⟩
      · exact ⟨_, rfl, hlength ▸ committedReport_accounts hstop active _ summary⟩
      · rw [Store.synced_isRefused, hmade] at hrefused
        cases hrefused

/-! ### Servers in any order -/

theorem planOf_size (s : Store) : (planOf s).size = (fetchable s).length := by
  have hperm := (planOf_perm s fun _ _ => true).length_eq
  rw [List.length_append, (sortBy_perm _).length_eq] at hperm
  exact hperm

theorem planOf_remote (s : Store) : (fetchable s).filter (·.isOnServer) = (planOf s).remote :=
  filter_filter_of_imp (fun source h => by rw [Source.isFetchable, h, Bool.or_true]) _

/-- The account of a pool that the servers of a store were put into, when the wait is over: each of
them has reported once, and with the results of the files, the end of the run accounts for all. -/
structure Reported (σ : Type) (store : Store) (meter : Progress) (p : Pool) : Prop where
  sources : (p.results.map Result.source).Perm (planOf store).remote
  downloads : p.progress.now.download.done =
    meter.now.download.done + (planOf store).remote.length
  parses : p.progress.now.parse.done = meter.now.parse.done + (planOf store).remote.length
  concluded : ∀ (files : List Result) (u : Updater σ),
    (files.map Result.source).Perm (planOf store).files →
    (∀ r ∈ files ++ p.results, r.settled ≠ .stopped) →
    Concluded (planOf store).remote.length (fetchable store).length (files ++ p.results)
      u.progress.now.hostsParsed (upon (finish store.active (files ++ p.results)) u).2.store
      (upon (finish store.active (files ++ p.results)) u).1

/-- Of tasks that all report none is missing when the wait is over without a stop, in whatever order
they did. -/
theorem Pool.reported_all {store : Store} {meter : Progress} {control : Control} {p : Pool}
    (run : Relation.ReflTransGen Pool.Step (Pool.start (planOf store).remote meter control) p)
    (ended : p.stage = .ended) (going : p.control.stopped = false)
    (heard : ∀ e ∈ p.errands, e.2 ≠ .silent) : Reported σ store meter p := by
  obtain ⟨hb, hr⟩ := Pool.reached run
  obtain ⟨hdownloads, hparses⟩ : p.downloadsLeft = 0 ∧ p.parsesLeft = 0 := by
    refine (hr.out (by rw [ended]; rfl)).resolve_right fun halted => ?_
    rw [going] at halted
    cases halted
  have htold : ∀ e ∈ p.errands, (e.2 == .told) = true := by
    intro e he
    rcases hb.downloads with hleft | ⟨-, -, hover⟩
    · have howing : p.owing = [] := List.length_eq_zero_iff.mp (by omega)
      rw [Pool.owing, List.map_eq_nil_iff, List.filter_eq_nil_iff] at howing
      simpa using howing e he
    · have hout := hover e he
      have hsilent := heard e he
      cases hstate : e.2 with
      | out => exact absurd hstate hout
      | silent => exact absurd hstate hsilent
      | told => rfl
  have hall : p.told = (planOf store).remote := by
    rw [Pool.told, List.filter_eq_self.mpr htold, hb.sources]
  have hexact := hb.exact hdownloads hparses
  have hresults : (p.results.map Result.source).Perm (planOf store).remote := hall ▸ hexact.results
  refine ⟨hresults, hall ▸ hexact.downloads, hall ▸ hexact.parses, fun files u hfiles hstop => ?_⟩
  have hplanned : ((files ++ p.results).map Result.source).Perm (fetchable store) := by
    rw [List.map_append]
    exact (hfiles.append (hresults.trans (sortBy_perm _).symm)).trans
      (planOf_perm store fun _ _ => true)
  have hconcluded := (finish_concluded hplanned hstop store.active u).1
  rwa [planOf_remote] at hconcluded

/-! ### Whole runs -/

/-- The items that the visits of a run inserted. -/
def inserted (active : Int) (visits : List (Visit σ)) : Nat :=
  (visits.map fun v => (v.after.store.itemsOf v.source.id (active + 1)).length).sum

/-- The account of a run on a store that was not stopped, by its visits: what it came to, the store
that it leaves and its meter at the end. -/
structure Accounted (w : World σ) (s : Setup) (store : Store) (visits : List (Visit σ))
    (outcome : Except Error Report) (after : Store) (meter : Progress) : Prop where
  /-- Each planned source is visited once. -/
  planned : (visits.map (·.source)).Perm (fetchable store)
  /-- What a source has in the staged generation after its visit was inserted on it. -/
  fresh : ∀ v ∈ visits, v.before.store.itemsOf v.source.id (store.active + 1) = []
  concluded : Concluded (planOf store).remote.length (fetchable store).length
    (visits.map Visit.result) (inserted store.active visits) after outcome
  /-- A table that could not be made is as it was, of a store that has adopted all the same. -/
  untabled : outcome = .error (.storage .patternTooLong) →
    Adopted w s store visits after ∧ after.table = store.table
  through : Progress.Through (fetchable store).length meter.now
  hosts : meter.now.hostsParsed = inserted store.active visits
  /-- The watchers see the meter as it is at the end. -/
  shown : meter.published = meter.now

theorem FullRun.hosts_eq {u start last : Updater σ} {visits : List (Visit σ)}
    (h : FullRun w s u start visits last) (hk : u.store.Keyed)
    (hs : last.control.stopped = false) :
    (visits.map Visit.hosts).sum = inserted u.store.active visits :=
  congrArg List.sum (List.map_congr_left fun v hv => (h.fresh hk hs v hv).2)

/-- When the visits of a run are over, the meter has counted each planned source in both phases. -/
theorem FullRun.counted {u start last : Updater σ} {visits : List (Visit σ)}
    (h : FullRun w s u start visits last) (hk : u.store.Keyed) (hs : last.control.stopped = false)
    (hstaged : upon (stagePlan w s (planOf u.store))
      { u with store := forgetAll u.store (idle u.store) } = (.ok visits, last)) :
    Moved (fetchable u.store).length (fetchable u.store).length (inserted u.store.active visits)
      ((u.progress.setTotal .download (fetchable u.store).length).setTotal .parse
        (fetchable u.store).length) last.progress := by
  have hlength : visits.length = (fetchable u.store).length := by
    rw [← (h.complete hs).length_eq, List.length_map]
  have hmoved := stagePlan_moved hstaged
  rwa [planOf_size, hlength, h.hosts_eq hk hs] at hmoved

/-- A run that fails for the table has adopted what its visits came to. -/
theorem FullRun.untabled {u start last ended : Updater σ} {visits : List (Visit σ)}
    (h : FullRun w s u start visits last) (hk : u.store.Keyed) (hs : last.control.stopped = false)
    (hends : Concludes u.store.active (visits.map Visit.result)
      { last with store := { last.store with durability := .normal } }
      (.error (.storage .patternTooLong)) ended) :
    Adopted w s u.store visits ended.store ∧ ended.store.table = u.store.table := by
  cases hends with
  | untabled p going refused =>
    refine ⟨h.adopted hk hs, ?_⟩
    calc (FullRun.outcome u last visits).table
        = (FullRun.adoption u last visits).table :=
          congrArg Store.table (Store.synced_refused refused)
      _ = last.store.table := adopt_table _ _ _
      _ = u.store.table := by rw [h.confined.store.table, h.store, cleared_table]

/-- Where the meter has counted the visits, the end of the run accounts for them. -/
theorem FullRun.accounted {u start last : Updater σ} {visits : List (Visit σ)} {m : Progress}
    (h : FullRun w s u start visits last) (hk : u.store.Keyed) (hs : last.control.stopped = false)
    (hready : m.Ready (fetchable u.store).length)
    (hmoved : Moved (fetchable u.store).length (fetchable u.store).length
      (inserted u.store.active visits) m last.progress) {ended : Updater σ}
    {outcome : Except Error Report}
    (hends : upon (conclusion u.store.active (visits.map Visit.result))
        { last with store := { last.store with durability := .normal } } = (outcome, ended)) :
    Accounted w s u.store visits outcome ended.store ended.progress.finish := by
  have huntabled : outcome = .error (.storage .patternTooLong) →
      Adopted w s u.store visits ended.store ∧ ended.store.table = u.store.table := by
    rintro rfl
    have hconcludes := conclusion_concludes u.store.active (visits.map Visit.result)
      { last with store := { last.store with durability := .normal } }
    rw [hends] at hconcludes
    exact h.untabled hk hs hconcludes
  have hhosts : last.progress.now.hostsParsed = inserted u.store.active visits := by
    rw [hmoved.hosts, hready.hosts, Nat.zero_add]
  have hplanned : ((visits.map Visit.result).map Result.source).Perm (fetchable u.store) := by
    rw [List.map_map]
    exact h.complete hs
  have hstop : ∀ r ∈ visits.map Visit.result, r.settled ≠ .stopped := by
    intro r hr
    obtain ⟨v, hv, rfl⟩ := List.mem_map.mp hr
    exact h.chain.settled_ne_stopped hs h.knows v hv
  rw [conclusion, Work.upon_bind_of_ok (Work.upon_isStopped _), hs, if_neg Bool.false_ne_true]
    at hends
  obtain ⟨hconcluded, hprogress⟩ := finish_concluded hplanned hstop u.store.active
    { last with store := { last.store with durability := .normal } }
  rw [hends, planOf_remote, hhosts] at hconcluded
  rw [hends] at hprogress
  rw [show ended.progress = last.progress.snapshot from hprogress]
  exact ⟨h.complete hs, fun v hv => (h.fresh hk hs v hv).1, hconcluded, huntabled,
    hready.finish (hmoved.trans (Progress.snapshot_moved _)), hhosts, rfl⟩

/-- **A run over all sources accounts for every planned source.** It fails to download just when
there are servers to ask and each of them failed. Otherwise its report counts each source once, or
the table could not be made of the store that it leaves, which has adopted all the same. In any
case the meter has counted each source once in both phases, and the items that were inserted. It
is so too in whatever order the tasks of the servers report. -/
theorem updateAll_accounts (w : World σ) (s : Setup) (task : Option String) {u : Updater σ}
    (hidle : u.running = false) (hk : u.store.Keyed)
    (hnet : isReachable w ((planOf u.store).remote.filterMap Source.remoteHost?) = true)
    (hgoing : (updateAll w s task u).2.control.stopped = false) :
    Accounted w s u.store (visitsOf w s task u) (updateAll w s task u).1
        (updateAll w s task u).2.store (updateAll w s task u).2.progress ∧
      ∀ meter control p,
        Relation.ReflTransGen Pool.Step (Pool.start (planOf u.store).remote meter control) p →
        p.stage = .ended → p.control.stopped = false → (∀ e ∈ p.errands, e.2 ≠ .silent) →
        Reported σ u.store meter p := by
  refine ⟨?_, fun _ _ _ => Pool.reported_all⟩
  obtain ⟨hrun, hstage⟩ := upon_runAll_of_reachable s (u := Work.started task u) hnet
  obtain ⟨start, visits, last, hfull, hstaged, hconclusion⟩ :=
    runPlan_full w s (Work.started task u)
  have hvisits : visitsOf w s task u = visits := by
    rw [visitsOf, hstage, hstaged]
  have hends := Work.supervised_idle task (runAll w s) hidle
  rw [updateAll, hends, hrun, hconclusion] at hgoing ⊢
  have hs : last.control.stopped = false :=
    (congrArg Control.stopped (conclusion_concludes _ _
      { last with store := { last.store with durability := .normal } }).same.1).symm.trans hgoing
  rw [hvisits]
  exact hfull.accounted hk hs (Progress.ready_begin u.progress task _)
    (hfull.counted hk hs hstaged) (Prod.ext rfl rfl)

/-- A file that is there, and a server at an address where nobody answers. -/
def severed : Store :=
  { sources :=
      [Store.userSource, { id := 2, label := "new", location := "/new" },
        { id := 3, label := "far", location := "https://192.0.2.1/list" }]
    lastId := 3
    items := [{ source := 3, generation := 7, host := "f.x", kind := 0 }]
    table := []
    active := 7 }

def cutOff : Updater Unit := { store := severed, world := () }

/-- A run over files alone, and one that fails for its only server although its file was read. -/
theorem updateAll_accounts_severed :
    (assorted.Keyed ∧ Accounted shelf plain assorted (visitsOf shelf plain none atDesk)
        (.ok assortedReport) (updateAll shelf plain none atDesk).2.store
        (updateAll shelf plain none atDesk).2.progress) ∧
      severed.Keyed ∧ Accounted shelf plain severed (visitsOf shelf plain none cutOff)
        (.error (.downloadFailed 1)) (updateAll shelf plain none cutOff).2.store
        (updateAll shelf plain none cutOff).2.progress := by
  have hkeyed : assorted.Keyed ∧ severed.Keyed := by decide
  have hnet : isReachable shelf ((planOf assorted).remote.filterMap Source.remoteHost?) = true ∧
      isReachable shelf ((planOf severed).remote.filterMap Source.remoteHost?) = true := by
    decide +kernel
  have hgoing : (updateAll shelf plain none atDesk).2.control.stopped = false ∧
      (updateAll shelf plain none cutOff).2.control.stopped = false := by decide +kernel
  have hcommits : (updateAll shelf plain none atDesk).1 = .ok assortedReport := by decide +kernel
  have hfails : (updateAll shelf plain none cutOff).1 = .error (.downloadFailed 1) := by
    decide +kernel
  have hatDesk := updateAll_accounts shelf plain none (rfl : atDesk.running = false)
    hkeyed.1 hnet.1 hgoing.1
  have hcutOff := updateAll_accounts shelf plain none (rfl : cutOff.running = false)
    hkeyed.2 hnet.2 hgoing.2
  exact ⟨⟨hkeyed.1, hcommits ▸ hatDesk.1⟩, hkeyed.2, hfails ▸ hcutOff.1⟩

/-- The user alone, who blocks a host and allows more than the table can be matched with. -/
def burdened : Store :=
  { sources := [Store.userSource]
    lastId := 1
    items := [.ofEntry Source.userId 0 (.blocked "a.b"),
      .ofEntry Source.userId 0 (.allowed (String.ofList (Host.stars 50001)))]
    table := []
    active := 7 }

def laden : Updater Unit := { store := burdened, world := () }

/-- No table can be made of what is adopted. -/
theorem adopt_burdened :
    (adopt { cleared burdened with durability := .normal } 7 []).isRefused = true := by
  have hforce : ∀ i ∈ burdened.items,
      (adopt { cleared burdened with durability := .normal } 7 []).InForce i := by
    intro i hi
    obtain rfl | rfl := List.mem_pair.mp hi
    · exact ⟨hi, rfl, .inr rfl, Store.userSource, List.mem_singleton_self _, rfl, rfl⟩
    · exact ⟨hi, rfl, .inr rfl, Store.userSource, List.mem_singleton_self _, rfl, rfl⟩
  have hblocks := hforce _ List.mem_cons_self
  have hallows := hforce _ (List.mem_cons_of_mem _ List.mem_cons_self)
  refine (Store.isRefused_iff _).mpr ⟨"a.b", Store.stuck_of_stars _ ⟨_, hblocks, rfl, rfl⟩ hallows
    rfl rfl fun j hj hkind => ?_⟩
  obtain rfl | rfl := List.mem_pair.mp (show j ∈ burdened.items from hj.stored)
  · cases hkind
  · rfl

/-- A run that has nothing to fetch, and so does not fail to, has nothing to report either. -/
theorem updateAll_burdened :
    fetchable burdened = [] ∧ (updateAll shelf plain none laden).2.control.stopped = false ∧
      (updateAll shelf plain none laden).1 = .error (.storage .patternTooLong) := by
  have hnone : ¬Fruitless [] := fun h => (List.not_mem_nil h.1.choose_spec.1)
  obtain ⟨last, hlast, hgoing⟩ : ∃ last, upon (runAll shelf plain) (Work.started none laden) =
      (.error (.storage .patternTooLong), last) ∧ last.control.stopped = false := by
    rw [upon_runAll_of_empty shelf plain (u := Work.started none laden) rfl, conclusion,
      Work.upon_bind_of_ok (Work.upon_isStopped _), if_neg (by exact Bool.false_ne_true),
      upon_finish_fruitful hnone]
    rcases upon_commitAll 7 [] _ _ with ⟨-, hcommit⟩ | ⟨hmade, -⟩
    · exact ⟨_, hcommit, rfl⟩
    · exact absurd (adopt_burdened.symm.trans hmade) (by decide)
  rw [updateAll, Work.supervised_idle none (runAll shelf plain) (u := laden) rfl, hlast]
  exact ⟨rfl, hgoing, rfl⟩

end Update

end Sinkhole
