import Mathlib.Logic.Relation
import Mathlib.Data.List.Count
import Sinkhole.Update.Pool
import Sinkhole.Proofs.Update.Visits

/-! The counts of a pool, whatever the order its tasks report in.

A source that has reported is in one place: its report is still to be read, its
download is being parsed, that has been done and is still to be read, or it is done
with. No step makes a second entry of it or drops it, and the counts and the meter
only say how many sources there are in those places; so when no report is waited for
any more, every source that reported is done with. -/
namespace Sinkhole.Update

namespace Pool

variable {sources : List Source} {meter : Progress} {p q : Pool}

/-! ### Those that have reported -/

/-- The sources that have not reported; those whose task ended without a word never will. -/
def owing (p : Pool) : List Source := (p.errands.filter (·.2 != .told)).map Prod.fst

section Errands

variable {before after : List (Source × Errand)} {source : Source}

theorem not_ended (errands : p.errands = before ++ (source, .out) :: after) : ¬p.Ended :=
  fun h => h (source, .out) (by simp [errands]) rfl

theorem told_reported (answer : Answer) (errands : p.errands = before ++ (source, .out) :: after) :
    (p.reported before source after answer).told.Perm (source :: p.told) := by
  simp only [told, reported, errands, List.filter_append, List.map_append]
  simp

theorem owing_reported (answer : Answer)
    (errands : p.errands = before ++ (source, .out) :: after) :
    p.owing.length = (p.reported before source after answer).owing.length + 1 := by
  simp [owing, reported, errands]
  omega

theorem told_lost (errands : p.errands = before ++ (source, .out) :: after) :
    (p.lost before source after).told = p.told := by
  simp [told, lost, errands]

theorem owing_lost (errands : p.errands = before ++ (source, .out) :: after) :
    (p.lost before source after).owing.length = p.owing.length := by
  simp [owing, lost, errands]

end Errands

theorem told_sublist (p : Pool) : p.told.Sublist (p.errands.map Prod.fst) :=
  List.filter_sublist.map _

/-! ### What the counts come to -/

/-- The sources that have reported, by how far they have come. -/
def places (p : Pool) : List Source :=
  p.arrived.map Prod.fst ++ p.parses.map Prod.fst ++ p.parsed.map Result.source ++
    p.results.map Result.source

/-- What holds of the counts of a pool at any moment. -/
structure Balanced (sources : List Source) (meter : Progress) (p : Pool) : Prop where
  sources : p.errands.map Prod.fst = sources
  /-- All that have not reported are waited for, or nobody is and nobody will report. -/
  downloads : p.downloadsLeft = (p.arrived.length + p.owing.length : Nat) ∨
    p.downloadsLeft = 0 ∧ p.arrived = [] ∧ p.Ended
  parses : p.parsesLeft = p.downloadsLeft + (p.parses.length + p.parsed.length : Nat)
  placed : p.places.Perm p.told
  fetched : p.progress.now.download.done + p.arrived.length =
    meter.now.download.done + p.told.length
  settled : p.progress.now.parse.done = meter.now.parse.done + p.results.length

theorem balanced_start (sources : List Source) (meter : Progress) (control : Control) :
    Balanced sources meter (start sources meter control) where
  sources := by simp [start, Function.comp_def]
  downloads := .inl (by simp [start, owing, List.filter_map, Function.comp_def,
    show (Errand.out != Errand.told) = true by decide])
  parses := by simp [start]
  placed := by simp [start, places, told]
  fetched := by simp [start, told]
  settled := by simp [start]

namespace Touches

variable {m m' : Progress}

theorem download_done (h : Touches m m') : m'.now.download.done = m.now.download.done := by
  cases h <;> rfl

theorem parse_done (h : Touches m m') : m'.now.parse.done = m.now.parse.done := by
  cases h <;> rfl

end Touches

namespace Balanced

/-- The counts are read off the tasks, their reports and the results; where the one who waits
stands and what was asked of the run have no part in them. -/
theorem congr (h : Balanced sources meter p) (errands : q.errands = p.errands)
    (arrived : q.arrived = p.arrived) (parses : q.parses = p.parses)
    (parsed : q.parsed = p.parsed) (downloadsLeft : q.downloadsLeft = p.downloadsLeft)
    (parsesLeft : q.parsesLeft = p.parsesLeft) (results : q.results = p.results)
    (download : q.progress.now.download.done = p.progress.now.download.done)
    (parse : q.progress.now.parse.done = p.progress.now.parse.done) :
    Balanced sources meter q where
  sources := errands ▸ h.sources
  downloads := by
    unfold owing Ended
    rw [errands, arrived, downloadsLeft]
    exact h.downloads
  parses := by
    rw [parses, parsed, downloadsLeft, parsesLeft]
    exact h.parses
  placed := by
    unfold places told
    rw [errands, arrived, parses, parsed, results]
    exact h.placed
  fetched := by
    unfold told
    rw [errands, arrived, download]
    exact h.fetched
  settled := by
    rw [results, parse]
    exact h.settled

/-- A task that is out reports, with a fetch or without. -/
theorem reported {before after : List (Source × Errand)} {source : Source}
    (h : Balanced sources meter p) (answer : Answer)
    (errands : p.errands = before ++ (source, .out) :: after) :
    Balanced sources meter (p.reported before source after answer) := by
  have htold := told_reported answer errands
  have howing := owing_reported answer errands
  refine ⟨?_, ?_, h.parses, .trans ?_ ((h.placed.cons source).trans htold.symm), ?_, h.settled⟩
  · rw [← h.sources, errands]
    simp [Pool.reported]
  · -- as long as a task is out, its report is waited for
    obtain hleft | ⟨-, -, hended⟩ := h.downloads
    · left
      show p.downloadsLeft = ((p.arrived ++ [(source, answer)]).length + _ : Nat)
      rw [List.length_append, List.length_singleton]
      omega
    · exact absurd hended (not_ended errands)
  · simp [places, Pool.reported]
  · have hfetched := h.fetched
    show p.progress.now.download.done + (p.arrived ++ [(source, answer)]).length = _
    rw [htold.length_eq, List.length_append, List.length_singleton, List.length_cons]
    omega

theorem lost {before after : List (Source × Errand)} {source : Source}
    (h : Balanced sources meter p) (errands : p.errands = before ++ (source, .out) :: after) :
    Balanced sources meter (p.lost before source after) := by
  have htold := told_lost errands
  have howing := owing_lost errands
  refine ⟨?_, ?_, h.parses, htold ▸ h.placed, htold ▸ h.fetched, h.settled⟩
  · rw [← h.sources, errands]
    simp [Pool.lost]
  · obtain hleft | ⟨-, -, hended⟩ := h.downloads
    · exact .inl (howing ▸ hleft)
    · exact absurd hended (not_ended errands)

theorem tasks (h : Balanced sources meter p) (step : Tasks p q) : Balanced sources meter q := by
  cases step with
  | report answer errands => exact h.reported (some answer) errands
  | withdraw errands halted => exact h.reported none errands
  | vanish errands => exact h.lost errands
  | @parse before after source download settled parses =>
    refine ⟨h.sources, h.downloads, ?_, .trans ?_ h.placed, h.fetched, h.settled⟩
    · have hparses := h.parses
      simp only [parses, List.length_append, List.length_cons, List.length_nil] at hparses ⊢
      omega
    · -- from those being parsed to those that have been
      simp [places, parses, List.perm_iff_count, List.count_append, List.count_cons]
      omega
  | touch touches =>
    exact h.congr rfl rfl rfl rfl rfl rfl rfl touches.download_done touches.parse_done
  | stop => exact h.congr rfl rfl rfl rfl rfl rfl rfl rfl rfl
  | pause => exact h.congr rfl rfl rfl rfl rfl rfl rfl rfl rfl
  | resume => exact h.congr rfl rfl rfl rfl rfl rfl rfl rfl rfl

/-- While a fetch is waited for, so are all that have not been reported. -/
theorem awaited (h : Balanced sources meter p) (more : 0 < p.downloadsLeft) :
    p.downloadsLeft = (p.arrived.length + p.owing.length : Nat) := by
  obtain hleft | ⟨hnone, -, -⟩ := h.downloads
  · exact hleft
  · omega

theorem spawn {source : Source} {download : Fetch.Download} {rest : List (Source × Answer)}
    (h : Balanced sources meter p) (more : 0 < p.downloadsLeft)
    (arrived : p.arrived = (source, some (.ok (.downloaded download))) :: rest) :
    Balanced sources meter
      { p.received rest with parses := p.parses ++ [(source, download)] } := by
  have hawaited := h.awaited more
  have hfetched := h.fetched
  rw [arrived, List.length_cons] at hawaited hfetched
  refine ⟨h.sources, .inl ?_, ?_, .trans ?_ h.placed, ?_, h.settled⟩
  · show p.downloadsLeft - 1 = (rest.length + p.owing.length : Nat)
    omega
  · have hparses := h.parses
    show p.parsesLeft = p.downloadsLeft - 1 +
      ((p.parses ++ [(source, download)]).length + p.parsed.length : Nat)
    rw [List.length_append, List.length_singleton]
    omega
  · -- from the reports that are still to be read to those being parsed
    simp [places, received, arrived, List.perm_iff_count, List.count_append, List.count_cons]
    omega
  · show p.progress.now.download.done + 1 + rest.length = meter.now.download.done + p.told.length
    omega

theorem settle {source : Source} {answer : Answer} {rest : List (Source × Answer)}
    (h : Balanced sources meter p) (more : 0 < p.downloadsLeft)
    (arrived : p.arrived = (source, answer) :: rest) (result : Settled) :
    Balanced sources meter ((p.received rest).settled ⟨source, result⟩) := by
  have hawaited := h.awaited more
  have hfetched := h.fetched
  rw [arrived, List.length_cons] at hawaited hfetched
  refine ⟨h.sources, .inl ?_, ?_, .trans ?_ h.placed, ?_, ?_⟩
  · show p.downloadsLeft - 1 = (rest.length + p.owing.length : Nat)
    omega
  · have hparses := h.parses
    show p.parsesLeft - 1 = p.downloadsLeft - 1 + (p.parses.length + p.parsed.length : Nat)
    omega
  · -- from the reports that are still to be read to those done with
    simp [places, received, Pool.settled, arrived, List.perm_iff_count, List.count_append,
      List.count_cons]
    omega
  · show p.progress.now.download.done + 1 + rest.length = meter.now.download.done + p.told.length
    omega
  · have hsettled := h.settled
    show p.progress.now.parse.done + 1 = _ + (p.results ++ [(⟨source, result⟩ : Result)]).length
    rw [List.length_append, List.length_singleton]
    omega

theorem waits (h : Balanced sources meter p) (step : Waits p q) : Balanced sources meter q := by
  cases step with
  | await | finish | interrupt | release | join | joined =>
    exact h.congr rfl rfl rfl rfl rfl rfl rfl rfl rfl
  | tick => exact h.congr rfl rfl rfl rfl rfl rfl rfl rfl rfl
  | spawn stage more arrived => exact h.spawn more arrived
  | settle stage more arrived settled => exact h.settle more arrived _
  | giveUp stage more arrived ended =>
    refine ⟨h.sources, .inr ⟨rfl, arrived, ended⟩, ?_, h.placed, h.fetched, h.settled⟩
    have hparses := h.parses
    show p.parsesLeft - p.downloadsLeft = 0 + (p.parses.length + p.parsed.length : Nat)
    omega
  | @parsed result rest stage more parsed =>
    refine ⟨h.sources, h.downloads, ?_, .trans ?_ h.placed, h.fetched, ?_⟩
    · have hparses := h.parses
      rw [parsed, List.length_cons] at hparses
      show p.parsesLeft - 1 = p.downloadsLeft + (p.parses.length + rest.length : Nat)
      omega
    · simp [places, parsed, Pool.settled, List.perm_iff_count, List.count_append, List.count_cons]
      omega
    · have hsettled := h.settled
      show p.progress.now.parse.done + 1 = _ + (p.results ++ [result]).length
      rw [List.length_append, List.length_singleton]
      omega

end Balanced

theorem Step.balanced (h : Balanced sources meter p) (step : Step p q) :
    Balanced sources meter q := by
  cases step with
  | task step => exact h.tasks step
  | wait step => exact h.waits step

/-! ### Leaving -/

/-- What holds of the one who waits, once there is no going back to the reports. -/
structure Released (p : Pool) : Prop where
  out : p.stage.isOut = true →
    p.downloadsLeft = 0 ∧ p.parsesLeft = 0 ∨ p.control.stopped = true
  ended : p.stage = .ended → p.parses = []

theorem Tasks.released (h : Released p) (step : Tasks p q) : Released q := by
  cases step with
  | report | withdraw | vanish | touch => exact ⟨h.out, h.ended⟩
  | parse settled parses =>
    refine ⟨h.out, fun hover => ?_⟩
    have hnone := h.ended hover
    rw [parses] at hnone
    exact absurd hnone (by simp)
  | stop => exact ⟨fun _ => .inr p.control.stop_stopped, h.ended⟩
  | pause => exact ⟨fun hout => (h.out hout).imp_right p.control.pause_stopped.trans, h.ended⟩
  | resume => exact ⟨h.out, h.ended⟩

theorem Waits.released (hb : Balanced sources meter p) (h : Released p) (step : Waits p q) :
    Released q := by
  cases step with
  | await | spawn | settle | giveUp | parsed | tick => exact ⟨nofun, nofun⟩
  | finish stage downloads parses => exact ⟨fun _ => .inl ⟨downloads, parses⟩, nofun⟩
  | interrupt stage halted => exact ⟨fun _ => .inr halted, nofun⟩
  | release stage going =>
    -- nobody has asked for a stop, so all reports are in
    have hout := h.out (by rw [stage]; rfl)
    refine ⟨fun _ => hout, fun _ => ?_⟩
    obtain ⟨hdownloads, hparses⟩ | halted := hout
    · have hcount := hb.parses
      show p.parses = []
      exact List.length_eq_zero_iff.mp (by omega)
    · rw [going] at halted
      cases halted
  | join stage halted => exact ⟨fun _ => .inr halted, nofun⟩
  | joined stage quiet => exact ⟨fun _ => h.out (by rw [stage]; rfl), fun _ => quiet⟩

theorem Step.released (hb : Balanced sources meter p) (h : Released p) (step : Step p q) :
    Released q := by
  cases step with
  | task step => exact step.released h
  | wait step => exact step.released hb h

theorem reached {control : Control}
    (run : Relation.ReflTransGen Step (start sources meter control) p) :
    Balanced sources meter p ∧ Released p := by
  induction run with
  | refl => exact ⟨balanced_start sources meter control, nofun, nofun⟩
  | tail _ step ih => exact ⟨step.balanced ih.1, step.released ih.1 ih.2⟩

/-! ### One at a time -/

/-- Nothing is under way, and there is no stop. -/
structure Quiet (p : Pool) : Prop where
  stage : p.stage = .head
  going : p.control.stopped = false
  arrived : p.arrived = []
  parses : p.parses = []
  parsed : p.parsed = []

/-- A source may be fetched, taken over and done with before anything is heard of another. -/
theorem Quiet.turn {before after : List (Source × Errand)} {source : Source}
    {fetched : Except Error Fetch.Fetched} {settled : Settled} (h : Quiet p)
    (errands : p.errands = before ++ (source, .out) :: after) (downloads : 0 < p.downloadsLeft)
    (parses : 0 < p.parsesLeft)
    (comes : (∃ d, fetched = .ok (.downloaded d)) ∨
      settledBy source (some fetched) = some settled) :
    ∃ q, Relation.ReflTransGen Step p q ∧ Quiet q ∧
      q.errands = before ++ (source, .told) :: after ∧
      q.downloadsLeft = p.downloadsLeft - 1 ∧ q.parsesLeft = p.parsesLeft - 1 ∧
      q.results = p.results ++ [⟨source, settled⟩] := by
  have hreport : Step p (p.reported before source after (some fetched)) :=
    .task (.report fetched errands)
  have hhead : (p.reported before source after (some fetched)).stage = .head := h.stage
  have hawait := Step.wait (.await hhead (.inl downloads) h.going)
  have hfirst := (Relation.ReflTransGen.single hreport).tail hawait
  have harrived : p.arrived ++ [(source, some fetched)] = [(source, some fetched)] := by
    rw [h.arrived, List.nil_append]
  obtain ⟨d, rfl⟩ | hsettled := comes
  · have hparses : p.parses ++ [(source, d)] = [] ++ (source, d) :: [] := by rw [h.parses]
    have hparsed : p.parsed ++ [⟨source, settled⟩] = [⟨source, settled⟩] := by
      rw [h.parsed, List.nil_append]
    exact ⟨_, (((hfirst.tail (.wait (.spawn rfl downloads harrived))).tail
      (.task (.parse settled hparses))).tail (.wait (.await rfl (.inr parses) h.going))).tail
      (.wait (.parsed rfl parses hparsed)), ⟨rfl, h.going, rfl, rfl, rfl⟩, rfl, rfl, rfl, rfl⟩
  · exact ⟨_, hfirst.tail (.wait (.settle rfl downloads harrived hsettled)),
      ⟨rfl, h.going, rfl, h.parses, h.parsed⟩, rfl, rfl, rfl, rfl⟩

/-- Once nothing is waited for, the wait may end. -/
theorem Quiet.ends (h : Quiet p) (downloads : p.downloadsLeft = 0) (parses : p.parsesLeft = 0) :
    Relation.ReflTransGen Step p { p with stage := .ended } :=
  .head (.wait (.finish h.stage downloads parses)) (.single (.wait (.release rfl h.going)))

section Turns

variable {σ : Type} {w : World σ} {s : Setup} {generation : Int} {u last : Updater σ}
  {visits : List (Visit σ)}

/-- What a visit comes to is what comes of the report on its fetch. -/
theorem visit_comes {v : Visit σ}
    (works : Work.upon (updateSource w s generation v.source) v.before = (.ok v.settled, v.after)) :
    ∃ fetched, (∃ d, fetched = .ok (.downloaded d)) ∨
      settledBy v.source (some fetched) = some v.settled := by
  obtain ⟨fetched, u₁, m, u₂, m', -, hsettle, -⟩ := of_upon_updateSource works
  refine ⟨fetched, ?_⟩
  cases fetched with
  | error e =>
    injection (Prod.mk.inj hsettle).1 with hs
    exact .inr (congrArg some hs)
  | ok fetched =>
    cases fetched with
    | downloaded d => exact .inl ⟨d, rfl⟩
    | unchanged remoteModified =>
      injection (Prod.mk.inj hsettle).1 with hs
      exact .inr (congrArg some hs)

theorem Quiet.turns (h : Quiet p) (hv : Visits w s generation u visits last)
    {before : List (Source × Errand)}
    (errands : p.errands = before ++ visits.map fun v => (v.source, .out))
    (downloads : p.downloadsLeft = visits.length) (parses : p.parsesLeft = visits.length) :
    ∃ q, Relation.ReflTransGen Step p q ∧ Quiet q ∧ q.downloadsLeft = 0 ∧ q.parsesLeft = 0 ∧
      q.results = p.results ++ visits.map Visit.result := by
  induction hv generalizing p before with
  | none u => exact ⟨p, .refl, h, downloads, parses, by simp⟩
  | @turn u last v visits going starts works rest ih =>
    obtain ⟨fetched, comes⟩ := visit_comes works
    rw [List.length_cons, Int.natCast_succ] at downloads parses
    obtain ⟨q, hsteps, hquiet, herrands, hdownloads, hparses, hresults⟩ :=
      h.turn errands (by omega) (by omega) comes
    have hnext : q.errands = (before ++ [(v.source, .told)]) ++
        visits.map fun v => (v.source, .out) := by
      rw [herrands, List.append_assoc]
      rfl
    obtain ⟨q', hsteps', hquiet', hdownloads', hparses', hresults'⟩ :=
      ih hquiet hnext (by omega) (by omega)
    refine ⟨q', hsteps.trans hsteps', hquiet', hdownloads', hparses', ?_⟩
    rw [hresults', hresults]
    simp [Visit.result]

/-- The sources one after the other are one of the orders. -/
theorem visits_reached (hv : Visits w s generation u visits last) (meter : Progress)
    {control : Control} (going : control.stopped = false) :
    ∃ p, Relation.ReflTransGen Step (start (visits.map (·.source)) meter control) p ∧
      p.stage = .ended ∧ p.results = visits.map Visit.result := by
  have hquiet : Quiet (start (visits.map (·.source)) meter control) := ⟨rfl, going, rfl, rfl, rfl⟩
  obtain ⟨q, hsteps, hq, hdownloads, hparses, hresults⟩ := hquiet.turns hv
    (show _ = [] ++ _ by simp [start, Function.comp_def]) (by simp [start]) (by simp [start])
  exact ⟨_, hsteps.trans (hq.ends hdownloads hparses), rfl, hresults⟩

/-- So what a run without a stop is told of its sources one after the other, a pool may be told
of them all at once. -/
theorem updateSources_reached {shown : Bool} {sources : List Source} {results : List Result}
    (h : Work.upon (updateSources w s generation shown sources) u = (.ok results, last))
    (going : last.control.stopped = false) (meter : Progress) :
    ∃ p, Relation.ReflTransGen Step (start sources meter last.control) p ∧ p.stage = .ended ∧
      p.results = results := by
  obtain ⟨visits, last', hrun, hvisits, -, hall⟩ :=
    visitSources_visits w s generation shown sources u
  rw [updateSources_eq, hrun] at h
  obtain ⟨hresults, rfl⟩ := Prod.mk.inj h
  injection hresults with hresults
  rw [← hall going, ← hresults]
  exact visits_reached hvisits meter going

end Turns

/-! ### Any order -/

/-- Every source that reported is done with once, and the meter has counted those and no more. -/
structure Exact (meter : Progress) (p : Pool) : Prop where
  results : (p.results.map Result.source).Perm p.told
  downloads : p.progress.now.download.done = meter.now.download.done + p.told.length
  parses : p.progress.now.parse.done = meter.now.parse.done + p.told.length

theorem Balanced.exact (h : Balanced sources meter p) (downloads : p.downloadsLeft = 0)
    (parses : p.parsesLeft = 0) : Exact meter p := by
  have hparses := h.parses
  have harrived : p.arrived = [] := by
    obtain hleft | ⟨-, hnone, -⟩ := h.downloads
    · exact List.length_eq_zero_iff.mp (by omega)
    · exact hnone
  have hparsing : p.parses = [] := List.length_eq_zero_iff.mp (by omega)
  have hparsed : p.parsed = [] := List.length_eq_zero_iff.mp (by omega)
  have hplaced := h.placed
  simp only [places, harrived, hparsing, hparsed, List.map_nil, List.nil_append] at hplaced
  have hfetched := h.fetched
  rw [harrived] at hfetched
  exact ⟨hplaced, hfetched, by rw [h.settled, ← hplaced.length_eq, List.length_map]⟩

/-- **Whatever order the tasks report in, the counts are those of the reports to come.** They never
fall below none; whoever leaves without a stop has done with every source that reported; and when
the wait is over, nothing is being parsed. -/
theorem tallied {control : Control}
    (run : Relation.ReflTransGen Step (start sources meter control) p) :
    p.told.Sublist sources ∧
      p.parsesLeft = p.downloadsLeft + (p.parses.length + p.parsed.length : Nat) ∧
      0 ≤ p.downloadsLeft ∧ 0 ≤ p.parsesLeft ∧
      (p.stage.isOut = true → p.control.stopped = false →
        p.downloadsLeft = 0 ∧ p.parsesLeft = 0) ∧
      (p.downloadsLeft = 0 → p.parsesLeft = 0 → Exact meter p) ∧
      (p.stage = .ended → p.parses = []) := by
  obtain ⟨hb, hr⟩ := reached run
  have hdownloads : 0 ≤ p.downloadsLeft := by
    obtain hleft | ⟨hnone, -, -⟩ := hb.downloads <;> omega
  have hparses := hb.parses
  refine ⟨hb.sources ▸ p.told_sublist, hparses, hdownloads, by omega, fun hout hgoing => ?_,
    hb.exact, hr.ended⟩
  obtain hnone | halted := hr.out hout
  · exact hnone
  · rw [hgoing] at halted
    cases halted

def adList : Source := { id := 2, label := "ads", location := "https://lists.example/ads" }

def spamList : Source := { id := 3, label := "spam", location := "https://lists.example/spam" }

/-- One of two lists is fetched and parsed; the task of the other ends without a word. -/
theorem tallied_silent : ∃ p,
    Relation.ReflTransGen Step (start [adList, spamList] {} {}) p ∧ p.stage = .ended ∧
      p.told = [adList] ∧ p.results = [⟨adList, .updated {}⟩] ∧ Exact {} p ∧ p.parses = [] := by
  have hlists : (start [adList, spamList] {} {}).errands =
      [(adList, .out)] ++ (spamList, .out) :: [] := rfl
  have hlost : Quiet ((start [adList, spamList] {} {}).lost [(adList, .out)] spamList []) :=
    ⟨rfl, rfl, rfl, rfl, rfl⟩
  have hother : ((start [adList, spamList] {} {}).lost [(adList, .out)] spamList []).errands =
      [] ++ (adList, .out) :: [(spamList, .silent)] := rfl
  obtain ⟨q, hsteps, hq, herrands, hdownloads, hparses, hresults⟩ :=
    hlost.turn hother (by decide) (by decide) (.inl ⟨{ content := .body [], size := 0 }, rfl⟩)
  have hmore : 0 < q.downloadsLeft := by
    rw [hdownloads]
    decide
  -- the report that is missing will not come
  have hended : q.Ended := by
    rw [Ended, herrands]
    decide
  have hawait := Step.wait (.await hq.stage (.inl hmore) hq.going)
  have hwaiting : ({ q with stage := .waiting } : Pool).stage = .waiting := rfl
  have hgiveUp := Step.wait (.giveUp hwaiting hmore hq.arrived hended)
  have hquiet : Quiet { q with
      parsesLeft := q.parsesLeft - q.downloadsLeft, downloadsLeft := 0, stage := .head } :=
    ⟨rfl, hq.going, hq.arrived, hq.parses, hq.parsed⟩
  have hnone : q.parsesLeft - q.downloadsLeft = 0 := by
    rw [hparses, hdownloads]
    decide
  have hrun := (((hsteps.head (.task (.vanish hlists))).tail hawait).tail hgiveUp).trans
    (hquiet.ends rfl hnone)
  obtain ⟨-, -, -, -, -, hexact, hover⟩ := tallied hrun
  refine ⟨_, hrun, rfl, ?_, hresults, hexact rfl hnone, hover rfl⟩
  show (q.errands.filter (·.2 == .told)).map Prod.fst = _
  rw [herrands]
  decide

end Pool

end Sinkhole.Update
