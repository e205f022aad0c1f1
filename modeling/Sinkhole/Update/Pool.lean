import Sinkhole.Update.All

/-! Sources on servers, all of them at once.

A task for each source fetches it and reports; whoever waits for the reports has a
task started for every download, to parse it, and those report in turn. Two counts say
how many reports of either kind are still to come, and the wait is over when both are
down to none, or when it is noticed that the run was stopped. A task may end without a
word: once all tasks have ended and their reports are read, no more can come, and the
ones that are missing are no longer waited for. How many fetch or parse at a time is
limited, which only makes some of the orders below impossible. -/
namespace Sinkhole.Update

/-- How far the task that fetches a source has come. -/
inductive Errand where
  | out
  | told
  | silent
  deriving DecidableEq, Repr

/-- Where the one who waits for the reports stands. -/
inductive Stage where
  /-- Before it looks whether to go on. -/
  | head
  /-- Until a report comes, or for as long as it waits at most. -/
  | waiting
  | leaving
  /-- The run was stopped: until no parse is running. -/
  | joining
  | ended
  deriving DecidableEq, Repr

/-- Whether there is no going back to the reports. -/
def Stage.isOut : Stage → Bool
  | head | waiting => false
  | leaving | joining | ended => true

/-- What a task reports: none if it learned of a stop before it began. -/
abbrev Answer := Option (Except Error Fetch.Fetched)

structure Pool where
  errands : List (Source × Errand)
  /-- Reports on fetches that have not been read. -/
  arrived : List (Source × Answer) := []
  /-- Downloads that are being parsed, or wait for it. -/
  parses : List (Source × Fetch.Download) := []
  /-- Reports on parses that have not been read. -/
  parsed : List Result := []
  downloadsLeft : Int
  parsesLeft : Int
  results : List Result := []
  progress : Progress
  control : Control := {}
  stage : Stage := .head

/-- How a source comes out whose report leaves nothing to parse. -/
def settledBy (source : Source) : Answer → Option Settled
  | some (.ok (.downloaded _)) => none
  | some (.ok (.unchanged remoteModified)) => some (.unchanged (keptMetadata source remoteModified))
  | some (.error e) => some (.failed e.message)
  | none => some .stopped

namespace Pool

def start (sources : List Source) (meter : Progress) (control : Control) : Pool where
  errands := sources.map (·, .out)
  downloadsLeft := sources.length
  parsesLeft := sources.length
  progress := meter
  control := control

/-- The sources that have reported. -/
def told (p : Pool) : List Source := (p.errands.filter (·.2 == .told)).map Prod.fst

/-- Whether every task has ended. -/
def Ended (p : Pool) : Prop := ∀ e ∈ p.errands, e.2 ≠ .out

instance (p : Pool) : Decidable p.Ended := inferInstanceAs (Decidable (∀ e ∈ _, _))

/-- The task of a source between others reports. -/
def reported (p : Pool) (before : List (Source × Errand)) (source : Source)
    (after : List (Source × Errand)) (answer : Answer) : Pool :=
  { p with
    errands := before ++ (source, .told) :: after
    arrived := p.arrived ++ [(source, answer)] }

/-- The task of a source between others ends without a report. -/
def lost (p : Pool) (before : List (Source × Errand)) (source : Source)
    (after : List (Source × Errand)) : Pool :=
  { p with errands := before ++ (source, .silent) :: after }

/-- The next report on a fetch is read. -/
def received (p : Pool) (rest : List (Source × Answer)) : Pool :=
  { p with
    arrived := rest
    downloadsLeft := p.downloadsLeft - 1
    progress := p.progress.complete .download
    stage := .head }

/-- A source is done with. -/
def settled (p : Pool) (r : Result) : Pool :=
  { p with
    parsesLeft := p.parsesLeft - 1
    progress := p.progress.complete .parse
    results := p.results ++ [r]
    stage := .head }

/-- Something that a task or a watcher does to the meter; none of it is a count of what is done. -/
inductive Touches : Progress → Progress → Prop where
  | hosts {m} (count : Nat) : Touches m (m.addHosts count)
  | item {m} (label : String) : Touches m (m.setCurrentItem label)
  | paused {m} (paused : Bool) : Touches m (m.setPaused paused)
  | stopped {m} : Touches m m.setStopped
  | snapshot {m} : Touches m m.snapshot

/-- A step of one of the tasks, or of whoever has the buttons. -/
inductive Tasks : Pool → Pool → Prop where
  | report {p before after source} (answer : Except Error Fetch.Fetched)
      (errands : p.errands = before ++ (source, .out) :: after) :
      Tasks p (p.reported before source after (some answer))
  | withdraw {p before after source} (errands : p.errands = before ++ (source, .out) :: after)
      (halted : p.control.stopped = true ∨ p.stage = .ended) :
      Tasks p (p.reported before source after none)
  | vanish {p before after source} (errands : p.errands = before ++ (source, .out) :: after) :
      Tasks p (p.lost before source after)
  | parse {p before after source download} (settled : Settled)
      (parses : p.parses = before ++ (source, download) :: after) :
      Tasks p { p with parses := before ++ after, parsed := p.parsed ++ [⟨source, settled⟩] }
  | touch {p meter} (touches : Touches p.progress meter) : Tasks p { p with progress := meter }
  | stop {p} : Tasks p { p with control := p.control.stop }
  | pause {p} : Tasks p { p with control := p.control.pause }
  | resume {p} : Tasks p { p with control := p.control.resume }

/-- A step of the one who waits for the reports. -/
inductive Waits : Pool → Pool → Prop where
  | await {p} (stage : p.stage = .head) (more : 0 < p.downloadsLeft ∨ 0 < p.parsesLeft)
      (going : p.control.stopped = false) : Waits p { p with stage := .waiting }
  | finish {p} (stage : p.stage = .head) (downloads : p.downloadsLeft = 0)
      (parses : p.parsesLeft = 0) : Waits p { p with stage := .leaving }
  | interrupt {p} (stage : p.stage = .head) (halted : p.control.stopped = true) :
      Waits p { p with stage := .leaving }
  | spawn {p source download rest} (stage : p.stage = .waiting) (more : 0 < p.downloadsLeft)
      (arrived : p.arrived = (source, some (.ok (.downloaded download))) :: rest) :
      Waits p { p.received rest with parses := p.parses ++ [(source, download)] }
  | settle {p source answer result rest} (stage : p.stage = .waiting)
      (more : 0 < p.downloadsLeft) (arrived : p.arrived = (source, answer) :: rest)
      (settled : settledBy source answer = some result) :
      Waits p ((p.received rest).settled ⟨source, result⟩)
  /-- Nobody is left who could report a fetch. -/
  | giveUp {p} (stage : p.stage = .waiting) (more : 0 < p.downloadsLeft)
      (arrived : p.arrived = []) (ended : p.Ended) :
      Waits p { p with
        parsesLeft := p.parsesLeft - p.downloadsLeft, downloadsLeft := 0, stage := .head }
  | parsed {p result rest} (stage : p.stage = .waiting) (more : 0 < p.parsesLeft)
      (parsed : p.parsed = result :: rest) :
      Waits p ({ p with parsed := rest }.settled result)
  /-- Nothing came for a while. -/
  | tick {p} (stage : p.stage = .waiting) :
      Waits p { p with progress := p.progress.setPaused p.control.paused, stage := .head }
  | release {p} (stage : p.stage = .leaving) (going : p.control.stopped = false) :
      Waits p { p with stage := .ended }
  | join {p} (stage : p.stage = .leaving) (halted : p.control.stopped = true) :
      Waits p { p with stage := .joining }
  | joined {p} (stage : p.stage = .joining) (quiet : p.parses = []) :
      Waits p { p with stage := .ended }

/-- A step of the pool. -/
inductive Step : Pool → Pool → Prop where
  | task {p q} (step : Tasks p q) : Step p q
  | wait {p q} (step : Waits p q) : Step p q

end Pool

end Sinkhole.Update
