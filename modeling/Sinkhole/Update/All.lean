import Sinkhole.Update.Settling
import Sinkhole.Update.Preflight
import Sinkhole.Update.Report

/-! Updating all sources.

The run stages every source under the generation after the active one: what was
fetched anew is taken in there, and of every other source the active items are
copied. Only when all sources are done does that generation become the active one,
so nobody ever sees half of it; a run that is stopped or that could not reach any
server leaves the active one as it is. The table follows last: where it cannot be made
anew the run has failed, but the generation is the active one already. -/
namespace Sinkhole.Update

variable {σ : Type}

/-- The sources that a run looks after. -/
structure Plan where
  files : List Source := []
  remote : List Source := []
  deriving DecidableEq, Repr

def Plan.size (p : Plan) : Nat := p.files.length + p.remote.length

/-- A source with no part in the run loses its items and its validators. -/
def forget (s : Store) (id : Int) : Store := (s.clearItems id none).clearCache id

/-- `p` with a source in its place, if it has one; a location of no known kind has none. -/
def Plan.with (p : Plan) (source : Source) : Plan :=
  match source.place with
  | .ok (.remote _) => { p with remote := p.remote ++ [source] }
  | .ok (.local _) => { p with files := p.files ++ [source] }
  | _ => p

/-- The plan for the enabled sources; disabled ones are forgotten. -/
def plan : Work σ Plan := do
  let sources := (← get).store.sources.filter (!·.isUser)
  Work.onStore fun s => (sources.filter (!·.enabled)).foldl (fun s source => forget s source.id) s
  return (sources.filter (·.enabled)).foldl Plan.with {}

/-- Fetches a source and takes it over; a source that cannot be fetched has failed. -/
def updateSource (w : World σ) (s : Setup) (generation : Int) (source : Source) :
    Work σ Settled := do
  let fetched ← Work.outcome (Fetch.fetch w s.fetch source)
  Work.onProgress (·.complete .download)
  let settled ← (match fetched with
    | .ok (.downloaded d) => settle w s source d generation
    | .ok (.unchanged remoteModified) => return .unchanged (keptMetadata source remoteModified)
    | .error e => return .failed e.message)
  Work.onProgress (·.complete .parse)
  return settled

/-- The sources one after the other, until a stop. A local source is shown while it is
fetched. -/
def updateSources (w : World σ) (s : Setup) (generation : Int) (shown : Bool) :
    List Source → Work σ (List Result)
  | [] => return []
  | source :: rest => do
    if ← Work.isStopped then return []
    if shown then Work.onProgress (·.setCurrentItem source.label)
    let settled ← updateSource w s generation source
    return ⟨source, settled⟩ :: (← updateSources w s generation shown rest)

/-! ### Committing -/

/-- Whether a source keeps the items it has. -/
def Settled.isKept : Settled → Bool
  | .updated _ => false
  | _ => true

def Settled.learned? : Settled → Option Metadata
  | .updated m => some m
  | .unchanged m => some m
  | _ => none

def Settled.isFailed : Settled → Bool
  | .failed _ => true
  | _ => false

def Result.isRemote (r : Result) : Bool := r.source.remoteHost?.isSome

def Result.failure? (r : Result) : Option String :=
  match r.settled with
  | .failed reason => some (r.source.label ++ ": " ++ reason)
  | _ => none

/-- Makes the table anew and tells what that came to. -/
def syncTable : Work σ Summary := do
  match (← get).store.sync with
  | .ok (summary, store) =>
    Work.onStore fun _ => store
    return summary
  | .error e => throw e

/-- Makes the staged generation the active one, with the items of the sources that keep theirs
carried over. -/
def adopt (s : Store) (active : Int) (results : List Result) : Store :=
  let kept := (results.filter (·.settled.isKept)).map (·.source.id)
  let s := kept.foldl (fun s id => (s.carryForward id active (active + 1)).2) s
  let s := s.commit (active + 1)
    (results.filterMap fun r => r.settled.learned?.map fun m => (r.source.id, m))
  s.purge.2

/-- Ends a run that was not stopped. If all remote sources failed, nothing is committed. -/
def finish (active : Int) (results : List Result) : Work σ Report := do
  Work.onProgress Progress.snapshot
  let hosts := (← get).progress.now.hostsParsed
  let remote := results.filter Result.isRemote
  if !remote.isEmpty && remote.all (·.settled.isFailed) then
    Work.onStore fun s => s.discard.2
    throw (.downloadFailed remote.length)
  Work.onStore (adopt · active results)
  let summary ← syncTable
  return {
    generation := active + 1
    committed := true
    updated := (results.filter fun r => !r.settled.isKept).length
    unchanged := (results.filter fun r => r.settled.isKept && r.settled.learned?.isSome).length
    failed := results.filterMap Result.failure?
    hostsParsed := hosts
    summary := some summary }

/-- The report of a run that was stopped. -/
def stoppedReport (active : Int) : Work σ Report := do
  Work.onProgress fun p => p.setStopped.snapshot
  return { generation := active, stopped := true, hostsParsed := (← get).progress.now.hostsParsed }

def runAll (w : World σ) (s : Setup) : Work σ Report := do
  let p ← plan
  if !p.remote.isEmpty then preflight w p.remote
  Work.onStore fun s => { s.discard.2 with durability := .relaxed }
  let active := (← get).store.active
  Work.onProgress fun meter => (meter.setTotal .download p.size).setTotal .parse p.size
  let first ← updateSources w s (active + 1) true p.files
  let inTurn := sortBy (fun a b => w.turn a ≤ w.turn b) p.remote
  let second ← updateSources w s (active + 1) false inTurn
  Work.onStore fun s => { s with durability := .normal }
  if ← Work.isStopped then stoppedReport active else finish active (first ++ second)

/-- Updates every enabled source and puts the result in force. -/
def updateAll (w : World σ) (s : Setup) (task : Option String) (u : Updater σ) :
    Except Error Report × Updater σ :=
  Work.supervised task (runAll w s) u

end Sinkhole.Update
