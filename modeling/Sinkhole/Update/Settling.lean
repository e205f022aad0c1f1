import Sinkhole.Fetch

/-! How one source comes out of a run.

A source that was fetched is taken in under the generation that the run stages; one
that is unchanged keeps its items and its entity tag, and only the time its server
reports may be new. -/
namespace Sinkhole.Update

variable {σ : Type}

/-- All that a run is set up with. -/
structure Setup where
  fetch : Fetch.Settings
  pipeline : PipelineSettings := {}
  sizing : Sizing
  deriving DecidableEq, Repr

/-- How a list is taken in. -/
def Setup.intake (s : Setup) : Intake.Settings :=
  { batchSize := s.pipeline.batchSize, dedupCap := some s.sizing.dedupCapPerParse }

/-- How one source of a run ended. -/
inductive Settled where
  | updated (learned : Metadata)
  | unchanged (learned : Metadata)
  | failed (reason : String)
  | stopped
  deriving DecidableEq, Repr

/-- A source and how it came out. -/
structure Result where
  source : Source
  settled : Settled
  deriving DecidableEq, Repr

/-- What there is to remember of a source that is unchanged. -/
def keptMetadata (source : Source) (remoteModified : Option Time.Instant) : Metadata :=
  { entityTag := source.entityTag, remoteModified }

/-- What there is to remember of content that was taken over. -/
def newMetadata (d : Fetch.Download) : Metadata :=
  { entityTag := d.entityTag, remoteModified := d.lastModified, appliedModified := d.lastModified,
    sizeHint := some d.size }

/-- Whether a stop is in force after so many lines. -/
def haltedAt (control : Control) (meanwhile : List (Nat × Signal)) (lines : Nat) : Bool :=
  control.stopped || meanwhile.any fun (after, signal) => after ≤ lines && signal.stops

/-- Takes an opened content in; what came in meanwhile has taken effect when it is done. -/
def takeIn (s : Setup) (target : Intake.Target) (opened : Opened) : Work σ Intake.Outcome := do
  let u ← get
  let r := Intake.run s.intake target (haltedAt u.control opened.meanwhile) opened.reading u.store
    opened.arrival
  let u := { u with store := r.store, progress := u.progress.addHosts r.counted }
  set (opened.meanwhile.foldl (fun u heard => u.hear heard.2) u)
  match r.outcome with
  | .ok outcome => return outcome
  | .error e => throw e

/-- Takes over what was fetched for a source, under a generation. -/
def settle (w : World σ) (s : Setup) (source : Source) (d : Fetch.Download) (generation : Int) :
    Work σ Settled := do
  if ← Work.isStopped then return .stopped
  Work.onProgress (·.setCurrentItem source.label)
  let came ← Work.outcome do
    takeIn s (Intake.Target.of source generation) (← Fetch.openContent w d.content)
  match came with
  | .ok outcome => return if outcome.stopped then .stopped else .updated (newMetadata d)
  | .error e => return .failed e.message

end Sinkhole.Update
