import Mathlib.Logic.Function.Basic
import Sinkhole.Progress

/-! A meter that several workers write to.

What a worker does to the meter is more than one step: it writes what it has to tell,
takes a snapshot in which no percentage is below one that was shown, and sends that
snapshot to the watchers. The others take their steps in between. So a snapshot may be
in a worker's hands while later ones are taken, and sent. -/
namespace Sinkhole.Progress

/-- What a worker tells a meter, or asks of it, in the course of a run. -/
inductive Request where
  | setTotal (phase : Phase) (total : Nat)
  | complete (phase : Phase)
  | addHosts (count : Nat)
  | setCurrentItem (label : String)
  | setPaused (paused : Bool)
  | setStopped
  | finish
  | publish
  | snapshot
  deriving DecidableEq, Repr

/-- Where a worker stands with its request. -/
inductive Worker where
  | idle
  /-- About to take a snapshot for itself. -/
  | looking
  /-- About to take a snapshot for the watchers. -/
  | publishing
  /-- With a snapshot to send, and how many were taken before it. -/
  | holding (before : Nat) (s : Snapshot)
  deriving DecidableEq, Repr

namespace Request

/-- A request as one step. -/
def carryOut : Request → Progress → Progress
  | setTotal phase total, p => p.setTotal phase total
  | complete phase, p => p.complete phase
  | addHosts count, p => p.addHosts count
  | setCurrentItem label, p => p.setCurrentItem label
  | setPaused paused, p => p.setPaused paused
  | setStopped, p => p.setStopped
  | finish, p => p.finish
  | publish, p => p.publish
  | snapshot, p => p.snapshot

/-- What a request writes before any snapshot is taken. -/
def write : Request → Progress → Progress
  | setTotal phase total, p => p.onPhase phase ({ · with total })
  | complete phase, p => p.onPhase phase fun t => { t with done := t.done + 1 }
  | addHosts count, p => p.addHosts count
  | setCurrentItem label, p => p.modify ({ · with currentItem := some label })
  | setPaused paused, p => p.modify ({ · with paused })
  | setStopped, p => p.modify ({ · with stopped := true, paused := false })
  | finish, p => p.modify ({ · with running := false, paused := false, currentItem := none })
  | publish, p => p
  | snapshot, p => p

/-- What is left of a request when it has written. -/
def rest : Request → Worker
  | addHosts _ => .idle
  | snapshot => .looking
  | _ => .publishing

end Request

/-- A meter and those who use it. -/
structure Board (ι : Type) where
  meter : Progress
  workers : ι → Worker
  /-- All snapshots that were taken, in their order. -/
  taken : List Snapshot := []
  /-- What was sent to the watchers, in the order it was sent, each with how many snapshots
  were taken before it was. -/
  sent : List (Nat × Snapshot) := []

namespace Board

variable {ι : Type} [DecidableEq ι]

def start (ι : Type) (meter : Progress) : Board ι := { meter, workers := fun _ => .idle }

/-- A step of one of the workers. -/
inductive Step : Board ι → Board ι → Prop where
  | write {b} (i : ι) (r : Request) (idle : b.workers i = .idle) :
      Step b { b with
        meter := r.write b.meter
        workers := Function.update b.workers i r.rest }
  | look {b} (i : ι) (looking : b.workers i = .looking) :
      Step b { b with
        meter := b.meter.snapshot
        workers := Function.update b.workers i .idle
        taken := b.taken ++ [b.meter.snapshot.now] }
  | take {b} (i : ι) (publishing : b.workers i = .publishing) :
      Step b { b with
        meter := b.meter.snapshot
        workers := Function.update b.workers i (.holding b.taken.length b.meter.snapshot.now)
        taken := b.taken ++ [b.meter.snapshot.now] }
  | send {b before s} (i : ι) (holding : b.workers i = .holding before s) :
      Step b { b with
        meter := { b.meter with published := s }
        workers := Function.update b.workers i .idle
        sent := b.sent ++ [(before, s)] }

end Board

end Sinkhole.Progress
