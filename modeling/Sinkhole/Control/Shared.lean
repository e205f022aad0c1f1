import Sinkhole.Control

/-! A control that several use at once.

A resume and a stop are two steps each: they set the flags, and then they wake those who
have registered. A waiter's way through a checkpoint is made of steps as well: it
registers, looks at the flags, goes to sleep if it may neither go on nor leave, and begins
again when it was woken. Whatever the others do may come between any two of them. -/
namespace Sinkhole

/-- What a waiter does in one step. -/
inductive Waiter.Move where
  | register
  | look
  | sleep
  | rise
  deriving DecidableEq, Repr

/-- What a waiter does next; nothing when it sleeps or has left. -/
def Waiter.move? : Waiter → Option Waiter.Move
  | arriving => some .register
  | registered _ => some .look
  | held _ => some .sleep
  | roused => some .rise
  | asleep => none
  | left _ => none

/-- A step of someone who uses a control. -/
inductive Control.Event where
  | pause
  | reset
  /-- The flags of a resume. -/
  | resume
  /-- The flags of a stop. -/
  | stop
  /-- The wake-up with which a resume or a stop is complete. -/
  | wake
  /-- One more comes to wait. -/
  | arrive
  | waiter (i : Nat) (move : Waiter.Move)
  deriving DecidableEq, Repr

/-- A gate in the midst of what is done to it, with how many resumes and stops have set their
flags and are yet to wake those who wait. -/
structure Crowd where
  gate : Gate := {}
  waking : Nat := 0
  deriving DecidableEq, Repr

namespace Crowd

open Control (Event)

/-- A crowd after one step of one of them, if that can be taken. -/
def next? (x : Crowd) : Event → Option Crowd
  | .pause => some { x with gate := x.gate.pause }
  | .reset => some { x with gate := x.gate.reset }
  | .resume => some
      { gate := { x.gate with control := x.gate.control.resume }, waking := x.waking + 1 }
  | .stop => some
      { gate := { x.gate with control := x.gate.control.stop }, waking := x.waking + 1 }
  | .wake =>
    if x.waking = 0 then none else some { gate := x.gate.wakeAll, waking := x.waking - 1 }
  | .arrive => some { x with gate := x.gate.arrive }
  | .waiter i move => do
    let w ← x.gate.waiters[i]?
    let w' ← w.step? x.gate.control
    if w.move? = some move then
      return { x with gate := { x.gate with waiters := x.gate.waiters.set i w' } }
    else none

/-- A crowd after a sequence of steps, each of whoever takes it. -/
def run? (x : Crowd) : List Event → Option Crowd
  | [] => some x
  | e :: es => (x.next? e).bind (run? · es)

end Crowd

end Sinkhole
