/-! Pause, resume and stop.

Nothing is interrupted by force. Whoever works on a run passes a checkpoint now and
then and learns there whether to go on, to wait or to leave. A stop overrides a
pause, and after a stop no pause takes effect until the control is reset for the
next run. -/
namespace Sinkhole

/-- What has been asked of the run under way. -/
structure Control where
  paused : Bool := false
  stopped : Bool := false
  deriving DecidableEq, Repr

/-- What a worker learns at a checkpoint. -/
inductive Leave where
  | go
  | halt
  deriving DecidableEq, Repr

namespace Control

def reset (_ : Control) : Control := {}

def pause (c : Control) : Control := if !c.stopped && !c.paused then { c with paused := true } else c

def resume (c : Control) : Control := { c with paused := false }

def stop (c : Control) : Control := if c.stopped then c else { paused := false, stopped := true }

/-- The answer at a checkpoint; none while the worker has to wait. -/
def checkpoint (c : Control) : Option Leave :=
  if c.stopped then some .halt else if c.paused then none else some .go

@[simp]
theorem stop_stopped (c : Control) : c.stop.stopped = true := by
  unfold stop
  split
  · assumption
  · rfl

/-- A pause takes no stop back. -/
@[simp]
theorem pause_stopped (c : Control) : c.pause.stopped = c.stopped := by
  unfold pause
  split <;> rfl

theorem checkpoint_eq_halt {c : Control} : c.checkpoint = some .halt ↔ c.stopped = true := by
  unfold checkpoint
  cases c.stopped <;> cases c.paused <;> simp

theorem checkpoint_eq_go {c : Control} :
    c.checkpoint = some .go ↔ c.stopped = false ∧ c.paused = false := by
  unfold checkpoint
  cases c.stopped <;> cases c.paused <;> simp

end Control

/-! ### Waiting

A waiter registers for the next wake-up before it looks at the flags, so that a
wake-up between the look and the sleep is not lost. A resume and a stop wake all
that have registered; a reset wakes nobody. -/

/-- Where a waiter stands; `woken` says that a wake-up came since it registered. -/
inductive Waiter where
  | arriving
  | registered (woken : Bool)
  /-- Has found the run paused, and is about to sleep. -/
  | held (woken : Bool)
  | asleep
  /-- Was woken, and is about to come again. -/
  | roused
  | left (answer : Leave)
  deriving DecidableEq, Repr

namespace Waiter

/-- The next step of a waiter on its own; none when it sleeps or has left. -/
def step? (c : Control) : Waiter → Option Waiter
  | arriving => some (registered false)
  | registered woken =>
    match c.checkpoint with
    | some answer => some (left answer)
    | none => some (held woken)
  | held woken => some (if woken then roused else asleep)
  | asleep => none
  | roused => some arriving
  | left _ => none

def wake : Waiter → Waiter
  | registered _ => registered true
  | held _ => held true
  | asleep => roused
  | w => w

/-- A waiter after its next step, if it has one. -/
def next (c : Control) (w : Waiter) : Waiter := (w.step? c).getD w

/-- A waiter after it has gone as far as it can get in one go. -/
def poll (c : Control) (w : Waiter) : Waiter := (((w.next c).next c).next c).next c

end Waiter

/-- A control and those who wait on it. -/
structure Gate where
  control : Control := {}
  waiters : List Waiter := []
  deriving DecidableEq, Repr

namespace Gate

def pause (g : Gate) : Gate := { g with control := g.control.pause }

def reset (g : Gate) : Gate := { g with control := g.control.reset }

def wakeAll (g : Gate) : Gate := { g with waiters := g.waiters.map Waiter.wake }

def resume (g : Gate) : Gate := wakeAll { g with control := g.control.resume }

def stop (g : Gate) : Gate := wakeAll { g with control := g.control.stop }

def arrive (g : Gate) : Gate := { g with waiters := g.waiters ++ [.arriving] }

def pollAll (g : Gate) : Gate := { g with waiters := g.waiters.map (Waiter.poll g.control) }

end Gate

end Sinkhole
