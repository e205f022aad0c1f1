import Sinkhole.World
import Sinkhole.Control
import Sinkhole.Progress

/-! The updater: the store, and the one run that may be under way on it.

At most one run is admitted at a time. It starts with a fresh control and a fresh
progress meter, and whatever way it ends, the next one is admitted. `Work` is a part
of a run: it may fail, and what it did before it failed stays done. -/
namespace Sinkhole

/-- What a run does to the outside, in order. -/
inductive Deed where
  | sent (request : Fetch.Request)
  | waited (millis : Nat)
  deriving DecidableEq, Repr

/-- The store, the world around it, and what is known of the run under way. -/
structure Updater (σ : Type) where
  store : Store
  world : σ
  control : Control := {}
  progress : Progress := {}
  running : Bool := false
  /-- What the run under way, or else the last one, did. -/
  deeds : List Deed := []
  /-- The runs that were attempted meanwhile, and why each was refused. -/
  refused : List (Run × Error) := []

namespace Updater

variable {σ : Type}

/-- Admits a run unless one is under way. -/
def enter (u : Updater σ) : Except Error (Updater σ) :=
  if u.running then .error .alreadyRunning
  else .ok { u with running := true, control := u.control.reset, deeds := [], refused := [] }

/-! ### Buttons -/

def stop (u : Updater σ) : Updater σ :=
  { u with
    control := u.control.stop
    progress := if u.running then u.progress.setStopped else u.progress }

def pause (u : Updater σ) : Updater σ :=
  { u with
    control := u.control.pause
    progress := if u.running then u.progress.setPaused true else u.progress }

def resume (u : Updater σ) : Updater σ :=
  { u with control := u.control.resume, progress := u.progress.setPaused false }

/-- What a signal does. An attempt at another run gets no further than being refused. -/
def hear (u : Updater σ) : Signal → Updater σ
  | .stop => u.stop
  | .pause => u.pause.resume
  | .interrupt => { u with control := u.control.stop }
  | .attempt run =>
    match u.enter with
    | .error e => { u with refused := u.refused ++ [(run, e)] }
    | .ok _ => u

end Updater

/-- A part of a run. -/
abbrev Work (σ α : Type) := ExceptT Error (StateM (Updater σ)) α

namespace Work

variable {σ α : Type}

/-- Asks the world, and lets what came in meanwhile take effect. -/
def observe (ask : σ → Observed σ α) : Work σ α := do
  let u ← get
  let o := ask u.world
  set (o.signals.foldl Updater.hear { u with world := o.world })
  return o.answer

def onStore (f : Store → Store) : Work σ Unit := modify fun u => { u with store := f u.store }

def onProgress (f : Progress → Progress) : Work σ Unit :=
  modify fun u => { u with progress := f u.progress }

def note (d : Deed) : Work σ Unit := modify fun u => { u with deeds := u.deeds ++ [d] }

def isStopped : Work σ Bool := do return (← get).control.stopped

/-- What came of work that may have failed. -/
def outcome (work : Work σ α) : Work σ (Except Error α) := tryCatch (.ok <$> work) (return .error ·)

/-- A whole run: admitted, with a fresh control and meter, and over when its work is. -/
def supervised (task : Option String) (work : Work σ α) (u : Updater σ) :
    Except Error α × Updater σ :=
  match u.enter with
  | .error e => (.error e, u)
  | .ok u =>
    let (result, u) := (work.run).run { u with progress := u.progress.begin task }
    (result, { u with progress := u.progress.finish, running := false })

end Work

end Sinkhole
