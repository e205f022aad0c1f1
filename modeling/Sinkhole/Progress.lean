/-! How far a run has come, for those who watch it.

Each phase counts what is done of a total; totals may change while a run goes on,
so a percentage that is shown is the highest that was shown since the run began.
Watchers see snapshots, and only those that are published. -/
namespace Sinkhole

/-- The phases of a run. -/
inductive Phase where
  | check
  | download
  | parse
  deriving DecidableEq, Repr

/-- One phase: what is done, of how much, and the highest percentage shown so far. -/
structure Tally where
  done : Nat := 0
  total : Nat := 0
  shown : Nat := 0
  deriving DecidableEq, Repr

namespace Tally

/-- What is done as a percentage, rounded down; nothing of nothing is none. -/
def percent (t : Tally) : Nat := if t.total = 0 then 0 else min t.done t.total * 100 / t.total

/-- The tally after its percentage was shown. -/
def show' (t : Tally) : Tally := { t with shown := max t.shown t.percent }

end Tally

/-- What a watcher sees. -/
structure Snapshot where
  check : Tally := {}
  download : Tally := {}
  parse : Tally := {}
  hostsParsed : Nat := 0
  overallPercent : Nat := 0
  currentItem : Option String := none
  taskName : Option String := none
  running : Bool := false
  paused : Bool := false
  stopped : Bool := false
  deriving DecidableEq, Repr

/-- The state of the meter is itself a snapshot, with the percentages that were last shown;
`published` is what watchers see. -/
structure Progress where
  now : Snapshot := {}
  published : Snapshot := {}
  deriving DecidableEq, Repr

namespace Progress

/-- The mean of downloading and parsing, or checking while there is neither. -/
def overall (s : Snapshot) : Nat :=
  if s.download.total > 0 || s.parse.total > 0 then (s.download.shown + s.parse.shown) / 2
  else s.check.shown

/-- A meter after a snapshot of it was taken; `now` is that snapshot. -/
def snapshot (p : Progress) : Progress :=
  let s := { p.now with
    check := p.now.check.show', download := p.now.download.show', parse := p.now.parse.show' }
  { p with now := { s with overallPercent := max s.overallPercent (overall s) } }

/-- Takes a snapshot and shows it to the watchers. -/
def publish (p : Progress) : Progress :=
  let p := p.snapshot
  { p with published := p.now }

def modify (p : Progress) (f : Snapshot → Snapshot) : Progress := { p with now := f p.now }

def begin (p : Progress) (task : Option String) : Progress :=
  publish (p.modify fun _ => { taskName := task, running := true })

def finish (p : Progress) : Progress :=
  publish (p.modify ({ · with running := false, paused := false, currentItem := none }))

def onPhase (p : Progress) (phase : Phase) (f : Tally → Tally) : Progress :=
  p.modify fun s => match phase with
    | .check => { s with check := f s.check }
    | .download => { s with download := f s.download }
    | .parse => { s with parse := f s.parse }

def setTotal (p : Progress) (phase : Phase) (total : Nat) : Progress :=
  publish (p.onPhase phase ({ · with total }))

def complete (p : Progress) (phase : Phase) : Progress :=
  publish (p.onPhase phase fun t => { t with done := t.done + 1 })

/-- Counts hosts; watchers learn of them with the next thing that is published. -/
def addHosts (p : Progress) (count : Nat) : Progress :=
  p.modify fun s => { s with hostsParsed := s.hostsParsed + count }

def setCurrentItem (p : Progress) (label : String) : Progress :=
  publish (p.modify ({ · with currentItem := some label }))

def setPaused (p : Progress) (paused : Bool) : Progress := publish (p.modify ({ · with paused }))

def setStopped (p : Progress) : Progress :=
  publish (p.modify ({ · with stopped := true, paused := false }))

def isRunning (p : Progress) : Bool := p.now.running

end Progress

end Sinkhole
