import Sinkhole.Update.Check

/-! A check as it asks: about many sources at a time.

A source is asked about unless the check was stopped before its turn came. Its provider
replies when it will, or fails to, and what comes of it is written down at once, whoever
else is being asked. The findings are put in order at the end. How many sources are
asked about at a time is limited, which only makes some of the orders below
impossible. -/
namespace Sinkhole.Update

/-- What comes of asking when a source was last changed. -/
abbrev Reply := Except Error (Option Time.Instant)

/-- What a check has to say about a source after a reply. -/
def findingOf (source : Source) : Reply → Finding
  | .ok reported =>
    { source := source.id, label := source.label, remoteModified := reported
      updateAvailable := isOutdated reported source }
  | .error e => { source := source.id, label := source.label, error := some e.message }

/-- The store after a reply about a source: what was reported is written down. -/
def noteReply (s : Store) (source : Source) : Reply → Store
  | .ok reported => s.setRemoteModified source.id reported
  | .error _ => s

/-- A check under way. -/
structure Survey where
  /-- Sources that it has not come to. -/
  waiting : List Source
  asking : List Source := []
  /-- In the order they came in. -/
  replies : List (Source × Reply) := []
  /-- Sources whose turn came after a stop. -/
  passed : List Source := []
  store : Store
  control : Control := {}

namespace Survey

def start (s : Store) (control : Control) : Survey :=
  { waiting := s.enabledSources, store := s, control }

def findings (p : Survey) : List Finding := p.replies.map fun r => findingOf r.1 r.2

/-- What the check returns when it is over. -/
def result (p : Survey) : List Finding := sortBy (fun a b => a.source ≤ b.source) p.findings

/-- Whether there is nobody left to ask, nor a reply to wait for. -/
def Over (p : Survey) : Prop := p.waiting = [] ∧ p.asking = []

/-- A step for one of the sources. -/
inductive Asks : Survey → Survey → Prop where
  | ask {p before source after} (waiting : p.waiting = before ++ source :: after)
      (going : p.control.checkpoint = some .go) :
      Asks p { p with waiting := before ++ after, asking := p.asking ++ [source] }
  | pass {p before source after} (waiting : p.waiting = before ++ source :: after)
      (halted : p.control.checkpoint = some .halt) :
      Asks p { p with waiting := before ++ after, passed := p.passed ++ [source] }
  | reply {p before source after} (reply : Reply)
      (asking : p.asking = before ++ source :: after) :
      Asks p { p with
        asking := before ++ after
        replies := p.replies ++ [(source, reply)]
        store := noteReply p.store source reply }

/-- A step of a check, or of whoever has the buttons. -/
inductive Step : Survey → Survey → Prop where
  | ask {p q} (step : Asks p q) : Step p q
  | stop {p} : Step p { p with control := p.control.stop }
  | pause {p} : Step p { p with control := p.control.pause }
  | resume {p} : Step p { p with control := p.control.resume }

end Survey

end Sinkhole.Update
