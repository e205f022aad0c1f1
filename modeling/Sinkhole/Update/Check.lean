import Sinkhole.Update.All

/-! Checking which sources have changed, without fetching any.

The only thing a check writes down is when each source it could ask was last
changed. A source that cannot be asked has a finding of its own and spoils no
other. -/
namespace Sinkhole.Update

variable {σ : Type}

/-- Whether what a source reports now is newer than what was taken over. -/
def isOutdated (reported : Option Time.Instant) (source : Source) : Bool :=
  match reported, source.applied with
  | _, none => true
  | some now, some applied => now.isAfter applied
  | none, some _ => false

/-- Asks about one source; nothing when the check is stopped. -/
def checkSource (w : World σ) (s : Setup) (source : Source) : Work σ (Option Finding) := do
  if ← Work.isStopped then return none
  Work.onProgress (·.setCurrentItem source.label)
  let reported ← Work.outcome (Fetch.probe w s.fetch source)
  Work.onProgress (·.complete .check)
  match reported with
  | .ok reported =>
    Work.onStore (·.setRemoteModified source.id reported)
    return some {
      source := source.id
      label := source.label
      remoteModified := reported
      updateAvailable := isOutdated reported source }
  | .error e => return some { source := source.id, label := source.label, error := some e.message }

def checkSources (w : World σ) (s : Setup) : List Source → Work σ (List Finding)
  | [] => return []
  | source :: rest => do
    let finding ← checkSource w s source
    return finding.toList ++ (← checkSources w s rest)

def runCheck (w : World σ) (s : Setup) : Work σ (List Finding) := do
  let sources := (← get).store.enabledSources
  let remote := sources.filter (·.remoteHost?.isSome)
  if !remote.isEmpty then preflight w remote
  Work.onProgress (·.setTotal .check sources.length)
  let findings ← checkSources w s (sortBy (fun a b => w.turn a ≤ w.turn b) sources)
  return sortBy (fun a b => a.source ≤ b.source) findings

/-- Asks every enabled source when it was last changed. -/
def check (w : World σ) (s : Setup) (u : Updater σ) : Except Error (List Finding) × Updater σ :=
  Work.supervised none (runCheck w s) u

end Sinkhole.Update
