import Sinkhole.Update.All

/-! Updating one source in place.

The source is taken in under the generation after the active one, as in a full run,
but when that has gone well its items are moved into the active generation in place
of the old ones, and no other source is touched. -/
namespace Sinkhole.Update

variable {σ : Type}

def sourceOf (id : Int) : Work σ Source := do
  match (← get).store.source id with
  | .ok source => return source
  | .error e => throw e

/-- The run for a source that is not fetched: the user's, or one that is disabled. -/
def refreshOnly (source : Source) (active : Int) : Work σ Report := do
  if !source.isUser then Work.onStore (forget · source.id)
  let summary ← syncTable
  return { generation := active, committed := true, summary := some summary }

/-- The fetch of the one source; a server's list that cannot be fetched is a failed download. -/
def fetchOnly (w : World σ) (s : Setup) (source : Source) (isRemote : Bool) :
    Work σ Fetch.Fetched := do
  Work.onProgress fun meter => (meter.setTotal .download 1).setTotal .parse 1
  Work.onProgress (·.setCurrentItem source.label)
  let fetched ← Work.outcome (Fetch.fetch w s.fetch source)
  Work.onProgress (·.complete .download)
  match fetched with
  | .ok fetched => return fetched
  | .error e => throw (if isRemote then .downloadFailed 1 else e)

/-- What the store is after the source's staged items and what was learned took effect. -/
def replace (s : Store) (source active : Int) (learned : Metadata) : Store :=
  (s.promote source (active + 1) active).2.updateMetadata source learned

/-- Ends the run by how the source came out; what it staged goes unless it was taken over. -/
def conclude (source : Source) (active : Int) (settled : Settled) : Work σ Report := do
  let dropStaged : Work σ Unit := Work.onStore (·.clearItems source.id (some (active + 1)))
  match settled with
  | .updated learned =>
    Work.onStore (replace · source.id active learned)
    let summary ← syncTable
    Work.onProgress Progress.snapshot
    return {
      generation := active
      committed := true
      updated := 1
      hostsParsed := (← get).progress.now.hostsParsed
      summary := some summary }
  | .unchanged _ => return { generation := active, committed := true, unchanged := 1 }
  | .failed reason =>
    dropStaged
    throw (.parseFailure source.label reason)
  | .stopped =>
    dropStaged
    Work.onProgress Progress.setStopped
    return { generation := active, stopped := true }

/-- The run over a source that is fetched. -/
def runFetched (w : World σ) (s : Setup) (source : Source) (active : Int) (isRemote : Bool) :
    Work σ Report := do
  match ← fetchOnly w s source isRemote with
  | .unchanged remoteModified =>
    Work.onProgress (·.complete .parse)
    if remoteModified.isSome then Work.onStore (·.setRemoteModified source.id remoteModified)
    return { generation := active, committed := true, unchanged := 1 }
  | .downloaded d =>
    let settled ← settle w s source d (active + 1)
    Work.onProgress (·.complete .parse)
    conclude source active settled

def runOne (w : World σ) (s : Setup) (id : Int) : Work σ Report := do
  let source ← sourceOf id
  let active := (← get).store.active
  if source.isUser || !source.enabled then refreshOnly source active
  else
    let location ← Fetch.place source
    if location.isRemote then preflight w [source]
    Work.onStore ({ · with durability := .relaxed })
    let result ← Work.outcome (runFetched w s source active location.isRemote)
    Work.onStore ({ · with durability := .normal })
    match result with
    | .ok report => return report
    | .error e => throw e

/-- Updates one source where it stands and puts the result in force. -/
def updateOne (w : World σ) (s : Setup) (id : Int) (task : Option String) (u : Updater σ) :
    Except Error Report × Updater σ :=
  Work.supervised task (runOne w s id) u

end Sinkhole.Update
