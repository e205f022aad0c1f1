import Sinkhole.Command.Basic
import Sinkhole.Command.Job
import Sinkhole.Store.HostTable
import Sinkhole.Text.Amount

/-! Listing and editing the sources.

What is changed about a source in the store is changed in the configuration file as
well, if there is one and it names the source: otherwise the next opening of the
store would undo it. -/
namespace Sinkhole.Command

open Text

def checkedMark (b : Bool) : String := if b then "[x]" else "[ ]"

/-! ### The list -/

/-- What a source's lines do to hosts, in a word. -/
def effectName (allowList redirects : Bool) : String :=
  if allowList then "allow" else if redirects then "block+redirect" else "block"

def sourceLines (s : Source) : List String :=
  let kind := if s.isUser then "user" else effectName s.allowList s.redirects
  let head := "  " ++ checkedMark s.enabled ++ " " ++ padStart 3 ' ' (toString s.id) ++ " " ++
    padEnd 28 (abridged 28 s.label) ++ " " ++ padEnd 14 kind ++ " " ++ abridged 60 s.location
  let times := "          applied " ++ Time.tableText (s.appliedModified.map .ofMicros) ++
    ", upstream " ++ Time.tableText (s.remoteModified.map .ofMicros)
  if s.isUser then [head] else [head, times]

def sourceList (sources : List Source) : List String :=
  ["", "List sources (" ++ toString sources.length ++ " total):"] ++
    sources.flatMap sourceLines ++ [""]

/-! ### Edits -/

/-- `edit` on the part of a list from the first registration at a location on, if there is
one. -/
def editAt (location : String) (edit : Registration → List Registration → List Registration) :
    List Registration → Option (List Registration)
  | [] => none
  | r :: rest =>
    if trimmed r.location = location then some (edit r rest)
    else (editAt location edit rest).map (r :: ·)

/-- Edits what the configuration file says about the source at a location. -/
def editConfig (path : String) (c : Config) (location : String)
    (edit : Registration → List Registration → List Registration) : Job Unit :=
  match editAt location edit c.sources with
  | some edited => Job.saveConfig path { c with sources := edited }
  | none => return ()

/-- Adds a source, or gives the one at the same location a new registration. -/
def addSource (path : String) (r : Registration) : Job (List String) := do
  if !Location.isSupported r.location then throw (.unsupportedLocation r.location)
  if r.allowList && r.redirects then throw .redirectingAllowList
  let c ← Job.loadConfig path
  Job.writing c fun s => do
    let (id, s) := s.upsert r
    Job.saveStore c s
    if !c.sources.any (·.location == r.location) then
      Job.saveConfig path { c with sources := c.sources ++ [r] }
    return ["[OK] Added source " ++ toString id ++ " '" ++ r.label ++ "'",
      "     Run 'hostsieve update' to fetch it"]

/-- Removes a source with its items; its hosts leave the table at once. -/
def removeSource (path : String) (id : Int) : Job (List String) := do
  let c ← Job.loadConfig path
  Job.writing c fun s => do
    let source ← Job.ofResult .lists (s.source id)
    let s ← Job.ofResult .lists (s.remove id)
    Job.saveStore c s
    editConfig path c source.location fun _ rest => rest
    let (_, s) ← Job.ofResult .lists s.sync
    Job.saveStore c s
    return ["[OK] Removed source " ++ toString id ++ " '" ++ source.label ++ "'"]

def enablingText (id : Int) (label : String) (enabled : Bool) : List String :=
  ["[OK] " ++ (if enabled then "Enabled" else "Disabled") ++ " source " ++ toString id ++ " '" ++
      label ++ "'",
    "     Run 'hostsieve update' to apply changes"]

/-- Enables or disables a source; the table follows with the next update. -/
def setSourceEnabled (path : String) (id : Int) (enabled : Bool) : Job (List String) := do
  let c ← Job.loadConfig path
  Job.writing c fun s => do
    let source ← Job.ofResult .lists (s.source id)
    if source.enabled = enabled then
      return ["Source " ++ toString id ++ " '" ++ source.label ++ "' is already " ++
        (if enabled then "enabled" else "disabled")]
    else
      Job.saveStore c (← Job.ofResult .lists (s.setEnabled id enabled))
      editConfig path c source.location fun r rest => { r with enabled } :: rest
      return enablingText id source.label enabled

def runSources (path : String) : SourcesCommand → Job (List String)
  | .list => do return sourceList (← Job.openStore (← Job.loadConfig path)).sources
  | .add location label allow redirects disabled =>
    addSource path
      { label := label.getD location, location, enabled := !disabled, allowList := allow, redirects }
  | .remove id => removeSource path id
  | .enable id => setSourceEnabled path id true
  | .disable id => setSourceEnabled path id false

end Sinkhole.Command
