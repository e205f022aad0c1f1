import Sinkhole.Command.Basic
import Sinkhole.Command.Job
import Sinkhole.Store.HostTable

/-! The user's own entries. They take effect at once: the table is made anew after
every change, without fetching anything. -/
namespace Sinkhole.Command

def entryLine (i : Item) : String :=
  match i.shownKind, i.shownTarget? with
  | .redirected, some a => "  redirect  " ++ i.host ++ " -> " ++ a.text
  | .allowed, _ => "  allow     " ++ i.host
  | _, _ => "  block     " ++ i.host

def entryList (items : List Item) : List String :=
  if items.isEmpty then ["", "No user entries.", ""]
  else ["", "User entries (" ++ toString items.length ++ "):"] ++ items.map entryLine ++ [""]

def entryText : Entry → String
  | .blocked host => "Blocking " ++ host
  | .allowed pattern => "Allowing " ++ pattern
  | .redirected host a => "Redirecting " ++ host ++ " to " ++ a.text

/-- A typed-in host or pattern in the form it is stored in, if it may be stored. -/
def typedHost (text : String) (wildcards : Bool) : Job String := do
  let host := Host.normalized text
  Job.ofResult .badHost (Host.check host wildcards)
  return host

def setEntry (c : Config) (s : Store) (e : Entry) : Job (List String) :=
  Job.holding c.lockPath do
    let s ← Job.ofResult .lists (s.addUser e)
    Job.saveStore c s
    let (summary, s) ← Job.ofResult .lists s.sync
    Job.saveStore c s
    return ["[OK] " ++ entryText e,
      "     " ++ toString summary.blocked ++ " hosts blocked, " ++ toString summary.redirected ++
        " redirected"]

def removeEntry (c : Config) (s : Store) (host : String) : Job (List String) :=
  Job.holding c.lockPath do
    let (removed, s) := s.removeUser host
    if !removed then throw (.noUserEntry host)
    Job.saveStore c s
    let (_, s) ← Job.ofResult .lists s.sync
    Job.saveStore c s
    return ["[OK] Removed user entry '" ++ host ++ "'"]

def runUser (path : String) (command : UserCommand) : Job (List String) := do
  let c ← Job.loadConfig path
  let s ← Job.openStore c
  match command with
  | .list => return entryList s.userItems
  | .remove host => removeEntry c s (Host.normalized host)
  | .block host => setEntry c s (.blocked (← typedHost host false))
  | .allow pattern => setEntry c s (.allowed (← typedHost pattern true))
  | .redirect host a => setEntry c s (.redirected (← typedHost host false) a)

end Sinkhole.Command
