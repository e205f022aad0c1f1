import Sinkhole.Command.Failure
import Sinkhole.Update.Settling

/-! Jobs on a disk: getting at the configuration, the store and the lock.

Whoever opens the store registers the configured sources in it first, so the
configuration has the last word on them. Whoever writes to the store holds the lock
beside it meanwhile; the file that is locked stays behind. -/
namespace Sinkhole

/-- The parts of a command: they change the disk and may fail, and what they did before stays
done. -/
abbrev Job (α : Type) := ExceptT Failure (StateM Disk) α

namespace Job

variable {α : Type}

/-- A result, or the failure that its fault comes to. -/
def ofResult {ε : Type} (failure : ε → Failure) : Except ε α → Job α
  | .ok a => return a
  | .error e => throw (failure e)

/-! ### The configuration -/

/-- The configuration that a disk holds at a path; the standard one where there is none. -/
def configOn (d : Disk) (path : String) : Except LoadFault Config :=
  if d.holds path then Config.load path ((d.read path).mapError DiskFault.text)
  else .ok Config.standard

def loadConfig (path : String) : Job Config := do
  ofResult (.badConfig path) (configOn (← get) path)

/-- Saves a configuration, but only where there was one before. -/
def saveConfig (path : String) (c : Config) : Job Unit :=
  modify fun d => if d.holds path then d.save path (Text.encode c.text) else d

/-! ### The store -/

/-- Whether a database of this name lasts no longer than it is open. -/
def isPassing (database : String) : Bool := database.isEmpty || database == ":memory:"

/-- The store at a path; a new one where there is nothing yet. -/
def storeAt (d : Disk) (database : String) : Except Error Store :=
  match d.find database with
  | .ok (.store s) => .ok s.reopened
  | .ok (.file content _) =>
    if content.length ≤ 1 then .ok Store.empty else .error (.storage .notAStore)
  | .ok .folder => .error (.storage (.unopenable database))
  | .error _ => .ok Store.empty

/-- Opens a store and leaves it on the disk, if it is one that lasts. -/
def openOn (d : Disk) (database : String) : Except Error (Store × Disk) :=
  if isPassing database then .ok (Store.empty, d)
  else match d.makeParent database with
    | .error e => .error (.io e.text)
    | .ok d =>
      match storeAt d database with
      | .error e => .error e
      | .ok s => .ok (s, d.put (d.trail database) (.store s))

def saveStore (c : Config) (s : Store) : Job Unit :=
  modify fun d => if isPassing c.database then d else d.put (d.trail c.database) (.store s)

/-- Opens the store with the configured sources registered. -/
def openStore (c : Config) : Job Store := do
  let (s, d) ← ofResult (.noStore c.database) (openOn (← get) c.database)
  set d
  let s := s.upsertAll c.sources
  saveStore c s
  return s

/-! ### The lock -/

/-- Takes the lock at a path, if nobody has it. -/
def lockOn (d : Disk) (path : String) : Except LockFault Disk :=
  let folder := String.ofList ((Path.parent? path.toList).getD [])
  match d.makeParent path with
  | .error e => .error (.noFolder folder e)
  | .ok d =>
    let place := d.trail path
    match d.find path with
    | .ok .folder => .error (.unopenable path .isAFolder)
    | .ok _ =>
      if d.locked.contains place then .error (.taken path)
      else .ok { d with locked := place :: d.locked }
    | .error .missing => .ok { d.save path [] with locked := place :: d.locked }
    | .error e => .error (.unopenable path e)

/-- `job` under the lock at a path, which is free again whatever comes of it. -/
def holding (path : String) (job : Job α) : Job α := ExceptT.mk do
  let place := (← get).trail path
  match lockOn (← get) path with
  | .error e => return .error (.locked e)
  | .ok d =>
    set d
    let result ← job.run
    modify fun d => { d with locked := d.locked.erase place }
    return result

/-- `job` on the store that a configuration names, under the lock beside it. -/
def writing (c : Config) (job : Store → Job α) : Job α :=
  holding c.lockPath do job (← openStore c)

end Job

end Sinkhole
