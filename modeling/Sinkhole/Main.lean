import Sinkhole.Command.Reach

/-! The program: a view of the disk is taken, the command is carried out on it, and what
has changed is written back.

Servers are out of reach from here: lists on the web fail like ones without a
connection. When a file was last changed does not show either, so every list in a
file counts as changed. -/
namespace Sinkhole.Main

/-! ### Looking -/

/-- What lies at a place, if anything; a file that cannot be read is none. -/
def look (path : String) : IO (Option Node) := do
  try
    let bytes := (← IO.FS.readBinFile path).toList
    return match Store.Archive.read? bytes with
      | some s => some (.store s)
      | none => some (.file bytes none)
  catch
    | .inappropriateType _ 21 _ => return some .folder
    | _ => return none

/-- A view of a disk with more places on it. -/
def seen (d : Disk) : List Trail → IO Disk
  | [] => return d
  | place :: rest => do
    if (d.at? place).isSome then seen d rest
    else match ← look place.path with
      | some node => seen (d.put place node) rest
      | none => seen d rest

def seenPaths (d : Disk) (paths : List String) : IO Disk :=
  seen d ((paths.filter (!·.isEmpty)).flatMap fun path => (d.trail path).stages)

/-- A view of all that a command may look at: each look tells where to look next. -/
def view (i : Invocation) (here : Trail) : IO Disk := do
  let rec go : Nat → Disk → IO Disk
    | 0, d => return d
    | n + 1, d => do go n (← seenPaths d (i.paths d))
  go 3 { here }

/-! ### Writing -/

def store (place : Trail) : Node → IO Unit
  | .folder => IO.FS.createDirAll place.path
  | .file content _ => IO.FS.writeBinFile (place.path ++ ".new") ⟨content.toArray⟩ *>
      IO.FS.rename (place.path ++ ".new") place.path
  | .store s => IO.FS.writeBinFile (place.path ++ ".new") ⟨(Store.Archive.write s).toArray⟩ *>
      IO.FS.rename (place.path ++ ".new") place.path

/-- Writes what is on a disk and was not on it before, folders before what is in them. -/
def writeBack (before after : Disk) : IO Unit :=
  (sortBy (fun a b => decide (a.1.length ≤ b.1.length)) after.nodes).forM fun (place, node) =>
    if before.at? place = some node then return () else store place node

/-! ### The lock -/

/-- Locks a file, which is made if it is not there; nothing if someone else has it locked. -/
def lock (path : String) : IO (Option IO.FS.Handle) := do
  let handle ← IO.FS.Handle.mk path .append
  return if ← handle.tryLock then some handle else none

/-- The disk as a command finds it, the lock being taken if the command comes to need it. -/
def prepare (o : Command.Surroundings) (i : Invocation) (here : Trail) :
    IO (Disk × Option IO.FS.Handle) := do
  let d ← view i here
  match i.lockPath? d with
  | none => return (d, none)
  | some path =>
    let rehearsed := (i.run o d).2
    if rehearsed.holds path then
      (Trail.stages (rehearsed.trail path).dropLast).forM fun place =>
        if (d.at? place).isSome then return () else IO.FS.createDirAll place.path
      match ← lock path with
      | some handle => return (← view i here, some handle)
      | none =>
        let d ← view i here
        return ({ d with locked := [d.trail path] }, none)
    else return (d, none)

/-! ### The program -/

/-- The memory of this machine, as its table tells. -/
def machine : IO Machine := do
  let table ← try IO.FS.readFile "/proc/meminfo" catch _ => pure ""
  return ⟨1, (readMemory? table.toList).getD (1024 * mebibyte)⟩

def surroundings : IO Command.Surroundings := do
  return {
    machine := ← machine
    world := Disk.world (fun _ => .error .unreachable) (fun _ => false) }

def finish (o : Command.Outcome) : IO UInt32 := do
  (← IO.getStdout).putStr o.output
  (← IO.getStderr).putStr o.complaint
  return UInt32.ofNat o.status

def carryOut (i : Invocation) : IO UInt32 := do
  let o ← surroundings
  let here := Path.names (toString (← IO.currentDir)).toList
  let (d, handle) ← prepare o i here
  let (result, after) := i.run o d
  writeBack d after
  if let some handle := handle then handle.unlock
  finish (Command.outcomeOf result)

end Sinkhole.Main

open Sinkhole in
def main (arguments : List String) : IO UInt32 :=
  match Invocation.ofArguments arguments with
  | .error mistake => Main.finish mistake.outcome
  | .ok i => Main.carryOut i
