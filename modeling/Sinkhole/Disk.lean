import Sinkhole.Path
import Sinkhole.World

/-! The disk: folders, files and stores in a tree.

A path leads from the root or from the working folder down to a place. Everything on
the way has to be a folder, and a place where nothing is can be filled once the
folder around it is there. Files can be locked; a lock is on the file and goes with
it. -/
namespace Sinkhole

/-- The names on the way from the root to a place. -/
abbrev Trail := List (List Char)

/-- What can be at a place: a folder, a file with its content, or a file that holds a store. -/
inductive Node where
  | folder
  | file (content : List UInt8) (modified : Option Time.Instant)
  | store (s : Store)
  deriving DecidableEq, Repr

/-- Why the system refuses. -/
inductive DiskFault where
  | missing
  | occupied
  | notAFolder
  | isAFolder
  deriving DecidableEq, Repr

def DiskFault.text : DiskFault → String
  | missing => "No such file or directory (os error 2)"
  | occupied => "File exists (os error 17)"
  | notAFolder => "Not a directory (os error 20)"
  | isAFolder => "Is a directory (os error 21)"

/-- The files and folders, and which of them somebody has locked. -/
structure Disk where
  nodes : List (Trail × Node) := []
  locked : List Trail := []
  /-- The working folder. -/
  here : Trail := []
  /-- What the clock shows whenever something is saved. -/
  now : Option Time.Instant := none
  deriving DecidableEq, Repr

namespace Disk

/-! ### Places -/

/-- One name further; two points lead back. -/
def step (place : Trail) (name : List Char) : Trail :=
  if name = ['.', '.'] then place.dropLast else place ++ [name]

/-- The place that a path leads to. -/
def trail (d : Disk) (path : String) : Trail :=
  let cs := path.toList
  (Path.names cs).foldl step (if Path.isAbsolute cs then [] else d.here)

/-- What lies at a place; the root is always there. -/
def at? (d : Disk) (place : Trail) : Option Node :=
  if place.isEmpty then some .folder else d.nodes.lookup place

/-- What lies at the end of `rest` from a place on. -/
def findFrom (d : Disk) (place : Trail) : Trail → Except DiskFault Node
  | [] =>
    match d.at? place with
    | some node => .ok node
    | none => .error .missing
  | name :: rest =>
    match d.at? place with
    | some .folder => d.findFrom (place ++ [name]) rest
    | some _ => .error .notAFolder
    | none => .error .missing

/-- What lies where a path leads; the empty path leads nowhere. -/
def find (d : Disk) (path : String) : Except DiskFault Node :=
  if path.isEmpty then .error .missing else d.findFrom [] (d.trail path)

def holds (d : Disk) (path : String) : Bool :=
  match d.find path with
  | .ok _ => true
  | .error _ => false

/-! ### Reading -/

/-- The bytes of a file. -/
def read (d : Disk) (path : String) : Except DiskFault (List UInt8) := do
  match ← d.find path with
  | .folder => throw .isAFolder
  | .file content _ => return content
  | .store _ => return []

/-- The facts about a file, or the reason why there are none. -/
def facts (d : Disk) (path : String) : Except String FileFacts :=
  match d.find path with
  | .error e => .error e.text
  | .ok .folder => .error (path ++ " is not a regular file")
  | .ok (.file content modified) => .ok { modified, size := content.length }
  | .ok (.store _) => .ok { modified := d.now, size := 0 }

/-! ### Writing -/

/-- Puts something at a place, instead of what lies there. -/
def put (d : Disk) (place : Trail) (node : Node) : Disk :=
  { d with nodes := (place, node) :: d.nodes.filter (·.1 != place) }

/-- Makes what folders are missing on the way from a place to the end of `rest`. -/
def makeFolders (d : Disk) (place : Trail) : Trail → Except DiskFault Disk
  | [] => .ok d
  | name :: rest =>
    let next := place ++ [name]
    match d.at? next with
    | some .folder => d.makeFolders next rest
    | some _ => .error (if rest.isEmpty then .occupied else .notAFolder)
    | none => (d.put next .folder).makeFolders next rest

/-- Makes the folder that a path is in, if the path tells one. -/
def makeParent (d : Disk) (path : String) : Except DiskFault Disk :=
  match Path.parent? path.toList with
  | none => .ok d
  | some [] => .ok d
  | some parent => d.makeFolders [] (d.trail (String.ofList parent))

/-- Saves a file where a path leads. -/
def save (d : Disk) (path : String) (content : List UInt8) : Disk :=
  d.put (d.trail path) (.file content d.now)

/-- Takes a file away, with the lock on it, and tells whether there was one. -/
def remove (d : Disk) (path : String) : Bool × Disk :=
  match d.find path with
  | .ok .folder => (false, d)
  | .ok _ =>
    let place := d.trail path
    (true, { d with nodes := d.nodes.filter (·.1 != place), locked := d.locked.filter (· != place) })
  | .error _ => (false, d)

/-! ### A world with a disk -/

/-- The world of a disk and of a network, which nothing on the disk has a part in. -/
def world (exchange : Fetch.Request → Except NetworkFault Fetch.Response)
    (resolves : List Char → Bool) : World Disk :=
  { facts := fun path d => { answer := d.facts path, world := d }
    openFile := fun path d =>
      { answer := match d.read path with
          | .ok bytes => .ok { reading := { bytes } }
          | .error e => .error e.text
        world := d }
    exchange := fun request d => { answer := exchange request, world := d }
    resolves }

end Disk

end Sinkhole
