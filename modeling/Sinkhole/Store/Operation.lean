import Sinkhole.Store.HostTable

/-! What is asked of a store, statement by statement.

A connection carries out one statement after another, and what one has done stays done
when a later one is refused. Statements that belong together are carried out in a
transaction: if one of them is refused, all is as it was before the first. An operation
is a few statements, and tells what came of it. -/
namespace Sinkhole.Store

/-! ### Statements -/

/-- Statements in order; the first one that is refused is the last. -/
abbrev Session (α : Type) := ExceptT Error (StateM Store) α

namespace Session

variable {α : Type}

/-- What comes of the statements, and the store after them. -/
def on (work : Session α) (s : Store) : Except Error α × Store := (work.run).run s

/-- A statement that cannot be refused. -/
def write (f : Store → Store) : Session Unit := modify f

/-- A statement that can be. -/
def attempt (f : Store → Except Error (α × Store)) : Session α := do
  match f (← get) with
  | .ok (a, s) =>
    set s
    return a
  | .error e => throw e

/-- All of the statements or none of them. -/
def together (work : Session α) : Session α := do
  let before ← get
  tryCatch work fun e => do
    set before
    throw e

/-- Takes out the items that `p` takes, and tells how many. -/
def deleteItems (p : Item → Bool) : Session Nat := do
  let removed := (← get).items.filter p
  write fun s => { s with items := s.items.filter (!p ·) }
  return removed.length

/-- Adds an item; there has to be a source that it belongs to. -/
def insertItem (i : Item) : Session Unit := attempt fun s => (s.putItem i).map ((), ·)

/-- Takes a source out, and its items with it, and tells how many sources that were. -/
def deleteSource (id : Int) : Session Nat := do
  let removed := (← get).sources.filter (·.id == id)
  write fun s => { s with
    sources := s.sources.filter (·.id != id)
    items := s.items.filter fun i => !removed.any (·.id == i.source) }
  return removed.length

/-- Changes the source with an id, and tells how many sources that were. -/
def updateSource (id : Int) (f : Source → Source) : Session Nat := do
  let changed := (← get).sources.filter (·.id == id)
  write (·.modifySource id f)
  return changed.length

/-- The items of a source in one generation once more, in another. -/
def copyItems (source old new : Int) : Session Nat := do
  let copies := ((← get).itemsOf source old).map ({ · with generation := new })
  write fun s => { s with items := s.items ++ copies }
  return copies.length

/-- The items of a source in one generation are in another from now on. -/
def moveItems (source staged new : Int) : Session Nat := do
  let moved := (← get).itemsOf source staged
  write fun s => { s with
    items := s.items.map fun i => if i.isOf source staged then { i with generation := new } else i }
  return moved.length

/-- Fails if nothing was there to change. -/
def ensure (changed : Nat) (e : Error) : Session Unit :=
  if changed = 0 then throw e else return ()

/-- Those of `xs` whose host no pattern matches, as a statement finds them that tries the patterns
on each; none if one that is tried is too long. -/
def unmatched {α : Type} (patterns : List (List Char)) (host : α → String) :
    List α → Option (List α)
  | [] => some []
  | x :: xs => do
    let matched ← tryPatterns patterns (host x)
    let rest ← unmatched patterns host xs
    return if matched then rest else x :: rest

/-- What a statement found, unless a pattern was too long for it. -/
def found (result : Option α) : Session α :=
  match result with
  | some a => return a
  | none => throw (.storage .patternTooLong)

/-- The passes of a rebuild, over an empty table. -/
def rebuildTable : Session Summary := do
  write ({ · with table := [] })
  write fun s => { s with table := s.blockedRows }
  let s ← get
  let kept ← found (unmatched s.allowPatterns (·.host) s.table)
  write ({ · with table := kept })
  let free ← found (unmatched s.allowPatterns (·.host) (s.items.filter s.isTried))
  let redirects := firstPerHost none (sortBy redirectLe (free.filter s.isActive))
  redirects.forM fun i => write (·.putRow (redirectRow i))
  return {
    blocked := s.table.length
    allowPatterns := s.allowPatterns.length
    carvedOut := s.table.length - kept.length
    redirected := redirects.length }

end Session

/-! ### Operations -/

/-- What can be asked of a store. -/
inductive Operation where
  | add (r : Registration)
  | upsert (r : Registration)
  | remove (id : Int)
  | setEnabled (id : Int) (enabled : Bool)
  | clearCache (id : Int)
  | setRemoteModified (id : Int) (at? : Option Time.Instant)
  | updateMetadata (id : Int) (learned : Metadata)
  | insertItems (source generation : Int) (entries : List Entry)
  | clearItems (source : Int) (generation : Option Int)
  | carryForward (source old new : Int)
  | promote (source staged new : Int)
  | commit (target : Int) (learned : List (Int × Metadata))
  | purge
  | discard
  | addUser (e : Entry)
  | removeUser (host : String)
  | sync

/-- What an operation tells. -/
inductive Answer where
  | done
  | id (id : Int)
  | count (items : Nat)
  | found (found : Bool)
  | summary (summary : Summary)
  deriving DecidableEq, Repr

namespace Operation

open Session

/-- Whether an item is one that a source has in a generation, or in any. -/
def ofSource (source : Int) (generation : Option Int) (i : Item) : Bool :=
  i.source == source && (generation.isNone || generation == some i.generation)

/-- The statements of an operation. -/
def carryOut : Operation → Session Answer
  | add r => return .id (← attempt (·.add r))
  | upsert r => return .id (← attempt fun s => .ok (s.upsert r))
  | remove id =>
    if id = Source.userId then throw (.permanentSource id)
    else do
      ensure (← deleteSource id) (.unknownSource id)
      return .done
  | setEnabled id enabled => do
    ensure (← updateSource id ({ · with enabled })) (.unknownSource id)
    return .done
  | clearCache id => do
    write (·.clearCache id)
    return .done
  | setRemoteModified id at? => do
    write (·.setRemoteModified id at?)
    return .done
  | updateMetadata id learned => do
    write (·.updateMetadata id learned)
    return .done
  | insertItems source generation entries =>
    if entries.isEmpty then return .count 0
    else do
      together (entries.forM fun e => insertItem (Item.ofEntry source generation e))
      return .count entries.length
  | clearItems source generation => return .count (← deleteItems (ofSource source generation))
  | carryForward source old new =>
    if old = new then return .count 0
    else return .count (← together do
      let _ ← deleteItems (·.isOf source new)
      copyItems source old new)
  | promote source staged new =>
    return .count (← together do
      let _ ← deleteItems (·.isOf source new)
      moveItems source staged new)
  | commit target learned => do
    together do
      write ({ · with active := target })
      learned.forM fun (id, m) => write (·.updateMetadata id m)
    return .done
  | purge => do
    let active := (← get).active
    return .count (← deleteItems fun i => i.generation != active && i.source != Source.userId)
  | discard => do
    let active := (← get).active
    return .count (← deleteItems fun i =>
      decide (active < i.generation) && i.source != Source.userId)
  | addUser e => do
    together do
      let _ ← deleteItems (isUserItemFor e.host)
      insertItem (Item.ofEntry Source.userId userGeneration e)
    return .done
  | removeUser host => return .found (decide (0 < (← deleteItems (isUserItemFor host))))
  | sync => return .summary (← together rebuildTable)

/-- What comes of an operation in one go. -/
def apply (s : Store) : Operation → Except Error (Answer × Store)
  | add r => (s.add r).map fun (id, s) => (.id id, s)
  | upsert r => .ok (.id (s.upsert r).1, (s.upsert r).2)
  | remove id => (s.remove id).map (.done, ·)
  | setEnabled id enabled => (s.setEnabled id enabled).map (.done, ·)
  | clearCache id => .ok (.done, s.clearCache id)
  | setRemoteModified id at? => .ok (.done, s.setRemoteModified id at?)
  | updateMetadata id learned => .ok (.done, s.updateMetadata id learned)
  | insertItems source generation entries =>
    (s.insertItems source generation entries).map (.count entries.length, ·)
  | clearItems source generation =>
    .ok (.count (s.items.filter (ofSource source generation)).length,
      s.clearItems source generation)
  | carryForward source old new =>
    .ok (.count (s.carryForward source old new).1, (s.carryForward source old new).2)
  | promote source staged new =>
    .ok (.count (s.promote source staged new).1, (s.promote source staged new).2)
  | commit target learned => .ok (.done, s.commit target learned)
  | purge => .ok (.count s.purge.1, s.purge.2)
  | discard => .ok (.count s.discard.1, s.discard.2)
  | addUser e => (s.addUser e).map (.done, ·)
  | removeUser host => .ok (.found (s.removeUser host).1, (s.removeUser host).2)
  | sync => s.sync.map fun (summary, s) => (.summary summary, s)

end Operation

end Sinkhole.Store
