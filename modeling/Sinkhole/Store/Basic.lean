import Sinkhole.Source.Basic

/-! The store: sources, list items by source and generation, and the host table.

Items belong to a source and a generation. One generation is the active one, whose
items the table is made from; a run stages its items under the next and makes that
the active one when it commits. What the user typed in belongs to a source of its
own and to no generation in particular. Every write is one step from a store to a
store, and a write that is refused has no store to show for it. -/
namespace Sinkhole

/-- An item of a list, its kind as a number and its target as text. -/
structure Item where
  source : Int
  generation : Int
  host : String
  kind : Int
  target : Option String := none
  enabled : Bool := true
  deriving DecidableEq, Repr

namespace Item

def ofEntry (source generation : Int) (e : Entry) : Item :=
  { source, generation, host := e.host, kind := e.kind.number,
    target := e.target?.map Address.text }

def isOf (i : Item) (source generation : Int) : Bool :=
  i.source == source && i.generation == generation

/-- The number of a kind, as `Kind.number` gives it. -/
def hasKind (i : Item) (k : Kind) : Bool := i.kind == k.number

/-- The kind an item is shown as; a number without meaning blocks. -/
def shownKind (i : Item) : Kind := (Kind.ofNumber? i.kind).getD .blocked

/-- The target an item is shown with, if it is an address. -/
def shownTarget? (i : Item) : Option Address := i.target.bind Address.ofText?

end Item

/-- A row of the host table. -/
structure HostRow where
  host : String
  kind : Int
  target : Option String := none
  deriving DecidableEq, Repr

def HostRow.ruling (r : HostRow) : Ruling := Ruling.ofStored r.kind r.target

/-- How far a write has gone when it is reported as done. -/
inductive Durability where
  | full
  | normal
  | relaxed
  deriving DecidableEq, Repr

def Durability.level : Durability → Nat
  | relaxed => 0
  | normal => 1
  | full => 2

/-- Everything that is kept between runs. -/
structure Store where
  /-- By ascending id. -/
  sources : List Source
  /-- The highest id ever given out. -/
  lastId : Int
  items : List Item
  /-- By ascending host, one row a host. -/
  table : List HostRow
  active : Int
  durability : Durability := .full
  deriving DecidableEq, Repr

namespace Store

def userSource : Source :=
  { id := Source.userId, label := "User entries", location := Location.userText }

/-- A new store holds only the user's source. -/
def empty : Store :=
  { sources := [userSource], lastId := Source.userId, items := [], table := [], active := 0 }

/-- The store as a new connection finds it. -/
def reopened (s : Store) : Store := { s with durability := .full }

/-- The items of one source in one generation. -/
def itemsOf (s : Store) (source generation : Int) : List Item :=
  s.items.filter (·.isOf source generation)

def knows (s : Store) (id : Int) : Bool := s.sources.any (·.id == id)

end Store

end Sinkhole
