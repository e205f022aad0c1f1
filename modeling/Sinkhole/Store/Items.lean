import Sinkhole.Store.Sources
import Sinkhole.Order

/-! Items and generations: staging, carrying over, and what a commit leaves behind. -/
namespace Sinkhole.Store

/-! ### Items of one source -/

/-- Takes out a source's items, of one generation or of all. -/
def clearItems (s : Store) (source : Int) (generation : Option Int) : Store :=
  { s with items := s.items.filter fun i =>
      !(i.source == source && (generation.isNone || generation == some i.generation)) }

/-- Adds a batch of entries, all or none of them; a source has to be there to own them. -/
def insertItems (s : Store) (source generation : Int) (entries : List Entry) :
    Except Error Store :=
  if entries.isEmpty then .ok s
  else if s.knows source then
    .ok { s with items := s.items ++ entries.map (Item.ofEntry source generation) }
  else .error (.storage .unknownOwner)

/-- Adds one item as it is; its source has to be there. -/
def putItem (s : Store) (i : Item) : Except Error Store :=
  if s.knows i.source then .ok { s with items := s.items ++ [i] }
  else .error (.storage .unknownOwner)

/-- Copies a source's items of one generation into another, in place of what that one held,
and tells how many. -/
def carryForward (s : Store) (source old new : Int) : Nat × Store :=
  if old = new then (0, s)
  else
    let copies := (s.itemsOf source old).map ({ · with generation := new })
    (copies.length,
      { s with items := (s.items.filter (!·.isOf source new)) ++ copies })

/-- Moves a source's items of one generation into another, in place of what that one held,
and tells how many. -/
def promote (s : Store) (source staged new : Int) : Nat × Store :=
  let kept := s.items.filter (!·.isOf source new)
  ((kept.filter (·.isOf source staged)).length,
    { s with items := kept.map fun i =>
        if i.isOf source staged then { i with generation := new } else i })

def count (s : Store) (source generation : Int) : Nat := (s.itemsOf source generation).length

/-! ### Generations -/

/-- Makes a generation the active one and records what the run learned. -/
def commit (s : Store) (target : Int) (learned : List (Int × Metadata)) : Store :=
  learned.foldl (fun s (id, m) => s.updateMetadata id m) { s with active := target }

/-- Keeps the items that `keep` accepts and all of the user's. -/
def keepItems (s : Store) (keep : Item → Bool) : Nat × Store :=
  let kept := s.items.filter fun i => i.source == Source.userId || keep i
  (s.items.length - kept.length, { s with items := kept })

/-- Takes out the items of every generation but the active one, and tells how many. -/
def purge (s : Store) : Nat × Store := s.keepItems (·.generation == s.active)

/-- Takes out the items that runs staged and did not commit, and tells how many. -/
def discard (s : Store) : Nat × Store := s.keepItems (·.generation ≤ s.active)

/-! ### The user's entries -/

/-- The generation that the user's items are stored under; it has no meaning. -/
def userGeneration : Int := 0

def isUserItemFor (host : String) (i : Item) : Bool :=
  i.source == Source.userId && i.host == host

/-- Sets the user's entry for a host. -/
def addUser (s : Store) (e : Entry) : Except Error Store :=
  if s.knows Source.userId then
    .ok { s with items := (s.items.filter (!isUserItemFor e.host ·)) ++
      [Item.ofEntry Source.userId userGeneration e] }
  else .error (.storage .unknownOwner)

/-- Takes the user's entry for a host out, and tells whether there was one. -/
def removeUser (s : Store) (host : String) : Bool × Store :=
  (s.items.any (isUserItemFor host), { s with items := s.items.filter (!isUserItemFor host ·) })

/-- The user's items by host. -/
def userItems (s : Store) : List Item :=
  sortBy (fun a b => a.host ≤ b.host) (s.items.filter (·.source == Source.userId))

/-! ### Listing -/

/-- Order of optional texts, none first. -/
def targetLe : Option String → Option String → Bool
  | none, _ => true
  | some _, none => false
  | some a, some b => a ≤ b

/-- Order of listed items: by source, generation, host, kind, target, and enabled last. -/
def itemLe (a b : Item) : Bool :=
  if a.source != b.source then a.source < b.source
  else if a.generation != b.generation then a.generation < b.generation
  else if a.host != b.host then a.host < b.host
  else if a.kind != b.kind then a.kind < b.kind
  else if a.target != b.target then targetLe a.target b.target
  else !a.enabled || b.enabled

def listedItems (s : Store) : List Item := sortBy itemLe s.items

end Sinkhole.Store
