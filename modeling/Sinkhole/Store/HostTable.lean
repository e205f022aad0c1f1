import Sinkhole.Store.Items
import Sinkhole.Host.Pattern

/-! The host table: what each host comes to, over all active items.

An allow pattern beats a redirect, and a redirect beats a block. `sync` makes the
table anew in passes: the blocked hosts, less those that a pattern matches, and over
them the redirected hosts that no pattern matches, each with the target of the
source that was added last. If a host has to be matched with a pattern that is too
long for the database, that is an error and the table stays as it was. -/
namespace Sinkhole

/-- What a rebuild of the table came to. -/
structure Summary where
  blocked : Nat := 0
  allowPatterns : Nat := 0
  carvedOut : Nat := 0
  redirected : Nat := 0
  deriving DecidableEq, Repr

/-- Counts about the state that is in force. -/
structure Stats where
  active : Int
  blockedHosts : Nat
  redirectedHosts : Nat
  /-- Items in force by source, for the sources that have any. -/
  itemsPerSource : List (Int × Nat)
  deriving DecidableEq, Repr

namespace Store

/-- Whether an item counts: it and its source are enabled, and it is of the active generation
or the user's. -/
def isActive (s : Store) (i : Item) : Bool :=
  i.enabled && (i.generation == s.active || i.source == Source.userId) &&
    s.sources.any fun source => source.id == i.source && source.enabled

def activeItems (s : Store) (k : Kind) : List Item :=
  s.items.filter fun i => i.hasKind k && s.isActive i

/-! ### Hosts in order -/

/-- `host` in its place among distinct hosts in order. -/
def insertHost (host : String) : List String → List String
  | [] => [host]
  | h :: hs =>
    if host < h then host :: h :: hs
    else if host = h then h :: hs
    else h :: insertHost host hs

/-- The hosts in order, each once. -/
def distinct (hosts : List String) : List String := hosts.foldr insertHost []

/-- `row` in its place, instead of one for the same host. -/
def insertRow (row : HostRow) : List HostRow → List HostRow
  | [] => [row]
  | r :: rs =>
    if row.host < r.host then row :: r :: rs
    else if row.host = r.host then row :: rs
    else r :: insertRow row rs

/-! ### The passes -/

def blockedRows (s : Store) : List HostRow :=
  (distinct ((s.activeItems .blocked).map (·.host))).map
    fun host => { host, kind := Kind.blocked.number }

/-- A pattern behind the ones that were put aside before, unless it is one of them. -/
def addPattern (patterns : List (List Char)) (pattern : List Char) : List (List Char) :=
  if pattern ∈ patterns then patterns else patterns ++ [pattern]

/-- The patterns of all active allow items, as the table is matched with them. -/
def allowPatterns (s : Store) : List (List Char) :=
  ((distinct ((s.activeItems .allowed).map (·.host))).map fun p => Host.toLike p.toList).foldl
    addPattern []

/-- Whether some pattern matches a host. -/
def isAllowedBy (patterns : List (List Char)) (host : String) : Bool :=
  patterns.any (Host.isLike · host.toList)

/-- Tries one pattern after the other on a host until one matches; none if one of those tried is
too long. -/
def tryPatterns (patterns : List (List Char)) (host : String) : Option Bool :=
  patterns.anyM (Host.like · host.toList)

/-- Order of redirects: by host and, for one host, from the source added last. -/
def redirectLe (a b : Item) : Bool :=
  a.host < b.host || (a.host == b.host && b.source ≤ a.source)

/-- The redirects to apply, in their order. -/
def redirectItems (s : Store) (patterns : List (List Char)) : List Item :=
  sortBy redirectLe
    ((s.activeItems .redirected).filter fun i => i.target.isSome && !isAllowedBy patterns i.host)

/-- Whether the patterns are tried on the host of an item when redirects are looked for: that is
so before it is asked whether its source is enabled. -/
def isTried (s : Store) (i : Item) : Bool :=
  i.hasKind .redirected && i.enabled && i.target.isSome &&
    (i.generation == s.active || i.source == Source.userId) && s.knows i.source

/-- The hosts that the patterns are tried on. -/
def triedHosts (s : Store) : List String :=
  s.blockedRows.map (·.host) ++ (s.items.filter s.isTried).map (·.host)

/-- Whether the table cannot be made: a host comes upon a pattern that is too long before one
matches it. -/
def isRefused (s : Store) : Bool :=
  let patterns := s.allowPatterns
  s.triedHosts.any fun host => (tryPatterns patterns host).isNone

/-- The first of each stretch of items for one host. -/
def firstPerHost (previous : Option String) : List Item → List Item
  | [] => []
  | i :: rest =>
    if previous = some i.host then firstPerHost previous rest
    else i :: firstPerHost (some i.host) rest

/-- The row that a redirect puts into the table. -/
def redirectRow (i : Item) : HostRow :=
  { host := i.host, kind := Kind.redirected.number, target := i.target }

/-- The table that the active items come to where none of their patterns is too long, and the
counts of making it. -/
def rebuild (s : Store) : Summary × List HostRow :=
  let blocked := s.blockedRows
  let patterns := s.allowPatterns
  let kept := blocked.filter (!isAllowedBy patterns ·.host)
  let redirects := firstPerHost none (s.redirectItems patterns)
  ({ blocked := blocked.length
     allowPatterns := patterns.length
     carvedOut := blocked.length - kept.length
     redirected := redirects.length },
    redirects.foldl (fun table i => insertRow (redirectRow i) table) kept)

/-- Makes the table anew, if it can be made. -/
def sync (s : Store) : Except Error (Summary × Store) :=
  if s.isRefused then .error (.storage .patternTooLong)
  else
    let (summary, table) := s.rebuild
    .ok (summary, { s with table })

/-! ### Reading the table -/

/-- What is in force for a host, under any spelling of it; a host without a row is allowed. -/
def ruling (s : Store) (host : String) : Ruling :=
  match s.table.find? (·.host == Host.normalized host) with
  | some row => row.ruling
  | none => .allowed

def hostRulings (s : Store) : List (String × Ruling) := s.table.map fun r => (r.host, r.ruling)

/-- Writes one row, past all rules. -/
def putRow (s : Store) (row : HostRow) : Store := { s with table := insertRow row s.table }

def stats (s : Store) : Stats :=
  let rows (k : Kind) : Nat := (s.table.filter (·.kind == k.number)).length
  let held := s.items.filter fun i => i.generation == s.active || i.source == Source.userId
  let perSource := s.sources.map fun source =>
    (source.id, (held.filter (·.source == source.id)).length)
  { active := s.active
    blockedHosts := rows .blocked
    redirectedHosts := rows .redirected
    itemsPerSource := perSource.filter (·.2 > 0) }

end Store

end Sinkhole
