import Sinkhole.Store.Items
import Sinkhole.Json.Printer
import Sinkhole.Json.Reader

/-! Stores as files: everything a store holds, as JSON. -/
namespace Sinkhole.Store.Archive

open Sinkhole.Text (encode decode? natural?)

/-! ### Values of fields -/

def textOf? : Json → Option String
  | .text s => some s
  | _ => none

def flagOf? : Json → Option Bool
  | .flag b => some b
  | _ => none

def wholeOf? : Json → Option Int
  | .number digits =>
    match digits.toList with
    | '-' :: cs => (natural? cs).map fun n => -(n : Int)
    | cs => (natural? cs).map fun n => (n : Int)
  | _ => none

/-- `read` of a value that null may stand for. -/
def optionOf? {α : Type} (read : Json → Option α) : Json → Option (Option α)
  | .null => some none
  | j => (read j).map some

def listOf? {α : Type} (read : Json → Option α) : Json → Option (List α)
  | .list items => items.mapM read
  | _ => none

def get? {α : Type} (j : Json) (name : String) (read : Json → Option α) : Option α :=
  (j.field? name).bind read

/-! ### Writing -/

def sourceData (s : Source) : Json :=
  .record
    [("id", .ofInt s.id), ("label", .text s.label), ("location", .text s.location),
      ("enabled", .flag s.enabled), ("allow_list", .flag s.allowList),
      ("redirects", .flag s.redirects), ("entity_tag", .ofOption .text s.entityTag),
      ("remote_modified", .ofOption .ofInt s.remoteModified),
      ("applied_modified", .ofOption .ofInt s.appliedModified), ("size_hint", .ofNat s.sizeHint)]

def itemData (i : Item) : Json :=
  .record
    [("source", .ofInt i.source), ("generation", .ofInt i.generation), ("host", .text i.host),
      ("kind", .ofInt i.kind), ("target", .ofOption .text i.target), ("enabled", .flag i.enabled)]

def rowData (r : HostRow) : Json :=
  .record
    [("host", .text r.host), ("kind", .ofInt r.kind), ("target", .ofOption .text r.target)]

/-- The mark that a file holds a store. -/
def mark : String := "host store 1"

def write (s : Store) : List UInt8 :=
  encode (Json.record
    [("format", .text mark), ("sources", .list (s.sources.map sourceData)),
      ("last_id", .ofInt s.lastId), ("items", .list (s.items.map itemData)),
      ("table", .list (s.table.map rowData)), ("active", .ofInt s.active)]).pretty

/-! ### Reading -/

def source? (j : Json) : Option Source := do
  return {
    id := ← get? j "id" wholeOf?
    label := ← get? j "label" textOf?
    location := ← get? j "location" textOf?
    enabled := ← get? j "enabled" flagOf?
    allowList := ← get? j "allow_list" flagOf?
    redirects := ← get? j "redirects" flagOf?
    entityTag := ← get? j "entity_tag" (optionOf? textOf?)
    remoteModified := ← get? j "remote_modified" (optionOf? wholeOf?)
    appliedModified := ← get? j "applied_modified" (optionOf? wholeOf?)
    sizeHint := (← get? j "size_hint" wholeOf?).toNat }

def item? (j : Json) : Option Item := do
  return {
    source := ← get? j "source" wholeOf?
    generation := ← get? j "generation" wholeOf?
    host := ← get? j "host" textOf?
    kind := ← get? j "kind" wholeOf?
    target := ← get? j "target" (optionOf? textOf?)
    enabled := ← get? j "enabled" flagOf? }

def row? (j : Json) : Option HostRow := do
  return {
    host := ← get? j "host" textOf?
    kind := ← get? j "kind" wholeOf?
    target := ← get? j "target" (optionOf? textOf?) }

/-- The store that a file holds, if it holds one. -/
def read? (bytes : List UInt8) : Option Store := do
  let j ← Json.read? (← decode? bytes)
  if (← get? j "format" textOf?) ≠ mark then none
  else return {
    sources := ← get? j "sources" (listOf? source?)
    lastId := ← get? j "last_id" wholeOf?
    items := ← get? j "items" (listOf? item?)
    table := ← get? j "table" (listOf? row?)
    active := ← get? j "active" wholeOf? }

end Sinkhole.Store.Archive
