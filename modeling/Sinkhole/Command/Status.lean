import Sinkhole.Command.Sources
import Sinkhole.Json.Printer

/-! What the store holds: as a table for people or as data. -/
namespace Sinkhole.Command

open Text

/-- How many of a source's items are in force. -/
def itemsOf (stats : Stats) (s : Source) : Nat := (stats.itemsPerSource.lookup s.id).getD 0

/-! ### As a table -/

def statusLine (stats : Stats) (s : Source) : String :=
  "  " ++ checkedMark s.enabled ++ " " ++ padStart 3 ' ' (toString s.id) ++ " " ++
    padEnd 32 (abridged 32 s.label) ++ " " ++ padEnd 14 (effectName s.allowList s.redirects) ++
    " " ++ padStart 10 ' ' (separatedCount (itemsOf stats s)) ++ " items  " ++
    padStart 9 ' ' (byteCount s.sizeHint) ++ "  applied " ++
    Time.tableText (s.appliedModified.map .ofMicros)

def statusTable (database : String) (stats : Stats) (sources : List Source) : List String :=
  ["", "Database: " ++ database, "Active generation: " ++ toString stats.active,
    "Hosts blocked: " ++ separatedCount stats.blockedHosts,
    "Hosts redirected: " ++ separatedCount stats.redirectedHosts, "",
    "Sources (" ++ toString sources.length ++ " total, " ++
      toString (sources.filter (·.enabled)).length ++ " enabled):"] ++
    sources.map (statusLine stats) ++ [""]

/-! ### As data -/

def timeData (micros : Option Int) : Json :=
  .ofOption (fun n => .text (Time.Instant.ofMicros n).isoText) micros

def sourceFields (s : Source) : List (String × Json) :=
  [("id", .ofInt s.id), ("label", .text s.label), ("location", .text s.location),
    ("enabled", .flag s.enabled), ("is_allow_list", .flag s.allowList),
    ("supports_redirects", .flag s.redirects), ("entity_tag", .ofOption .text s.entityTag),
    ("last_known_remote_modified", timeData s.remoteModified),
    ("last_applied_modified", timeData s.appliedModified), ("size_hint", .ofNat s.sizeHint)]

def statusData (database : String) (stats : Stats) (sources : List Source) : Json :=
  .record
    [("database", .text database), ("active_generation", .ofInt stats.active),
      ("blocked_hosts", .ofNat stats.blockedHosts),
      ("redirected_hosts", .ofNat stats.redirectedHosts),
      ("items_per_source",
        .list (stats.itemsPerSource.map fun (id, n) => .list [.ofInt id, .ofNat n])),
      ("sources", .list (sources.map fun s =>
        .record (sourceFields s ++ [("items", .ofNat (itemsOf stats s))])))]

def runStatus (path : String) (json : Bool) : Job (List String) := do
  let c ← Job.loadConfig path
  let s ← Job.openStore c
  return if json then [(statusData c.database s.stats s.sources).pretty]
    else statusTable c.database s.stats s.sources

end Sinkhole.Command
