import Sinkhole.Command.Status
import Sinkhole.Update.One
import Sinkhole.Update.Check

/-! Starting runs from the command line, and showing what they report. -/
namespace Sinkhole.Command

open Text

/-! ### The updater -/

/-- What runs need besides the disk: the machine's size and the world around. -/
structure Surroundings where
  machine : Machine
  world : World Disk

/-- What a configuration sets a run up with. -/
def setupOf (m : Machine) (c : Config) : Update.Setup :=
  { fetch := { http := c.http, userAgent := c.userAgent }
    pipeline := c.pipeline, sizing := Sizing.of m c.pipeline }

/-- The certificates of a file on a disk. -/
def certificatesOn (d : Disk) (path : String) : Except String (List Char) :=
  match d.read path with
  | .ok bytes => .ok (decode bytes)
  | .error e => .error e.text

/-- A run on a store; what it has written stays also where it fails. -/
def runOn {α : Type} (o : Surroundings) (c : Config) (s : Store)
    (run : Update.Setup → Updater Disk → Except Error α × Updater Disk) : Job α := do
  let setup := setupOf o.machine c
  Job.ofResult .noFetching (setup.fetch.check (certificatesOn (← get)))
  let (result, u) := run setup { store := s, world := ← get }
  set u.world
  Job.saveStore c u.store
  Job.ofResult .lists result

/-! ### Reports -/

def reportLines (r : Update.Report) : List String :=
  if r.stopped then
    ["", "[STOPPED] Update interrupted, generation " ++ toString r.generation ++
      " is still active"]
  else
    ["", "[OK] Generation " ++ toString r.generation ++ ": " ++ toString r.updated ++
      " updated, " ++ toString r.unchanged ++ " unchanged, " ++ toString r.failed.length ++
      " failed"] ++
    r.failed.map ("     [WARN] " ++ ·) ++
    r.summary.toList.map (fun s => "     " ++ shortCount s.blocked ++ " hosts blocked, " ++
      shortCount s.redirected ++ " redirected, " ++ shortCount s.carvedOut ++
      " released by allow patterns") ++ [""]

def summaryData (s : Summary) : Json :=
  .record
    [("blocked", .ofNat s.blocked), ("allow_patterns", .ofNat s.allowPatterns),
      ("carved_out", .ofNat s.carvedOut), ("redirected", .ofNat s.redirected)]

def reportData (r : Update.Report) : Json :=
  .record
    [("generation", .ofInt r.generation), ("committed", .flag r.committed),
      ("stopped", .flag r.stopped), ("updated", .ofNat r.updated),
      ("unchanged", .ofNat r.unchanged), ("failed", .list (r.failed.map .text)),
      ("hosts_parsed", .ofNat r.hostsParsed), ("sync", .ofOption summaryData r.summary)]

def runUpdate (o : Surroundings) (path : String) (source : Option Int) (task : Option String)
    (json quiet : Bool) : Job (List String) := do
  let c ← Job.loadConfig path
  Job.writing c fun s => do
    let report ← runOn o c s fun setup =>
      match source with
      | some id => Update.updateOne o.world setup id task
      | none => Update.updateAll o.world setup task
    return if json then [(reportData report).pretty]
      else if quiet then [] else reportLines report

/-! ### Findings -/

def findingText (f : Update.Finding) : String :=
  match f.error with
  | some e => "error: " ++ e
  | none => if f.updateAvailable then "update available" else "up to date"

def findingLine (f : Update.Finding) : String :=
  padEnd 5 (toString f.source) ++ " " ++ padEnd 36 (abridged 36 f.label) ++ " " ++
    padEnd 20 (Time.tableText f.remoteModified) ++ " " ++ findingText f

def findingLines (findings : List Update.Finding) : List String :=
  let pending := (findings.filter (·.updateAvailable)).length
  ["", padEnd 5 "ID" ++ " " ++ padEnd 36 "SOURCE" ++ " " ++ padEnd 20 "REMOTE MODIFIED" ++
    " STATUS"] ++ findings.map findingLine ++
    ["", if pending > 0 then
        toString pending ++ " source(s) have updates. Run 'hostsieve update' to apply them."
      else "[OK] All sources are up to date"]

def findingData (f : Update.Finding) : Json :=
  .record
    [("source_id", .ofInt f.source), ("label", .text f.label),
      ("remote_modified", .ofOption (fun t => .text t.isoText) f.remoteModified),
      ("update_available", .flag f.updateAvailable), ("error", .ofOption .text f.error)]

def runCheck (o : Surroundings) (path : String) (json : Bool) : Job (List String) := do
  let c ← Job.loadConfig path
  let findings ← runOn o c (← Job.openStore c) (Update.check o.world)
  return if json then [(Json.list (findings.map findingData)).pretty] else findingLines findings

end Sinkhole.Command
