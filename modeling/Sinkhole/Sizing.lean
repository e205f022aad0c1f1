import Sinkhole.Text.Decimal

/-! How much to do at once, from the machine and the configuration.

Cores bound the downloads and memory bounds the parses and what they may remember;
each can be set instead. What the parses may remember together is shared out among
those that run at once. -/
namespace Sinkhole

/-- The part of the configuration that a run is sized and paced by. -/
structure PipelineSettings where
  batchSize : Nat := 100
  classifiersPerSource : Nat := 2
  lineQueue : Nat := 4096
  entryQueue : Nat := 4096
  pollIntervalMs : Nat := 100
  downloadParallelism : Option Nat := none
  parseParallelism : Option Nat := none
  activeParses : Option Nat := none
  dedupCap : Option Nat := none
  memoryBytes : Option Nat := none
  deriving DecidableEq, Repr

/-- What memory below a bound allows. -/
structure MemoryTier where
  below : Nat
  parseParallelism : Nat
  dedupCap : Nat
  deriving DecidableEq, Repr

def mebibyte : Nat := 1024 * 1024

def topTier : MemoryTier := ⟨Text.greatest 64, 6, 2000000⟩

def memoryTiers : List MemoryTier :=
  [⟨512 * mebibyte, 1, 100000⟩, ⟨1024 * mebibyte, 2, 250000⟩, ⟨2048 * mebibyte, 3, 500000⟩,
    ⟨4096 * mebibyte, 4, 1000000⟩, topTier]

/-- The lowest tier that an amount of memory falls below, else the top one. -/
def memoryTier (bytes : Nat) : MemoryTier :=
  (memoryTiers.find? (bytes < ·.below)).getD topTier

/-- The machine that the work is done on. -/
structure Machine where
  cores : Nat
  memory : Nat
  deriving DecidableEq, Repr

/-- How much is done at once. -/
structure Sizing where
  downloads : Nat
  parses : Nat
  activeParses : Nat
  dedupCap : Nat
  deriving DecidableEq, Repr

namespace Sizing

/-- Never more downloads at once than these, unless they are configured. -/
def mostDownloads : Nat := 8

def of (m : Machine) (settings : PipelineSettings) : Sizing :=
  let cores := max m.cores 1
  let tier := memoryTier (settings.memoryBytes.getD m.memory)
  let parses := max (settings.parseParallelism.getD tier.parseParallelism) 1
  { downloads := max (settings.downloadParallelism.getD (min (cores * 2) mostDownloads)) 1
    parses
    activeParses := max (settings.activeParses.getD (min parses (max cores 2))) 1
    dedupCap := settings.dedupCap.getD tier.dedupCap }

/-- Downloads at once in a run over this many sources. -/
def downloadWorkers (s : Sizing) (sources : Nat) : Nat := max (min s.downloads sources) 1

/-- Hosts that one parse may remember. -/
def dedupCapPerParse (s : Sizing) : Nat := s.dedupCap / s.activeParses

end Sizing

/-! ### Reading the size of the memory -/

open Text

/-- The lines of a text, without line breaks. -/
def textLines (cs : List Char) : List (List Char) :=
  (pieces (· == '\n') cs).map fun l => if l.getLast? == some '\r' then l.dropLast else l

/-- `cs` without as many copies of `mark` at its end as there are. -/
def withoutEnd (mark : List Char) (cs : List Char) : List Char :=
  let rec strip : (fuel : Nat) → List Char → List Char
    | 0, back => back
    | fuel + 1, back =>
      match after? mark.reverse back with
      | some rest => strip fuel rest
      | none => back
  (strip cs.length cs.reverse).reverse

/-- The first line of a memory table for `field` that has a number, in bytes. -/
def memoryField? (table : List Char) (field : String) : Option Nat :=
  (textLines table).findSome? fun line => do
    let rest ← after? (field.toList ++ [':']) line
    let kibibytes ← bounded? (greatest 64) (trim (withoutEnd ['k', 'B'] (trim rest)))
    return min (kibibytes * 1024) (greatest 64)

/-- The memory that is available, or all of it where the table does not tell. -/
def readMemory? (table : List Char) : Option Nat :=
  (memoryField? table "MemAvailable").or (memoryField? table "MemTotal")

end Sinkhole
