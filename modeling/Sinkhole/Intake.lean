import Sinkhole.Store.HostTable
import Sinkhole.Sightings
import Sinkhole.Text.Lossy

/-! Taking in a list: from the bytes of its content to the items stored for it.

The content is cut into lines at line feeds, each line is read as text and
classified, blocked hosts that repeat are held back, and what is left is stored in
batches. The items a source had in the same generation go first, so the result
depends on nothing that was there before. A stop is noticed at every thousandth
line only: that line is still counted, but neither it nor any later one is stored.

Several lines are sorted at once, so the order in which entries come to be stored, and
which of the repetitions are held back, is open: an `Arrival` settles it. -/
namespace Sinkhole

/-- What reading a list's content yields: bytes, and why there are no more of them if that is
not simply their end. -/
structure Reading where
  bytes : List UInt8
  fault : Option String := none
  deriving DecidableEq, Repr

namespace Intake

/-- Bytes up to each line feed. -/
def byteLines (bytes : List UInt8) : List (List UInt8) :=
  bytes.foldr (fun b acc =>
    if b = 0x0A then [] :: acc
    else match acc with
      | [] => [[b]]
      | l :: ls => (b :: l) :: ls) [[]]

/-- The lines that can be delivered: what stands behind the last line feed is one if it is not
empty and reading did not fail there. -/
def chunks (r : Reading) : List (List UInt8) :=
  let all := byteLines r.bytes
  if r.fault.isSome || all.getLast? == some [] then all.dropLast else all

/-- The number of lines between two looks at the control. -/
def checkEvery : Nat := 1000

/-- The first line at which a stop is noticed, if `halted` says when one is in force. -/
def haltLine? (halted : Nat → Bool) (lines : Nat) : Option Nat :=
  ((List.range (lines / checkEvery)).map fun i => (i + 1) * checkEvery).find? halted

/-- How reading ended. -/
inductive End where
  | finished (lines : Nat)
  | stopped (lines : Nat)
  | failed (reason : String)
  deriving DecidableEq, Repr

/-- The lines handed on and how reading them ended. -/
def deliver (halted : Nat → Bool) (r : Reading) : List (List UInt8) × End :=
  let lines := chunks r
  match haltLine? halted lines.length with
  | some n => (lines.take (n - 1), .stopped n)
  | none =>
    match r.fault with
    | some reason => (lines, .failed reason)
    | none => (lines, .finished lines.length)

/-- The text of a line. -/
def lineText (chunk : List UInt8) : List Char := Text.trimEnd (Text.decode chunk)

/-- Which items an intake replaces and how it reads lines. -/
structure Target where
  source : Int
  label : String
  role : Role
  redirects : Bool
  generation : Int
  deriving DecidableEq, Repr

def Target.of (s : Source) (generation : Int) : Target :=
  { source := s.id, label := s.label, role := s.role, redirects := s.redirects, generation }

def Target.classify (t : Target) (chunk : List UInt8) : Option Entry :=
  Line.classify t.role t.redirects (lineText chunk)

/-- The entries that are not repetitions of blocked hosts; `none` lets all through. -/
def admitted : Option Sightings → List Entry → List Entry
  | none, entries => entries
  | some _, [] => []
  | some s, .blocked h :: rest =>
    let (first, s) := s.sight h
    if first then .blocked h :: admitted (some s) rest else admitted (some s) rest
  | some s, e :: rest => e :: admitted (some s) rest

/-- `kept` is what is left of `all`, in any order: only blocked hosts have become fewer, and only
where repetitions are held back at all, and none has vanished. -/
structure Sifted (filtering : Bool) (all kept : List Entry) : Prop where
  /-- What is not held back is there as often as before. -/
  exact : ∀ e, (filtering = true → ∀ h, e ≠ .blocked h) → kept.count e = all.count e
  few : ∀ e, kept.count e ≤ all.count e
  whole : ∀ e ∈ all, e ∈ kept

/-- What comes to be stored of the entries of a list, in the order it comes. -/
structure Arrival where
  /-- Given whether repetitions are held back. -/
  kept : Bool → List Entry → List Entry
  sifted : ∀ filtering all, Sifted filtering all (kept filtering all)

/-- The entries that come to be stored; with no arrival given, every line is done with before the
next one is read. -/
def handedOn (cap : Option Nat) (arrival : Option Arrival) (entries : List Entry) : List Entry :=
  match arrival with
  | some a => a.kept cap.isSome entries
  | none => admitted (cap.map Sightings.start) entries

/-- `entries` behind `pending`, in batches of `size`; the last one may be smaller. -/
def batches (size : Nat) (pending : List Entry) : List Entry → List (List Entry)
  | [] => if pending.isEmpty then [] else [pending]
  | e :: rest =>
    let batch := pending ++ [e]
    if batch.length ≥ size then batch :: batches size [] rest else batches size batch rest

/-- What storing came to; a batch that is refused ends it. -/
structure Written where
  store : Store
  inserted : Nat := 0
  fault : Option Error := none

def writeBatch (t : Target) (w : Written) (batch : List Entry) : Written :=
  if w.fault.isSome then w
  else match w.store.insertItems t.source t.generation batch with
    | .ok store => { store, inserted := w.inserted + batch.length }
    | .error e => { w with fault := some e }

/-- How a list is taken in. -/
structure Settings where
  batchSize : Nat := 100
  /-- How many blocked hosts to remember; none to store repetitions as well. -/
  dedupCap : Option Nat := none
  deriving DecidableEq, Repr

/-- What the intake of a list came to. -/
structure Outcome where
  lines : Nat
  inserted : Nat
  stopped : Bool
  deriving DecidableEq, Repr

/-- The end of an intake: what it came to, the store, and the hosts counted on the way. -/
structure Result where
  outcome : Except Error Outcome
  store : Store
  counted : Nat

/-- Replaces a source's items in one generation by the entries of a content. -/
def run (settings : Settings) (t : Target) (halted : Nat → Bool) (r : Reading) (s : Store)
    (arrival : Option Arrival := none) : Result :=
  let (lines, ending) := deliver halted r
  let entries := handedOn settings.dedupCap arrival (lines.filterMap t.classify)
  let w := (batches (max settings.batchSize 1) [] entries).foldl (writeBatch t)
    { store := s.clearItems t.source (some t.generation) }
  let outcome : Except Error Outcome := match w.fault, ending with
    | some e, _ => .error e
    | none, .failed reason => .error (.parseFailure t.label reason)
    | none, .finished lines => .ok ⟨lines, w.inserted, false⟩
    | none, .stopped lines => .ok ⟨lines, w.inserted, true⟩
  ⟨outcome, w.store, w.inserted⟩

end Intake

end Sinkhole
