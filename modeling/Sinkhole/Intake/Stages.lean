import Sinkhole.Intake
import Sinkhole.Progress
import Sinkhole.Sizing

/-! An intake as it runs: a reader, some sorters and a writer, all at once.

The reader offers the text of each line to the sorters, they offer what it comes to
to the writer, and the writer stores that in batches. What is offered waits in a
bounded queue, so whoever finds the queue full, or empty, waits as well. A stage that
is done hangs up, which is how the next one learns that nothing more will come; a
writer whose batch was refused hangs up too, and then those before it give up.

The sorters share what they remember of blocked hosts. Each of them looks there, counts
and writes in steps of its own, and the others may take theirs in between. -/
namespace Sinkhole.Intake

/-- How much of an intake goes on at once: the sorters there are, what each queue holds,
and the size of a batch. -/
structure Staging where
  batchSize : Nat
  sorters : Nat
  lineQueue : Nat
  entryQueue : Nat
  /-- How many blocked hosts to remember; none to store repetitions as well. -/
  dedupCap : Option Nat := none
  batchSize_pos : 0 < batchSize
  sorters_pos : 0 < sorters
  lineQueue_pos : 0 < lineQueue
  entryQueue_pos : 0 < entryQueue

/-- The staging that a configuration asks for; nothing of it is ever less than one. -/
def Staging.of (p : PipelineSettings) (dedupCap : Option Nat) : Staging where
  batchSize := max p.batchSize 1
  sorters := max p.classifiersPerSource 1
  lineQueue := max p.lineQueue 1
  entryQueue := max p.entryQueue 1
  dedupCap := dedupCap
  batchSize_pos := by omega
  sorters_pos := by omega
  lineQueue_pos := by omega
  entryQueue_pos := by omega

/-! ### What the sorters remember -/

/-- The blocked hosts that were seen, as the sorters share them. -/
structure Memory where
  cap : Nat
  seen : List String := []
  /-- How many hosts were counted in; a host is counted before it is written down. -/
  size : Nat := 0
  /-- Whether repetitions are let through from now on. -/
  off : Bool
  deriving DecidableEq, Repr

def Memory.start (cap : Nat) : Memory := { cap, off := cap == 0 }

/-- Where a sorter stands with its line. -/
inductive Sorter where
  | free
  /-- About to learn whether repetitions are held back at all. -/
  | asking (host : String)
  | searching (host : String)
  /-- The host was not there: about to count it in. -/
  | counting (host : String)
  | writing (host : String)
  /-- Another sorter wrote the host down meanwhile: about to count it out again. -/
  | beaten (host : String)
  /-- One host too many: about to count it out again. -/
  | excess (host : String)
  /-- About to let repetitions through from now on. -/
  | closing (host : String)
  /-- Dropping what was remembered. -/
  | emptying (host : String)
  /-- With an entry for the writer. -/
  | holding (entry : Entry)
  | gone
  deriving DecidableEq, Repr

/-- One access of a sorter to the memory. Whether it is switched off may be learned late: a
sorter that asks can still go on to search, unless the memory was never on. Emptying it takes
away a part of the hosts at a time, and the hosts that come in meanwhile may stay. -/
inductive Access : Memory → Sorter → Memory → Sorter → Prop where
  | off {m h} (off : m.off = true) : Access m (.asking h) m (.holding (.blocked h))
  | on {m h} (on : m.cap ≠ 0) : Access m (.asking h) m (.searching h)
  | known {m h} (known : h ∈ m.seen) : Access m (.searching h) m .free
  | unknown {m h} (unknown : h ∉ m.seen) : Access m (.searching h) m (.counting h)
  | countIn {m h} (room : m.size < m.cap) :
      Access m (.counting h) { m with size := m.size + 1 } (.writing h)
  | overfill {m h} (full : m.cap ≤ m.size) :
      Access m (.counting h) { m with size := m.size + 1 } (.excess h)
  | write {m h} (unknown : h ∉ m.seen) :
      Access m (.writing h) { m with seen := h :: m.seen } (.holding (.blocked h))
  | late {m h} (known : h ∈ m.seen) : Access m (.writing h) m (.beaten h)
  | countOut {m h} : Access m (.beaten h) { m with size := m.size - 1 } .free
  | takeBack {m h} : Access m (.excess h) { m with size := m.size - 1 } (.closing h)
  | closed {m h} (off : m.off = true) : Access m (.closing h) m (.holding (.blocked h))
  | close {m h} (on : m.off = false) : Access m (.closing h) { m with off := true } (.emptying h)
  | empty {m h} (part : String → Bool) :
      Access m (.emptying h) { m with seen := m.seen.filter (!part ·) } (.emptying h)
  | emptied {m h} : Access m (.emptying h) m (.holding (.blocked h))

/-! ### The stages -/

/-- Where the reader stands: the lines it has counted and those it has not read yet. -/
inductive Reader where
  | reading (count : Nat) (rest : List (List UInt8))
  | offering (count : Nat) (text : List Char) (rest : List (List UInt8))
  | gone (ending : End)
  deriving DecidableEq, Repr

def Reader.isGone : Reader → Bool
  | gone _ => true
  | _ => false

/-- Where the writer stands. -/
inductive Writer where
  | collecting (batch : List Entry)
  | gone
  deriving DecidableEq, Repr

/-- Everything that is under way in an intake. -/
structure Stages where
  reader : Reader
  lines : List (List Char) := []
  sorters : List Sorter
  /-- None where repetitions are stored as well. -/
  memory : Option Memory
  entries : List Entry := []
  writer : Writer := .collecting []
  written : Written
  progress : Progress

/-- What a text comes to. -/
def Target.read (t : Target) (text : List Char) : Option Entry :=
  Line.classify t.role t.redirects text

/-- What a sorter does next with what it read; `filtering` says that blocked hosts are looked up. -/
def Sorter.onto (filtering : Bool) : Option Entry → Sorter
  | none => free
  | some (.blocked h) => if filtering then asking h else holding (.blocked h)
  | some e => holding e

/-- How an intake ends, from what was stored and how reading ended: a batch that was refused
counts for more than a content that could not be read. -/
def concluded (t : Target) (w : Written) (ending : End) : Except Error Outcome :=
  match w.fault, ending with
  | some e, _ => .error e
  | none, .failed reason => .error (.parseFailure t.label reason)
  | none, .finished lines => .ok ⟨lines, w.inserted, false⟩
  | none, .stopped lines => .ok ⟨lines, w.inserted, true⟩

namespace Stages

/-- An intake about to begin; what the source had in the generation is gone already. -/
def start (p : Staging) (t : Target) (r : Reading) (s : Store) (meter : Progress) : Stages where
  reader := .reading 0 (chunks r)
  sorters := List.replicate p.sorters .free
  memory := p.dedupCap.map Memory.start
  written := { store := s.clearItems t.source (some t.generation) }
  progress := meter

/-- Whether nobody is left who could offer the writer an entry. -/
def Deserted (x : Stages) : Prop := ∀ a ∈ x.sorters, a = .gone

instance (x : Stages) : Decidable x.Deserted := inferInstanceAs (Decidable (∀ a ∈ _, _))

/-- Stores what the writer has collected. -/
def store (x : Stages) (t : Target) (batch : List Entry) (writer : Writer) : Stages :=
  { x with
    writer
    written := writeBatch t x.written batch
    progress := x.progress.addHosts batch.length }

/-- How an intake ended, once all of its stages are done. -/
def outcome? (x : Stages) (t : Target) : Option (Except Error Outcome) :=
  match x.reader, x.writer with
  | .gone ending, .gone => if x.Deserted then some (concluded t x.written ending) else none
  | _, _ => none

end Stages

/-! ### Steps -/

/-- A step of the reader. A stop may come at any time, and it is looked for at every thousandth
line; `fault` is why there is no more to read, if that is not simply the end. -/
inductive Reads (p : Staging) (fault : Option String) : Stages → Stages → Prop where
  | next {x count line rest} (reader : x.reader = .reading count (line :: rest)) :
      Reads p fault x { x with reader := .offering (count + 1) (lineText line) rest }
  | halt {x count line rest} (reader : x.reader = .reading count (line :: rest))
      (due : checkEvery ∣ count + 1) :
      Reads p fault x { x with reader := .gone (.stopped (count + 1)) }
  | finish {x count} (reader : x.reader = .reading count []) (whole : fault = none) :
      Reads p fault x { x with reader := .gone (.finished count) }
  | fail {x count reason} (reader : x.reader = .reading count []) (broken : fault = some reason) :
      Reads p fault x { x with reader := .gone (.failed reason) }
  | offer {x count text rest} (reader : x.reader = .offering count text rest)
      (room : x.lines.length < p.lineQueue) (heard : ¬ x.Deserted) :
      Reads p fault x { x with reader := .reading count rest, lines := x.lines ++ [text] }
  | hangUp {x count text rest} (reader : x.reader = .offering count text rest)
      (deserted : x.Deserted) :
      Reads p fault x { x with reader := .gone (.finished count) }

/-- A step of one sorter. -/
inductive Sorts (p : Staging) (t : Target) : Stages → Sorter → Stages → Sorter → Prop where
  | take {x text rest} (lines : x.lines = text :: rest) :
      Sorts p t x .free { x with lines := rest } (.onto x.memory.isSome (t.read text))
  | leave {x} (lines : x.lines = []) (reader : x.reader.isGone = true) : Sorts p t x .free x .gone
  | access {x m m' a b} (memory : x.memory = some m) (step : Access m a m' b) :
      Sorts p t x a { x with memory := some m' } b
  | offer {x e} (room : x.entries.length < p.entryQueue) (heard : x.writer ≠ .gone) :
      Sorts p t x (.holding e) { x with entries := x.entries ++ [e] } .free
  | giveUp {x e} (writer : x.writer = .gone) : Sorts p t x (.holding e) x .gone

/-- A step of the writer. The storage may refuse any batch. -/
inductive Writes (p : Staging) (t : Target) : Stages → Stages → Prop where
  | receive {x batch e rest} (writer : x.writer = .collecting batch)
      (room : batch.length < p.batchSize) (entries : x.entries = e :: rest) :
      Writes p t x { x with writer := .collecting (batch ++ [e]), entries := rest }
  | flush {x batch} (writer : x.writer = .collecting batch) (full : p.batchSize ≤ batch.length)
      (taken : (writeBatch t x.written batch).fault = none) :
      Writes p t x (x.store t batch (.collecting []))
  | finish {x batch} (writer : x.writer = .collecting batch) (room : batch.length < p.batchSize)
      (entries : x.entries = []) (deserted : x.Deserted)
      (taken : (writeBatch t x.written batch).fault = none) :
      Writes p t x (x.store t batch .gone)
  | fail {x batch} (refusal : StoreFault) (writer : x.writer = .collecting batch)
      (due : p.batchSize ≤ batch.length ∨ (x.entries = [] ∧ x.Deserted ∧ batch ≠ [])) :
      Writes p t x
        { x with writer := .gone, written := { x.written with fault := some (.storage refusal) } }

/-- A step of an intake: one of its stages moves. -/
inductive Step (p : Staging) (t : Target) (fault : Option String) : Stages → Stages → Prop where
  | read {x y} (step : Reads p fault x y) : Step p t fault x y
  | sort {x y before after a b} (sorters : x.sorters = before ++ a :: after)
      (step : Sorts p t x a y b) :
      Step p t fault x { y with sorters := before ++ b :: after }
  | write {x y} (step : Writes p t x y) : Step p t fault x y

end Sinkhole.Intake
