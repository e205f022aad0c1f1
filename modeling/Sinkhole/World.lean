import Sinkhole.Fetch.Message
import Sinkhole.Intake

/-! What lies outside: files, servers, and people who press buttons.

A world is asked for something and answers, and may change by it: a server that was
overloaded may answer the next time. While it takes its time to answer, signals may
come in, in an order; they are handed over with the answer and take effect before
whoever asked goes on. All of a run's dealings with the outside go through here, and so
does what the run itself leaves open, so a run is a function of the world it is given. -/
namespace Sinkhole

/-- The ways to start work on the lists. -/
inductive Run where
  | all
  | one (source : Int)
  | check
  deriving DecidableEq, Repr

/-- What can come in while a run waits. -/
inductive Signal where
  | stop
  /-- A pause, and a resume after it. -/
  | pause
  /-- The program is told to end; progress does not show it. -/
  | interrupt
  /-- Someone tries to start another run. -/
  | attempt (run : Run)
  deriving DecidableEq, Repr

/-- Whether a signal is a reason to stop. -/
def Signal.stops : Signal → Bool
  | stop | interrupt => true
  | pause | attempt _ => false

/-- What is known about a file without opening it. -/
structure FileFacts where
  modified : Option Time.Instant
  size : Nat
  deriving DecidableEq, Repr

/-- An opened content: what reading it yields, the signals that come in while it is read, each
with the number of lines that have been read by then, and the order in which its entries come to
be stored. -/
structure Opened where
  reading : Reading
  meanwhile : List (Nat × Signal) := []
  arrival : Option Intake.Arrival := none

/-- An answer, the signals that came in before it, and the world after it. -/
structure Observed (σ α : Type) where
  answer : α
  signals : List Signal := []
  world : σ

/-- A world with states `σ`. -/
structure World (σ : Type) where
  /-- The facts about the file at a path, or the system's reason why there are none. -/
  facts : String → σ → Observed σ (Except String FileFacts)
  /-- Opens the file at a path. -/
  openFile : String → σ → Observed σ (Except String Opened)
  /-- Opens a body that was fetched and put aside until now. -/
  openBody : List UInt8 → σ → Observed σ (Except String Opened) := fun bytes world =>
    { answer := .ok { reading := { bytes } }, world }
  /-- One request and the response to it, redirects not followed. -/
  exchange : Fetch.Request → σ → Observed σ (Except NetworkFault Fetch.Response)
  /-- Whether a host has an address. -/
  resolves : List Char → Bool
  /-- When a remote source is done, compared to others: smaller is earlier. -/
  turn : Source → Nat := fun _ => 0

end Sinkhole
