/-! Hosts already seen in one list.

Lists repeat themselves, and storing a host once is enough. The memory for that is
bounded: a host that would exceed the cap is let through, and so is every one after
it, and what was remembered is dropped. Letting a repetition through is harmless,
so nothing is ever lost. -/
namespace Sinkhole

/-- The hosts seen so far, and how many may be remembered. -/
structure Sightings where
  cap : Nat
  seen : List String
  /-- Whether repetitions are still held back. -/
  filtering : Bool
  deriving DecidableEq, Repr

namespace Sightings

def start (cap : Nat) : Sightings := { cap, seen := [], filtering := cap != 0 }

/-- Whether to let a host through, and what is remembered after it. -/
def sight (s : Sightings) (host : String) : Bool × Sightings :=
  if !s.filtering then (true, s)
  else if s.seen.contains host then (false, s)
  else if s.seen.length ≥ s.cap then (true, { s with seen := [], filtering := false })
  else (true, { s with seen := host :: s.seen })

/-- The hosts let through of a sequence, and what is remembered after it. -/
def letThrough (s : Sightings) : List String → List String × Sightings
  | [] => ([], s)
  | h :: hs =>
    let (first, s) := s.sight h
    let (rest, s) := s.letThrough hs
    (if first then h :: rest else rest, s)

end Sightings

end Sinkhole
