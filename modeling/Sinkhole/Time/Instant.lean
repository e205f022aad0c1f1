import Sinkhole.Time.Calendar
import Sinkhole.Text.Decimal

/-! Instants.

An instant is whole seconds since 1970 and nanoseconds within the second; during a
leap second the nanoseconds go on past a thousand million. The store keeps whole
microseconds only, so an instant that came from a server and the same instant read
back from the store can differ; `micros` is where they meet. -/
namespace Sinkhole.Time

/-- Seconds since the start of 1970, and nanoseconds on top of them. -/
structure Instant where
  seconds : Int
  nanos : Nat := 0
  deriving DecidableEq, Repr

namespace Instant

/-- Order by seconds, then by nanoseconds. -/
def le (a b : Instant) : Bool := a.seconds < b.seconds || (a.seconds = b.seconds && a.nanos ≤ b.nanos)

/-- Microseconds since 1970, rounded down. -/
def micros (t : Instant) : Int := t.seconds * 1000000 + (t.nanos / 1000 : Nat)

def ofMicros (n : Int) : Instant := ⟨n / 1000000, (n % 1000000).toNat * 1000⟩

/-- Later by at least a whole microsecond boundary. -/
def isAfter (a b : Instant) : Bool := b.micros < a.micros

theorem micros_ofMicros (n : Int) : (ofMicros n).micros = n := by
  simp only [ofMicros, micros]
  omega

def day (t : Instant) : Int := t.seconds / 86400

def secondOfDay (t : Instant) : Nat := (t.seconds % 86400).toNat

/-- The first and the last year that instants are kept for. -/
def firstYear : Int := -262143

def lastYear : Int := 262142

/-- Whether an instant lies in a year that instants are kept for. -/
def isHeld (t : Instant) : Bool :=
  let year := (Date.ofDays t.day).year
  firstYear ≤ year && year ≤ lastYear

/-- The instant of a number of microseconds, if it can be held. -/
def ofMicros? (n : Int) : Option Instant :=
  let t := ofMicros n
  if t.isHeld then some t else none

/-! ### Texts -/

open Text

def dateText (t : Instant) : String :=
  let d := Date.ofDays t.day
  yearText d.year ++ "-" ++ padded 2 d.month ++ "-" ++ padded 2 d.day

/-- Hours, minutes and seconds; a leap second is the sixtieth. -/
def clockText (t : Instant) : String :=
  let s := t.secondOfDay
  padded 2 (s / 3600) ++ ":" ++ padded 2 (s / 60 % 60) ++ ":" ++
    padded 2 (s % 60 + t.nanos / 1000000000)

/-- The fraction of a second in as many groups of three digits as it takes. -/
def fractionText (t : Instant) : String :=
  let n := t.nanos % 1000000000
  if n = 0 then ""
  else if n % 1000000 = 0 then "." ++ padded 3 (n / 1000000)
  else if n % 1000 = 0 then "." ++ padded 6 (n / 1000)
  else "." ++ padded 9 n

/-- The form data files use, `2024-01-01T00:00:00Z`. -/
def isoText (t : Instant) : String :=
  t.dateText ++ "T" ++ t.clockText ++ t.fractionText ++ "Z"

/-- The form tables use, `2024-01-01 00:00:00`. -/
def tableText (t : Instant) : String := t.dateText ++ " " ++ t.clockText

end Instant

/-- `Instant.tableText`, and `never` where there is none. -/
def tableText : Option Instant → String
  | some t => t.tableText
  | none => "never"

end Sinkhole.Time
