/-! Days and dates of the Gregorian calendar, extended without end in both directions.

Years are counted from March, so that the day a leap year adds is a year's last,
and 400 years always have 146097 days; both conversions are then sums and
quotients. Day 0 is 1 January 1970. -/
namespace Sinkhole.Time

/-- A day by its year, month and day of the month, the latter two from 1. -/
structure Date where
  year : Int
  month : Nat
  day : Nat
  deriving DecidableEq, Repr

def isLeap (year : Int) : Bool := year % 4 = 0 && (year % 100 ≠ 0 || year % 400 = 0)

def monthLength (year : Int) (month : Nat) : Nat :=
  if month = 2 then (if isLeap year then 29 else 28)
  else if month = 4 || month = 6 || month = 9 || month = 11 then 30
  else 31

/-- A date that the calendar has. -/
def Date.isReal (d : Date) : Bool :=
  1 ≤ d.month && d.month ≤ 12 && 1 ≤ d.day && d.day ≤ monthLength d.year d.month

/-- Days from the first of March to the first of a month counted from March. -/
def daysBefore (month : Nat) : Nat := (153 * month + 2) / 5

/-- The number of a date's day. -/
def Date.toDays (d : Date) : Int :=
  let year := if d.month ≤ 2 then d.year - 1 else d.year
  let inCycle := (year % 400).toNat
  let month := (d.month + 9) % 12
  year / 400 * 146097 +
    ((inCycle * 365 + inCycle / 4 - inCycle / 100 + daysBefore month + d.day : Nat) : Int) - 719469

/-- The date of a numbered day. -/
def Date.ofDays (days : Int) : Date :=
  let inCycle := ((days + 719468) % 146097).toNat
  let century := min (inCycle / 36524) 3
  let inCentury := inCycle - century * 36524
  let inBlock := inCentury % 1461
  let yearOfBlock := min (inBlock / 365) 3
  let inYear := inBlock - yearOfBlock * 365
  let month := (5 * inYear + 2) / 153
  let year := (days + 719468) / 146097 * 400 +
    ((century * 100 + inCentury / 1461 * 4 + yearOfBlock : Nat) : Int)
  { year := if month < 10 then year else year + 1
    month := if month < 10 then month + 3 else month - 9
    day := inYear - daysBefore month + 1 }

/-- The day of the week, from Monday as 0. -/
def weekday (days : Int) : Nat := ((days + 3) % 7).toNat

end Sinkhole.Time
