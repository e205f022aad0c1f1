import Sinkhole.Time.HttpDate

/-! Timestamps in data: `2024-03-01T12:30:05.5+01:00`.

A forge reports commit dates in this form, with any number of digits behind the
seconds; nine of them count. -/
namespace Sinkhole.Time

open Text

/-- What stands behind the character `c`. -/
def behind? (c : Char) : List Char → Option (List Char)
  | d :: cs => if d = c then some cs else none
  | [] => none

/-- Nanoseconds of the digits behind a point, or none of them. -/
def fractionPart? (cs : List Char) : Option (Nat × List Char) :=
  match cs with
  | '.' :: rest =>
    let (digits, rest) := leadingDigits rest.length rest
    if digits.isEmpty then none
    else
      let nine := (digits.take 9 ++ List.replicate 9 '0').take 9
      (natural? nine).map fun n => (n, rest)
  | cs => some (0, cs)

/-- `Z`, or hours and minutes with a sign and a colon. -/
def zoneOffset? (cs : List Char) : Option Int :=
  match cs with
  | ['Z'] => some 0
  | ['z'] => some 0
  | sign :: rest => do
    let (hours, rest) ← number? 2 2 rest
    let (minutes, rest) ← number? 2 2 (← behind? ':' rest)
    if minutes < 60 && rest.isEmpty then
      let seconds : Int := (hours * 3600 + minutes * 60 : Nat)
      if sign = '+' then some seconds else if sign = '-' then some (-seconds) else none
    else none
  | [] => none

def readTimestamp? (cs : List Char) : Option Instant := do
  let (year, cs) ← number? 4 4 cs
  let (month, cs) ← number? 2 2 (← behind? '-' cs)
  let (day, cs) ← number? 2 2 (← behind? '-' cs)
  let cs ← (match cs with
    | c :: rest => if c = 'T' || c = 't' || c = ' ' then some rest else none
    | [] => none)
  let (hour, cs) ← number? 2 2 cs
  let (minute, cs) ← number? 2 2 (← behind? ':' cs)
  let (second, cs) ← number? 2 2 (← behind? ':' cs)
  let (nanos, cs) ← fractionPart? cs
  let offset ← zoneOffset? cs
  let t ← instantAt? ⟨year, month, day⟩ hour minute second offset
  return { t with nanos := t.nanos + nanos }

end Sinkhole.Time
