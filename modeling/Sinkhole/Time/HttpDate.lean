import Sinkhole.Time.Instant

/-! Dates in HTTP headers: `Fri, 01 Mar 2024 12:30:05 GMT`.

`httpDate` writes that one form. `readHttpDate?` accepts what mail messages may
hold: the day of the week may be missing, any blanks may stand between the parts,
the seconds may be missing, years may have two or three digits, zones may be
numbers or the old North American names, and comments may follow. A day of the
week that does not fit the date is refused. -/
namespace Sinkhole.Time

open Text

def dayNames : List String := ["Mon", "Tue", "Wed", "Thu", "Fri", "Sat", "Sun"]

def monthNames : List String :=
  ["Jan", "Feb", "Mar", "Apr", "May", "Jun", "Jul", "Aug", "Sep", "Oct", "Nov", "Dec"]

def httpDate (t : Instant) : String :=
  let d := Date.ofDays t.day
  dayNames.getD (weekday t.day) "" ++ ", " ++ padded 2 d.day ++ " " ++
    monthNames.getD (d.month - 1) "" ++ " " ++ yearText d.year ++ " " ++ t.clockText ++ " GMT"

/-! ### Reading, part by part -/

/-- The digits `cs` starts with, `most` at most, and the rest. -/
def leadingDigits (most : Nat) (cs : List Char) : List Char × List Char :=
  let digits := (cs.take most).takeWhile Char.isDigit
  (digits, cs.drop digits.length)

/-- A number of at least `least` and at most `most` digits. -/
def number? (least most : Nat) (cs : List Char) : Option (Nat × List Char) := do
  let (digits, rest) := leadingDigits most cs
  if digits.length < least then none else return (← natural? digits, rest)

/-- At least one blank, and all that follow it. -/
def blanks? (cs : List Char) : Option (List Char) :=
  match cs with
  | c :: rest => if isBlank c then some (trimStart rest) else none
  | [] => none

/-- The place in `names` of the three letters `cs` starts with, in any case. -/
def name? (names : List String) (cs : List Char) : Option (Nat × List Char) :=
  match names.findIdx? (fun n => lower n.toList == lower (cs.take 3)) with
  | some i => some (i, cs.drop 3)
  | none => none

/-- A day name and its comma, or nothing; a day name without a comma is refused. -/
def dayPart? (cs : List Char) : Option (Option Nat × List Char) :=
  match name? dayNames cs with
  | some (i, ',' :: rest) => some (some i, rest)
  | some _ => none
  | none => some (none, cs)

/-- Two digits mean 1950 to 2049, three count from 1900. -/
def fullYear (digits value : Nat) : Nat :=
  if digits = 2 then (if value ≤ 49 then value + 2000 else value + 1900)
  else if digits = 3 then value + 1900
  else value

def yearPart? (cs : List Char) : Option (Nat × List Char) := do
  let (value, rest) ← number? 2 cs.length cs
  return (fullYear (cs.length - rest.length) value, rest)

/-- A colon with any blanks around it. -/
def colon? (cs : List Char) : Option (List Char) :=
  match trimStart cs with
  | ':' :: rest => some (trimStart rest)
  | _ => none

/-- Seconds, right behind their colon, or none of them. -/
def secondPart? (cs : List Char) : Option (Nat × List Char) :=
  match trimStart cs with
  | ':' :: rest => number? 2 2 rest
  | _ => some (0, cs)

/-- Hours east of Greenwich that a zone name stands for. -/
def zoneHours? (name : List Char) : Option Int :=
  let known : List (String × Int) :=
    [("gmt", 0), ("ut", 0), ("z", 0), ("edt", -4), ("est", -5), ("cdt", -5), ("cst", -6),
      ("mdt", -6), ("mst", -7), ("pdt", -7), ("pst", -8)]
  match known.find? (fun zone => zone.1.toList == lower name) with
  | some (_, hours) => some hours
  | none =>
    match name with
    | [c] => if c.toLower == 'j' then none else some 0
    | _ => none

/-- Seconds of an offset of exactly four digits, the minutes below 60. -/
def offsetPart? (cs : List Char) : Option (Int × List Char) := do
  let (sign, rest) ← (match cs with
    | '+' :: rest => some ((1 : Int), rest)
    | '-' :: rest => some (-1, rest)
    | _ => none)
  let (hours, rest) ← number? 2 2 rest
  let (minutes, rest) ← number? 2 2 rest
  if minutes < 60 then return (sign * (hours * 3600 + minutes * 60 : Nat), rest) else none

/-- Seconds east of Greenwich. -/
def zonePart? (cs : List Char) : Option (Int × List Char) :=
  let name := cs.takeWhile Char.isAlpha
  if name.isEmpty then offsetPart? cs
  else (zoneHours? name).map fun hours => (hours * 3600, cs.drop name.length)

/-- What stands behind a comment whose first `(` is already read, `depth` of them being open. -/
def commentEnd? : (depth : Nat) → List Char → Option (List Char)
  | _, [] => none
  | depth, '\\' :: _ :: rest => commentEnd? depth rest
  | _, '\\' :: [] => none
  | depth, '(' :: rest => commentEnd? (depth + 1) rest
  | depth, ')' :: rest => if depth ≤ 1 then some rest else commentEnd? (depth - 1) rest
  | depth, _ :: rest => commentEnd? depth rest

/-- Whether nothing or only comments with blanks before them are left; `fuel` bounds their
number. -/
def onlyComments : (fuel : Nat) → List Char → Bool
  | 0, cs => cs.isEmpty
  | fuel + 1, cs =>
    if cs.isEmpty then true
    else match trimStart cs with
      | '(' :: rest =>
        match commentEnd? 1 rest with
        | some rest => onlyComments fuel rest
        | none => false
      | _ => false

/-- A date and a time of day `offset` seconds east of Greenwich; the sixtieth second is a
leap second. -/
def instantAt? (date : Date) (hour minute second : Nat) (offset : Int) : Option Instant :=
  if date.isReal && hour < 24 && minute < 60 && second ≤ 60 && -86400 < offset && offset < 86400 then
    let t : Instant :=
      { seconds := date.toDays * 86400 +
          ((hour * 3600 + minute * 60 + min second 59 : Nat) : Int) - offset
        nanos := if second = 60 then 1000000000 else 0 }
    if Instant.firstYear ≤ date.year && date.year ≤ Instant.lastYear && t.isHeld then some t
    else none
  else none

/-- The instant of a date in a header. -/
def readHttpDate? (text : List Char) : Option Instant := do
  let (dayName, cs) ← dayPart? (trim text)
  let (day, cs) ← number? 1 2 (trimStart cs)
  let (month, cs) ← name? monthNames (← blanks? cs)
  let (year, cs) ← yearPart? (← blanks? cs)
  let (hour, cs) ← number? 2 2 (← blanks? cs)
  let (minute, cs) ← number? 2 2 (← colon? cs)
  let (second, cs) ← secondPart? cs
  let (offset, cs) ← zonePart? (← blanks? cs)
  let date : Date := ⟨year, month + 1, day⟩
  let t ← instantAt? date hour minute second offset
  if onlyComments cs.length cs && (dayName.isNone || dayName == some (weekday date.toDays)) then
    return t
  else none

end Sinkhole.Time
