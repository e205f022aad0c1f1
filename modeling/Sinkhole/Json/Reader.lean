import Sinkhole.Json.Basic
import Sinkhole.Text.Lossy
import Sinkhole.Text.Blank

/-! Reading JSON.

`read?` takes a whole text: one value with nothing but blanks around it. Each reader
below it takes the value a text starts with and hands back the rest; the fuel bounds
how many values may be begun, and a text cannot begin more of them than it has
characters. -/
namespace Sinkhole.Json

open Text

def isGap (c : Char) : Bool := c == ' ' || c == '\t' || c == '\n' || c == '\r'

def skipGap (cs : List Char) : List Char := cs.dropWhile isGap

/-- Four hexadecimal digits. -/
def hexUnit? (cs : List Char) : Option (Nat × List Char) :=
  let digit (c : Char) : Option Nat :=
    if c.isDigit then some (c.toNat - 48)
    else if 'a' ≤ c ∧ c ≤ 'f' then some (c.toNat - 87)
    else if 'A' ≤ c ∧ c ≤ 'F' then some (c.toNat - 55)
    else none
  match cs with
  | a :: b :: c :: d :: rest => do
    return ((((← digit a) * 16 + (← digit b)) * 16 + (← digit c)) * 16 + (← digit d), rest)
  | _ => none

/-- The character behind `\u`; the two halves of a pair make one, and half a pair makes none. -/
def escapedUnit? (cs : List Char) : Option (Char × List Char) := do
  let (high, rest) ← hexUnit? cs
  if high < 0xD800 || 0xDFFF < high then return (Char.ofNat high, rest)
  else
    match rest with
    | '\\' :: 'u' :: more =>
      match hexUnit? more with
      | some (low, after) =>
        if high < 0xDC00 && 0xDC00 ≤ low && low ≤ 0xDFFF then
          return (Char.ofNat (0x10000 + (high - 0xD800) * 0x400 + (low - 0xDC00)), after)
        else return (replacement, rest)
      | none => none
    | _ => return (replacement, rest)

def escapeOf? (c : Char) : Option Char :=
  match c with
  | '"' => some '"'
  | '\\' => some '\\'
  | '/' => some '/'
  | 'b' => some (Char.ofNat 8)
  | 'f' => some (Char.ofNat 12)
  | 'n' => some '\n'
  | 'r' => some '\r'
  | 't' => some '\t'
  | _ => none

/-- A text up to its closing quote, the opening one being read; `fuel` bounds its characters. -/
def stringBody? : (fuel : Nat) → List Char → Option (List Char × List Char)
  | 0, _ => none
  | fuel + 1, cs =>
    match cs with
    | [] => none
    | '"' :: rest => some ([], rest)
    | '\\' :: 'u' :: rest => do
      let (c, rest) ← escapedUnit? rest
      let (body, rest) ← stringBody? fuel rest
      return (c :: body, rest)
    | '\\' :: e :: rest => do
      let c ← escapeOf? e
      let (body, rest) ← stringBody? fuel rest
      return (c :: body, rest)
    | c :: rest =>
      if c.toNat < 0x20 then none
      else do
        let (body, rest) ← stringBody? fuel rest
        return (c :: body, rest)

/-- The digits a text starts with, at least one of them. -/
def digits? (cs : List Char) : Option (List Char × List Char) :=
  let digits := cs.takeWhile Char.isDigit
  if digits.isEmpty then none else some (digits, cs.drop digits.length)

/-- A whole part without leading zeros. -/
def wholePart? (cs : List Char) : Option (List Char × List Char) :=
  match cs with
  | '0' :: rest => some (['0'], rest)
  | _ => digits? cs

/-- Digits behind a mark that `isMark` accepts, or nothing where there is no such mark. -/
def partBehind? (isMark : Char → Bool) (signed : Bool) (cs : List Char) :
    Option (List Char × List Char) :=
  match cs with
  | mark :: rest =>
    if isMark mark then
      match signed, rest with
      | true, '+' :: rest => (digits? rest).map fun (ds, rest) => (mark :: '+' :: ds, rest)
      | true, '-' :: rest => (digits? rest).map fun (ds, rest) => (mark :: '-' :: ds, rest)
      | _, rest => (digits? rest).map fun (ds, rest) => (mark :: ds, rest)
    else some ([], cs)
  | [] => some ([], [])

def number? (cs : List Char) : Option (List Char × List Char) := do
  let (sign, rest) := match cs with
    | '-' :: rest => (['-'], rest)
    | rest => ([], rest)
  let (whole, rest) ← wholePart? rest
  let (fraction, rest) ← partBehind? (· == '.') false rest
  let (exponent, rest) ← partBehind? (fun c => c == 'e' || c == 'E') true rest
  return (sign ++ whole ++ fraction ++ exponent, rest)

/-- `value` and the rest, if the text starts with `word`. -/
def word? (word : String) (value : Json) (cs : List Char) : Option (Json × List Char) :=
  (after? word.toList cs).map fun rest => (value, rest)

mutual

/-- The value a text starts with. -/
def value? : (fuel : Nat) → List Char → Option (Json × List Char)
  | 0, _ => none
  | fuel + 1, cs =>
    match skipGap cs with
    | '"' :: rest => do
      let (body, rest) ← stringBody? (rest.length + 1) rest
      return (.text (String.ofList body), rest)
    | '[' :: rest =>
      match skipGap rest with
      | ']' :: rest => some (.list [], rest)
      | rest => do
        let (items, rest) ← items? fuel rest
        return (.list items, rest)
    | c :: rest =>
      if c.toNat = 0x7B then
        match skipGap rest with
        | [] => none
        | d :: more =>
          if d.toNat = 0x7D then some (.record [], more)
          else do
            let (fields, rest) ← fields? fuel (d :: more)
            return (.record fields, rest)
      else if c = 't' then word? "true" (.flag true) (c :: rest)
      else if c = 'f' then word? "false" (.flag false) (c :: rest)
      else if c = 'n' then word? "null" .null (c :: rest)
      else do
        let (digits, rest) ← number? (c :: rest)
        return (.number (String.ofList digits), rest)
    | [] => none

/-- Items with commas between them, up to the closing bracket. -/
def items? : (fuel : Nat) → List Char → Option (List Json × List Char)
  | 0, _ => none
  | fuel + 1, cs => do
    let (item, rest) ← value? fuel cs
    match skipGap rest with
    | ',' :: rest =>
      let (items, rest) ← items? fuel rest
      return (item :: items, rest)
    | ']' :: rest => return ([item], rest)
    | _ => none

/-- Fields with commas between them, up to the closing brace. -/
def fields? : (fuel : Nat) → List Char → Option (List (String × Json) × List Char)
  | 0, _ => none
  | fuel + 1, cs => do
    match skipGap cs with
    | '"' :: rest =>
      let (name, rest) ← stringBody? (rest.length + 1) rest
      let rest ← after? [':'] (skipGap rest)
      let (value, rest) ← value? fuel rest
      match skipGap rest with
      | ',' :: rest =>
        let (fields, rest) ← fields? fuel rest
        return ((String.ofList name, value) :: fields, rest)
      | c :: rest => if c.toNat = 0x7D then return ([(String.ofList name, value)], rest) else none
      | [] => none
    | _ => none

end

/-- The value that a whole text stands for. -/
def read? (cs : List Char) : Option Json := do
  let (value, rest) ← value? (2 * cs.length + 2) cs
  if (skipGap rest).isEmpty then some value else none

end Sinkhole.Json
