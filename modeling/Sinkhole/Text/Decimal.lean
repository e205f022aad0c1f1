import Sinkhole.Text.Blank

/-! Whole numbers in decimal, read and written. -/
namespace Sinkhole.Text

def digit? (c : Char) : Option Nat := if c.isDigit then some (c.toNat - 48) else none

/-- The value of a text of digits, none of anything else; the empty text is no number. -/
def natural? (cs : List Char) : Option Nat :=
  if cs.isEmpty then none
  else cs.foldl (fun value c => do return (← value) * 10 + (← digit? c)) (some 0)

/-- The greatest number of so many bits. -/
def greatest (bits : Nat) : Nat := Nat.pow 2 bits - 1

/-- A number that a plus may precede, at most `limit`. -/
def bounded? (limit : Nat) (cs : List Char) : Option Nat := do
  let n ← natural? (match cs with
    | '+' :: rest => rest
    | cs => cs)
  if n ≤ limit then some n else none

/-- A number with an optional sign that fits 64 bits. -/
def signed? (cs : List Char) : Option Int :=
  match cs with
  | '-' :: rest => do
    let n ← natural? rest
    if n ≤ greatest 63 + 1 then some (-n) else none
  | cs => (bounded? (greatest 63) cs).map fun n => (n : Int)

/-- The digits of `n`, with zeros before them up to `width`. -/
def padded (width n : Nat) : String := padStart width '0' (toString n)

/-- A year: four digits between 0 and 9999, beyond that a sign as well. -/
def yearText (year : Int) : String :=
  if 0 ≤ year ∧ year ≤ 9999 then padded 4 year.toNat
  else (if year < 0 then "-" else "+") ++ padded 4 year.natAbs

end Sinkhole.Text
