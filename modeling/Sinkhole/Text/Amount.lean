import Sinkhole.Text.Decimal

/-! Amounts as people read them.

Counts and sizes are cut to one place behind the point. The quotient behind that
digit is not the exact one: it is the nearest number of 53 significant bits, and the
digit is the nearest to that, the even one where two are equally near. So 1.15 is
shown as 1.1, since the nearest such number lies below it. -/
namespace Sinkhole.Text

/-- `num / den` to the nearest whole number, a half to the even one. -/
def nearest (num den : Nat) : Nat :=
  let quotient := num / den
  let rest := num % den
  if 2 * rest < den then quotient
  else if den < 2 * rest then quotient + 1
  else quotient + quotient % 2

/-- A quotient of two numbers. -/
structure Ratio where
  num : Nat
  den : Nat
  deriving DecidableEq, Repr

namespace Ratio

/-- The power of two at or below a ratio that is at least 1. -/
def exponent (r : Ratio) : Nat :=
  let guess := r.num.log2 - r.den.log2
  if r.num < r.den * Nat.pow 2 guess then guess - 1 else guess

/-- The nearest ratio of 53 significant bits to one that is at least 1. -/
def rounded (r : Ratio) : Ratio :=
  let e := r.exponent
  if e ≤ 52 then ⟨nearest (r.num * Nat.pow 2 (52 - e)) r.den, Nat.pow 2 (52 - e)⟩
  else ⟨nearest r.num (r.den * Nat.pow 2 (e - 52)) * Nat.pow 2 (e - 52), 1⟩

/-- A ratio with one digit behind the point. -/
def oneDigit (r : Ratio) : String :=
  let tenths := nearest (r.num * 10) r.den
  toString (tenths / 10) ++ "." ++ toString (tenths % 10)

end Ratio

/-- `amount` in units of `unit`, with one digit behind the point. -/
def inUnits (amount unit : Nat) : String :=
  let a := Ratio.rounded ⟨amount, 1⟩
  (Ratio.rounded ⟨a.num, a.den * unit⟩).oneDigit

/-- A count in thousands or millions, if it has as many. -/
def shortCount (n : Nat) : String :=
  if n ≥ 1000000 then inUnits n 1000000 ++ "M"
  else if n ≥ 1000 then inUnits n 1000 ++ "K"
  else toString n

/-- `digits`, from the last one on, with a comma behind every third. -/
def groupedFromEnd : List Char → List Char
  | a :: b :: c :: d :: rest => a :: b :: c :: ',' :: groupedFromEnd (d :: rest)
  | digits => digits

/-- A count with commas between groups of three digits. -/
def separatedCount (n : Nat) : String :=
  String.ofList (groupedFromEnd (toString n).toList.reverse).reverse

/-- A number of bytes in the largest unit that it has at least one of. -/
def byteCount (n : Nat) : String :=
  if n ≥ Nat.pow 1024 3 then inUnits n (Nat.pow 1024 3) ++ " GB"
  else if n ≥ Nat.pow 1024 2 then inUnits n (Nat.pow 1024 2) ++ " MB"
  else if n ≥ 1024 then inUnits n 1024 ++ " KB"
  else toString n ++ " B"

/-- A percentage as a bar of `width` cells, as many of them filled as are wholly reached. -/
def bar (percent width : Nat) : String :=
  let filled := min percent 100 * width / 100
  "[" ++ repeated filled '#' ++ repeated (width - filled) '.' ++ "]"

/-- The characters `cs` starts with that have at most `most` bytes together. -/
def takeBytes (most : Nat) : List Char → List Char
  | [] => []
  | c :: cs => if c.utf8Size ≤ most then c :: takeBytes (most - c.utf8Size) cs else []

/-- A text of at most `most` bytes: where it is longer, as much as fits before three points. -/
def abridged (most : Nat) (text : String) : String :=
  if text.utf8ByteSize ≤ most then text
  else String.ofList (takeBytes (most - 3) text.toList) ++ "..."

end Sinkhole.Text
