import Sinkhole.Text.Blank
import Sinkhole.Text.Combining
import Sinkhole.Text.Hidden

/-! Names in other letters, as hosts are written in ASCII.

A label that is marked so is the ASCII letters of a name and then, behind the last dash,
where to put the other ones: numbers of a varying count of digits, each of which tells how
far the next character is in the order of codes and places. -/
namespace Sinkhole.Url

open Text

/-- What a label begins with that stands for other letters. -/
def letterMark : List Char := "xn--".toList

namespace Punycode

/-- Letters are the digits up to 25, and decimal digits are those from there on. -/
def digit? (c : Char) : Option Nat :=
  if 'a' ≤ c ∧ c ≤ 'z' then some (c.toNat - 97)
  else if c.isDigit then some (c.toNat - 22)
  else none

/-- The greatest number that is counted to. -/
def limit : Nat := 0xFFFFFFFF

/-- The digits below this one are the last of a number. -/
def threshold (place bias : Nat) : Nat := min (max (place - bias) 1) 26

/-- The number that the digits behind `value` come to, and the rest. -/
def number? (bias : Nat) : (place weight value : Nat) → List Char → Option (Nat × List Char)
  | _, _, _, [] => none
  | place, weight, value, c :: rest => do
    let d ← digit? c
    let value := value + d * weight
    if value > limit then none
    else
      let t := threshold place bias
      if d < t then return (value, rest)
      else if weight * (36 - t) > limit then none
      else number? bias (place + 36) (weight * (36 - t)) value rest

/-- How often a number is divided until it is small, and what is left of it. -/
def reduced : (fuel : Nat) → Nat → Nat × Nat
  | 0, n => (0, n)
  | fuel + 1, n =>
    if n ≤ 455 then (0, n)
    else
      let (count, rest) := reduced fuel (n / 35)
      (count + 1, rest)

/-- The bias for the next number, after one that came to `step` with so many characters. -/
def nextBias (step count : Nat) (first : Bool) : Nat :=
  let step := if first then step / 700 else step / 2
  let (times, rest) := reduced 8 (step + step / count)
  36 * times + 36 * rest / (rest + 38)

/-- Puts the characters in that the numbers tell of, from a code and a place on. -/
def inserted? : (fuel : Nat) → (chars : List Char) → (code place bias : Nat) → List Char →
    Option (List Char)
  | _, chars, _, _, _, [] => some chars
  | 0, _, _, _, _, _ => none
  | fuel + 1, chars, code, place, bias, digits => do
    let (value, rest) ← number? bias 36 1 place digits
    let count := chars.length + 1
    let code := code + value / count
    if code.isValidChar then
      inserted? fuel (chars.insertIdx (value % count) (Char.ofNat code)) code (value % count + 1)
        (nextBias (value - place) count (place = 0)) rest
    else none

/-- The name that a label stands for. -/
def decode? (cs : List Char) : Option (List Char) :=
  let digits := (cs.reverse.takeWhile (· != '-')).reverse
  let chars := cs.take (cs.length - digits.length - 1)
  let digits := if chars.isEmpty then cs else digits
  inserted? digits.length chars 128 0 72 digits

end Punycode

/-- Whether a label stands for a name that shows and begins with a character of its own; one that
is not marked stands for itself. -/
def isLabel (label : List Char) : Bool :=
  match after? letterMark label with
  | none => true
  | some rest =>
    match Punycode.decode? rest with
    | some name =>
      name.any (·.toNat ≥ 128) && !name.any isHidden && !name.head?.any isCombining
    | none => false

end Sinkhole.Url
