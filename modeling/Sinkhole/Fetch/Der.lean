/-! Elements of bytes.

An element is a tag, a length and so many bytes, which may be elements again. A length
is written in the shortest form, and a tag is one byte. -/
namespace Sinkhole.Fetch

/-- A tag and what it is the tag of. -/
structure Element where
  tag : Nat
  content : List Nat
  deriving DecidableEq, Repr

namespace Element

/-! ### Tags -/

def truth : Nat := 0x01

def number : Nat := 0x02

def bits : Nat := 0x03

def octets : Nat := 0x04

def identifier : Nat := 0x06

def sequence : Nat := 0x30

/-- The tag of what is told by its number from other parts of a sequence. -/
def part (n : Nat) : Nat := 0xA0 + n

/-! ### Reading -/

/-- No element is as long as this. -/
def lengthLimit : Nat := 0xFFFF

/-- The length that the bytes start with, and the rest: in one byte below 128, else behind a byte
that says how many bytes it takes, up to four. -/
def length? : List Nat → Option (Nat × List Nat)
  | [] => none
  | first :: rest =>
    if first < 128 then some (first, rest)
    else
      let count := first - 128
      let length := (rest.take count).foldl (fun n b => n * 256 + b) 0
      let least := if count = 1 then 128 else Nat.pow 256 (count - 1)
      if 1 ≤ count && count ≤ 4 && count ≤ rest.length && least ≤ length then
        some (length, rest.drop count)
      else none

/-- The element that the bytes start with, and the rest. -/
def read? : List Nat → Option (Element × List Nat)
  | [] => none
  | tag :: rest => do
    let (length, body) ← length? rest
    if tag % 32 ≠ 31 && length < lengthLimit && length ≤ body.length then
      return (⟨tag, body.take length⟩, body.drop length)
    else none

/-- The elements that the bytes are made of. -/
def readAll? : (fuel : Nat) → List Nat → Option (List Element)
  | _, [] => some []
  | 0, _ => none
  | fuel + 1, bytes => do
    let (element, rest) ← read? bytes
    return element :: (← readAll? fuel rest)

/-- The elements inside an element with a tag. -/
def inside? (tag : Nat) (e : Element) : Option (List Element) :=
  if e.tag = tag then readAll? e.content.length e.content else none

end Element

end Sinkhole.Fetch
