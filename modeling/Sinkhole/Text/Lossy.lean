/-! Reading bytes as text when they may not be text.

A downloaded list is bytes. Where they are UTF-8 they are read as such; every
longest stretch that could have begun a character but did not become one is read
as a single replacement character, so a broken line stays one line and the rest
of it keeps its meaning. -/
namespace Sinkhole.Text

/-- The character that stands for bytes that are no text. -/
def replacement : Char := Char.ofNat 0xFFFD

def isTail (b : UInt8) : Bool := 0x80 ≤ b && b ≤ 0xBF

/-- The bytes that may follow a first byte of a three-byte character. -/
def isSecondOfThree (first b : UInt8) : Bool :=
  (first == 0xE0 && 0xA0 ≤ b && b ≤ 0xBF) ||
  (first == 0xED && 0x80 ≤ b && b ≤ 0x9F) ||
  (first != 0xE0 && first != 0xED && isTail b)

/-- The bytes that may follow a first byte of a four-byte character. -/
def isSecondOfFour (first b : UInt8) : Bool :=
  (first == 0xF0 && 0x90 ≤ b && b ≤ 0xBF) ||
  (first == 0xF4 && 0x80 ≤ b && b ≤ 0x8F) ||
  (first != 0xF0 && first != 0xF4 && isTail b)

/-- What the bytes start with: a character and the number of bytes it took. -/
def firstChar (b : UInt8) (rest : List UInt8) : Char × Nat :=
  if b ≤ 0x7F then (Char.ofNat b.toNat, 1)
  else if 0xC2 ≤ b && b ≤ 0xDF then
    match rest with
    | c :: _ =>
      if isTail c then (Char.ofNat ((b.toNat % 0x20) * 0x40 + c.toNat % 0x40), 2)
      else (replacement, 1)
    | [] => (replacement, 1)
  else if 0xE0 ≤ b && b ≤ 0xEF then
    match rest with
    | c :: rest =>
      if isSecondOfThree b c then
        match rest with
        | d :: _ =>
          if isTail d then
            (Char.ofNat ((b.toNat % 0x10) * 0x1000 + (c.toNat % 0x40) * 0x40 + d.toNat % 0x40), 3)
          else (replacement, 2)
        | [] => (replacement, 2)
      else (replacement, 1)
    | [] => (replacement, 1)
  else if 0xF0 ≤ b && b ≤ 0xF4 then
    match rest with
    | c :: rest =>
      if isSecondOfFour b c then
        match rest with
        | d :: rest =>
          if isTail d then
            match rest with
            | e :: _ =>
              if isTail e then
                (Char.ofNat ((b.toNat % 8) * 0x40000 + (c.toNat % 0x40) * 0x1000 +
                  (d.toNat % 0x40) * 0x40 + e.toNat % 0x40), 4)
              else (replacement, 3)
            | [] => (replacement, 3)
          else (replacement, 2)
        | [] => (replacement, 2)
      else (replacement, 1)
    | [] => (replacement, 1)
  else (replacement, 1)

/-- One step along the bytes: `skip` bytes still belong to the last character. -/
def decodeFrom (skip : Nat) (read : Array Char) : List UInt8 → Array Char
  | [] => read
  | b :: rest =>
    match skip with
    | k + 1 => decodeFrom k read rest
    | 0 =>
      let (c, taken) := firstChar b rest
      decodeFrom (taken - 1) (read.push c) rest

/-- The text the bytes hold, with a replacement character for each stretch that is none. -/
def decode (bytes : List UInt8) : List Char := (decodeFrom 0 #[] bytes).toList

/-- The UTF-8 bytes of a text. -/
def encode (s : String) : List UInt8 := s.toUTF8.toList

/-- The text that bytes are, if they are one: nothing had to be replaced. -/
def decode? (bytes : List UInt8) : Option (List Char) :=
  let cs := decode bytes
  if encode (String.ofList cs) = bytes then some cs else none

end Sinkhole.Text
