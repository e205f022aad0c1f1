import Sinkhole.Text.Blank

/-! Keys and certificates among other text.

Each is a section between a line that begins it and a line that ends it, and is written
in base 64 there. The line that begins a section tells what it holds; a section of
a kind that nobody knows is passed over. -/
namespace Sinkhole.Fetch.Pem

open Text

/-! ### Base 64 -/

/-- The six bits a character stands for. -/
def sextet? (c : Char) : Option Nat :=
  if 'A' ≤ c ∧ c ≤ 'Z' then some (c.toNat - 65)
  else if 'a' ≤ c ∧ c ≤ 'z' then some (c.toNat - 71)
  else if c.isDigit then some (c.toNat + 4)
  else if c = '+' then some 62
  else if c = '/' then some 63
  else none

/-- The bytes of groups of four characters, the last of which may be filled up. Bits that are
left over do not matter. -/
def decodeGroups? : List Char → Option (List Nat)
  | [] => some []
  | [a, b, '=', '='] => do
    let n := (← sextet? a) * 64 + (← sextet? b)
    return [n / 16]
  | [a, b, c, '='] => do
    let n := ((← sextet? a) * 64 + (← sextet? b)) * 64 + (← sextet? c)
    return [n / 1024, n / 4 % 256]
  | a :: b :: c :: d :: rest => do
    let n := (((← sextet? a) * 64 + (← sextet? b)) * 64 + (← sextet? c)) * 64 + (← sextet? d)
    return n / 65536 :: n / 256 % 256 :: n % 256 :: (← decodeGroups? rest)
  | _ => none

/-- The bytes of a text, blanks in it left out. -/
def decode? (cs : List Char) : Option (List Nat) :=
  decodeGroups? (cs.filter fun c => c != ' ' && c != '\t' && c != '\n' && c != '\r')

/-! ### Sections -/

/-- What a section holds. -/
structure Section where
  label : String
  bytes : List Nat
  deriving DecidableEq, Repr

def certificateLabel : String := "CERTIFICATE"

/-- The kinds of sections that are read. -/
def knownLabels : List String :=
  [certificateLabel, "PUBLIC KEY", "RSA PRIVATE KEY", "PRIVATE KEY", "EC PRIVATE KEY", "X509 CRL",
    "CERTIFICATE REQUEST", "ECHCONFIG"]

def beginning : List Char := "-----BEGIN ".toList

/-- What a section is called by the rest of the line that begins it: all before the dashes at the
end, of which there have to be five, blanks around them left out. -/
def label? (cs : List Char) : Option (List Char) :=
  let close := (cs.reverse.takeWhile fun c => c == '-' || c == ' ').reverse
  if close.count '-' = 5 then
    some (cs.take (cs.length - close.length) ++ close.takeWhile (· == ' '))
  else none

/-- Whether a line ends the section with a label. -/
def ends (label line : List Char) : Bool :=
  (after? ("-----END ".toList ++ label ++ "-----".toList) line).isSome

/-- The sections of known kinds in some lines. `label` is that of the section that has begun and
`text` what of it is read; another beginning changes the label only. A section that does not
end, or is not in base 64, is an error. -/
def sectionsFrom? : (label : Option (List Char)) → (text : List Char) → List (List Char) →
    Option (List Section)
  | none, _, [] => some []
  | some _, _, [] => none
  | label, text, line :: lines =>
    match after? beginning line with
    | some rest =>
      match label? rest with
      | some label => sectionsFrom? (some label) text lines
      | none => none
    | none =>
      match label with
      | none => sectionsFrom? none text lines
      | some label =>
        if !ends label line then sectionsFrom? (some label) (text ++ line) lines
        else if knownLabels.contains (String.ofList label) then do
          let bytes ← decode? text
          return { label := String.ofList label, bytes } :: (← sectionsFrom? none [] lines)
        else sectionsFrom? none [] lines

/-- The sections of known kinds in a text. -/
def sections? (cs : List Char) : Option (List Section) :=
  sectionsFrom? none [] (pieces (fun c => c == '\n' || c == '\r') cs)

end Sinkhole.Fetch.Pem
