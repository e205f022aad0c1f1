import Sinkhole.Text.Lossy
import Sinkhole.Address

/-! Percent-encoding, and the form encoding of query parameters.

Which characters a part of a URL keeps as they are is a predicate; every other
character is written as its UTF-8 bytes, each a `%` and two digits. -/
namespace Sinkhole.Url

/-- A hexadecimal digit in upper case. -/
def hexDigit (n : Nat) : Char := if n < 10 then Char.ofNat (48 + n) else Char.ofNat (55 + n)

def encodeByte (b : UInt8) : List Char :=
  ['%', hexDigit (b.toNat / 16), hexDigit (b.toNat % 16)]

/-- `cs` with every character that `keeps` refuses written as its bytes. -/
def percentEncode (keeps : Char → Bool) (cs : List Char) : List Char :=
  cs.flatMap fun c => if keeps c then [c] else (String.utf8EncodeChar c).flatMap encodeByte

/-- The byte that two hexadecimal digits stand for. -/
def hexByte? (high low : Char) : Option UInt8 := do
  return UInt8.ofNat ((← Address.digit? 16 high) * 16 + (← Address.digit? 16 low))

/-- The bytes of a text after its percent signs are read; a `%` without two digits behind it
stands for itself. -/
def percentDecode : List Char → List UInt8
  | '%' :: high :: low :: rest =>
    match hexByte? high low with
    | some b => b :: percentDecode rest
    | none => 0x25 :: percentDecode (high :: low :: rest)
  | c :: rest => String.utf8EncodeChar c ++ percentDecode rest
  | [] => []

/-! ### What each part keeps -/

/-- Printable ASCII. -/
def isPlain (c : Char) : Bool := 0x20 ≤ c.toNat && c.toNat ≤ 0x7E

def keepsInFragment (c : Char) : Bool := isPlain c && !([' ', '"', '<', '>', Char.ofNat 0x60].contains c)

def keepsInPath (c : Char) : Bool :=
  keepsInFragment c && !(['#', '?', Char.ofNat 0x7B, Char.ofNat 0x7D].contains c)

def keepsInUser (c : Char) : Bool :=
  keepsInPath c && !(['/', ':', ';', '=', '@', '[', '\\', ']', '^', '|'].contains c)

def keepsInQuery (special : Bool) (c : Char) : Bool :=
  isPlain c && !([' ', '"', '#', '<', '>'].contains c) && !(special && c.toNat == 0x27)

/-! ### Query parameters -/

def keepsInForm (c : Char) : Bool :=
  c.isAlpha || c.isDigit || c == '*' || c == '-' || c == '.' || c == '_'

/-- A name or value of a parameter: a blank becomes a plus. -/
def formEncode (cs : List Char) : List Char :=
  cs.flatMap fun c => if c = ' ' then ['+'] else percentEncode keepsInForm [c]

/-- Reads what `formEncode` wrote. -/
def formDecode (cs : List Char) : List UInt8 :=
  percentDecode (cs.map fun c => if c = '+' then ' ' else c)

def formPair (name value : List Char) : List Char := formEncode name ++ '=' :: formEncode value

/-- Parameters behind what a query already holds. -/
def appendPairs (query : List Char) (pairs : List (List Char × List Char)) : List Char :=
  pairs.foldl (fun q (name, value) =>
    (if q.isEmpty then q else q ++ ['&']) ++ formPair name value) query

end Sinkhole.Url
