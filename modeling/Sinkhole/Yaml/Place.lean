import Sinkhole.Text.Blank

/-! Places in a YAML text.

A place is what is left of the text, with how far into it that is, the line and the
column; columns are what gives blocks their structure. A walk is a step from place to
place that may fail. Inside a scalar a line break is a line feed, whatever it was in
the text, except for the two separators of Unicode, which stay what they are. -/
namespace Sinkhole.Yaml

/-- Where in the text reading has got to. -/
structure Place where
  rest : List Char
  index : Nat := 0
  line : Nat := 0
  column : Nat := 0
  /-- More steps than any part of the text takes. -/
  steps : Nat := rest.length + 1
  deriving DecidableEq, Repr

/-- A step through a text; none if the text is no YAML. -/
abbrev Walk := StateT Place Option

/-! ### Characters -/

/-- Characters that a YAML text may hold. -/
def isAllowed (c : Char) : Bool :=
  let n := c.toNat
  n == 9 || n == 10 || n == 13 || (0x20 ≤ n && n ≤ 0x7E) || n == 0x85 ||
    (0xA0 ≤ n && n ≤ 0xFFFD) || 0x10000 ≤ n

def isBreak (c : Char) : Bool :=
  let n := c.toNat
  n == 10 || n == 13 || n == 0x85 || n == 0x2028 || n == 0x2029

def isBlank (c : Char) : Bool := c == ' ' || c == '\t'

/-- Letters, digits and the two marks that names are made of. -/
def isNameChar (c : Char) : Bool := c.isAlpha || c.isDigit || c == '_' || c == '-'

/-- The mark of byte order, which may stand before a line. -/
def orderMark : Char := Char.ofNat 0xFEFF

def openBrace : Char := Char.ofNat 0x7B

def closeBrace : Char := Char.ofNat 0x7D

/-- Marks that separate and enclose values in brackets. -/
def isFlowMark (c : Char) : Bool :=
  c == ',' || c == '[' || c == ']' || c == openBrace || c == closeBrace

/-- Whether there is a blank, a line break or nothing at all. -/
def endsToken : List Char → Bool
  | [] => true
  | c :: _ => isBlank c || isBreak c

/-- Whether the line is over. -/
def endsLine (cs : List Char) : Bool := cs.head?.all isBreak

/-! ### Places -/

namespace Place

/-- The place `n` characters on, on the same line. -/
def skip (n : Nat) (p : Place) : Place :=
  { p with rest := p.rest.drop n, index := p.index + n, column := p.column + n }

/-- The place behind the line break that stands here, and what the break is in a scalar. -/
def nextLine (p : Place) : List Char × Place :=
  let next (n : Nat) : Place :=
    { p with rest := p.rest.drop n, index := p.index + n, line := p.line + 1, column := 0 }
  match p.rest with
  | '\r' :: '\n' :: _ => (['\n'], next 2)
  | c :: _ =>
    if c.toNat == 0x2028 || c.toNat == 0x2029 then ([c], next 1)
    else if isBreak c then (['\n'], next 1)
    else ([], p)
  | [] => ([], p)

/-- Whether the text goes on with three of a mark that stand alone at the start of a line. -/
def isAtMark (mark : Char) (p : Place) : Bool :=
  p.column == 0 && p.rest.take 3 == [mark, mark, mark] && endsToken (p.rest.drop 3)

/-- Whether a line that begins or ends a document starts here. -/
def isAtDocument (p : Place) : Bool := p.isAtMark '-' || p.isAtMark '.'

end Place

/-! ### Walking -/

def ahead : Walk (List Char) := do return (← get).rest

def steps : Walk Nat := do return (← get).steps

def refuse {α : Type} : Walk α := StateT.lift none

def require (b : Bool) : Walk Unit := if b then return () else refuse

def skip (n : Nat) : Walk Unit := modify (Place.skip n)

/-- Past a line break, if there is one, which is told as it counts in a scalar. -/
def lineBreak : Walk (List Char) := modifyGet Place.nextLine

/-- The characters up to the first that `p` refuses; `p` has to refuse line breaks. -/
def takeWhile (p : Char → Bool) : Walk (List Char) := do
  let taken := (← ahead).takeWhile p
  skip taken.length
  return taken

/-- Past a comment, if one starts here. -/
def skipComment : Walk Unit := do
  if (← ahead).head? == some '#' then
    let _ ← takeWhile (!isBreak ·)

/-- Past blanks and a comment to the end of the line and over it. -/
def finishLine : Walk Unit := do
  let _ ← takeWhile isBlank
  skipComment
  require (endsLine (← ahead))
  let _ ← lineBreak

end Sinkhole.Yaml
