import Sinkhole.Yaml.Scalar

/-! The tokens of a YAML text, apart from how they follow each other.

A scalar is one token, and so is each mark; where a block begins or ends there is a
token too, though no character of the text stands for it. -/
namespace Sinkhole.Yaml

/-- How a scalar is written. -/
inductive Style where
  | plain
  | quoted
  | literal
  | folded
  deriving DecidableEq, Repr

/-- A piece of a YAML text. -/
inductive Token where
  | version (major minor : Nat)
  /-- What tags that begin with a handle stand for. -/
  | tagPrefix (handle text : List Char)
  | documentStart
  | documentEnd
  | blockSequence
  | blockMapping
  | blockEnd
  | flowSequence
  | flowSequenceEnd
  | flowMapping
  | flowMappingEnd
  | entry
  | comma
  | key
  | value
  | alias (name : List Char)
  | anchor (name : List Char)
  | tag (handle suffix : List Char)
  | scalar (style : Style) (text : List Char)
  deriving DecidableEq, Repr

/-! ### Names -/

/-- The name behind the mark of an anchor or alias. -/
def anchorName : Walk (List Char) := do
  skip 1
  let name ← takeWhile isNameChar
  let rest ← ahead
  require (!name.isEmpty && (endsToken rest || rest.head?.any fun c =>
    ['?', ':', ',', ']', '%', '@', closeBrace, Char.ofNat 0x60].contains c))
  return name

/-! ### Tags -/

/-- How many bytes the character takes whose first byte this is. -/
def byteCount? (first : Nat) : Option Nat :=
  if first < 0x80 then some 1
  else if 0xC0 ≤ first && first < 0xE0 then some 2
  else if 0xE0 ≤ first && first < 0xF0 then some 3
  else if 0xF0 ≤ first && first < 0xF8 then some 4
  else none

/-- The byte that an escape of a percent sign and two digits stands for. -/
def escapedByte : Walk Nat := do
  match ← ahead with
  | '%' :: high :: low :: _ =>
    match Value.digitIn? 16 high, Value.digitIn? 16 low with
    | some h, some l =>
      skip 3
      return h * 16 + l
    | _, _ => refuse
  | _ => refuse

/-- Escapes of the further bytes of a character. -/
def escapedTail : (count : Nat) → Walk (List Char)
  | 0 => return []
  | count + 1 => do
    let b ← escapedByte
    require (0x80 ≤ b && b < 0xC0)
    return Char.ofNat b :: (← escapedTail count)

/-- A character written as escapes of its bytes; each byte counts as a character. -/
def escapedChar : Walk (List Char) := do
  let b ← escapedByte
  match byteCount? b with
  | some count => return Char.ofNat b :: (← escapedTail (count - 1))
  | none => refuse

/-- Characters of a tag: some marks only where it is written out in full. -/
def isTagChar (full : Bool) (c : Char) : Bool :=
  isNameChar c || [';', '/', '?', ':', '@', '&', '=', '+', '$', '.', '%', '!', '~', '*', '\'', '(',
    ')'].contains c || (full && (c == ',' || c == '[' || c == ']'))

/-- The text of a tag from here on. -/
def tagChars (full : Bool) : (fuel : Nat) → Walk (List Char)
  | 0 => return []
  | fuel + 1 => do
    match (← ahead).head? with
    | some c =>
      if !isTagChar full c then return []
      else if c == '%' then
        let chars ← escapedChar
        return chars ++ (← tagChars full fuel)
      else
        skip 1
        return c :: (← tagChars full fuel)
    | none => return []

/-- The text of a tag behind what of it is read; it ends where an escape stands for a zero. -/
def tagText (full : Bool) (read : List Char) : Walk (List Char) := do
  let more ← tagChars full (← steps)
  require !(read.isEmpty && more.isEmpty)
  return (read.drop 1 ++ more).takeWhile (·.toNat ≠ 0)

/-- What could be a handle: an exclamation mark, name characters, and perhaps another one. -/
def handle : Walk (List Char) := do
  require ((← ahead).head? == some '!')
  skip 1
  let name ← takeWhile isNameChar
  if (← ahead).head? == some '!' then
    skip 1
    return '!' :: (name ++ ['!'])
  else return '!' :: name

/-- Whether it is one, which means something of its own. -/
def isHandle (cs : List Char) : Bool := cs.length > 1 && cs.getLast? == some '!'

/-- A tag: in full between angle brackets, behind a handle, or behind an exclamation mark. The
mark alone is a tag as well. -/
def tag (inFlow : Bool) : Walk Token := do
  let token ←
    if (← ahead).take 2 == ['!', '<'] then
      skip 2
      let text ← tagText true []
      require ((← ahead).head? == some '>')
      skip 1
      pure (Token.tag [] text)
    else
      let h ← handle
      if isHandle h then pure (Token.tag h (← tagText false []))
      else
        let text ← tagText false h
        pure (if text.isEmpty then Token.tag [] ['!'] else Token.tag ['!'] text)
  let rest ← ahead
  require (endsToken rest || (inFlow && rest.head? == some ','))
  return token

/-! ### Directives -/

/-- A number of up to nine digits. -/
def versionNumber : Walk Nat := do
  let digits ← takeWhile Char.isDigit
  require (!digits.isEmpty && digits.length ≤ 9)
  return digits.foldl (fun n c => n * 10 + (c.toNat - 48)) 0

/-- A line that says something about the document: the version it is written in, or what the
tags stand for that begin with a handle. -/
def directive : Walk Token := do
  skip 1
  let name ← takeWhile isNameChar
  require (!name.isEmpty && endsToken (← ahead))
  let _ ← takeWhile isBlank
  let token ←
    if name == "YAML".toList then do
      let major ← versionNumber
      require ((← ahead).head? == some '.')
      skip 1
      pure (Token.version major (← versionNumber))
    else if name == "TAG".toList then do
      let h ← handle
      require (h == ['!'] || isHandle h)
      require ((← ahead).head?.any isBlank)
      let _ ← takeWhile isBlank
      let text ← tagText true []
      require (endsToken (← ahead))
      pure (Token.tagPrefix h text)
    else refuse
  finishLine
  return token

end Sinkhole.Yaml
