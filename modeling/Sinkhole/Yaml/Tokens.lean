import Sinkhole.Yaml.Token

/-! A YAML text as its tokens.

Blocks are told by columns: a dash or a key to the right of the block around it begins
a block, and whatever stands to the left of one ends it. That something is a key shows
only at the colon behind it, so the place of every token that could be a key is kept,
and the marks of the key and of the block it begins are put in there later. A key ends
on its line and within 1024 characters; where only a key can stand, one has to. -/
namespace Sinkhole.Yaml

/-- A token that a colon would make a key: where it stands, and which token it is. -/
structure PossibleKey where
  place : Place
  token : Nat
  /-- Whether nothing else than a key can stand there. -/
  required : Bool
  deriving DecidableEq, Repr

/-- What has been read of a text. -/
structure Scanner where
  place : Place
  /-- The tokens so far, the last one first. -/
  back : List Token := []
  count : Nat := 0
  /-- The column of the innermost block, and those of the blocks around it. -/
  indent : Int := -1
  outer : List Int := []
  /-- Whether a block or a key may begin here. -/
  keyAllowed : Bool := true
  key : Option PossibleKey := none
  /-- The possible keys outside the brackets around the place. -/
  outerKeys : List (Option PossibleKey) := []

/-- A step that reads on. -/
abbrev Scan := StateT Scanner Option

namespace Scan

/-- A walk of the place. -/
def walk {α : Type} (w : Walk α) : Scan α := do
  let s ← get
  match w.run s.place with
  | some (a, place) =>
    set { s with place }
    return a
  | none => StateT.lift none

def require (b : Bool) : Scan Unit := if b then return () else StateT.lift none

def place : Scan Place := do return (← get).place

def ahead : Scan (List Char) := do return (← get).place.rest

/-- Whether there are brackets around the place. -/
def inFlow : Scan Bool := do return !(← get).outerKeys.isEmpty

def allowKey (b : Bool) : Scan Unit := modify fun s => { s with keyAllowed := b }

def emit (t : Token) : Scan Unit :=
  modify fun s => { s with back := t :: s.back, count := s.count + 1 }

/-- A mark of so many characters. -/
def mark (t : Token) (width : Nat) : Scan Unit := do
  walk (skip width)
  emit t

/-- Puts a token in before the one with a number. -/
def insert (number : Nat) (t : Token) : Scan Unit :=
  modify fun s =>
    { s with back := s.back.insertIdx (s.count - number) t, count := s.count + 1 }

/-! ### Blocks -/

/-- Begins a block at a column that is to the right of the one around it; `number` is the token
that it begins with, if that is there already. -/
def openBlock (column : Nat) (number : Option Nat) (t : Token) : Scan Unit := do
  let s ← get
  if s.outerKeys.isEmpty && s.indent < column then
    set { s with indent := column, outer := s.indent :: s.outer }
    match number with
    | some n => insert n t
    | none => emit t

/-- Ends the blocks to the right of a column. -/
def closeBlocks (column : Int) : (outer : List Int) → Scan Unit
  | [] => return ()
  | around :: outer => do
    if (← get).indent > column then
      emit .blockEnd
      modify fun s => { s with indent := around, outer }
      closeBlocks column outer

def unindent (column : Int) : Scan Unit := do
  unless ← inFlow do closeBlocks column (← get).outer

/-! ### Keys -/

/-- A possible key is none any more; one that had to be one is missed. -/
def dropKey : Scan Unit := do
  require !((← get).key.any (·.required))
  modify fun s => { s with key := none }

/-- The token that comes next could be a key, if one is allowed here. -/
def saveKey : Scan Unit := do
  let s ← get
  if s.keyAllowed then
    dropKey
    let required := s.outerKeys.isEmpty && s.indent == s.place.column
    modify fun s => { s with key := some ⟨s.place, s.count, required⟩ }

/-- Whether a key that begins where `k` does could still end here. -/
def PossibleKey.reaches (k : PossibleKey) (p : Place) : Bool :=
  k.place.line = p.line && p.index ≤ k.place.index + 1024

/-- Forgets keys that have become too long. -/
def dropStaleKeys : Scan Unit := do
  let s ← get
  let isStale (k : PossibleKey) : Bool := !PossibleKey.reaches k s.place
  require ((s.key :: s.outerKeys).all fun key? => !key?.any fun k => isStale k && k.required)
  let fresh (key? : Option PossibleKey) : Option PossibleKey := key?.filter fun k => !isStale k
  set { s with key := fresh s.key, outerKeys := s.outerKeys.map fresh }

/-! ### Between tokens -/

/-- Past blanks, comments and line breaks. A tab counts as a blank only where no block can
begin. -/
def gap : (fuel : Nat) → Scan Unit
  | 0 => return ()
  | fuel + 1 => do
    let p ← place
    if p.column = 0 && p.rest.head? == some orderMark then walk (skip 1)
    let s ← get
    let tabs := !s.outerKeys.isEmpty || !s.keyAllowed
    let _ ← walk (takeWhile fun c => c == ' ' || (tabs && c == '\t'))
    walk skipComment
    if (← ahead).head?.any isBreak then
      let _ ← walk lineBreak
      if s.outerKeys.isEmpty then allowKey true
      gap fuel

/-! ### Tokens -/

/-- A mark that stands outside of all blocks. -/
def outside : Scan Unit := do
  unindent (-1)
  dropKey
  allowKey false

def openBracket (t : Token) : Scan Unit := do
  saveKey
  modify fun s => { s with key := none, outerKeys := s.key :: s.outerKeys, keyAllowed := true }
  mark t 1

def closeBracket (t : Token) : Scan Unit := do
  dropKey
  modify fun s =>
    match s.outerKeys with
    | key :: outerKeys => { s with key, outerKeys, keyAllowed := false }
    | [] => { s with keyAllowed := false }
  mark t 1

def comma : Scan Unit := do
  dropKey
  allowKey true
  mark .comma 1

def dash : Scan Unit := do
  unless ← inFlow do
    let s ← get
    require s.keyAllowed
    openBlock s.place.column none .blockSequence
  dropKey
  allowKey true
  mark .entry 1

/-- The mark of a key of any kind. -/
def question : Scan Unit := do
  unless ← inFlow do
    let s ← get
    require s.keyAllowed
    openBlock s.place.column none .blockMapping
  dropKey
  allowKey !(← inFlow)
  mark .key 1

/-- A colon makes a key of what could be one; else it follows the mark of a key. -/
def colon : Scan Unit := do
  let s ← get
  match s.key with
  | some k =>
    insert k.token .key
    openBlock k.place.column (some k.token) .blockMapping
    modify fun s => { s with key := none, keyAllowed := false }
  | none =>
    unless ← inFlow do
      require s.keyAllowed
      openBlock s.place.column none .blockMapping
    allowKey !(← inFlow)
  mark .value 1

/-- A token that may be a key. -/
def item (w : Walk Token) : Scan Unit := do
  saveKey
  allowKey false
  emit (← walk w)

def plain : Scan Unit := do
  saveKey
  allowKey false
  let (text, ended) ← walk (plainScalar ((← get).indent + 1) (← inFlow))
  if ended then allowKey true
  emit (.scalar .plain text)

def block (style : Style) : Scan Unit := do
  dropKey
  allowKey true
  let text ← walk (blockScalar (← get).indent)
  emit (.scalar style text)

/-- The next token, and whether there was one. -/
def next : Scan Bool := do
  gap (← place).steps
  dropStaleKeys
  unindent (← place).column
  let flow ← inFlow
  let p ← place
  let spaced := endsToken (p.rest.drop 1)
  match p.rest with
  | [] =>
    outside
    return false
  | c :: _ =>
    if p.column = 0 && c == '%' then
      outside
      emit (← walk directive)
    else if p.isAtMark '-' then
      outside
      mark .documentStart 3
    else if p.isAtMark '.' then
      outside
      mark .documentEnd 3
    else if c == '[' then openBracket .flowSequence
    else if c == openBrace then openBracket .flowMapping
    else if c == ']' then closeBracket .flowSequenceEnd
    else if c == closeBrace then closeBracket .flowMappingEnd
    else if c == ',' then comma
    else if c == '-' && spaced then dash
    else if c == '?' && (flow || spaced) then question
    else if c == ':' && (flow || spaced) then colon
    else if c == '*' then item do return .alias (← anchorName)
    else if c == '&' then item do return .anchor (← anchorName)
    else if c == '!' then item (tag flow)
    else if c == '|' && !flow then block .literal
    else if c == '>' && !flow then block .folded
    else if c == '\'' || c == '"' then item do return .scalar .quoted (← quotedScalar c)
    else
      require (startsPlain flow p.rest)
      plain
    return true

/-- The tokens up to the end. -/
def all : (fuel : Nat) → Scan Unit
  | 0 => return ()
  | fuel + 1 => do
    if ← next then all fuel

end Scan

/-- The tokens that a text is made of, if it is made of tokens. -/
def tokens? (cs : List Char) : Option (List Token) := do
  let ((), s) ← (Scan.all (cs.length + 1)).run { place := { rest := cs } }
  return s.back.reverse

end Sinkhole.Yaml
