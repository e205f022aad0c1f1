import Sinkhole.Yaml.Place
import Sinkhole.Config.Value

/-! Scalars: plain ones, quoted ones and blocks of text.

A line break inside a plain or quoted scalar is folded: a single line feed becomes a
blank, and of more all but the first stay. Other line breaks are never folded away. -/
namespace Sinkhole.Yaml

/-! ### Seams -/

/-- What stands between two parts of a scalar: blanks, or line breaks with the blanks around
them left out. -/
structure Seam where
  blanks : List Char := []
  /-- Whether a line has ended. -/
  broken : Bool := false
  /-- The first line break. -/
  first : List Char := []
  /-- The line breaks after it. -/
  more : List Char := []
  deriving DecidableEq, Repr

/-- A seam as it is read. -/
def Seam.text (s : Seam) : List Char :=
  if !s.broken then s.blanks
  else if s.first.head? == some '\n' then (if s.more.isEmpty then [' '] else s.more)
  else s.first ++ s.more

/-- Blanks and line breaks from here on; at the start of a line a tab left of `column` is
refused. -/
def seamFrom (column : Int) : (fuel : Nat) → Seam → Walk Seam
  | 0, s => return s
  | fuel + 1, s => do
    let p ← get
    match p.rest with
    | [] => return s
    | c :: _ =>
      if isBlank c then
        require !(s.broken && c == '\t' && (p.column : Int) < column)
        skip 1
        seamFrom column fuel (if s.broken then s else { s with blanks := s.blanks ++ [c] })
      else if isBreak c then
        let ending ← lineBreak
        seamFrom column fuel <|
          if s.broken then { s with more := s.more ++ ending }
          else { blanks := [], broken := true, first := ending }
      else return s

/-- The seam that starts here, or goes on from one that has begun. -/
def seam (column : Int) (begun : Seam) : Walk Seam := do
  seamFrom column (← steps) begun

/-! ### Plain scalars -/

/-- Whether a plain scalar can start here. -/
def startsPlain (inFlow : Bool) : List Char → Bool
  | [] => false
  | c :: rest =>
    let isMark := isFlowMark c ||
      ['-', '?', ':', '#', '&', '*', '!', '|', '>', '\'', '"', '%', '@', Char.ofNat 0x60].contains c
    (!isMark && !isBlank c && !isBreak c) || (c == '-' && !rest.head?.any isBlank) ||
      (!inFlow && (c == '?' || c == ':') && !endsToken rest)

/-- The characters of a plain scalar up to a blank or to what ends the scalar; none where a
colon stands before a mark that it may not stand before. -/
def plainPart? (inFlow : Bool) : List Char → Option (List Char)
  | [] => some []
  | c :: rest =>
    if isBlank c || isBreak c then some []
    else if inFlow && c == ':' && rest.head?.any (fun d => isFlowMark d || d == '?') then none
    else if (c == ':' && endsToken rest) || (inFlow && isFlowMark c) then some []
    else (plainPart? inFlow rest).map (c :: ·)

/-- The parts of a plain scalar, read onto `back` in reverse, and whether lines have ended behind
the last. -/
def plainFrom (indent : Int) (inFlow : Bool) : (fuel : Nat) → (back : List Char) → Seam →
    Walk (List Char × Bool)
  | 0, back, s => return (back.reverse, s.broken)
  | fuel + 1, back, s => do
    let p ← get
    if p.isAtDocument || p.rest.head? == some '#' then return (back.reverse, s.broken)
    else
      match plainPart? inFlow p.rest with
      | none => refuse
      | some part =>
        skip part.length
        let back := if part.isEmpty then back else part.reverse ++ s.text.reverse ++ back
        let s := if part.isEmpty then s else {}
        if (← ahead).isEmpty || !endsToken (← ahead) then return (back.reverse, s.broken)
        else
          let s ← seam indent s
          if !inFlow && ((← get).column : Int) < indent then return (back.reverse, s.broken)
          else plainFrom indent inFlow fuel back s

/-- A plain scalar, continued on lines that are indented at least so far, and whether lines
have ended behind it. -/
def plainScalar (indent : Int) (inFlow : Bool) : Walk (List Char × Bool) := do
  plainFrom indent inFlow (← steps) [] {}

/-! ### Quoted scalars -/

/-- The character that an escape stands for, or the number of its hexadecimal digits. -/
def escape? (c : Char) : Option (Char ⊕ Nat) :=
  let code (n : Nat) : Option (Char ⊕ Nat) := some (.inl (Char.ofNat n))
  match c with
  | '0' => code 0
  | 'a' => code 7
  | 'b' => code 8
  | 't' => code 9
  | '\t' => code 9
  | 'n' => code 10
  | 'v' => code 11
  | 'f' => code 12
  | 'r' => code 13
  | 'e' => code 27
  | ' ' => code 32
  | '"' => code 34
  | '/' => code 47
  | '\\' => code 92
  | 'N' => code 0x85
  | '_' => code 0xA0
  | 'L' => code 0x2028
  | 'P' => code 0x2029
  | 'x' => some (.inr 2)
  | 'u' => some (.inr 4)
  | 'U' => some (.inr 8)
  | _ => none

/-- The character with a code, if there is one. -/
def charOf? (n : Nat) : Option Char := if n.isValidChar then some (Char.ofNat n) else none

/-- The character that an escape behind its backslash stands for, and how long it is. -/
def escaped? (cs : List Char) : Option (Char × Nat) := do
  match ← escape? (← cs.head?) with
  | .inl c => return (c, 1)
  | .inr width =>
    let digits := (cs.drop 1).take width
    if digits.length = width then return (← charOf? (← Value.numberIn? 16 digits), width + 1)
    else none

/-- The characters of a quoted scalar up to a blank, a line break or the closing quote, read
onto `back` in reverse, and whether an escaped line break came last. -/
def quotedPart (quote : Char) : (fuel : Nat) → (back : List Char) → Walk (List Char × Bool)
  | 0, back => return (back, false)
  | fuel + 1, back => do
    match ← ahead with
    | [] => return (back, false)
    | c :: rest =>
      if isBlank c || isBreak c then return (back, false)
      else if c == quote then
        if quote == '\'' && rest.head? == some '\'' then
          skip 2
          quotedPart quote fuel ('\'' :: back)
        else return (back, false)
      else if c == '\\' && quote == '"' then
        if rest.head?.any isBreak then
          skip 1
          let _ ← lineBreak
          return (back, true)
        else
          match escaped? rest with
          | none => refuse
          | some (d, width) =>
            skip (width + 1)
            quotedPart quote fuel (d :: back)
      else
        skip 1
        quotedPart quote fuel (c :: back)

/-- The parts of a quoted scalar up to its closing quote, read onto `back` in reverse. -/
def quotedFrom (quote : Char) : (fuel : Nat) → (back : List Char) → Walk (List Char)
  | 0, _ => refuse
  | fuel + 1, back => do
    let p ← get
    require (!p.isAtDocument && !p.rest.isEmpty)
    let (back, escaped) ← quotedPart quote p.steps back
    if (← ahead).head? == some quote then
      skip 1
      return back.reverse
    else
      let s ← seam 0 { broken := escaped }
      quotedFrom quote fuel (s.text.reverse ++ back)

/-- A quoted scalar; the place is at its opening quote. -/
def quotedScalar (quote : Char) : Walk (List Char) := do
  skip 1
  quotedFrom quote (← steps) []

/-! ### Blocks of text -/

/-- What becomes of the line breaks at the end of a block. -/
inductive Chomp where
  | strip
  | clip
  | keep
  deriving DecidableEq, Repr

/-- What stands behind the mark that starts a block of text. -/
structure BlockHeader where
  chomp : Chomp := .clip
  /-- How much deeper than its surroundings the block is, where it says so. -/
  depth : Option Nat := none
  deriving DecidableEq, Repr

/-- How the line breaks at the end are meant, if that is said here. -/
def chompMark : Walk (Option Chomp) := do
  match (← ahead).head? with
  | some '+' =>
    skip 1
    return some .keep
  | some '-' =>
    skip 1
    return some .strip
  | _ => return none

/-- How deep the block is, if that is said here; not at all would be none. -/
def depthMark : Walk (Option Nat) := do
  match (← ahead).head? with
  | some c =>
    if c.isDigit then
      require (c != '0')
      skip 1
      return some (c.toNat - 48)
    else return none
  | none => return none

/-- The two marks, in either order. -/
def blockHeader : Walk BlockHeader := do
  match ← chompMark with
  | some chomp => return { chomp, depth := ← depthMark }
  | none =>
    match ← depthMark with
    | some depth => return { chomp := (← chompMark).getD .clip, depth := some depth }
    | none => return {}

/-- Empty lines, the blanks left of `indent` being skipped: their line breaks, and the deepest
column that was reached. Without an indent all blanks are skipped, and a tab is refused. -/
def blockBreaks (indent : Option Nat) : (fuel : Nat) → (breaks : List Char) → (deepest : Nat) →
    Walk (List Char × Nat)
  | 0, breaks, deepest => return (breaks, deepest)
  | fuel + 1, breaks, deepest => do
    let p ← get
    let blanks := (p.rest.takeWhile (· == ' ')).length
    skip (match indent with
      | some n => min blanks (n - p.column)
      | none => blanks)
    let p ← get
    let deepest := max deepest p.column
    require !(p.rest.head? == some '\t' && indent.all (p.column < ·))
    if p.rest.head?.any isBreak then
      let ending ← lineBreak
      blockBreaks indent fuel (breaks ++ ending) deepest
    else return (breaks, deepest)

/-- The lines of a block, read onto `back` in reverse; `leading` is the line break before them,
`trailing` the empty lines after that, and `spaced` says that the last line began with a
blank. -/
def blockLines (folded : Bool) (indent : Nat) (chomp : Chomp) : (fuel : Nat) →
    (back leading trailing : List Char) → (spaced : Bool) → Walk (List Char)
  | 0, back, _, _, _ => return back.reverse
  | fuel + 1, back, leading, trailing, spaced => do
    let p ← get
    if p.column = indent && !p.rest.isEmpty then
      let startsBlank := p.rest.head?.any isBlank
      let joint :=
        if folded && leading.head? == some '\n' && !spaced && !startsBlank then
          (if trailing.isEmpty then [' '] else [])
        else leading
      let line ← takeWhile (!isBreak ·)
      let leading ← lineBreak
      let (breaks, _) ← blockBreaks (some indent) (← steps) [] 0
      blockLines folded indent chomp fuel ((joint ++ trailing ++ line).reverse ++ back) leading
        breaks startsBlank
    else
      return back.reverse ++ match chomp with
        | .strip => []
        | .clip => leading
        | .keep => leading ++ trailing

/-- A block of text in surroundings of an indent; the place is at its mark. -/
def blockScalar (outer : Int) : Walk (List Char) := do
  let folded := (← ahead).head? == some '>'
  skip 1
  let header ← blockHeader
  finishLine
  let given := header.depth.map fun d => (max outer 0).toNat + d
  let (trailing, deepest) ← blockBreaks given (← steps) [] 0
  let indent := given.getD (max (max deepest (outer + 1).toNat) 1)
  blockLines folded indent header.chomp (← steps) [] [] trailing false

end Sinkhole.Yaml
