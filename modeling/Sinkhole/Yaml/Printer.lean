import Sinkhole.Config.Value
import Sinkhole.Yaml.Place
import Sinkhole.Text.Decimal

/-! Writing YAML.

A mapping is written a field a line, and a sequence inside it at its own column. A
text is plain where it reads back as the same text, else in single quotes, and in
double quotes if it holds what only an escape can tell; a text of several lines is a
block. -/
namespace Sinkhole.Yaml

open Text

/-! ### What a text is like -/

/-- Characters that are written as they are. -/
def isPrintable (c : Char) : Bool :=
  let n := c.toNat
  n == 10 || (0x20 ≤ n && n ≤ 0x7E) || (0xA0 ≤ n && n ≤ 0xFFFD && n ≠ 0xFEFF) || 0x10000 ≤ n

/-- Two neighbours of which the first satisfies `p` and the second `q`. -/
def hasPair (p q : Char → Bool) : List Char → Bool
  | a :: b :: rest => (p a && q b) || hasPair p q (b :: rest)
  | _ => false

def isWhite (c : Char) : Bool := isBlank c || isBreak c

/-- Characters that no plain text begins with. -/
def isLeadingMark (c : Char) : Bool :=
  isFlowMark c ||
    ['#', '&', '*', '!', '|', '>', '\'', '"', '%', '@', Char.ofNat 0x60].contains c

/-- Whether a text begins like something else: a mark of a value, of an entry or of a document. -/
def beginsAsMark (cs : List Char) : Bool :=
  match cs with
  | [] => false
  | c :: rest =>
    isLeadingMark c || ((c == '-' || c == '?' || c == ':') && rest.head?.all isWhite) ||
      cs.take 3 == ['-', '-', '-'] || cs.take 3 == ['.', '.', '.']

/-- Whether a colon or a number sign inside a text would end it. -/
def holdsMark (cs : List Char) : Bool :=
  hasPair (· == ':') isWhite cs || cs.getLast? == some ':' || hasPair isWhite (· == '#') cs

/-- Whether only escapes can tell what a text holds. -/
def needsEscapes (cs : List Char) : Bool :=
  cs.any (!isPrintable ·) || hasPair (· == ' ') isBreak cs

/-- Whether a text can stand without quotes, whatever it could be taken for. -/
def canBePlain (cs : List Char) : Bool :=
  cs.head? != some ' ' && cs.getLast? != some ' ' && !cs.any isBreak && !beginsAsMark cs &&
    !holdsMark cs

/-! ### What a text could be taken for -/

/-- A number of at most so many bits in a base that has a mark. -/
def isMarkedNumber (limit : Nat) (cs : List Char) : Bool :=
  let base? := match cs with
    | '0' :: 'x' :: _ => some 16
    | '0' :: 'o' :: _ => some 8
    | '0' :: 'b' :: _ => some 2
    | _ => none
  match base? with
  | some base => (Value.numberIn? base (cs.drop 2)).any (· ≤ limit)
  | none => false

/-- Whether a number is so small that it has a nearest one of double precision: it is less than
half a unit beyond the greatest of those. The number is `digits` times a power of ten. -/
def isFinite (digits : Nat) (exponent : Int) : Bool :=
  let width : Int := (Nat.toDigits 10 digits).length
  let limit := Nat.pow 2 970 * (Nat.pow 2 54 - 1)
  if digits = 0 || width + exponent ≤ 308 then true
  else if width + exponent ≥ 310 then false
  else if 0 ≤ exponent then digits * Nat.pow 10 exponent.toNat < limit
  else digits < limit * Nat.pow 10 (-exponent).toNat

/-- A sign of a number and what is behind it. -/
def afterSign : List Char → List Char
  | '+' :: rest => rest
  | '-' :: rest => rest
  | cs => cs

/-- A number in decimal, perhaps with a point or an exponent. -/
def isDecimal (cs : List Char) : Bool :=
  let cs := afterSign cs
  let whole := cs.takeWhile Char.isDigit
  let rest := cs.drop whole.length
  let fraction := if rest.head? == some '.' then (rest.drop 1).takeWhile Char.isDigit else []
  let rest := if rest.head? == some '.' then rest.drop (1 + fraction.length) else rest
  let exponent? : Option Int :=
    match rest with
    | [] => some 0
    | e :: more =>
      if e == 'e' || e == 'E' then
        (natural? (afterSign more)).map fun (n : Nat) =>
          if more.head? == some '-' then -(n : Int) else n
      else none
  match natural? (whole ++ fraction), exponent? with
  | some digits, some exponent => isFinite digits (exponent - fraction.length)
  | _, _ => false

def infinities : List String :=
  [".inf", ".Inf", ".INF", "+.inf", "+.Inf", "+.INF", "-.inf", "-.Inf", "-.INF", ".nan", ".NaN",
    ".NAN"]

/-- Whether a text is a number to some reader: also digits behind idle zeros are quoted. -/
def looksNumeric (cs : List Char) : Bool :=
  (match cs with
    | '-' :: rest => isMarkedNumber (greatest 127 + 1) rest
    | '+' :: rest => isMarkedNumber (greatest 128) rest
    | cs => isMarkedNumber (greatest 128) cs) ||
    isDecimal cs || infinities.contains (String.ofList cs)

/-- Whether a plain text would be taken for something that is no text. -/
def isMistakable (s : String) : Bool :=
  s.isEmpty || Value.isNullWord s || (Value.bareFlag? s).isSome || looksNumeric s.toList

/-! ### Scalars -/

def hexText (width n : Nat) : List Char :=
  (padStart width '0' (String.ofList ((Nat.toDigits 16 n).map Char.toUpper))).toList

/-- A character between double quotes. -/
def doubleQuotedChar (c : Char) : List Char :=
  let n := c.toNat
  let known : List (Nat × Char) :=
    [(0, '0'), (7, 'a'), (8, 'b'), (9, 't'), (10, 'n'), (11, 'v'), (12, 'f'), (13, 'r'), (27, 'e'),
      (34, '"'), (92, '\\'), (0x85, 'N'), (0x2028, 'L'), (0x2029, 'P')]
  match known.lookup n with
  | some letter => ['\\', letter]
  | none =>
    if isPrintable c then [c]
    else if n ≤ 0xFF then '\\' :: 'x' :: hexText 2 n
    else if n ≤ 0xFFFF then '\\' :: 'u' :: hexText 4 n
    else '\\' :: 'U' :: hexText 8 n

def doubleQuoted (cs : List Char) : String :=
  String.ofList ('"' :: (cs.flatMap doubleQuotedChar ++ ['"']))

/-- The characters of a text with each new line indented by `indent`; `fresh` says whether one
begins here. At the end it is done if `closed`. -/
def indented (indent : Nat) (closed : Bool) : (fresh : Bool) → List Char → List Char
  | fresh, [] => if fresh && closed then List.replicate indent ' ' else []
  | fresh, c :: rest =>
    if isBreak c then c :: indented indent closed true rest
    else (if fresh then List.replicate indent ' ' else []) ++
      c :: indented indent closed false rest

def singleQuoted (indent : Nat) (cs : List Char) : String :=
  let doubled := cs.flatMap fun c => if c == '\'' then ['\'', '\''] else [c]
  String.ofList ('\'' :: (indented indent true false doubled ++ ['\'']))

/-- What is said behind the bar of a block about its last line breaks. -/
def chompText (cs : List Char) : String :=
  match cs.reverse with
  | [] => "-"
  | [c] => if isBreak c then "+" else "-"
  | c :: d :: _ => if !isBreak c then "-" else if isBreak d then "+" else ""

/-- A text of several lines, each indented by `indent`. -/
def block (indent : Nat) (cs : List Char) : String :=
  let hint := if cs.head?.any fun c => c == ' ' || isBreak c then "2" else ""
  "|" ++ hint ++ chompText cs ++ "\n" ++ String.ofList (indented indent false true cs)

/-- A text that stands in a mapping or sequence at a column. -/
def scalarText (column : Nat) (s : String) : String :=
  let cs := s.toList
  if needsEscapes cs then doubleQuoted cs
  else if cs.contains '\n' then
    if cs.getLast? == some ' ' then doubleQuoted cs else block (column + 2) cs
  else if !isMistakable s && canBePlain cs then s
  else if hasPair isBreak (· == ' ') cs then doubleQuoted cs
  else singleQuoted (column + 2) cs

/-! ### Values -/

/-- How a tag is written. -/
def tagMark : Value.Tag → String
  | .null => "!!null"
  | .flag => "!!bool"
  | .number => "!!int"
  | .other => "!!str"

/-- Lines one below the other. A block of text that ends with a line break has ended its line. -/
def joined : List String → String
  | [] => ""
  | [line] => line
  | line :: rest =>
    line ++ (if line.toList.getLast?.any isBreak then "" else "\n") ++ joined rest

mutual

/-- A value behind a key or a dash in a block at a column, with all that comes before it. -/
def behind (column : Nat) (compact : Bool) : Value → String
  | .null => " null"
  | .flag b => if b then " true" else " false"
  | .whole n => " " ++ toString n
  | .fraction => " 0.0"
  | .text s => " " ++ scalarText column s
  | .bare s => " " ++ s
  | .tagged tag s => " " ++ tagMark tag ++ " " ++ s
  | .taggedBlock tag s => " " ++ tagMark tag ++ " " ++ block (column + 2) s.toList
  | .named number => " *" ++ toString number
  | .list items =>
    if items.isEmpty then " []"
    else "\n" ++ joined (dashes (if compact then column + 2 else column) items)
  | .row items =>
    if items.isEmpty then " []"
    else "\n" ++ joined (dashes (if compact then column + 2 else column) items)
  | .record fields =>
    if fields.isEmpty then " " ++ String.ofList [openBrace, closeBrace]
    else
      let lines := joined (entries (column + 2) fields)
      if compact then " " ++ String.ofList (lines.toList.drop (column + 2)) else "\n" ++ lines

def dashes (column : Nat) : List Value → List String
  | [] => []
  | item :: rest => (repeated column ' ' ++ "-" ++ behind column true item) :: dashes column rest

def entries (column : Nat) : List (Option String × Value) → List String
  | [] => []
  | (name, value) :: rest =>
    (repeated column ' ' ++ scalarText column (name.getD "") ++ ":" ++ behind column false value) ::
      entries column rest

end

/-- A record as a whole text. -/
def print : Value → String
  | .record fields => joined (entries 0 fields) ++ "\n"
  | v => behind 0 false v ++ "\n"

end Sinkhole.Yaml
