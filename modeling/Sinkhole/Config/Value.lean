import Sinkhole.Text.Blank

/-! The values that configuration files are made of.

Files in different notations hold much the same: texts, numbers, lists and records.
They differ in how much a scalar says about itself. A `bare` one says nothing, and
what it is depends on what is asked for: `5` is a number to whoever wants a number
and a text to whoever wants a text. A tag may say something about it. -/
namespace Sinkhole

/-- What a tag says that a scalar is. -/
inductive Value.Tag where
  | null
  | flag
  | number
  | other
  deriving DecidableEq, Repr

/-- What a configuration is read from. -/
inductive Value where
  | null
  | flag (b : Bool)
  | whole (n : Int)
  /-- A number that is not a whole one. -/
  | fraction
  | text (s : String)
  | bare (s : String)
  | tagged (tag : Value.Tag) (s : String)
  /-- A text of several lines with a tag. -/
  | taggedBlock (tag : Value.Tag) (s : String)
  /-- Whatever a number stands for. -/
  | named (number : Nat)
  | list (items : List Value)
  /-- A list that may also be the fields of a record, in their order. -/
  | row (items : List Value)
  /-- Fields in order; one whose name is no text has none. -/
  | record (fields : List (Option String × Value))

namespace Value

open Text

/-! ### Scalars -/

def text? : Value → Option String
  | text s => some s
  | bare s => some s
  | tagged _ s => some s
  | taggedBlock _ s => some s
  | _ => none

def digitIn? (base : Nat) (c : Char) : Option Nat :=
  let value :=
    if c.isDigit then c.toNat - 48
    else if c.isAlpha then c.toLower.toNat - 87
    else base
  if value < base then some value else none

def numberIn? (base : Nat) (cs : List Char) : Option Nat :=
  if cs.isEmpty then none
  else cs.foldl (fun value c => do return (← value) * base + (← digitIn? base c)) (some 0)

/-- Digits behind a zero are no decimal number. -/
def hasIdleZero (cs : List Char) : Bool :=
  cs.length > 1 && cs.head? == some '0' && cs.all Char.isDigit

/-- A number in one of the bases that have a mark, or in decimal. -/
def bareNumber? (cs : List Char) : Option Nat :=
  let cs := match cs with
    | '+' :: rest => rest
    | cs => cs
  match cs with
  | '0' :: 'x' :: rest => numberIn? 16 rest
  | '0' :: 'o' :: rest => numberIn? 8 rest
  | '0' :: 'b' :: rest => numberIn? 2 rest
  | cs => if hasIdleZero cs then none else numberIn? 10 cs

/-- A number that is not negative and at most `limit`. -/
def natural? (limit : Nat) (v : Value) : Option Nat :=
  let n? := match v with
    | whole (.ofNat n) => some n
    | bare s => bareNumber? s.toList
    | tagged _ s => bareNumber? s.toList
    | taggedBlock .number s => bareNumber? s.toList
    | _ => none
  n?.filter (· ≤ limit)

/-- What a word says that is a flag. -/
def bareFlag? (s : String) : Option Bool :=
  if ["true", "True", "TRUE"].contains s then some true
  else if ["false", "False", "FALSE"].contains s then some false
  else none

def flag? : Value → Option Bool
  | flag b => some b
  | bare s => bareFlag? s
  | tagged _ s => bareFlag? s
  | taggedBlock .flag s => bareFlag? s
  | _ => none

/-- Words that say that there is no value. -/
def isNullWord (s : String) : Bool := ["~", "null", "Null", "NULL"].contains s

/-- `read` of a value that may say that there is none; with the tag of none it has to. -/
def optional? {α : Type} (read : Value → Option α) (v : Value) : Option (Option α) :=
  match v with
  | null => some none
  | bare s => if s.isEmpty || isNullWord s then some none else (read v).map some
  | tagged .null s => if isNullWord s then some none else none
  | v => (read v).map some

/-! ### Lists and records -/

/-- What the numbers of names stand for. -/
abbrev Names := Nat → Value

/-- A value, or what it stands for. -/
def resolve (known : Names) : Value → Value
  | named number => known number
  | v => v

/-- Whether nothing is written, which may stand for a list or record without anything in it. -/
def isNothing : Value → Bool
  | bare s => s.isEmpty
  | tagged _ s => s.isEmpty
  | _ => false

def items? (known : Names) (v : Value) : Option (List Value) :=
  match v with
  | list items => some (items.map (resolve known))
  | row items => some (items.map (resolve known))
  | v => if v.isNothing then some [] else none

/-- The values of the fields named, each of which may be there once or not at all. Fields with
other names do not matter. -/
def fields? (known : Names) (names : List String) (v : Value) : Option (List (String × Value)) :=
  match v with
  | record fields =>
    if fields.any (·.1.isNone) then none
    else
      let ours := fields.filterMap fun (name?, value) =>
        name?.bind fun name =>
          if names.contains name then some (name, resolve known value) else none
      if names.all fun name => (ours.filter (·.1 == name)).length ≤ 1 then some ours else none
  | row items =>
    if items.length ≤ names.length then some (names.zip (items.map (resolve known))) else none
  | v => if v.isNothing then some [] else none

/-- `read` of a field, or what it is where it is not there. -/
def fieldOr {α : Type} (fields : List (String × Value)) (name : String)
    (read : Value → Option α) (missing : α) : Option α :=
  match fields.lookup name with
  | some v => read v
  | none => some missing

/-- `read` of a field that has to be there. -/
def field? {α : Type} (fields : List (String × Value)) (name : String)
    (read : Value → Option α) : Option α := (fields.lookup name).bind read

end Value

end Sinkhole
