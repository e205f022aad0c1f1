import Sinkhole.Json.Basic
import Sinkhole.Text.Decimal

/-! JSON as it is printed for people: a field or an item a line, two blanks a level. -/
namespace Sinkhole.Json

open Text

/-- A character as it stands in a text. -/
def escaped (c : Char) : List Char :=
  if c = '"' then ['\\', '"']
  else if c = '\\' then ['\\', '\\']
  else if c = '\n' then ['\\', 'n']
  else if c = '\r' then ['\\', 'r']
  else if c = '\t' then ['\\', 't']
  else if c.toNat = 8 then ['\\', 'b']
  else if c.toNat = 12 then ['\\', 'f']
  else if c.toNat < 0x20 then
    '\\' :: 'u' :: (padStart 4 '0' (String.ofList (Nat.toDigits 16 c.toNat))).toList
  else [c]

def quotedText (s : String) : String :=
  String.ofList ('"' :: (s.toList.flatMap escaped ++ ['"']))

def indent (level : Nat) : String := repeated (2 * level) ' '

/-- `lines` between two brackets on lines of their own, or the brackets alone. -/
def block (level : Nat) (opening closing : Char) (lines : List String) : String :=
  if lines.isEmpty then String.ofList [opening, closing]
  else
    let inner := lines.map (indent (level + 1) ++ ·)
    String.singleton opening ++ "\n" ++ ",\n".intercalate inner ++ "\n" ++ indent level ++
      String.singleton closing

def bracePair : Char × Char := (Char.ofNat 0x7B, Char.ofNat 0x7D)

mutual

/-- A value whose first line begins somewhere in a line of this level. -/
def prettyAt (level : Nat) : Json → String
  | .null => "null"
  | .flag b => if b then "true" else "false"
  | .number digits => digits
  | .text s => quotedText s
  | .list items => block level '[' ']' (prettyItems (level + 1) items)
  | .record fields => block level bracePair.1 bracePair.2 (prettyFields (level + 1) fields)

def prettyItems (level : Nat) : List Json → List String
  | [] => []
  | item :: rest => prettyAt level item :: prettyItems level rest

def prettyFields (level : Nat) : List (String × Json) → List String
  | [] => []
  | (name, value) :: rest =>
    (quotedText name ++ ": " ++ prettyAt level value) :: prettyFields level rest

end

def pretty (j : Json) : String := prettyAt 0 j

end Sinkhole.Json
