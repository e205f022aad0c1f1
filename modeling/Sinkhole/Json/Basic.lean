/-! JSON values.

A record keeps its fields in the order in which they were given, and a number is its
text: whole numbers of any size pass through unchanged. -/
namespace Sinkhole

/-- A JSON value, its numbers as they are written. -/
inductive Json where
  | null
  | flag (b : Bool)
  | number (text : String)
  | text (s : String)
  | list (items : List Json)
  | record (fields : List (String × Json))

namespace Json

def ofNat (n : Nat) : Json := .number (toString n)

def ofInt (n : Int) : Json := .number (toString n)

/-- `f` of what is there, and null where there is nothing. -/
def ofOption {α : Type} (f : α → Json) : Option α → Json
  | some a => f a
  | none => .null

/-- The value of a field, if the value is a record that has it exactly once. -/
def field? (name : String) : Json → Option Json
  | .record fields =>
    match fields.filter (·.1 == name) with
    | [(_, value)] => some value
    | _ => none
  | _ => none

end Json

end Sinkhole
