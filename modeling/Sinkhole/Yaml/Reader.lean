import Sinkhole.Yaml.Node

/-! YAML documents as values.

A plain scalar says nothing about what it is, unless a tag does; a literal one is a
text, unless its tag says that it is a flag or a number. -/
namespace Sinkhole.Yaml

/-- What a tag says about a scalar. -/
def tagOf (tag : List Char) : Value.Tag :=
  if tag == "tag:yaml.org,2002:null".toList then .null
  else if tag == "tag:yaml.org,2002:bool".toList then .flag
  else if tag == "tag:yaml.org,2002:int".toList then .number
  else .other

/-- A scalar as a value. -/
def scalarValue (style : Style) (tag : Option (List Char)) (text : List Char) : Value :=
  let s := String.ofList text
  match style, tag with
  | .plain, none => .bare s
  | .plain, some t => .tagged (tagOf t) s
  | .literal, some t => .taggedBlock (tagOf t) s
  | _, _ => .text s

/-- The text of a key, if it is a scalar. -/
def Document.keyText? (d : Document) : Node → Option String
  | .scalar _ _ text => some (String.ofList text)
  | .alias number =>
    match d.named? number with
    | some (.scalar _ _ text) => some (String.ofList text)
    | _ => none
  | _ => none

mutual

/-- A node as a value. -/
def Document.value (d : Document) : Node → Value
  | .scalar style tag text => scalarValue style tag text
  | .list items => .list (d.values items)
  | .record fields => .record (d.fieldValues fields)
  | .alias number => .named number

def Document.values (d : Document) : List Node → List Value
  | [] => []
  | n :: rest => d.value n :: d.values rest

def Document.fieldValues (d : Document) : List (Node × Node) → List (Option String × Value)
  | [] => []
  | (key, n) :: rest => (d.keyText? key, d.value n) :: d.fieldValues rest

end

/-- The value of the document in a text, and the values that stand where names are used. -/
def read? (cs : List Char) : Option (Value × Value.Names) := do
  let d ← document? cs
  return (d.value d.root, fun number => ((d.named? number).map d.value).getD .null)

end Sinkhole.Yaml
