import Sinkhole.Yaml.Tokens

/-! A YAML text as the values that its tokens are put together to.

A node is a scalar, a sequence or a mapping, or stands for a node that was given a
name. Where nothing is written there is an empty plain scalar. A text is one document,
perhaps an empty one. -/
namespace Sinkhole.Yaml

/-- A value as it is written. -/
inductive Node where
  | scalar (style : Style) (tag : Option (List Char)) (text : List Char)
  | list (items : List Node)
  | record (fields : List (Node × Node))
  /-- The node that is known by a number. -/
  | alias (number : Nat)

/-- The scalar that stands where nothing is written. -/
def nothing : Node := .scalar .plain none []

/-- What has been read of the tokens. -/
structure Grammar where
  rest : List Token
  /-- What the handles of tags stand for. -/
  handles : List (List Char × List Char) := []
  /-- The numbers of the names. -/
  names : List (List Char × Nat) := []
  /-- How many nodes with a name have begun. -/
  begun : Nat := 0
  /-- Those that are read: number, place in the order in which they began, and node. -/
  known : List (Nat × Nat × Node) := []

/-- A step that puts tokens together. -/
abbrev Parse := StateT Grammar Option

namespace Parse

def refuse {α : Type} : Parse α := StateT.lift none

def require (b : Bool) : Parse Unit := if b then return () else refuse

/-- The next token, none at the end. -/
def peek : Parse (Option Token) := do return (← get).rest.head?

def advance : Parse Unit := modify fun g => { g with rest := g.rest.tail }

/-- Past a token if it comes next. -/
def accept (t : Token) : Parse Bool := do
  if (← peek) == some t then
    advance
    return true
  else return false

def expect (t : Token) : Parse Unit := do require (← accept t)

/-- Whether one of some tokens comes next. -/
def isAt (ts : List Token) : Parse Bool := do return (← peek).any ts.contains

/-! ### What is written before a node -/

/-- A name for a node and its tag. -/
structure Properties where
  name : Option (List Char) := none
  tag : Option (List Char × List Char) := none

def Properties.isEmpty (p : Properties) : Bool := p.name.isNone && p.tag.isNone

/-- A name and a tag at most, in either order. -/
def properties : Parse Properties := do
  match ← peek with
  | some (.anchor name) =>
    advance
    match ← peek with
    | some (.tag handle suffix) =>
      advance
      return { name := some name, tag := some (handle, suffix) }
    | _ => return { name := some name }
  | some (.tag handle suffix) =>
    advance
    match ← peek with
    | some (.anchor name) =>
      advance
      return { name := some name, tag := some (handle, suffix) }
    | _ => return { tag := some (handle, suffix) }
  | _ => return {}

/-- A tag with its handle replaced by what that stands for. -/
def fullTag : Option (List Char × List Char) → Parse (Option (List Char))
  | none => return none
  | some (handle, suffix) => do
    if handle.isEmpty then return some suffix
    else
      match (← get).handles.lookup handle with
      | some text => return some (text ++ suffix)
      | none => refuse

/-- A node with a name begins: the number that stands for it from now on. A new name is given
the count of the names as its number, and so is an old one that is given again. -/
def beginNode : Option (List Char) → Parse (Option (Nat × Nat))
  | none => return none
  | some name => do
    let g ← get
    let number := g.names.length
    set { g with
      names := (name, number) :: g.names.filter (·.1 != name)
      begun := g.begun + 1 }
    return some (number, g.begun)

/-- A node is read; it is known by its number if it has one. -/
def finishNode (begun : Option (Nat × Nat)) (n : Node) : Parse Node := do
  match begun with
  | some (number, place) => modify fun g => { g with known := (number, place, n) :: g.known }
  | none => pure ()
  return n

/-! ### Nodes -/

mutual

/-- A node; `block` says whether it may be a block, `dashes` whether it may be a sequence at the
column of the mapping around it. -/
def node : (fuel : Nat) → (block dashes : Bool) → Parse Node
  | 0, _, _ => refuse
  | fuel + 1, block, dashes => do
    match ← peek with
    | some (.alias name) =>
      advance
      match (← get).names.lookup name with
      | some number => return .alias number
      | none => refuse
    | _ =>
      let p ← properties
      let tag ← fullTag p.tag
      match ← peek with
      | some (.scalar style text) =>
        advance
        let begun ← beginNode p.name
        finishNode begun (.scalar style tag text)
      | some .entry =>
        if dashes then
          let begun ← beginNode p.name
          finishNode begun (.list (← looseItems fuel))
        else emptyNode p tag
      | some .flowSequence =>
        advance
        let begun ← beginNode p.name
        finishNode begun (.list (← flowItems fuel true))
      | some .flowMapping =>
        advance
        let begun ← beginNode p.name
        finishNode begun (.record (← flowFields fuel true))
      | some .blockSequence =>
        if block then
          advance
          let begun ← beginNode p.name
          finishNode begun (.list (← blockItems fuel))
        else emptyNode p tag
      | some .blockMapping =>
        if block then
          advance
          let begun ← beginNode p.name
          finishNode begun (.record (← blockFields fuel))
        else emptyNode p tag
      | _ => emptyNode p tag

/-- A node of which only a name or a tag is written. -/
def emptyNode (p : Properties) (tag : Option (List Char)) : Parse Node := do
  require !p.isEmpty
  let begun ← beginNode p.name
  finishNode begun (.scalar .plain tag [])

/-- A node unless one of some tokens comes next. -/
def nodeUnless : (fuel : Nat) → (ends : List Token) → (block dashes : Bool) → Parse Node
  | 0, _, _, _ => refuse
  | fuel + 1, ends, block, dashes => do
    if ← isAt ends then return nothing else node fuel block dashes

/-- The items of a sequence up to the end of its block. -/
def blockItems : (fuel : Nat) → Parse (List Node)
  | 0 => refuse
  | fuel + 1 => do
    if ← accept .entry then
      let item ← nodeUnless fuel [.entry, .blockEnd] true false
      return item :: (← blockItems fuel)
    else
      expect .blockEnd
      return []

/-- The items of a sequence at the column of the mapping around it, which goes on behind them. -/
def looseItems : (fuel : Nat) → Parse (List Node)
  | 0 => refuse
  | fuel + 1 => do
    if ← accept .entry then
      let item ← nodeUnless fuel [.entry, .key, .value, .blockEnd] true false
      return item :: (← looseItems fuel)
    else return []

/-- The fields of a mapping up to the end of its block. -/
def blockFields : (fuel : Nat) → Parse (List (Node × Node))
  | 0 => refuse
  | fuel + 1 => do
    if ← accept .key then
      let key ← nodeUnless fuel [.key, .value, .blockEnd] true true
      let value ←
        if ← accept .value then nodeUnless fuel [.key, .value, .blockEnd] true true
        else pure nothing
      return (key, value) :: (← blockFields fuel)
    else
      expect .blockEnd
      return []

/-- The items up to the closing bracket. A key among them makes a mapping of one field. -/
def flowItems : (fuel : Nat) → (first : Bool) → Parse (List Node)
  | 0, _ => refuse
  | fuel + 1, first => do
    if ← accept .flowSequenceEnd then return []
    else
      unless first do expect .comma
      if ← accept .key then
        let item ← flowPair fuel
        return item :: (← flowItems fuel false)
      else if ← accept .flowSequenceEnd then return []
      else
        let item ← node fuel false false
        return item :: (← flowItems fuel false)

/-- A mapping of one field inside a sequence, behind the mark of its key. Where the key is left
out, whatever stands in its place is passed over. -/
def flowPair : (fuel : Nat) → Parse Node
  | 0 => refuse
  | fuel + 1 => do
    let key ←
      if ← isAt [.value, .comma, .flowSequenceEnd] then do
        advance
        pure nothing
      else node fuel false false
    let value ←
      if ← accept .value then nodeUnless fuel [.comma, .flowSequenceEnd] false false
      else pure nothing
    return .record [(key, value)]

/-- The fields up to the closing brace. -/
def flowFields : (fuel : Nat) → (first : Bool) → Parse (List (Node × Node))
  | 0, _ => refuse
  | fuel + 1, first => do
    if ← accept .flowMappingEnd then return []
    else
      unless first do expect .comma
      if ← accept .key then
        let key ← nodeUnless fuel [.value, .comma, .flowMappingEnd] false false
        let value ←
          if ← accept .value then nodeUnless fuel [.comma, .flowMappingEnd] false false
          else pure nothing
        return (key, value) :: (← flowFields fuel false)
      else if ← accept .flowMappingEnd then return []
      else
        let key ← node fuel false false
        return (key, nothing) :: (← flowFields fuel false)

end

/-! ### Documents -/

/-- Handles that mean something in every document. -/
def ownHandles : List (List Char × List Char) :=
  [(['!'], ['!']), (['!', '!'], "tag:yaml.org,2002:".toList)]

/-- What is said about a document before it begins: its version once at most, and each handle
once. -/
def directives : (fuel : Nat) → (versioned : Bool) → Parse Unit
  | 0, _ => refuse
  | fuel + 1, versioned => do
    match ← peek with
    | some (.version major minor) =>
      require (!versioned && major = 1 && (minor = 1 || minor = 2))
      advance
      directives fuel true
    | some (.tagPrefix handle text) =>
      let g ← get
      require (g.handles.lookup handle).isNone
      set { g with rest := g.rest.tail, handles := (handle, text) :: g.handles }
      directives fuel versioned
    | _ => return ()

def isDirective : Token → Bool
  | .version _ _ => true
  | .tagPrefix _ _ => true
  | _ => false

/-- The node of the document, or nothing if the text is without any. -/
def document : Parse Node := do
  let size := (← get).rest.length
  match ← peek with
  | none => return nothing
  | some t =>
    if isDirective t || t == .documentStart then
      directives (size + 1) false
      expect .documentStart
      modify fun g => { g with handles := g.handles ++ ownHandles }
      let next ← peek
      if next.all fun t => isDirective t || t == .documentStart || t == .documentEnd then
        return nothing
      else node (4 * size + 4) true false
    else
      modify fun g => { g with handles := ownHandles }
      node (4 * size + 4) true false

/-- Past the marks of the end of a document, behind which nothing may follow. -/
def finish : Parse Unit := do
  let g ← get
  require (g.rest.all (· == .documentEnd))

end Parse

/-- The nodes of a text: that of its document, and those known by a number. -/
structure Document where
  root : Node
  known : List (Nat × Nat × Node)

/-- The document in a text, if it is one. -/
def document? (cs : List Char) : Option Document := do
  if !cs.all isAllowed then none
  else
    let tokens ← tokens? cs
    let (root, g) ← (do
      let root ← Parse.document
      Parse.finish
      return root : Parse Node).run { rest := tokens }
    return { root, known := g.known }

/-- The node known by a number: of several with the same one, that which began last. -/
def Document.named? (d : Document) (number : Nat) : Option Node :=
  let those := d.known.filter (·.1 == number)
  let last := (those.map (·.2.1)).foldl max 0
  (those.find? (·.2.1 == last)).map (·.2.2)

end Sinkhole.Yaml
