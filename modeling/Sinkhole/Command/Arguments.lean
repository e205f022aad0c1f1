import Sinkhole.Command.Basic

/-! Reading command lines.

A command line descends through levels: the program, its commands, and for two of
them commands of their own. Each level has options, which have a name and maybe a
letter, and operands, which have a place. An option's value is attached to it or
is the next argument, unless that looks like an option itself; behind `--` every
argument is an operand. What has been given is looked at when the next thing comes,
so the first mistake is the one that is reported. -/
namespace Sinkhole.Command

open Text

/-- What a value has to be. -/
inductive Shape where
  | text
  | path
  | whole
  | address
  deriving DecidableEq, Repr

/-- Why a command line does not say what to do. Asking for help or for the version is one of
the reasons. -/
inductive Mistake where
  | nothingGiven
  | noCommand
  | unknownCommand
  | unknownArgument
  | valueMissing
  | valueUnfit
  | valueUnwanted
  | operandMissing
  | givenTwice
  | helpWanted
  | versionWanted (path : List String)
  deriving DecidableEq, Repr

/-- What keeps a text from being a value of a shape. -/
def Shape.mistake? (value : String) : Shape → Option Mistake
  | text => none
  | path => if value.isEmpty then some .valueMissing else none
  | whole => if (signed? value.toList).isSome then none else some .valueUnfit
  | address => if (Address.ofText? value).isSome then none else some .valueUnfit

/-! ### Levels -/

/-- An option of a command, by its long name and perhaps by a letter. -/
structure CommandOption where
  name : String
  letter : Option Char := none
  /-- What its value has to be, unless it is a flag. -/
  shape : Option Shape := none
  deriving DecidableEq, Repr

/-- What can be given at a level. -/
structure Level where
  options : List CommandOption := []
  operands : List (String × Shape) := []
  commands : List String := []
  deriving DecidableEq, Repr

def helpName : String := "help"

def versionName : String := "version"

/-- The options that every level has. -/
def commonOptions : List CommandOption :=
  [{ name := "config", letter := some 'c', shape := some .path },
    { name := "quiet", letter := some 'q' }, { name := "verbose", letter := some 'v' },
    { name := helpName, letter := some 'h' }, { name := versionName, letter := some 'V' }]

def jsonOption : CommandOption := { name := "json" }

/-- What a command has besides the common options; it is named with those above it. -/
def levelOf : List String → Level
  | [] =>
    { commands := ["update", "check", "query", "status", "sources", "user", "default-config",
        "version"] }
  | ["update"] =>
    { options := [{ name := "source", shape := some .whole },
        { name := "task", shape := some .text }, jsonOption] }
  | ["check"] => { options := [jsonOption] }
  | ["query"] => { operands := [("host", .text)] }
  | ["status"] => { options := [jsonOption] }
  | ["sources"] => { commands := ["list", "add", "remove", "enable", "disable"] }
  | ["sources", "add"] =>
    { options := [{ name := "label", shape := some .text }, { name := "allow" },
        { name := "redirects" }, { name := "disabled" }]
      operands := [("location", .text)] }
  | ["sources", "remove"] => { operands := [("id", .whole)] }
  | ["sources", "enable"] => { operands := [("id", .whole)] }
  | ["sources", "disable"] => { operands := [("id", .whole)] }
  | ["user"] => { commands := ["list", "block", "allow", "redirect", "remove"] }
  | ["user", "block"] => { operands := [("host", .text)] }
  | ["user", "allow"] => { operands := [("pattern", .text)] }
  | ["user", "redirect"] => { operands := [("host", .text), ("target", .address)] }
  | ["user", "remove"] => { operands := [("host", .text)] }
  | _ => {}

namespace Level

def allOptions (l : Level) : List CommandOption := l.options ++ commonOptions

/-- Whether a level has a command of this name; one that has any has `help` as well. -/
def isCommand (l : Level) (name : String) : Bool :=
  l.commands.contains name || (name == helpName && !l.commands.isEmpty)

end Level

/-! ### One level's arguments -/

/-- What has been given and found in order. -/
structure Given where
  flags : List String := []
  values : List (String × String) := []
  deriving DecidableEq, Repr

/-- An option or operand that was begun, and its value if that has come. -/
structure Begun where
  name : String
  shape : Shape
  value : Option String := none
  deriving DecidableEq, Repr

/-- How far the arguments of a level have been read. -/
structure Progression where
  given : Given := {}
  begun : Option Begun := none
  /-- Operands so far. -/
  operands : Nat := 0
  /-- Whether `--` has come. -/
  literal : Bool := false
  deriving DecidableEq, Repr

namespace Given

def isEmpty (g : Given) : Bool := g.flags.isEmpty && g.values.isEmpty

def add (g : Given) (b : Begun) : Except Mistake Given :=
  match b.value with
  | none => .error .valueMissing
  | some value =>
    if g.values.any (·.1 == b.name) then .error .givenTwice
    else match b.shape.mistake? value with
      | some mistake => .error mistake
      | none => .ok { g with values := g.values ++ [(b.name, value)] }

def value? (g : Given) (name : String) : Option String := g.values.lookup name

def flag (g : Given) (name : String) : Bool := g.flags.contains name

end Given

namespace Progression

/-- Whether an option has come whose value has not. -/
def isWaiting (p : Progression) : Bool := p.begun.any (·.value.isNone)

/-- Takes what was begun for given. -/
def settle (p : Progression) : Except Mistake Progression :=
  match p.begun with
  | none => .ok p
  | some b => do return { p with given := ← p.given.add b, begun := none }

/-- Begins an option or operand. -/
def begin (p : Progression) (b : Begun) : Except Mistake Progression := do
  return { ← p.settle with begun := some b }

/-- An option with its value attached. -/
def attach (p : Progression) (b : Begun) : Except Mistake Progression := do
  let p ← p.settle
  return { p with given := ← p.given.add b }

def raise (path : List String) (p : Progression) (name : String) :
    Except Mistake Progression := do
  let p ← p.settle
  if name = helpName then throw .helpWanted
  else if name = versionName then throw (.versionWanted path)
  else if p.given.flag name then throw .givenTwice
  else return { p with given := { p.given with flags := p.given.flags ++ [name] } }

/-- The value that the option waits for. -/
def fill (p : Progression) (value : String) : Progression :=
  { p with begun := p.begun.map ({ · with value := some value }) }

/-- `name` or `name=value`, behind two hyphens. -/
def long (path : List String) (p : Progression) (cs : List Char) :
    Except Mistake Progression :=
  let name := String.ofList (cs.takeWhile (· != '='))
  let attached := (cs.dropWhile (· != '=')).tail?.map String.ofList
  match (levelOf path).allOptions.find? (·.name == name) with
  | none => .error .unknownArgument
  | some o =>
    match o.shape, attached with
    | some shape, some value => p.attach { name, shape, value := some value }
    | some shape, none => p.begin { name, shape }
    | none, some _ => .error .valueUnwanted
    | none, none => p.raise path name

/-- Letters, behind one hyphen; the rest behind the letter of an option with a value is its
value. -/
def short (path : List String) (p : Progression) : List Char → Except Mistake Progression
  | [] => .ok p
  | c :: rest =>
    match (levelOf path).allOptions.find? (·.letter == some c) with
    | none => .error .unknownArgument
    | some o =>
      match o.shape with
      | none => do short path (← p.raise path o.name) rest
      | some shape =>
        if rest.isEmpty then p.begin { name := o.name, shape }
        else
          let value := if rest.head? == some '=' then rest.drop 1 else rest
          p.attach { name := o.name, shape, value := some (String.ofList value) }

def operand (path : List String) (p : Progression) (value : String) :
    Except Mistake Progression :=
  let level := levelOf path
  match level.operands[p.operands]? with
  | some (name, shape) => do
    return { ← p.begin { name, shape, value := some value } with operands := p.operands + 1 }
  | none =>
    if level.commands.isEmpty || (p.literal && level.isCommand value) then
      .error .unknownArgument
    else .error .unknownCommand

/-- One argument that is no command. -/
def next (path : List String) (p : Progression) (argument : String) :
    Except Mistake Progression :=
  if p.literal then p.operand path argument
  else match argument.toList with
    | ['-', '-'] => .ok { p with literal := true }
    | '-' :: '-' :: cs => p.long path cs
    | '-' :: c :: cs => p.short path (c :: cs)
    | _ => if p.isWaiting then .ok (p.fill argument) else p.operand path argument

/-- What was given at a level that no command comes after. -/
def finish (path : List String) (p : Progression) : Except Mistake Given := do
  let p ← p.settle
  let level := levelOf path
  if !level.commands.isEmpty then
    throw (if p.given.isEmpty then .nothingGiven else .noCommand)
  else if p.operands < level.operands.length then throw .operandMissing
  else return p.given

end Progression

/-! ### All levels -/

/-- What asking for help on something comes to. -/
def helpOn (path : List String) : List String → Mistake
  | [] => .helpWanted
  | name :: rest =>
    if (levelOf path).isCommand name then helpOn (path ++ [name]) rest else .unknownCommand

/-- The command that arguments lead to, and what was given at each level on the way. -/
def descend (path : List String) (p : Progression) :
    List String → Except Mistake (List String × List Given)
  | [] => do return (path, [← p.finish path])
  | argument :: rest =>
    if !p.literal && !p.isWaiting && (levelOf path).isCommand argument then
      if argument = helpName then .error (helpOn path rest)
      else do
        let (leaf, below) ← descend (path ++ [argument]) {} rest
        return (leaf, (← p.settle).given :: below)
    else do descend path (← p.next path argument) rest

/-- A value that has to be there. -/
def required {α : Type} : Option α → Except Mistake α
  | some a => .ok a
  | none => .error .operandMissing

namespace Given

def text (g : Given) (name : String) : Except Mistake String := required (g.value? name)

def number? (g : Given) (name : String) : Option Int :=
  (g.value? name).bind fun s => signed? s.toList

def number (g : Given) (name : String) : Except Mistake Int := required (g.number? name)

def address (g : Given) (name : String) : Except Mistake Address :=
  required ((g.value? name).bind Address.ofText?)

end Given

/-- The command at the end of the levels. -/
def ofGiven (g : Given) : List String → Except Mistake Command
  | ["update"] => .ok (.update (g.number? "source") (g.value? "task") (g.flag "json"))
  | ["check"] => .ok (.check (g.flag "json"))
  | ["query"] => do return .query (← g.text "host")
  | ["status"] => .ok (.status (g.flag "json"))
  | ["sources", "list"] => .ok (.sources .list)
  | ["sources", "add"] => do
    return .sources (.add (← g.text "location") (g.value? "label") (g.flag "allow")
      (g.flag "redirects") (g.flag "disabled"))
  | ["sources", "remove"] => do return .sources (.remove (← g.number "id"))
  | ["sources", "enable"] => do return .sources (.enable (← g.number "id"))
  | ["sources", "disable"] => do return .sources (.disable (← g.number "id"))
  | ["user", "list"] => .ok (.user .list)
  | ["user", "block"] => do return .user (.block (← g.text "host"))
  | ["user", "allow"] => do return .user (.allow (← g.text "pattern"))
  | ["user", "redirect"] => do return .user (.redirect (← g.text "host") (← g.address "target"))
  | ["user", "remove"] => do return .user (.remove (← g.text "host"))
  | ["default-config"] => .ok .defaultConfig
  | ["version"] => .ok .version
  | _ => .error .noCommand

end Command

/-- What a command line asks for. Of a setting given at several levels the innermost counts. -/
def Invocation.ofArguments (arguments : List String) : Except Command.Mistake Invocation := do
  let (path, levels) ← Command.descend [] {} arguments
  let command ← Command.ofGiven (levels.getLast?.getD {}) path
  return {
    command
    config := (levels.reverse.findSome? (·.value? "config")).getD Config.standardPath
    quiet := levels.any (·.flag "quiet")
    verbose := levels.any (·.flag "verbose") }

end Sinkhole
