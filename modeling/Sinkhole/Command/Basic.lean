import Sinkhole.Config.Basic

/-! What can be asked for on the command line. -/
namespace Sinkhole

/-- What can be asked about the registered lists. -/
inductive SourcesCommand where
  | list
  | add (location : String) (label : Option String) (allow redirects disabled : Bool)
  | remove (id : Int)
  | enable (id : Int)
  | disable (id : Int)
  deriving DecidableEq, Repr

/-- What can be asked about the user's own entries. -/
inductive UserCommand where
  | list
  | block (host : String)
  | allow (pattern : String)
  | redirect (host : String) (target : Address)
  | remove (host : String)
  deriving DecidableEq, Repr

/-- One command, with everything it was given. -/
inductive Command where
  /-- Of one source, or of all. -/
  | update (source : Option Int) (task : Option String) (json : Bool)
  | check (json : Bool)
  | query (host : String)
  | status (json : Bool)
  | sources (command : SourcesCommand)
  | user (command : UserCommand)
  | defaultConfig
  | version
  deriving DecidableEq, Repr

/-- A command with the settings that go for every command. -/
structure Invocation where
  command : Command
  config : String := Config.standardPath
  quiet : Bool := false
  verbose : Bool := false
  deriving DecidableEq, Repr

end Sinkhole
