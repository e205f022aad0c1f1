import Sinkhole.Command.Arguments
import Sinkhole.Command.Query
import Sinkhole.Command.Running
import Sinkhole.Config.Template

/-! Carrying out a command line: from arguments and a disk to what is printed, how
the program ends, and the disk afterwards. -/
namespace Sinkhole

def programName : String := "hostsieve"

namespace Command

def text (lines : List String) : String := String.join (lines.map (· ++ "\n"))

def versionLine (path : List String) : String :=
  "-".intercalate (programName :: path) ++ " " ++ Config.version

end Command

namespace Invocation

open Command

/-- The lines that a command prints. -/
def lines (o : Surroundings) (i : Invocation) : Job (List String) :=
  match i.command with
  | .update source task json => runUpdate o i.config source task json i.quiet
  | .check json => runCheck o i.config json
  | .query host => runQuery i.config host
  | .status json => runStatus i.config json
  | .sources command => runSources i.config command
  | .user command => runUser i.config command
  | .defaultConfig => return Config.templateLines
  | .version => return [versionLine []]

/-- What a command prints or why it was not carried out, and the disk afterwards. -/
def run (o : Surroundings) (i : Invocation) (d : Disk) : Except Failure String × Disk :=
  let (result, d) := (i.lines o).run d
  (result.map text, d)

end Invocation

namespace Command

/-- How the program ends: what it prints, what it complains about, and its exit status. -/
structure Outcome where
  output : String := ""
  complaint : String := ""
  status : Nat
  deriving DecidableEq, Repr

def usage : String :=
  "Usage: " ++ programName ++ " [-c CONFIG] [-q] [-v] COMMAND\n\n" ++
    "Commands:\n" ++ String.join ((levelOf []).commands.map fun name => "  " ++ name ++ "\n")

/-- What a command line that names no command comes to. -/
def Mistake.outcome : Mistake → Outcome
  | helpWanted => { output := usage, status := 0 }
  | versionWanted path => { output := versionLine path ++ "\n", status := 0 }
  | _ => { complaint := usage, status := 2 }

def outcomeOf : Except Failure String → Outcome
  | .ok output => { output, status := 0 }
  | .error e => { complaint := "Error: " ++ e.message ++ "\n", status := 1 }

/-- The whole program. -/
def program (o : Surroundings) (arguments : List String) (d : Disk) : Outcome × Disk :=
  match Invocation.ofArguments arguments with
  | .error mistake => (mistake.outcome, d)
  | .ok i =>
    let (result, d) := i.run o d
    (outcomeOf result, d)

end Command

end Sinkhole
