import Sinkhole.Command.Run
import Sinkhole.Store.Archive

/-! What of the disk a command gets to see.

A command works on a disk as a whole, but looks at few places on it: the
configuration, the store and the lock beside it, certificates, and the lists in
files. Which those are shows step by step, as each tells of the next. -/
namespace Sinkhole

/-- The path of a place. -/
def Trail.path (place : Trail) : String :=
  String.ofList (place.flatMap fun name => '/' :: name)

/-- A place and all folders above it, the outermost first. -/
def Trail.stages (place : Trail) : List Trail :=
  (List.range place.length).map fun n => place.take (n + 1)

namespace Command

/-- The file that a source's list lies in. -/
def listPath? (location : String) : Option String :=
  match Location.ofText location with
  | .ok (.local path) => some path
  | _ => none

/-- Whether a command changes the store. -/
def isWriting : Command → Bool
  | .update _ _ _ => true
  | .sources .list => false
  | .sources _ => true
  | .user .list => false
  | .user _ => true
  | _ => false

end Command

namespace Invocation

open Command

/-- The paths that the parts of a configuration tell of. -/
def pathsOf (c : Config) (d : Disk) : List String :=
  let stored := match d.find c.database with
    | .ok (.store s) => s.sources.map (·.location)
    | _ => []
  c.database :: c.lockPath :: c.http.certificates ++
    (c.sources.map (·.location) ++ stored).filterMap listPath?

/-- The paths that matter for a command, as far as the disk tells of them. -/
def paths (i : Invocation) (d : Disk) : List String :=
  let told := match Job.configOn d i.config with
    | .ok c => pathsOf c d
    | .error _ => []
  i.config :: told

/-- The path of the lock that a command takes, and leaves behind. -/
def lockPath? (i : Invocation) (d : Disk) : Option String :=
  match Job.configOn d i.config with
  | .ok c => if i.command.isWriting then some c.lockPath else none
  | .error _ => none

end Invocation

end Sinkhole
