import Sinkhole.Command.User

/-! Asking what is in force for one host. -/
namespace Sinkhole.Command

def rulingLine (host : String) : Ruling → String
  | .blocked => host ++ ": BLOCKED"
  | .redirected a => host ++ ": REDIRECTED -> " ++ a.text
  | .allowed => host ++ ": allowed"

def runQuery (path host : String) : Job (List String) := do
  let host ← typedHost host false
  let s ← Job.openStore (← Job.loadConfig path)
  return [rulingLine host (s.ruling host)]

end Sinkhole.Command
