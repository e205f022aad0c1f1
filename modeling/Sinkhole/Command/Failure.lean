import Sinkhole.Config.Loading
import Sinkhole.Fetch.Settings
import Sinkhole.Disk

/-! Why a command was not carried out, and what the user is told. -/
namespace Sinkhole

/-- Why the lock beside a store cannot be had. -/
inductive LockFault where
  | noFolder (folder : String) (fault : DiskFault)
  | unopenable (path : String) (fault : DiskFault)
  /-- Someone else holds it. -/
  | taken (path : String)
  deriving DecidableEq, Repr

def LockFault.message : LockFault → String
  | noFolder folder fault => "Failed to create lock directory: " ++ folder ++ ": " ++ fault.text
  | unopenable path fault => "Failed to open lock file: " ++ path ++ ": " ++ fault.text
  | taken path =>
    "Another hostsieve update is already running against this database.\n" ++
      "Wait for it to finish, or remove a stale lock file: " ++ path

/-- Why a command did not do its work. -/
inductive Failure where
  /-- The work on the lists failed. -/
  | lists (error : Error)
  | badHost (refusal : Host.Refusal)
  | badConfig (path : String) (fault : LoadFault)
  | noStore (path : String) (error : Error)
  | locked (fault : LockFault)
  | noFetching (fault : Fetch.SetupFault)
  | unsupportedLocation (location : String)
  | redirectingAllowList
  | noUserEntry (host : String)
  deriving DecidableEq, Repr

def Failure.message : Failure → String
  | lists error => error.message
  | badHost refusal => refusal.message
  | badConfig path fault =>
    "Failed to load config from " ++ Text.quoted path ++ ": " ++ fault.message
  | noStore path error =>
    "Failed to open database " ++ Text.quoted path ++ ": " ++ error.message
  | locked fault => fault.message
  | noFetching fault => fault.message
  | unsupportedLocation location =>
    "Location must be an http(s):// URL, a file:// URL or an absolute path: " ++ location
  | redirectingAllowList => "An allow list cannot carry redirects"
  | noUserEntry host => "No user entry for '" ++ host ++ "'"

end Sinkhole
