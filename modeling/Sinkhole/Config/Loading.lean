import Sinkhole.Config.Validation
import Sinkhole.Config.Writer
import Sinkhole.Text.Lossy

/-! Loading configurations: from the bytes of a file to a configuration that can be
worked with, or to the reason why there is none. -/
namespace Sinkhole

/-- Why a configuration file gives no configuration. -/
inductive LoadFault where
  | unreadable (path reason : String)
  /-- It is not in the notation of configuration files, or it describes something else. -/
  | unparsable (path : String)
  | unacceptable (complaint : Complaint)
  deriving DecidableEq, Repr

def LoadFault.message : LoadFault → String
  | unreadable path reason =>
    "Failed to read config file: " ++ Text.quoted path ++ ": " ++ reason
  | unparsable path => "Failed to parse config file: " ++ Text.quoted path
  | unacceptable complaint => complaint.message

namespace Config

/-- The configuration in a text, if nothing is wrong with it. -/
def ofFile (path : String) (text : List Char) : Except LoadFault Config :=
  match ofText? text with
  | none => .error (.unparsable path)
  | some c =>
    match c.complaint? with
    | some complaint => .error (.unacceptable complaint)
    | none => .ok c

/-- The configuration in the file at a path, from what reading that file gave. -/
def load (path : String) (content : Except String (List UInt8)) : Except LoadFault Config :=
  match content with
  | .error reason => .error (.unreadable path reason)
  | .ok bytes =>
    match Text.decode? bytes with
    | none => .error (.unreadable path "stream did not contain valid UTF-8")
    | some text => ofFile path text

end Config

end Sinkhole
