import Sinkhole.Error
import Sinkhole.Url.Reader

/-! Where a source's content comes from.

A location is kept as text and read each time it is needed: a web address, a local
file by path or by `file` URL, or the mark of the entries a user typed in. -/
namespace Sinkhole

open Text

/-- Where the content of a source comes from. -/
inductive Location where
  | remote (url : Url)
  | local (path : String)
  | user
  deriving DecidableEq, Repr

namespace Location

/-- The location of the source that holds what the user typed in. -/
def userText : String := "user:"

def ofText (raw : String) : Except Error Location :=
  let cs := trim raw.toList
  let unsupported := Error.unsupportedSource (String.ofList cs)
  if cs = userText.toList then .ok .user
  else if cs.head? == some '/' then .ok (.local (String.ofList cs))
  else match Url.read? cs with
    | none => .error unsupported
    | some url =>
      if url.isHttp || url.isHttps then .ok (.remote url)
      else if url.isFile then
        match url.localPath? with
        | some path => .ok (.local path)
        | none => .error unsupported
      else .error unsupported

def isRemote : Location → Bool
  | remote _ => true
  | _ => false

def text : Location → String
  | remote url => url.text
  | .local path => path
  | user => userText

end Location

end Sinkhole
