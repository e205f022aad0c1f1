/-! Why an operation on the lists failed, and the text each failure is shown as. -/
namespace Sinkhole

/-- How an exchange with a server came to nothing. -/
inductive NetworkFault where
  /-- No connection could be made. -/
  | unreachable
  | timeout
  /-- The connection ended before an answer had begun. -/
  | hungUp
  /-- The answer ended before its announced end. -/
  | cutShort
  | tooManyRedirects
  /-- A header of the request cannot be sent. -/
  | badHeader
  deriving DecidableEq, Repr

namespace NetworkFault

/-- Whether the same request may succeed when it is sent again. -/
def isTransient : NetworkFault → Bool
  | unreachable | timeout | hungUp => true
  | cutShort | tooManyRedirects | badHeader => false

def text : NetworkFault → String
  | unreachable => "no connection to the server"
  | timeout => "the server did not answer in time"
  | hungUp => "the server closed the connection"
  | cutShort => "the answer ended too early"
  | tooManyRedirects => "too many redirects"
  | badHeader => "a header cannot be sent"

end NetworkFault

/-- Rules of the store that a statement can break, and why a store cannot be opened. -/
inductive StoreFault where
  | unknownOwner
  | locationTaken
  /-- A host is matched with a pattern that `LIKE` does not take. -/
  | patternTooLong
  /-- What lies at the path is no file. -/
  | unopenable (path : String)
  /-- What lies at the path holds something else. -/
  | notAStore
  deriving DecidableEq, Repr

def StoreFault.text : StoreFault → String
  | .unknownOwner => "FOREIGN KEY constraint failed"
  | .locationTaken => "UNIQUE constraint failed: sources.location"
  | .patternTooLong => "LIKE or GLOB pattern too complex"
  | .unopenable path => "unable to open database file: " ++ path
  | .notAStore => "file is not a database"

/-- Why work on the lists went wrong. -/
inductive Error where
  | noConnection
  | downloadFailed (attempted : Nat)
  | parseFailure (label reason : String)
  | unsupportedSource (location : String)
  | alreadyRunning
  | unknownSource (id : Int)
  | permanentSource (id : Int)
  | insecureRedirect (url : String)
  | http (status : Nat) (url : String)
  | network (fault : NetworkFault)
  | io (text : String)
  | storage (fault : StoreFault)
  deriving DecidableEq, Repr

namespace Error

def message : Error → String
  | noConnection => "No network connection available"
  | downloadFailed n => "All " ++ toString n ++ " remote sources failed to download"
  | parseFailure label reason => "Parse failure in " ++ label ++ ": " ++ reason
  | unsupportedSource location => "Unsupported source type: " ++ location
  | alreadyRunning => "A pipeline run is already in progress"
  | unknownSource id => "Unknown source id " ++ toString id
  | permanentSource id => "Source " ++ toString id ++ " is permanent and cannot be removed"
  | insecureRedirect url => "Refusing HTTPS to HTTP redirect: " ++ url
  | http status url => "HTTP " ++ toString status ++ " from " ++ url
  | network fault => "Network error: " ++ fault.text
  | io text => "I/O error: " ++ text
  | storage fault => "Storage error: " ++ fault.text

/-- Whether the same request may succeed when it is sent again: the network failed on the way,
or the server said that it is overloaded or broken. -/
def isTransient : Error → Bool
  | network fault => fault.isTransient
  | http status _ => status ≥ 500 || status == 429
  | _ => false

end Error

end Sinkhole
