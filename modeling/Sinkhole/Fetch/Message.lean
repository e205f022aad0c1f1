import Sinkhole.Error
import Sinkhole.Url.Basic
import Sinkhole.Time.HttpDate

/-! Requests and responses, as far as fetching a list takes them.

A request carries at most the two conditions under which the server need not answer
with a body. Of a response the status, two headers and the body matter. -/
namespace Sinkhole.Fetch

open Text

/-- Whether content is asked for, or only its headers. -/
inductive Method where
  | get
  | head
  deriving DecidableEq, Repr

def Method.name : Method → String
  | get => "GET"
  | head => "HEAD"

/-- What a header of a request can hold: printable ASCII and tabs. -/
def isHeaderText (s : String) : Bool :=
  s.toList.all fun c => (0x20 ≤ c.toNat && c.toNat ≤ 0x7E) || c == '\t'

/-- What is sent to a server. -/
structure Request where
  method : Method
  url : Url
  userAgent : String
  ifNoneMatch : Option String := none
  ifModifiedSince : Option String := none
  deriving DecidableEq, Repr

/-- Whether the request can be written down at all. -/
def Request.isSendable (r : Request) : Bool :=
  r.ifNoneMatch.all isHeaderText && r.ifModifiedSince.all isHeaderText

/-- What a server sends back. -/
structure Response where
  status : Nat
  headers : List (String × String) := []
  body : List UInt8 := []
  /-- The length that the server announced. -/
  length : Option Nat := none
  /-- Whether the body came to its announced end. -/
  isWhole : Bool := true
  deriving DecidableEq, Repr

namespace Response

/-- The first header of this name, names being the same in any case. -/
def header? (r : Response) (name : String) : Option String :=
  (r.headers.find? fun h => lower h.1.toList == lower name.toList).map (·.2)

/-- A header that is readable as text. -/
def text? (r : Response) (name : String) : Option String := (r.header? name).filter isHeaderText

/-- An entity tag without the mark of a weak one, if anything of it is left. -/
def normalTag? (raw : List Char) : Option (List Char) :=
  let cs := trim raw
  let strong := trim (match cs with
    | 'W' :: '/' :: rest => rest
    | 'w' :: '/' :: rest => rest
    | cs => cs)
  if strong.isEmpty then none else some strong

/-- `normalTag?` on texts. -/
def normalizedTag? (raw : String) : Option String := (normalTag? raw.toList).map String.ofList

def entityTag? (r : Response) : Option String := (r.text? "etag").bind normalizedTag?

def lastModified? (r : Response) : Option Time.Instant :=
  (r.text? "last-modified").bind fun text => Time.readHttpDate? text.toList

def isNotModified (r : Response) : Bool := r.status == 304

/-- Any success, or that nothing changed. -/
def isUsable (r : Response) : Bool := (200 ≤ r.status && r.status ≤ 299) || r.isNotModified

end Response

end Sinkhole.Fetch
