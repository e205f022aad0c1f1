import Sinkhole.Source.Location
import Sinkhole.Line
import Sinkhole.Time.Instant

/-! Sources: the lists that feed the table, and what is known about each.

A registration is what a user or the configuration says about a source. The store
adds an id and the validators of the content it last took over: the entity tag, the
two times and the size that decide whether the next fetch is one at all. -/
namespace Sinkhole

/-- What it takes to register a source. -/
structure Registration where
  label : String
  location : String
  enabled : Bool := true
  allowList : Bool := false
  redirects : Bool := false
  deriving DecidableEq, Repr

/-- What a fetch learned about a source's content; an absent size is one that was not learned. -/
structure Metadata where
  entityTag : Option String := none
  remoteModified : Option Time.Instant := none
  appliedModified : Option Time.Instant := none
  sizeHint : Option Nat := none
  deriving DecidableEq, Repr

/-- A source as the store holds it; its times are whole microseconds. -/
structure Source where
  id : Int
  label : String
  location : String
  enabled : Bool := true
  allowList : Bool := false
  redirects : Bool := false
  entityTag : Option String := none
  remoteModified : Option Int := none
  appliedModified : Option Int := none
  sizeHint : Nat := 0
  deriving DecidableEq, Repr

namespace Source

/-- The id of the source that holds what the user typed in. -/
def userId : Int := 1

def role (s : Source) : Role := if s.allowList then .allow else .block

def isUser (s : Source) : Bool := s.id == userId

def place (s : Source) : Except Error Location := Location.ofText s.location

/-- When the content last taken over was changed. -/
def applied (s : Source) : Option Time.Instant := s.appliedModified.map Time.Instant.ofMicros

/-- The host to ask for the source, if it is on the web. -/
def remoteHost? (s : Source) : Option (List Char) :=
  match s.place with
  | .ok (.remote url) => url.hostText?
  | _ => none

end Source

end Sinkhole
