import Sinkhole.Store.HostTable

/-! What a run reports. -/
namespace Sinkhole.Update

/-- What a run came to. -/
structure Report where
  /-- The generation that is active after the run. -/
  generation : Int
  committed : Bool := false
  stopped : Bool := false
  updated : Nat := 0
  unchanged : Nat := 0
  /-- A line for every source that failed. -/
  failed : List String := []
  hostsParsed : Nat := 0
  summary : Option Summary := none
  deriving DecidableEq, Repr

/-- What a check found out about one source. -/
structure Finding where
  source : Int
  label : String
  remoteModified : Option Time.Instant := none
  updateAvailable : Bool := false
  error : Option String := none
  deriving DecidableEq, Repr

end Sinkhole.Update
