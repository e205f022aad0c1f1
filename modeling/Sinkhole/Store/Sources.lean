import Sinkhole.Store.Basic

/-! Registering sources and keeping what is known about them. -/
namespace Sinkhole.Store

/-- The location a registration is stored under. -/
def placeOf (r : Registration) : String := Text.trimmed r.location

def source? (s : Store) (id : Int) : Option Source := s.sources.find? (·.id == id)

def source (s : Store) (id : Int) : Except Error Source :=
  match s.source? id with
  | some source => .ok source
  | none => .error (.unknownSource id)

/-- `f` on the source with this id, if there is one. -/
def modifySource (s : Store) (id : Int) (f : Source → Source) : Store :=
  { s with sources := s.sources.map fun source => if source.id == id then f source else source }

/-- The source that a registration becomes under an id. -/
def newSource (id : Int) (r : Registration) : Source :=
  { id, label := r.label, location := placeOf r, enabled := r.enabled, allowList := r.allowList,
    redirects := r.redirects }

/-- A source at a location that no other one has; its id is one that was never given out. -/
def add (s : Store) (r : Registration) : Except Error (Int × Store) :=
  if s.sources.any (·.location == placeOf r) then .error (.storage .locationTaken)
  else
    let id := s.lastId + 1
    .ok (id, { s with sources := s.sources ++ [newSource id r], lastId := id })

/-- A known source under a new registration. What was stored for it was read under its old
role, so when the role changes the validators go. -/
def refreshed (old : Source) (r : Registration) : Source :=
  let kept := old.allowList == r.allowList && old.redirects == r.redirects
  { old with
    label := r.label
    enabled := r.enabled
    allowList := r.allowList
    redirects := r.redirects
    entityTag := if kept then old.entityTag else none
    appliedModified := if kept then old.appliedModified else none }

/-- Registers a source, or refreshes the one that is at its location. An id is used up either
way. -/
def upsert (s : Store) (r : Registration) : Int × Store :=
  match s.sources.find? (·.location == placeOf r) with
  | some old =>
    (old.id, { s.modifySource old.id (refreshed · r) with lastId := s.lastId + 1 })
  | none =>
    let id := s.lastId + 1
    (id, { s with sources := s.sources ++ [newSource id r], lastId := id })

/-- Registers a list of sources, one after the other. -/
def upsertAll (s : Store) (rs : List Registration) : Store :=
  rs.foldl (fun s r => (s.upsert r).2) s

/-- Takes a source and its items out; the user's source stays. -/
def remove (s : Store) (id : Int) : Except Error Store :=
  if id = Source.userId then .error (.permanentSource id)
  else if s.knows id then
    .ok { s with
      sources := s.sources.filter (·.id != id)
      items := s.items.filter (·.source != id) }
  else .error (.unknownSource id)

def setEnabled (s : Store) (id : Int) (enabled : Bool) : Except Error Store :=
  if s.knows id then .ok (s.modifySource id ({ · with enabled }))
  else .error (.unknownSource id)

/-- Forgets all that was learned about a source's content. -/
def clearCache (s : Store) (id : Int) : Store :=
  s.modifySource id
    ({ · with entityTag := none, remoteModified := none, appliedModified := none, sizeHint := 0 })

/-- Records when a source's content was last changed, as a check saw it. -/
def setRemoteModified (s : Store) (id : Int) (at? : Option Time.Instant) : Store :=
  s.modifySource id ({ · with remoteModified := at?.map (·.micros) })

/-- A source after a fetch: the entity tag is replaced even by none, everything else only by
what was learned. -/
def learned (source : Source) (m : Metadata) : Source :=
  { source with
    entityTag := m.entityTag
    remoteModified := (m.remoteModified.map (·.micros)).or source.remoteModified
    appliedModified := (m.appliedModified.map (·.micros)).or source.appliedModified
    sizeHint := m.sizeHint.getD source.sizeHint }

def updateMetadata (s : Store) (id : Int) (m : Metadata) : Store :=
  s.modifySource id (learned · m)

/-- The sources whose items and validators a run looks after. -/
def enabledSources (s : Store) : List Source :=
  s.sources.filter fun source => source.enabled && !source.isUser

end Sinkhole.Store
