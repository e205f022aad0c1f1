import Sinkhole.Host.Name

/-! What a list line can say about hosts, and what the table says about one.

An entry blocks a host, allows the hosts a pattern matches, or redirects a host to
an address. Stored rows keep the kind as a number and the target as text; a ruling
is what such a pair comes to for whoever asks about the host. -/
namespace Sinkhole

/-- The three kinds of entries. -/
inductive Kind where
  | blocked
  | allowed
  | redirected
  deriving DecidableEq, Repr

namespace Kind

/-- The number a kind is stored as. -/
def number : Kind → Int
  | blocked => 0
  | allowed => 1
  | redirected => 2

def ofNumber? (n : Int) : Option Kind :=
  if n = 0 then some blocked
  else if n = 1 then some allowed
  else if n = 2 then some redirected
  else none

theorem ofNumber?_number (k : Kind) : ofNumber? k.number = some k := by cases k <;> rfl

theorem number_of_ofNumber? {n : Int} {k : Kind} (h : ofNumber? n = some k) : k.number = n := by
  unfold ofNumber? at h
  split at h
  · cases h; simp [number, *]
  · split at h
    · cases h; simp [number, *]
    · split at h
      · cases h; simp [number, *]
      · cases h

def name : Kind → String
  | blocked => "blocked"
  | allowed => "allowed"
  | redirected => "redirected"

end Kind

/-- What one line, or one wish of the user, says about a host. -/
inductive Entry where
  | blocked (host : String)
  | allowed (pattern : String)
  | redirected (host : String) (target : Address)
  deriving DecidableEq, Repr

namespace Entry

def host : Entry → String
  | blocked h => h
  | allowed p => p
  | redirected h _ => h

def kind : Entry → Kind
  | blocked _ => .blocked
  | allowed _ => .allowed
  | redirected _ _ => .redirected

def target? : Entry → Option Address
  | redirected _ a => some a
  | _ => none

end Entry

/-- What holds for a host in the end. -/
inductive Ruling where
  | blocked
  | allowed
  | redirected (target : Address)
  deriving DecidableEq, Repr

namespace Ruling

/-- What a stored kind and target rule: a redirect whose target is no address blocks, and a
kind without meaning allows. -/
def ofStored (kind : Int) (target : Option String) : Ruling :=
  match Kind.ofNumber? kind with
  | some .redirected =>
    match target.bind Address.ofText? with
    | some a => redirected a
    | none => blocked
  | some .blocked => blocked
  | _ => allowed

def text : Ruling → String
  | blocked => "blocked"
  | allowed => "allowed"
  | redirected a => "redirected to " ++ a.text

end Ruling

end Sinkhole
