import Sinkhole.Text.Blank

/-! IP addresses and their texts.

`read?` accepts the textual forms of both families and nothing around them: four
decimal numbers without leading zeros, or groups of up to four hexadecimal digits
with at most one gap and possibly an IPv4 tail. `text` writes the one form that
tables and answers use: lower case, the longest run of zero groups as a gap, and
the IPv4 tail for a mapped address. -/
namespace Sinkhole

/-- An address of a machine: four octets, or eight groups of sixteen bits. -/
inductive Address where
  | v4 (octets : Vector UInt8 4)
  | v6 (groups : Vector UInt16 8)
  deriving DecidableEq, Repr

namespace Address

/-! ### Reading -/

def digit? (base : Nat) (c : Char) : Option Nat :=
  let n := c.toNat
  let value :=
    if 0x30 ≤ n && n ≤ 0x39 then n - 0x30
    else if 0x61 ≤ n && n ≤ 0x66 then n - 0x61 + 10
    else if 0x41 ≤ n && n ≤ 0x46 then n - 0x41 + 10
    else 16
  if value < base then some value else none

/-- The value and the number of the digits `cs` starts with, and the rest. -/
def leadingNumber (base : Nat) : List Char → Nat × Nat → Nat × Nat × List Char
  | [], (value, count) => (value, count, [])
  | c :: cs, (value, count) =>
    match digit? base c with
    | some d => leadingNumber base cs (value * base + d, count + 1)
    | none => (value, count, c :: cs)

/-- A decimal number of one to three digits below 256; a leading zero only stands alone. -/
def octet? (cs : List Char) : Option (UInt8 × List Char) :=
  let (value, count, rest) := leadingNumber 10 cs (0, 0)
  if count = 0 || count > 3 || value > 255 || (count > 1 && cs.head? == some '0') then none
  else some (UInt8.ofNat value, rest)

/-- One to four hexadecimal digits. -/
def group? (cs : List Char) : Option (UInt16 × List Char) :=
  let (value, count, rest) := leadingNumber 16 cs (0, 0)
  if count = 0 || count > 4 then none else some (UInt16.ofNat value, rest)

/-- What stands behind the mark `c`. -/
def skip? (c : Char) : List Char → Option (List Char)
  | d :: cs => if d = c then some cs else none
  | [] => none

/-- Four octets with points between them, and the rest. -/
def octets? (cs : List Char) : Option (Vector UInt8 4 × List Char) := do
  let (a, cs) ← octet? cs
  let (b, cs) ← octet? (← skip? '.' cs)
  let (c, cs) ← octet? (← skip? '.' cs)
  let (d, cs) ← octet? (← skip? '.' cs)
  return (#v[a, b, c, d], cs)

def pair (high low : UInt8) : UInt16 := UInt16.ofNat (high.toNat * 256 + low.toNat)

/-- The two groups that four octets stand for. -/
def tailGroups (o : Vector UInt8 4) : List UInt16 := [pair o[0] o[1], pair o[2] o[3]]

/-- What a stretch of groups came to: the groups, whether octets ended it, and the rest. -/
structure Stretch where
  groups : List UInt16
  endedInOctets : Bool
  rest : List Char

/-- At most `room` groups with colons between them; `first` says that none was read yet.
Where two groups still fit, four octets may take their place and end the stretch. -/
def stretch : (room : Nat) → (first : Bool) → List Char → Stretch
  | 0, _, cs => ⟨[], false, cs⟩
  | room + 1, first, cs =>
    match (if first then some cs else skip? ':' cs) with
    | none => ⟨[], false, cs⟩
    | some cs' =>
      match (if room = 0 then none else octets? cs') with
      | some (o, rest) => ⟨tailGroups o, true, rest⟩
      | none =>
        match group? cs' with
        | none => ⟨[], false, cs⟩
        | some (g, rest) =>
          let more := stretch room false rest
          ⟨g :: more.groups, more.endedInOctets, more.rest⟩

/-- Eight groups from a front and a back, zeros between them. -/
def joined (front back : List UInt16) : Vector UInt16 8 :=
  Vector.ofFn fun i =>
    if i.val < front.length then front.getD i.val 0
    else if 8 - back.length ≤ i.val then back.getD (i.val - (8 - back.length)) 0
    else 0

/-- Eight groups, or fewer around one gap; octets only at the very end. -/
def groups? (cs : List Char) : Option (Vector UInt16 8 × List Char) :=
  let front := stretch 8 true cs
  if front.groups.length = 8 then some (joined front.groups [], front.rest)
  else if front.endedInOctets then none
  else do
    let rest ← skip? ':' (← skip? ':' front.rest)
    let back := stretch (7 - front.groups.length) true rest
    return (joined front.groups back.groups, back.rest)

/-- The address a whole text stands for. -/
def read? (cs : List Char) : Option Address :=
  match octets? cs with
  | some (o, rest) => if rest.isEmpty then some (.v4 o) else none
  | none =>
    match groups? cs with
    | some (g, rest) => if rest.isEmpty then some (.v6 g) else none
    | none => none

/-- Whether a text stands for an address. -/
def isText (cs : List Char) : Bool := (read? cs).isSome

/-- `read?` on texts. -/
def ofText? (s : String) : Option Address := read? s.toList

/-! ### Writing -/

def octetsText (o : Vector UInt8 4) : String :=
  ".".intercalate (o.toList.map fun b => toString b.toNat)

def groupText (g : UInt16) : String := String.ofList (Nat.toDigits 16 g.toNat)

/-- Length of the run of zero groups that `gs` starts with. -/
def zeros (gs : List UInt16) : Nat := (gs.takeWhile (· == 0)).length

/-- Where the first longest run of zero groups starts, and its length. -/
def longestGap (gs : List UInt16) : Nat × Nat :=
  ((List.range gs.length).map fun i => (i, zeros (gs.drop i))).foldl
    (fun best run => if run.2 > best.2 then run else best) (0, 0)

def groupsText (gs : List UInt16) : String := ":".intercalate (gs.map groupText)

/-- The octets of an address that wraps an IPv4 one. -/
def mapped? (g : Vector UInt16 8) : Option (Vector UInt8 4) :=
  if g.toList.take 6 = [0, 0, 0, 0, 0, 0xFFFF] then
    some #v[UInt8.ofNat (g[6].toNat / 256), UInt8.ofNat g[6].toNat,
      UInt8.ofNat (g[7].toNat / 256), UInt8.ofNat g[7].toNat]
  else none

def text : Address → String
  | .v4 o => octetsText o
  | .v6 g =>
    match mapped? g with
    | some o => "::ffff:" ++ octetsText o
    | none =>
      let gs := g.toList
      let (start, length) := longestGap gs
      if length > 1 then groupsText (gs.take start) ++ "::" ++ groupsText (gs.drop (start + length))
      else groupsText gs

/-! ### Sinkholes -/

/-- The addresses that a hosts file gives to a host it only wants blocked: the two loopback
addresses and the unspecified IPv4 one. -/
def sinkholes : List Address :=
  [.v4 #v[127, 0, 0, 1], .v4 #v[0, 0, 0, 0], .v6 #v[0, 0, 0, 0, 0, 0, 0, 1]]

def isSinkhole (a : Address) : Bool := sinkholes.contains a

end Address

end Sinkhole
