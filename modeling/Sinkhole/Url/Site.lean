import Sinkhole.Url.Basic
import Sinkhole.Url.Punycode

/-! Hosts of URLs.

A host between brackets is an IPv6 address. Any other one is kept as it stands where the
scheme is not about sites; where it is, the host is lower-cased, and one that ends in a
number has to be an IPv4 address in one of its many spellings. -/
namespace Sinkhole.Url

open Text

/-- The value of a part of an IPv4 address: decimal, octal behind `0`, hexadecimal behind `0x`. -/
def ipv4Number? (part : List Char) : Option Nat :=
  let (base, digits) := match part with
    | '0' :: x :: rest => if x = 'x' || x = 'X' then (16, rest) else (8, x :: rest)
    | _ => (10, part)
  if part.isEmpty then none
  else digits.foldl (fun value c => do return (← value) * base + (← Address.digit? base c)) (some 0)

/-- The parts between the dots, without the empty one behind a dot at the end. -/
def dottedParts (name : List Char) : List (List Char) :=
  let parts := pieces (· == '.') name
  if parts.length > 1 && parts.getLast? == some [] then parts.dropLast else parts

def endsInNumber (name : List Char) : Bool :=
  match (dottedParts name).getLast? with
  | some last => (!last.isEmpty && last.all Char.isDigit) || (ipv4Number? last).isSome
  | none => false

/-- An IPv4 address of up to four numbers, the last of which fills what is left. -/
def ipv4? (name : List Char) : Option Address := do
  let parts := dottedParts name
  if parts.length > 4 then none
  else
    let numbers ← parts.mapM ipv4Number?
    let last := numbers.getLastD 0
    let front := numbers.dropLast
    if front.any (· > 255) || last ≥ Nat.pow 256 (5 - numbers.length) then none
    else
      let value := (front.mapIdx fun i n => n * Nat.pow 256 (3 - i)).foldl Nat.add last
      return .v4 #v[UInt8.ofNat (value / 0x1000000), UInt8.ofNat (value / 0x10000),
        UInt8.ofNat (value / 0x100), UInt8.ofNat value]

/-- Characters that no host may hold. -/
def isForbiddenInSite (c : Char) : Bool :=
  c.toNat == 0 || ['\t', '\n', '\r', ' ', '#', '/', ':', '<', '>', '?', '@', '[', '\\', ']', '^',
    '|'].contains c

/-- Those, controls and the percent sign. -/
def isForbiddenInDomain (c : Char) : Bool :=
  isForbiddenInSite c || c.toNat ≤ 0x1F || c == '%' || c.toNat == 0x7F

def bracketed? (cs : List Char) : Option Site :=
  match cs with
  | '[' :: rest =>
    if rest.getLast? == some ']' then
      match Address.groups? rest.dropLast with
      | some (g, []) => some (.address (.v6 g))
      | _ => none
    else none
  | _ => none

/-- A host of a scheme that is about sites. -/
def site? (cs : List Char) : Option Site :=
  if cs.head? == some '[' then bracketed? cs
  else
    let name := lower (decode (percentDecode cs))
    if name.isEmpty || name.any isForbiddenInDomain || name.contains replacement ||
        !(pieces (· == '.') name).all isLabel then none
    else if endsInNumber name then (ipv4? name).map .address
    else some (.domain name)

/-- A host of any other scheme is kept as it is. -/
def plainSite? (cs : List Char) : Option Site :=
  if cs.head? == some '[' then bracketed? cs
  else if cs.any isForbiddenInSite then none
  else some (.domain (percentEncode (fun c => 0x20 ≤ c.toNat && c.toNat ≤ 0x7E) cs))

end Sinkhole.Url
