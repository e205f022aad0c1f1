import Sinkhole.Address

/-! Host names and host patterns, as list entries and typed-in names are held to them.

A name is up to 253 characters of dot-separated labels; a pattern may hold `*` and
`?` as well, and is accepted when either leaving them out or putting a letter in
their place gives a name. An address is never a name. -/
namespace Sinkhole.Host

open Text

def maxLength : Nat := 253

def maxLabelLength : Nat := 63

def isAsciiAlnum (c : Char) : Bool := c.isAlpha || c.isDigit

def isLabelChar (c : Char) : Bool := isAsciiAlnum c || c == '-' || c == '_'

/-- One to 63 letters, digits, hyphens and underscores, no hyphen at either end. -/
def isLabel (label : List Char) : Bool :=
  !label.isEmpty && label.length ≤ maxLabelLength && label.head? != some '-' &&
    label.getLast? != some '-' && label.all isLabelChar

/-- `host` without one dot at its end. -/
def withoutRootDot (host : List Char) : List Char :=
  if host.getLast? == some '.' then host.dropLast else host

/-- A name in full or relative form: its labels are labels, and it is no address. -/
def isName (host : List Char) : Bool :=
  let bare := withoutRootDot host
  !bare.isEmpty && bare.length ≤ maxLength && !Address.isText bare &&
    (pieces (· == '.') bare).all isLabel

def isWildcard (c : Char) : Bool := c == '*' || c == '?'

/-- A name, or one with wildcards that is a name without them or with a letter in their place. -/
def isPattern (host : List Char) : Bool :=
  if host.any isWildcard then
    isName (host.filter (!isWildcard ·)) ||
      isName (host.map fun c => if isWildcard c then 'a' else c)
  else isName host

/-- The spelling under which a host is stored and looked up: no blanks around it, no dots
behind it, ASCII letters in lower case. -/
def normal (host : List Char) : List Char :=
  lower (dropEndWhile (· == '.') (trim host))

/-- `normal` on texts. -/
def normalized (host : String) : String := String.ofList (normal host.toList)

/-- Why a typed-in host or target is refused. -/
inductive Refusal where
  | empty
  | notAHost (host : String)
  | notAnAddress (target : String)
  deriving DecidableEq, Repr

def Refusal.message : Refusal → String
  | .empty => "Hostname cannot be empty"
  | .notAHost host => "Invalid hostname '" ++ host ++ "'"
  | .notAnAddress target => "Invalid redirect target '" ++ target ++ "': not an IP address"

/-- Accepts a host, or with `wildcards` also a pattern. -/
def check (host : String) (wildcards : Bool) : Except Refusal Unit :=
  if host.isEmpty then .error .empty
  else if (if wildcards then isPattern host.toList else isName host.toList) then .ok ()
  else .error (.notAHost host)

def checkTarget (target : String) : Except Refusal Address :=
  match Address.ofText? target with
  | some a => .ok a
  | none => .error (.notAnAddress target)

end Sinkhole.Host
