import Sinkhole.Entry

/-! From a line of a list to the entry it states.

A line of a block list is first taken as a line of a hosts file, an address and a
host. Only when it does not have that form is it tried as a resolver rule
(`address=/host/…`), a bare host, an ad-block rule (`||host^…`) and an anchored URL
rule (`|scheme://host/…`), in this order, and the first that yields a name wins. A
line of an allow list is taken nearly as it stands and may be a pattern. Whatever
comes out has passed the check for its kind, so a stored entry never has to be
looked at again. -/
namespace Sinkhole

open Text

/-- How the lines of a list are read. -/
inductive Role where
  | block
  | allow
  deriving DecidableEq, Repr

def Role.name : Role → String
  | block => "block"
  | allow => "allow"

namespace Line

/-- Names that hosts files give to loopback as a matter of course; they are never entries. -/
def reserved : List (List Char) :=
  ["localhost", "localhost.localdomain", "local", "broadcasthost", "ip6-localhost",
    "ip6-loopback", "ip6-localnet", "ip6-mcastprefix", "ip6-allnodes", "ip6-allrouters",
    "ip6-allhosts"].map String.toList

/-- Marks of rules about page elements, which block no host. -/
def elementMarks : List (List Char) :=
  ["##", "#@#", "#$#", "#?#"].map String.toList

/-! ### Lines of a hosts file -/

/-- The address and the host of a line whose first two words are both no comment. -/
def hostsFields? (line : List Char) : Option (List Char × List Char) :=
  match words line with
  | address :: host :: _ => if host.head? == some '#' then none else some (address, host)
  | _ => none

/-- A sinkhole blocks the host; any other address redirects it, where the list may do that. -/
def hostsEntry? (redirects : Bool) (address host : List Char) : Option Entry :=
  let name := Host.normal host
  if reserved.contains name then none
  else match Address.read? address with
    | none => none
    | some a =>
      if a.isSinkhole then some (.blocked (String.ofList name))
      else if redirects then some (.redirected (String.ofList name) a)
      else none

/-! ### Other forms -/

/-- The notations of a line without an address. -/
inductive Form where
  | resolver
  | bare
  | adblock
  | url
  deriving DecidableEq, Repr

def Form.all : List Form := [.resolver, .bare, .adblock, .url]

/-- The part of a line of this form that should name a host. -/
def Form.candidate? : Form → List Char → Option (List Char)
  | .resolver, line => do
    let rest ← after? "address=/".toList line
    let first := rest.takeWhile (· != '/')
    if first.isEmpty then none else some first
  | .bare, line =>
    if line.head? == some '|' || line.contains '=' || line.any isBlank then none else some line
  | .adblock, line => after? ['|', '|'] line
  | .url, line => do afterFirst? "://".toList (← after? ['|'] line)

/-- Characters that no candidate may hold. -/
def isForbidden (c : Char) : Bool := [' ', '\t', '*', '?', '%'].contains c

/-- Where the host of a candidate ends. -/
def endsHost (c : Char) : Bool := c == '^' || c == '$' || c == '/'

/-- The name in a candidate, if there is one. -/
def candidateName? (candidate : List Char) : Option (List Char) :=
  let host := (candidate.dropWhile fun c => c == '.' || c == '|').takeWhile (!endsHost ·)
  if host.isEmpty || host.any isForbidden || Address.isText host then none
  else
    let name := Host.normal host
    if Host.isName name then some name else none

/-- A line without the comment at its end. -/
def withoutComment (line : List Char) : List Char :=
  if line.contains '#' then trimEnd (line.takeWhile (· != '#')) else line

def formEntry? (line : List Char) : Option Entry :=
  if (after? ['@', '@'] line).isSome then none
  else if line.head? == some '[' && line.getLast? == some ']' then none
  else if elementMarks.any (holds · line) then none
  else
    let line := withoutComment line
    if line.isEmpty then none
    else
      ((Form.all.filterMap (·.candidate? line)).findSome? candidateName?).map
        fun name => .blocked (String.ofList name)

/-! ### Whole lines -/

def blockEntry? (redirects : Bool) (line : List Char) : Option Entry :=
  match hostsFields? line with
  | some (address, host) => hostsEntry? redirects address host
  | none => formEntry? line

/-- Only a comment right behind a single ASCII character is cut off. -/
def allowEntry? (line : List Char) : Option Entry :=
  let host := match line with
    | c :: '#' :: _ => if c.toNat < 0x80 then [c] else line
    | _ => line
  let pattern := Host.normal host
  if pattern.isEmpty then none else some (.allowed (String.ofList pattern))

/-- Blocked hosts must be names; allowed and redirected ones may be patterns. -/
def isAcceptable : Entry → Bool
  | .blocked host => Host.isName host.toList
  | .allowed pattern => Host.isPattern pattern.toList
  | .redirected host _ => Host.isPattern host.toList

/-- The entry a line states, at most one. -/
def classify (role : Role) (redirects : Bool) (line : List Char) : Option Entry :=
  let line := trim line
  if line.isEmpty || line.head? == some '#' || line.head? == some '!' then none
  else
    (match role with
      | .block => blockEntry? redirects line
      | .allow => allowEntry? line).filter isAcceptable

end Line

end Sinkhole
