import Sinkhole.Url.Path
import Sinkhole.Url.Site
import Sinkhole.Text.Decimal

/-! Reading URLs as browsers do.

Blanks around the text and line breaks inside it are dropped, schemes and hosts
are lower-cased, a backslash is a slash where the scheme is about sites, dot
segments are resolved, and characters that may not stand in a part are
percent-encoded. -/
namespace Sinkhole.Url

open Text

/-! ### Schemes -/

/-- Schemes about sites and their ports. -/
def specialSchemes : List (String × Option Nat) :=
  [("http", some 80), ("https", some 443), ("ws", some 80), ("wss", some 443), ("ftp", some 21),
    ("file", none)]

def isSpecial (scheme : List Char) : Bool := specialSchemes.any (·.1.toList == scheme)

def ownPort (scheme : List Char) : Option Nat :=
  (specialSchemes.find? (·.1.toList == scheme)).bind (·.2)

def isSchemeChar (c : Char) : Bool := c.isAlpha || c.isDigit || c == '+' || c == '-' || c == '.'

/-- The scheme in lower case and what stands behind its colon. -/
def scheme? (cs : List Char) : Option (List Char × List Char) :=
  let name := cs.takeWhile isSchemeChar
  match cs.drop name.length with
  | ':' :: rest =>
    match name with
    | c :: _ => if c.isAlpha then some (lower name, rest) else none
    | [] => none
  | _ => none

/-! ### Parts -/

/-- What a URL consists of behind its host: path, query and fragment as they stand. -/
structure Tail where
  path : List Char
  query : Option (List Char)
  fragment : Option (List Char)

def tail (cs : List Char) : Tail :=
  let body := cs.takeWhile (· != '#')
  let fragment := match cs.drop body.length with
    | _ :: rest => some rest
    | [] => none
  let path := body.takeWhile (· != '?')
  let query := match body.drop path.length with
    | _ :: rest => some rest
    | [] => none
  ⟨path, query, fragment⟩

/-- A text without what it is broken up with. -/
def unbroken (cs : List Char) : List Char := cs.filter (!isLayout ·)

def withTail (u : Url) (t : Tail) : Url :=
  { u with
    query := t.query.map fun q => percentEncode (keepsInQuery (isSpecial u.scheme)) (unbroken q)
    fragment := t.fragment.map fun f => percentEncode keepsInFragment (unbroken f) }

/-- Whether a character ends the part of a URL that names the host. -/
def endsHost (special : Bool) (c : Char) : Bool := isSlash special c || c == '?' || c == '#'

/-- The texts before and behind the last `@`. -/
def splitCredentials (cs : List Char) : Option (List Char) × List Char :=
  if cs.contains '@' then
    let back := (cs.reverse.takeWhile (· != '@')).reverse
    (some (cs.take (cs.length - back.length - 1)), back)
  else (none, cs)

/-- The host and the text behind the colon that ends it; colons in brackets do not. -/
def splitPort (cs : List Char) : List Char × Option (List Char) :=
  let host :=
    if cs.head? == some '[' then
      let inside := cs.takeWhile (· != ']')
      inside ++ (cs.drop inside.length).takeWhile (· != ':')
    else cs.takeWhile (· != ':')
  match cs.drop host.length with
  | _ :: port => (host, some port)
  | [] => (host, none)

def port? (text : List Char) : Option (Option Nat) :=
  if text.isEmpty then some none
  else do
    let n ← natural? text
    if n ≤ 65535 then some (some n) else none

/-- The path behind a host; one slash only marks its start. -/
def pathBehindHost (special : Bool) (text : List Char) : List Char :=
  let start : List Char × List Char :=
    match text with
    | [] => (if special then ['/'] else [], [])
    | c :: rest =>
      if special then (['/'], if isSlash true c then rest else text)
      else (if c == '/' then [] else ['/'], text)
  pathOn special false start.1 start.2

/-! ### Whole URLs -/

/-- A URL with a site: credentials, host, port and tail. The host may only be left open where
nothing else needs one. -/
def readSite? (scheme cs : List Char) : Option Url := do
  let special := isSpecial scheme
  let authority := cs.takeWhile (!endsHost special ·)
  let (credentials, place) := splitCredentials authority
  let (host, port) := splitPort place
  let portText := (port.getD []).takeWhile (· != '\\')
  let rest := (port.getD []).drop portText.length ++ cs.drop authority.length
  let userText := (credentials.getD []).takeWhile (· != ':')
  let u : Url :=
    { scheme
      user := percentEncode keepsInUser userText
      password := percentEncode keepsInUser (((credentials.getD []).drop userText.length).drop 1)
      path := [] }
  if host.isEmpty &&
      (special || port.isSome || !u.credentials.isEmpty || (credentials == some [] && !rest.isEmpty))
  then none
  else
    let site ← if special then site? host else plainSite? host
    let number ← port? portText
    let t := tail rest
    return withTail
      { u with
        site := some site
        port := if number == ownPort scheme then none else number
        path := pathBehindHost special t.path } t

/-- What stands behind a slash, if there is one here. -/
def afterSlash? (cs : List Char) : Option (List Char) :=
  match cs.dropWhile isLayout with
  | c :: rest => if isSlash true c then some rest else none
  | [] => none

/-- The URL of a file of this machine, with a path on what is there of it. -/
def localFile (scheme start cs : List Char) : Url :=
  let t := tail cs
  withTail { scheme, site := some Site.unstated, path := pathOn true true start t.path } t

/-- A `file` URL: an optional host that is dropped when it is this machine's name or when the
path begins with a drive of this machine. What it is broken up with still stands in it. -/
def readFile? (scheme cs : List Char) : Option Url := do
  match afterSlash? cs with
  | none => return localFile scheme ['/'] cs
  | some behindOne =>
    match afterSlash? behindOne with
    | none => return localFile scheme [] cs
    | some behindTwo =>
      let place := behindTwo.takeWhile (!endsHost true ·)
      let rest := behindTwo.drop place.length
      let host := unbroken place
      if isDrive host then return localFile scheme ['/'] behindTwo
      else if host.isEmpty then return localFile scheme ['/'] rest
      else
        let site ← site? host
        if site == .domain "localhost".toList then return localFile scheme ['/'] rest
        else
          let t := tail rest
          let trace := tracePath true true ['/'] ((afterSlash? t.path).getD t.path)
          return withTail
            { scheme, site := some (if trace.isHere then Site.unstated else site), path := trace.path true } t

/-- A URL of a scheme that is not about sites. -/
def readPlain? (scheme cs : List Char) : Option Url :=
  match cs with
  | '/' :: '/' :: rest => readSite? scheme rest
  | _ =>
    let t := tail cs
    let path :=
      if t.path.head? == some '/' then pathOn false false [] t.path
      else percentEncode (fun c => 0x20 ≤ c.toNat && c.toNat ≤ 0x7E) t.path
    some (withTail { scheme, path } t)

/-- The text without what does not show at its ends. -/
def inner (cs : List Char) : List Char :=
  let isEdge (c : Char) : Bool := c.toNat ≤ 0x20
  dropEndWhile isEdge (cs.dropWhile isEdge)

/-- The URL that a text on its own stands for. -/
def read? (cs : List Char) : Option Url := do
  let cs := inner cs
  let (scheme, rest) ← scheme? (unbroken cs)
  if scheme == "file".toList then readFile? scheme ((cs.dropWhile (· != ':')).drop 1)
  else if isSpecial scheme then readSite? scheme (rest.dropWhile (isSlash true))
  else readPlain? scheme rest

/-- `read?` on texts. -/
def ofText? (s : String) : Option Url := read? s.toList

/-! ### Relative URLs -/

/-- The URL that a text without a scheme stands for on a page at `base`. -/
def relative? (base : Url) (cs : List Char) : Option Url :=
  let special := isSpecial base.scheme
  let behind (start text : List Char) : Option Url :=
    let t := tail text
    some (withTail { base with path := pathOn special base.isFile start t.path } t)
  match cs with
  | [] => some { base with fragment := none }
  | '#' :: _ => some { base with fragment := (withTail base (tail cs)).fragment }
  | '?' :: _ => some (withTail base (tail cs))
  | c :: rest =>
    if isSlash true c then
      let slashes := cs.takeWhile (isSlash true)
      if slashes.length < 2 then behind ['/'] rest
      else
        readSite? base.scheme (cs.drop (if slashes.take 2 == ['/', '/'] then 2 else slashes.length))
    else
      let folder := (withoutLast base.isFile base.path.reverse).reverse
      behind (if folder.isEmpty then ['/'] else folder) cs

/-- The URL that a text stands for on a page at `base`: on its own if it has a scheme, else
with what it leaves out taken from the base. So it is too if it has the scheme of the base and
no host. -/
def join? (base : Url) (cs : List Char) : Option Url :=
  let text := unbroken (inner cs)
  match scheme? text with
  | some (scheme, rest) =>
    if scheme == base.scheme && isSpecial scheme && !base.isFile &&
        (rest.takeWhile (isSlash true)).length < 2 then relative? base rest
    else read? cs
  | none =>
    if base.path.head? == some '/' || base.site.isSome || text.head? == some '#' then
      relative? base text
    else none

end Sinkhole.Url
