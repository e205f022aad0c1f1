import Sinkhole.Url.Percent

/-! URLs in parsed form, and their one text.

A URL is about a site or not. What is in it for a site is a host, perhaps with a port
and a name and password before it; the host may be left open. The path behind it begins
with a slash and is segments between slashes, or it is plain text. The port is only
kept where it is not the scheme's own. -/
namespace Sinkhole

namespace Url

/-- What a URL's host is; the empty domain leaves it open. -/
inductive Site where
  | domain (name : List Char)
  | address (a : Address)
  deriving DecidableEq, Repr

/-- No host in particular. -/
def Site.unstated : Site := .domain []

/-- An IPv6 address in a URL never has an IPv4 tail. -/
def groupsText (gs : List UInt16) : String :=
  let (start, length) := Address.longestGap gs
  if length > 1 then
    Address.groupsText (gs.take start) ++ "::" ++ Address.groupsText (gs.drop (start + length))
  else Address.groupsText gs

def Site.text : Site → List Char
  | .domain name => name
  | .address (.v4 o) => (Address.octetsText o).toList
  | .address (.v6 g) => ('[' :: (groupsText g.toList).toList) ++ [']']

end Url

/-- A URL in its parts, each of them as it is printed. -/
structure Url where
  scheme : List Char
  user : List Char := []
  password : List Char := []
  site : Option Url.Site := none
  port : Option Nat := none
  path : List Char
  query : Option (List Char) := none
  fragment : Option (List Char) := none
  deriving DecidableEq, Repr

namespace Url

def isHttp (u : Url) : Bool := u.scheme == "http".toList

def isHttps (u : Url) : Bool := u.scheme == "https".toList

def isFile (u : Url) : Bool := u.scheme == "file".toList

/-- The site, unless it is left open. -/
def host? (u : Url) : Option Site := u.site.filter (· != Site.unstated)

/-- The text of the host. -/
def hostText? (u : Url) : Option (List Char) := u.host?.map Site.text

/-- The segments of the path, unless it is plain text. -/
def segments? (u : Url) : Option (List (List Char)) :=
  match u.path with
  | '/' :: rest => some (Text.pieces (· == '/') rest)
  | _ => none

def credentials (u : Url) : List Char :=
  if u.user.isEmpty && u.password.isEmpty then []
  else u.user ++ (if u.password.isEmpty then [] else ':' :: u.password) ++ ['@']

def portText (u : Url) : List Char :=
  match u.port with
  | some p => ':' :: (toString p).toList
  | none => []

/-- Everything in front of the path. Without a site, a path that begins with two slashes has to
be told from one. -/
def originText (u : Url) : List Char :=
  u.scheme ++ ':' ::
    match u.site, u.path with
    | some site, _ => '/' :: '/' :: (u.credentials ++ site.text ++ u.portText)
    | none, '/' :: '/' :: _ => ['/', '.']
    | none, _ => []

def queryText (u : Url) : List Char :=
  match u.query with
  | some q => '?' :: q
  | none => []

def fragmentText (u : Url) : List Char :=
  match u.fragment with
  | some f => '#' :: f
  | none => []

def chars (u : Url) : List Char := u.originText ++ u.path ++ u.queryText ++ u.fragmentText

def text (u : Url) : String := String.ofList u.chars

/-- The local path that a `file` URL names, if it names this machine. Behind the letter of a
drive stands a slash. -/
def localPath? (u : Url) : Option String :=
  match u.host?, u.segments? with
  | none, some list =>
    let path := Text.decode (list.flatMap fun s => 0x2F :: percentDecode s)
    let endsInDrive := match path.reverse with
      | mark :: letter :: _ :: _ => (mark == ':' || mark == '|') && letter.isAlpha
      | _ => false
    some (String.ofList (if endsInDrive then path ++ ['/'] else path))
  | _, _ => none

end Url

end Sinkhole
