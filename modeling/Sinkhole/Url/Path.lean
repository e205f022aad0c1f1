import Sinkhole.Url.Percent
import Sinkhole.Text.Blank

/-! Paths of URLs.

A path is made segment by segment on the text that is there already. A segment of a dot
stays where it is and one of two dots goes back over the segment before it; the letter of
a drive is not gone back over. In a `file` URL the first segment may be such a letter,
which then means this machine. -/
namespace Sinkhole.Url

open Text

/-- Characters that a URL may be broken up with; they stand for nothing. -/
def isLayout (c : Char) : Bool := c == '\t' || c == '\n' || c == '\r'

def isSlash (special : Bool) (c : Char) : Bool := c == '/' || (special && c == '\\')

/-! ### Segments -/

def isDot (segment : List Char) : Bool := lower segment == ['.'] || lower segment == "%2e".toList

def isDoubleDot (segment : List Char) : Bool :=
  ["..", ".%2e", "%2e.", "%2e%2e"].any (·.toList == lower segment)

/-- The letter of a drive, with a colon or a bar behind it. -/
def isDrive (segment : List Char) : Bool :=
  match segment with
  | [c, mark] => c.isAlpha && (mark == ':' || mark == '|')
  | _ => false

/-- The same with a colon. -/
def isNormalDrive (segment : List Char) : Bool :=
  isDrive segment && segment.getLast? == some ':'

/-- Whether a segment is such a letter, perhaps with more behind a backslash. -/
def beginsWithDrive (segment : List Char) : Bool :=
  isDrive (segment.take 2) && (segment.drop 2).head?.all (· == '\\')

/-! ### What is there of a path

It is held in reverse, so that its end is at hand. -/

def endsInSlash (back : List Char) : Bool := back.head? == some '/'

/-- What stands behind the last slash. -/
def lastSegment (back : List Char) : List Char := (back.takeWhile (· != '/')).reverse

/-- A path without its last segment; the letter of a drive stays in a `file` URL. -/
def withoutLast (file : Bool) (back : List Char) : List Char :=
  let last := lastSegment back
  if file && isNormalDrive last then back else back.drop last.length

/-- A path that ends in a slash, less the slash, if there is a segment before it that is not the
letter of a drive. -/
def withoutSlash (back : List Char) : List Char :=
  if endsInSlash back && back.tail.contains '/' && !beginsWithDrive (lastSegment back.tail) then
    back.tail
  else back

/-! ### Making a path -/

/-- A path on its way, in reverse, and whether it has turned out to be about this machine. -/
structure Trace where
  back : List Char
  isHere : Bool := false
  deriving DecidableEq, Repr

/-- A path and a segment behind it that is made of pieces. A piece that stands apart from the
letter of a drive is a segment of its own. -/
def gathered (file : Bool) (back : List Char) (pieces : List (List Char)) :
    List Char × List Char :=
  pieces.foldl (fun (back, segment) piece =>
    if piece.isEmpty then (back, segment)
    else if file && back == ['/'] && isNormalDrive segment then
      (segment.take 1 ++ back, segment.drop 1 ++ '/' :: percentEncode keepsInPath piece)
    else (back, segment ++ percentEncode keepsInPath piece)) (back, [])

/-- A path and the next segment as it is written; `slash` says whether one follows. -/
def Trace.append (file : Bool) (t : Trace) (segment : List Char) (slash : Bool) : Trace :=
  let (back, segment) := gathered file t.back (pieces isLayout segment)
  let closed (back : List Char) : List Char := if slash then '/' :: back else back
  if isDoubleDot segment then
    let up := withoutLast file (withoutSlash back)
    { t with back := if endsInSlash up then up else closed up }
  else if isDot segment then { t with back := if endsInSlash back then back else '/' :: back }
  else if file && back == ['/'] && isDrive segment then
    { back := closed (':' :: (segment.take 1 ++ back)), isHere := true }
  else { t with back := closed (segment.reverse ++ back) }

/-- All segments of a path behind what is there already. -/
def Trace.appendAll (file : Bool) : (t : Trace) → List (List Char) → Trace
  | t, [] => t
  | t, segment :: rest => (t.append file segment !rest.isEmpty).appendAll file rest

/-- The path that a text makes on one that is there already. -/
def tracePath (special file : Bool) (start text : List Char) : Trace :=
  ({ back := start.reverse } : Trace).appendAll file (pieces (isSlash special) text)

/-- The path that has come about. No `file` path begins with more slashes than one. -/
def Trace.path (file : Bool) (t : Trace) : List Char :=
  if file then '/' :: t.back.reverse.dropWhile (· == '/') else t.back.reverse

/-- The path that a text makes on one, with nothing else to tell. -/
def pathOn (special file : Bool) (start text : List Char) : List Char :=
  (tracePath special file start text).path file

end Sinkhole.Url
