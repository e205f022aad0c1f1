import Sinkhole.Text.Blank

/-! File paths as texts.

A path is segments between slashes. Empty segments and single points, a leading
point apart, name nothing; two points name the folder above and are no file name. -/
namespace Sinkhole.Path

open Text

def isAbsolute (path : List Char) : Bool := path.head? == some '/'

/-- The segments behind the slash of the root. -/
def body (path : List Char) : List (List Char) :=
  let all := pieces (· == '/') path
  if isAbsolute path then all.drop 1 else all

/-- Whether a segment names something; a point does where it is all there is before it. -/
def isNaming (absolute : Bool) (before : List (List Char)) (segment : List Char) : Bool :=
  if segment = ['.'] then !absolute && before.isEmpty else !segment.isEmpty

/-- `segments` in reverse order without those at the end that name nothing. -/
def dropIdle (absolute : Bool) : List (List Char) → List (List Char)
  | [] => []
  | last :: before => if isNaming absolute before last then last :: before else dropIdle absolute before

/-- The naming end of a path: its segments, the last first, up to one that names something. -/
def fromEnd (path : List Char) : List (List Char) :=
  dropIdle (isAbsolute path) (body path).reverse

/-- The last segment, if it names a file. -/
def fileName? (path : List Char) : Option (List Char) :=
  match fromEnd path with
  | last :: _ => if last = ['.'] || last = ['.', '.'] then none else some last
  | [] => none

/-- The path to what holds the last segment; nothing above the root and the empty path. -/
def parent? (path : List Char) : Option (List Char) :=
  match fromEnd path with
  | _ :: before =>
    let above := ['/'].intercalate (dropIdle (isAbsolute path) before).reverse
    some (if isAbsolute path then '/' :: above else above)
  | [] => none

/-- `name` in the folder `path`. -/
def child (path name : List Char) : List Char :=
  if path.isEmpty || path.getLast? == some '/' then path ++ name else path ++ '/' :: name

/-- `path` with `name` for its last segment, or in it where that is no file name. -/
def withFileName (path name : List Char) : List Char :=
  match fileName? path with
  | some _ => child ((parent? path).getD []) name
  | none => child path name

/-- The naming segments of a path; points at its start and in it are left out. -/
def names (path : List Char) : List (List Char) :=
  (body path).filter fun s => !s.isEmpty && s != ['.']

end Sinkhole.Path
