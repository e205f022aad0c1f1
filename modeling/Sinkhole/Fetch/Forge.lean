import Sinkhole.Url.Reader
import Sinkhole.Json.Reader
import Sinkhole.Time.Timestamp

/-! Lists in a repository of a forge.

The server of a forge's raw files tells neither tags nor times, but the forge itself
can be asked for the last commit that touched a file. `commitsUrl?` is the question
and `commitTime?` reads the answer. -/
namespace Sinkhole.Fetch

open Text

/-- The host that serves raw files. -/
def rawHost : List Char := "raw.githubusercontent.com".toList

/-- Where the forge answers questions. -/
def publicForge : String := "https://api.github.com"

/-- What a raw URL names: owner, repository, revision and the segments of the path. -/
structure RawFile where
  owner : List Char
  repository : List Char
  revision : List Char
  path : List (List Char)
  deriving DecidableEq, Repr

/-- The file a URL names, if it is one on the raw host; no part of it may be empty. -/
def rawFile? (url : Url) : Option RawFile :=
  if url.hostText? = some rawHost then
    match url.segments? with
    | some (owner :: repository :: revision :: path) =>
      if [owner, repository, revision].any List.isEmpty || path.isEmpty || path.any List.isEmpty then
        none
      else some ⟨owner, repository, revision, path⟩
    | _ => none
  else none

/-- The parameters of the question: the file, the revision and that one commit is enough. -/
def RawFile.parameters (f : RawFile) : List (List Char × List Char) :=
  [("path".toList, ['/'].intercalate f.path), ("sha".toList, f.revision),
    ("per_page".toList, ['1'])]

/-- The URL that asks `forge` for the last commit that touched what `url` names. -/
def commitsUrl? (forge : String) (url : Url) : Option Url := do
  let f ← rawFile? url
  let base := dropEndWhile (· == '/') forge.toList
  let api ← Url.read? (base ++ "/repos/".toList ++ f.owner ++ '/' :: f.repository ++ "/commits".toList)
  return { api with query := some (Url.appendPairs (api.query.getD []) f.parameters) }

/-- The time of a commit in the forge's answer. -/
def commitDate? (commit : Json) : Option Time.Instant := do
  let committer ← (← commit.field? "commit").field? "committer"
  match committer.field? "date" with
  | some (.text date) => Time.readTimestamp? date.toList
  | _ => none

/-- The time of the first commit in the forge's answer, if all of it makes sense. -/
def commitTime? (body : List UInt8) : Option Time.Instant := do
  match ← Json.read? (decode body) with
  | .list commits => (← commits.mapM commitDate?).head?
  | _ => none

end Sinkhole.Fetch
