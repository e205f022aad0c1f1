import Sinkhole.Fetch.Sending
import Sinkhole.Sizing

/-! Fetching a list unless it is known to be unchanged, and asking when it changed.

A server is asked under the conditions that the last content taken over came with. A
list in a forge's repository is judged by the time of the last commit instead, and
then asked for without conditions. A file is unchanged if its time is no later and
its size is the same. -/
namespace Sinkhole.Fetch

variable {σ : Type}

/-- Where the content that was fetched lies. -/
inductive Content where
  | body (bytes : List UInt8)
  | file (path : String)
  deriving DecidableEq, Repr

/-- Fetched content, with what its provider said about it. -/
structure Download where
  content : Content
  entityTag : Option String := none
  lastModified : Option Time.Instant := none
  size : Nat
  deriving DecidableEq, Repr

/-- How a fetch that did not fail can end. -/
inductive Fetched where
  | unchanged (remoteModified : Option Time.Instant)
  | downloaded (download : Download)
  deriving DecidableEq, Repr

/-- Nothing larger is taken for a list. -/
def mostBytes : Nat := 512 * mebibyte

def tooLarge (url : Url) (size : Nat) : Error :=
  .io (url.text ++ " is too large: " ++ toString size ++ " bytes (max: " ++ toString mostBytes ++
    " bytes)")

/-! ### Lists on servers -/

/-- The request for a list, under the conditions that the source's validators make. -/
def listRequest (s : Settings) (source : Source) (url : Url) (conditional : Bool) : Request :=
  { method := .get, url, userAgent := s.userAgent
    ifNoneMatch := if conditional then source.entityTag else none
    ifModifiedSince := if conditional then source.applied.map Time.httpDate else none }

/-- What an answer to such a request comes to. -/
def ofResponse (url : Url) (r : Response) : Except Error Fetched :=
  if r.isNotModified then .ok (.unchanged r.lastModified?)
  else if r.length.any (· > mostBytes) then .error (tooLarge url (r.length.getD 0))
  else if r.body.length > mostBytes then .error (tooLarge url r.body.length)
  else if r.isWhole then
    .ok (.downloaded
      { content := .body r.body
        entityTag := r.entityTag?
        lastModified := r.lastModified?
        size := r.body.length })
  else .error (.network .cutShort)

def download (w : World σ) (s : Settings) (source : Source) (url : Url) (conditional : Bool) :
    Work σ Fetched := do
  let response ← send w s (listRequest s source url conditional)
  match ofResponse url response with
  | .ok fetched => return fetched
  | .error e => throw e

/-- When the forge says that what a URL names was last changed; nothing if it is no file of a
forge or the forge gives no answer. -/
def forgeTime (w : World σ) (s : Settings) (url : Url) : Work σ (Option Time.Instant) := do
  match commitsUrl? s.forge url with
  | none => return none
  | some api =>
    match ← Work.outcome (send w s { method := .get, url := api, userAgent := s.userAgent }) with
    | .ok response => return if response.isWhole then commitTime? response.body else none
    | .error _ => return none

/-- `fetched` with the forge's time instead of the server's. -/
def Fetched.at (modified : Time.Instant) : Fetched → Fetched
  | .downloaded d => .downloaded { d with lastModified := some modified }
  | .unchanged at? => .unchanged at?

def fetchRemote (w : World σ) (s : Settings) (source : Source) (url : Url) : Work σ Fetched := do
  match ← forgeTime w s url with
  | some modified =>
    if source.applied.any (Time.Instant.le modified ·) then return .unchanged (some modified)
    else return (← download w s source url false).at modified
  | none => download w s source url true

/-! ### Files -/

def fileFacts (w : World σ) (path : String) : Work σ FileFacts := do
  match ← Work.observe (w.facts path) with
  | .ok facts => return facts
  | .error reason => throw (.io reason)

/-- Whether a file is as it was when it was last taken over. -/
def isUnchanged (source : Source) (facts : FileFacts) : Bool :=
  match facts.modified, source.applied with
  | some current, some applied => !current.isAfter applied && facts.size == source.sizeHint
  | _, _ => false

def fetchLocal (w : World σ) (source : Source) (path : String) : Work σ Fetched := do
  let facts ← fileFacts w path
  if isUnchanged source facts then return .unchanged facts.modified
  else
    let d : Download := { content := .file path, lastModified := facts.modified, size := facts.size }
    return .downloaded d

/-! ### Either -/

def place (source : Source) : Work σ Location :=
  match source.place with
  | .ok location => return location
  | .error e => throw e

/-- A source's content, or that it is unchanged. -/
def fetch (w : World σ) (s : Settings) (source : Source) : Work σ Fetched := do
  match ← place source with
  | .remote url => fetchRemote w s source url
  | .local path => fetchLocal w source path
  | .user => throw (.unsupportedSource source.location)

/-- When a source's content was last changed, without fetching it. -/
def probe (w : World σ) (s : Settings) (source : Source) : Work σ (Option Time.Instant) := do
  match ← place source with
  | .remote url =>
    match ← forgeTime w s url with
    | some modified => return some modified
    | none =>
      let response ← send w s { method := .head, url, userAgent := s.userAgent }
      return response.lastModified?
  | .local path => return (← fileFacts w path).modified
  | .user => throw (.unsupportedSource source.location)

/-- The world's answer when it is asked to open what was fetched. -/
def Content.opening (w : World σ) : Content → σ → Observed σ (Except String Opened)
  | .body bytes => w.openBody bytes
  | .file path => w.openFile path

/-- Opens what was fetched. -/
def openContent (w : World σ) (content : Content) : Work σ Opened := do
  match ← Work.observe (content.opening w) with
  | .ok opened => return opened
  | .error reason => throw (.io reason)

end Sinkhole.Fetch
