import Sinkhole.Updater
import Sinkhole.Fetch.Settings
import Sinkhole.Fetch.Redirect
import Sinkhole.Fetch.Backoff

/-! Sending a request until there is an answer to it.

Redirects are followed as far as `hopFault?` lets them. An answer that is no success
is an error, and after an error that may pass the request is sent again, from its
first URL and after a growing wait, until the attempts are used up. -/
namespace Sinkhole.Fetch

variable {σ : Type}

/-- One request and what came back. -/
def exchange (w : World σ) (r : Request) : Work σ Response := do
  Work.note (.sent r)
  match ← Work.observe (w.exchange r) with
  | .ok response => return response
  | .error fault => throw (.network fault)

/-- The response at the end of the redirects. `previous` are the URLs asked before, and `room`
is how many more hops `mostHops` allows. -/
def follow (w : World σ) (mostHops : Nat) : (room : Nat) → (previous : List Url) → Request →
    Work σ Response
  | room, previous, r => do
    let response ← exchange w r
    match response.target? r.url with
    | none => return response
    | some next =>
      let previous := previous ++ [r.url]
      match hopFault? mostHops previous next with
      | some fault => throw fault
      | none =>
        match room with
        | 0 => throw (.network .tooManyRedirects)
        | room + 1 => follow w mostHops room previous { r with url := next }

/-- One attempt: the request, its redirects, and whether the answer is of use. -/
def attempt (w : World σ) (s : Settings) (r : Request) : Work σ Response := do
  if r.isSendable then
    let response ← follow w s.http.maxRedirects s.http.maxRedirects [] r
    if response.isUsable then return response else throw (.http response.status r.url.text)
  else throw (.network .badHeader)

/-- Attempts until one does not fail for a passing reason, `left` more after the first; `retry`
is the number of the next one. -/
def attemptsFrom (w : World σ) (s : Settings) (r : Request) : (left retry : Nat) → Work σ Response
  | 0, _ => attempt w s r
  | left + 1, retry => do
    match ← Work.outcome (attempt w s r) with
    | .ok response => return response
    | .error e =>
      if e.isTransient then
        Work.note (.waited (backoff s.http.retryDelayMs retry))
        attemptsFrom w s r left (retry + 1)
      else throw e

/-- Sends a request, again if need be. -/
def send (w : World σ) (s : Settings) (r : Request) : Work σ Response :=
  attemptsFrom w s r (attempts s.http.maxRetries - 1) 1

end Sinkhole.Fetch
