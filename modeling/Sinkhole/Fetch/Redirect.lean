import Sinkhole.Fetch.Message
import Sinkhole.Url.Reader

/-! Which redirects are followed.

A chain is followed for so many hops and no more, and once it has been on `https` it
never leaves it for `http`. -/
namespace Sinkhole.Fetch

/-- Whether going to `next` after `previous` gives up an encrypted connection. -/
def isDowngrade (previous : List Url) (next : Url) : Bool :=
  next.isHttp && previous.any Url.isHttps

/-- Why a hop is not taken. -/
def hopFault? (mostHops : Nat) (previous : List Url) (next : Url) : Option Error :=
  if previous.length > mostHops then some (.network .tooManyRedirects)
  else if isDowngrade previous next then some (.insecureRedirect next.text)
  else none

def isRedirect (status : Nat) : Bool :=
  status == 301 || status == 302 || status == 303 || status == 307 || status == 308

/-- Where a response to a request for `url` sends the request next. -/
def Response.target? (r : Response) (url : Url) : Option Url :=
  if isRedirect r.status then
    (r.header? "location").bind fun text =>
      (Url.join? url text.toList).filter fun next => next.host?.isSome
  else none

end Sinkhole.Fetch
