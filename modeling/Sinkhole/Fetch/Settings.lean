import Sinkhole.Fetch.Certificate
import Sinkhole.Fetch.Forge
import Sinkhole.Text.Quoted

/-! What fetching is configured with, and what keeps it from starting. -/
namespace Sinkhole.Fetch

/-- The limits that exchanges with servers keep to. -/
structure HttpSettings where
  timeoutSecs : Nat := 120
  connectTimeoutSecs : Nat := 15
  probeTimeoutSecs : Nat := 10
  maxRetries : Nat := 3
  retryDelayMs : Nat := 2000
  maxRedirects : Nat := 10
  /-- Paths of files with certificates to trust as well. -/
  certificates : List String := []
  deriving DecidableEq, Repr

/-- What a fetch needs to know beside the source. -/
structure Settings where
  http : HttpSettings := {}
  userAgent : String
  forge : String := publicForge
  deriving DecidableEq, Repr

/-- Why nothing can be fetched at all. -/
inductive SetupFault where
  | unreadableCertificate (path reason : String)
  /-- The name to be called by, or a certificate, cannot be used. -/
  | unusable
  deriving DecidableEq, Repr

def SetupFault.message : SetupFault → String
  | unreadableCertificate path reason =>
    "Failed to read CA certificate " ++ Text.quoted path ++ ": " ++ reason
  | unusable => "Failed to create HTTP client"

/-- A name that can be sent: no controls but tabs. -/
def isAgentName (s : String) : Bool :=
  s.toList.all fun c => (0x20 ≤ c.toNat && c.toNat ≠ 0x7F) || c == '\t'

/-- The contents of the certificate files; the first that cannot be read is reported. -/
def readCertificates (read : String → Except String (List Char)) (paths : List String) :
    Except SetupFault (List (List Char)) :=
  paths.mapM fun path =>
    match read path with
    | .ok pem => .ok pem
    | .error reason => .error (.unreadableCertificate path reason)

/-- Accepts settings with which fetching can start. -/
def Settings.check (read : String → Except String (List Char)) (s : Settings) :
    Except SetupFault Unit := do
  let certificates ← readCertificates read s.http.certificates
  if isAgentName s.userAgent && certificates.all Certificate.isAcceptable then .ok ()
  else .error .unusable

end Sinkhole.Fetch
