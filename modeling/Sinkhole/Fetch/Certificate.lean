import Sinkhole.Fetch.Der
import Sinkhole.Fetch.Pem

/-! Certificates to trust, as files hold them.

A file may hold any number of certificates among other text; one without any is fine and
trusts nobody. A certificate is what is signed, how, and the signature, and says itself how
it is signed. One of the third version may say more by extensions, of which it has to be
known what the critical ones mean; others have no version and nothing to say. -/
namespace Sinkhole.Fetch.Certificate

open Element

/-! ### Extensions -/

/-- What a certificate says beyond the fields that all have. -/
structure Extension where
  identifier : List Nat
  critical : Bool := false
  value : List Nat
  deriving DecidableEq, Repr

/-- What a flag says: all bits are set, or none. -/
def flag? (e : Element) : Option Bool :=
  if e.tag = truth && e.content == [0xFF] then some true
  else if e.tag = truth && e.content == [0] then some false
  else none

def extension? (e : Element) : Option Extension := do
  match ← e.inside? sequence with
  | [id, value] =>
    if id.tag = identifier && value.tag = octets then return ⟨id.content, false, value.content⟩
    else none
  | [id, mark, value] =>
    let critical ← flag? mark
    if id.tag = identifier && value.tag = octets then return ⟨id.content, critical, value.content⟩
    else none
  | _ => none

/-- What identifies an extension that every certificate may have, but for its number. -/
def commonArc : List Nat := [0x55, 0x1D]

def keyUsage : List Nat := commonArc ++ [15]

/-- Extensions that are understood: how the key may be used, other names, whether it may sign
certificates and for which names, where to learn what is taken back, and what it is for. -/
def understood : List (List Nat) :=
  keyUsage :: [17, 19, 30, 31, 37].map fun n => commonArc ++ [n]

/-- Whether an extension can be accepted: one that is understood holds one sequence, and one that
is not is not critical. -/
def Extension.isAcceptable (x : Extension) : Bool :=
  if understood.contains x.identifier then
    x.identifier == keyUsage ||
      match Element.read? x.value with
      | some (e, rest) => e.tag = sequence && rest.isEmpty
      | none => false
  else !x.critical

/-- Whether extensions can be accepted together: those that are understood only once. -/
def areAcceptable (xs : List Extension) : Bool :=
  xs.all (·.isAcceptable) &&
    understood.all fun id => (xs.filter (·.identifier == id)).length ≤ 1

/-! ### Certificates -/

/-- Issuer, time, subject and key. -/
def areFields (es : List Element) : Bool := es.all (·.tag == sequence)

/-- Whether what is signed can be accepted, where the signature is made by `algorithm`. -/
def isBody (algorithm : Element) (es : List Element) : Bool :=
  match es with
  | version :: serial :: own :: issuer :: validity :: subject :: key :: more =>
    version.inside? (part 0) == some [⟨number, [2]⟩] && serial.tag == number &&
      own == algorithm && areFields [issuer, validity, subject, key] &&
      match more with
      | [] => true
      | [extensions] =>
        let xs? := do
          match ← extensions.inside? (part 3) with
          | [list] => (← list.inside? sequence).mapM extension?
          | _ => none
        xs?.any areAcceptable
      | _ => false
  | [serial, own, issuer, validity, subject, key] =>
    serial.tag == number && areFields [own, issuer, validity, subject, key]
  | _ => false

/-- Whether bytes are a certificate that can be trusted. -/
def isCertificate (bytes : List Nat) : Bool :=
  let parts? := do
    match ← readAll? bytes.length bytes with
    | [outer] => outer.inside? sequence
    | _ => none
  match parts? with
  | some [body, algorithm, signature] =>
    algorithm.tag == sequence && signature.tag == bits && signature.content.head? == some 0 &&
      (body.inside? sequence).any (isBody algorithm)
  | _ => false

/-- Whether every certificate in a file can be trusted. -/
def isAcceptable (pem : List Char) : Bool :=
  match Pem.sections? pem with
  | some sections =>
    (sections.filter (·.label == Pem.certificateLabel)).all fun s => isCertificate s.bytes
  | none => false

end Sinkhole.Fetch.Certificate
