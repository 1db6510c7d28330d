import SegmentedDownload.Certificate.Armor
import SegmentedDownload.Certificate.Element
import SegmentedDownload.Config

/-!
# SegmentedDownload.Certificate

The certificate that a configuration adds to those that a client trusts.

A file is accepted if its first certificate has the form of one: a body, the
algorithm of its signature, and the signature. The body holds a version, a
number, an algorithm, the names of issuer and subject, a period of validity, the
key, and extensions. Nothing is said here about whether the signature fits.
-/

namespace SegmentedDownload.Certificate

open Element

/-! ## Parts -/

/-- A field that is always there. -/
def always (read : Reader) : Element.Field := { read }

/-- A field whose tag shows whether it is there. -/
def maybe (tag : Tag) (read : Reader) : Element.Field := { read, optional? := some tag }

/-- A parameter of any type, which may be missing. As the last field of its record
it is there if anything is left, whatever its tag. -/
def parameter : Element.Field := { read := readAny, optional? := some .null }

/-- An algorithm and its parameter. -/
def algorithm : Reader := readRecord [always (readType .identifier), parameter]

/-- Most bytes of the identifier of a key's algorithm. -/
def keyAlgorithmBound : Nat := 586

def keyAlgorithm : Reader :=
  readRecord
    [always (readData .identifier .identifier (·.length ≤ keyAlgorithmBound)), parameter]

/-- A public key behind its algorithm. -/
def key : Reader := readRecord [always keyAlgorithm, always (readType .bits)]

/-- Whether a number is that of a character. -/
def isCharacter (n : Nat) : Bool := decide n.isValidChar

/-- Whether some bytes are a text of characters with two bytes each. -/
def isDoubleText : Bytes → Bool
  | a :: b :: rest => isCharacter (256 * a.toNat + b.toNat) && isDoubleText rest
  | _ => true

/-- Whether some bytes are a text of characters with four bytes each. -/
def isWideText : Bytes → Bool
  | a :: b :: c :: d :: rest => isCharacter (Element.number [a, b, c, d]) && isWideText rest
  | _ => true

/-- Whether some bytes can be the text of a type in a name. -/
def isNameText (type : Tag) (data : Bytes) : Bool :=
  if type = .text then (Bytes.toText? data).isSome
  else if type = .doubleText then isDoubleText data
  else if type = .wideText then isWideText data
  else true

/-- The numbers of the types that a component of a name may have. -/
def nameTypes : List Nat := [3, 7, 8, 9, 11, 12, 13, 14, 15, 16, 18, 19, 20, 22, 28, 29, 30]

def nameValue : Reader := fun bs => do
  let e ← open? bs
  if e.tag.family ≠ 0 ∨ !nameTypes.contains e.tag.number then none
  else if e.tag = .record then readAny bs
  else readData e.tag e.tag (isNameText e.tag) bs

/-- A name, made of sets of components. -/
def name : Reader :=
  readList .record
    (readList .set (readRecord [always (readType .identifier), always nameValue]))

def moment : Reader := fun bs => do
  let e ← open? bs
  if e.tag = .shortMoment ∨ e.tag = .longMoment then readType e.tag bs else none

def period : Reader := readRecord [always moment, always moment]

/-- An extension, which may be marked as critical. -/
def extension : Reader :=
  readRecord
    [always (readType .identifier), maybe .boolean (readType .boolean), always (readType .bytes)]

/-- A further identifier of the issuer or the subject. -/
def uniqueIdentifier (number : Nat) : Element.Field :=
  maybe (.contextual number) (readData (.contextual number) .bits fun _ => true)

/-- The body. Its version and what follows the key may be missing. -/
def body : Reader :=
  readRecord
    [maybe (.contextual 0) (readInside (.contextual 0) (readType .integer)),
     always (readType .integer), always algorithm, always name, always period, always name,
     always key, uniqueIdentifier 1, uniqueIdentifier 2,
     maybe (.contextual 3) (readInside (.contextual 3) (readList .record extension))]

def certificate : Reader := readRecord [always body, always algorithm, always (readType .bits)]

/-! ## Files -/

/-- Whether the first certificate of a file has the form of one. -/
def isWellFormed (file : Bytes) : Bool :=
  ((Armor.find? ["CERTIFICATE", "X509 CERTIFICATE"] file).bind certificate).isSome

/-- Check the certificate of a configuration, given how its file is read. -/
def check (c : Config) (read : String → Except IoError Bytes) : Except DownloadError Unit :=
  match c.certificates? with
  | none => .ok ()
  | some path =>
    match read path with
    | .error cause => .error (.io cause)
    | .ok file =>
      if isWellFormed file then .ok () else .error (.config (.invalidCertificate path))

end SegmentedDownload.Certificate
