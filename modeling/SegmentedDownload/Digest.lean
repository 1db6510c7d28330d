import SegmentedDownload.Digest.Md5
import SegmentedDownload.Digest.Sha256
import SegmentedDownload.Error

/-!
# SegmentedDownload.Digest

The digests by which a finished file can be checked.

The kind of an expected digest follows from its number of hexadecimal digits,
and letters count the same in either case. `verify` compares it with the digest
of a file, and `verifyReads` does so while the file is read; a text that is no
digest is refused before.
-/

namespace SegmentedDownload

inductive Digest
  | md5
  | sha256
deriving Repr, DecidableEq

namespace Digest

def isHex (c : Char) : Bool :=
  c.isDigit || decide ('a' ≤ c ∧ c ≤ 'f') || decide ('A' ≤ c ∧ c ≤ 'F')

/-- The kind of a digest in hexadecimal digits. -/
def ofHex? (hex : String) : Option Digest :=
  if hex.toList.all isHex then
    match hex.length with
    | 32 => some md5
    | 64 => some sha256
    | _ => none
  else none

def compute : Digest → Bytes → String
  | md5, data => (Md5.blocks.digest data).hex
  | sha256, data => (Sha256.blocks.digest data).hex

/-- The digest of the bytes of a reader, which come in chunks. -/
def computeChunks : Digest → List Bytes → String
  | md5, chunks => (Md5.blocks.digestChunks chunks).hex
  | sha256, chunks => (Sha256.blocks.digestChunks chunks).hex

/-- The digest of what a reader gives, read by read. -/
def computeReads : Digest → List (Except IoError Bytes) → Except IoError String
  | md5, reads => (Md5.blocks.digestReads Md5.blocks.start reads).map Bytes.hex
  | sha256, reads => (Sha256.blocks.digestReads Sha256.blocks.start reads).map Bytes.hex

def lower (hex : String) : String := String.ofList (hex.toList.map Char.toLower)

/-- Compare the digest of a file, whose contents may not be readable, with the
expected one. -/
def verify (contents : Except IoError Bytes) (expected : String) : Except DownloadError Unit :=
  match ofHex? expected with
  | none => .error (.config (.unsupportedHash expected))
  | some kind =>
    match contents with
    | .error cause => .error (.io cause)
    | .ok data =>
      let actual := kind.compute data
      if actual = lower expected then .ok ()
      else .error (.hashMismatch (lower expected) actual)

/-- Compare the digest of a file with the expected one while the file is read. Its
reads come from opening it, which may fail. -/
def verifyReads (opened : Except IoError (List (Except IoError Bytes))) (expected : String) :
    Except DownloadError Unit :=
  match ofHex? expected with
  | none => .error (.config (.unsupportedHash expected))
  | some kind =>
    match opened.bind kind.computeReads with
    | .error cause => .error (.io cause)
    | .ok actual =>
      if lower actual = lower expected then .ok ()
      else .error (.hashMismatch (lower expected) actual)

end Digest

end SegmentedDownload
