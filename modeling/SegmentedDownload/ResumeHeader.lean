import SegmentedDownload.Segment
import SegmentedDownload.OpenFile

/-!
# SegmentedDownload.ResumeHeader

The header in front of the payload of a partial file, from which a later run
continues:

1. twenty bytes of signature;
2. the number of segments, an unsigned word;
3. for each segment its start, last byte, committed and session progress, four
   signed words.

The payload byte at offset `o` of the remote file lies at `size segments + o`.

`write` stores a whole header. A checkpoint is an `update`: it commits the
session progress and replaces only the segments, so that the signature and the
count stay as they are. `read` accepts a header only if every segment in it is
valid, and `covers` tells whether the segments describe a file of a given size.
-/

namespace SegmentedDownload

/-- Why no resume header could be read from a file. -/
inductive HeaderError
  | io (cause : IoError)
  | truncated (part : String)
  | signatureMismatch
  | countZero
  | countTooLarge (count fileSize : Nat)
  | invalidSegment (index : Nat) (segment : Segment)
deriving Repr, DecidableEq

/-- The text of a segment in an error message. -/
def Segment.describe (s : Segment) : String :=
  s!"SegmentRecord \x7b start: {s.start}, end: {s.last}, committed_downloaded: {s.committed}, session_downloaded: {s.session} \x7d"

def HeaderError.message : HeaderError → String
  | io cause => cause.message
  | truncated part => "truncated " ++ part
  | signatureMismatch => "signature mismatch"
  | countZero => "segment count is zero"
  | countTooLarge count fileSize => s!"segment count {count} exceeds file length {fileSize}"
  | invalidSegment index segment => s!"segment {index} is invalid: {segment.describe}"

namespace ResumeHeader

/-- What opens every header: the name and the version of the format in ASCII. -/
def signature : Bytes :=
  [83, 80, 76, 73, 84, 70, 69, 84, 67, 72, 45, 82, 69, 83, 85, 77, 69, 47, 48, 49]

def segmentSize : Nat := 4 * Word.size

/-- Where the segments begin. -/
def segmentsOffset : Nat := signature.length + Word.size

/-- Number of bytes of a header with `count` segments. -/
def sizeOf (count : Nat) : Nat := segmentsOffset + count * segmentSize

def size (segments : List Segment) : Nat := sizeOf segments.length

/-- Whether the segments describe a file from `next` to `size`, in order and
without a gap. -/
def coversFrom (next : Int) (size : Int) : List Segment → Bool
  | [] => next == size
  | s :: rest => s.start == next && coversFrom (s.last + 1) size rest

/-- Whether the segments describe a file of `size` bytes, in order and without
a gap. -/
def covers (segments : List Segment) (size : Int) : Bool := coversFrom 0 size segments

/-! ## Writing -/

def encodeSegment (s : Segment) : Bytes :=
  Word.encodeInt s.start ++ Word.encodeInt s.last ++ Word.encodeInt s.committed ++
    Word.encodeInt s.session

def encodeSegments (segments : List Segment) : Bytes := segments.flatMap encodeSegment

def encode (segments : List Segment) : Bytes :=
  signature ++ Word.encodeNat segments.length ++ encodeSegments segments

def write (f : OpenFile) (segments : List Segment) : OpenFile × Option IoError :=
  f.write 0 (encode segments)

/-- Commit the session progress and write the segments to their place. The
progress counts as committed even when writing fails. -/
def update (f : OpenFile) (segments : List Segment) :
    OpenFile × List Segment × Option IoError :=
  let segments := segments.map Segment.commit
  let (f, fault) := f.write segmentsOffset (encodeSegments segments)
  (f, segments, fault)

/-! ## Reading -/

/-- The segment that thirty-two bytes of a header stand for. -/
def decodeSegment (bs : Bytes) : Segment :=
  { start := Word.decodeInt (bs.slice 0 Word.size)
    last := Word.decodeInt (bs.slice 8 Word.size)
    committed := Word.decodeInt (bs.slice 16 Word.size)
    session := Word.decodeInt (bs.slice 24 Word.size) }

/-- One part of a header, which the file has to hold in full. -/
def readPart (f : OpenFile) (pos len : Nat) (part : String) : Except HeaderError Bytes :=
  match f.read pos len with
  | .error e => .error (.io e)
  | .ok bs => if bs.length < len then .error (.truncated part) else .ok bs

/-- The `count` segments that begin at `pos`, the first of them number `index`. -/
def readSegments (f : OpenFile) : (count index pos : Nat) → Except HeaderError (List Segment)
  | 0, _, _ => .ok []
  | count + 1, index, pos => do
    let bs ← readPart f pos segmentSize "segment record"
    let s := decodeSegment bs
    if s.IsValid then
      let rest ← readSegments f count (index + 1) (pos + segmentSize)
      return s :: rest
    else
      .error (.invalidSegment index s)

/-- Read and check the header at the front of a file. The count is compared
with the size of the file before any segment is read. -/
def read (f : OpenFile) : Except HeaderError (List Segment) := do
  let found ← readPart f 0 signature.length "signature"
  if found ≠ signature then
    .error .signatureMismatch
  else
    let word ← readPart f signature.length Word.size "segment count"
    let count := Word.decodeNat word
    if count = 0 then
      .error .countZero
    else if (f.size - segmentsOffset) / segmentSize < count then
      .error (.countTooLarge count f.size)
    else
      readSegments f count 0 segmentsOffset

end ResumeHeader

end SegmentedDownload
