import SegmentedDownload.OpenFile

/-!
# SegmentedDownload.PartialFile

The file that all segments of a run are written to: an open file, and the
number of header bytes in front of its payload. Positions of the payload are
counted from the end of the header.
-/

namespace SegmentedDownload

/-- An open file and the offset of the payload in it. -/
structure PartialFile where
  file : OpenFile := {}
  payloadOffset : Nat := 0
deriving Repr, DecidableEq, Inhabited

namespace PartialFile

/-- Write `data` at a position of the payload. -/
def writePayload (p : PartialFile) (position : Nat) (data : Bytes) :
    PartialFile × Option IoError :=
  if 18446744073709551616 ≤ p.payloadOffset + position then (p, some .positionOverflow)
  else
    let (file, fault) := p.file.write (p.payloadOffset + position) data
    ({ p with file }, fault)

/-- The `len` bytes at a position of the payload. -/
def payload (p : PartialFile) (position len : Nat) : Bytes :=
  p.file.contents.slice (p.payloadOffset + position) len

end PartialFile

end SegmentedDownload
