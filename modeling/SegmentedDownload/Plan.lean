import SegmentedDownload.Segment

/-!
# SegmentedDownload.Plan

How a file is cut into segments, and where each of them continues.

* `Plan.fresh` cuts a file of known size into equal ranges, one per
  connection; the last range takes the remainder, and no range is empty, so a
  small file gets fewer segments than connections. A file of unknown or zero
  size is one unbounded segment.
* `Plan.resume` lists the incomplete segments with the first byte to request:
  one byte before the committed end, so that the last byte on disk is fetched
  again, but never before the segment.
-/

namespace SegmentedDownload

/-- An incomplete segment and the bytes to request for it. -/
structure Slot where
  /-- Position of the segment in the plan. -/
  index : Nat
  start : Int
  resumeStart : Int
  last : Int
deriving Repr, DecidableEq, Inhabited

namespace Plan

/-- How many segments a file of positive size is cut into. -/
def count (size : Nat) (workers : Nat) : Nat := min (max workers 1) size

/-- The `i`-th of `n` segments of a file. -/
def segment (size n i : Nat) : Segment :=
  { start := i * (size / n)
    last := if i + 1 = n then (size : Int) - 1 else (i + 1) * (size / n) - 1 }

def fresh (size? : Option Int) (workers : Nat) : List Segment :=
  match size? with
  | some size =>
    if 0 < size then
      let n := count size.toNat workers
      (List.range n).map (segment size.toNat n)
    else [.unbounded]
  | none => [.unbounded]

/-- The first byte to request of a segment. -/
def resumeStart (s : Segment) : Int := max (s.start + s.committed - 1) s.start

/-- The slot of the segment at a position of the plan. -/
def slot (index : Nat) (s : Segment) : Slot :=
  { index, start := s.start, resumeStart := resumeStart s, last := s.last }

/-- The incomplete segments of a plan whose first segment is number `index`. -/
def resumeFrom (index : Nat) : List Segment → List Slot
  | [] => []
  | s :: rest =>
    if s.isComplete then resumeFrom (index + 1) rest
    else slot index s :: resumeFrom (index + 1) rest

/-- The incomplete segments of a plan. -/
def resume (segments : List Segment) : List Slot := resumeFrom 0 segments

end Plan

end SegmentedDownload
