import SegmentedDownload.Plan
import SegmentedDownload.ResumeHeader

/-!
# SegmentedDownload.Table

The segments of one run and how they are kept.

A table is `fresh` when its segments were planned for this run, and not read
back from a partial file. It `persists` when the partial file carries a resume
header; a plan with an unbounded segment never does.
-/

namespace SegmentedDownload

/-- The segments of one run. -/
structure Table where
  segments : List Segment
  isFresh : Bool
  persists : Bool
  /-- Size of the remote file, when it is known. -/
  size? : Option Int
deriving Repr, DecidableEq, Inhabited

namespace Table

/-- Plan a new download. -/
def fresh (size? : Option Int) (workers : Nat) (persist : Bool) : Table :=
  let segments := Plan.fresh size? workers
  { segments
    isFresh := true
    persists := persist && segments.all (!·.isUnbounded)
    size? := size?.filter (0 < ·) }

/-- Continue with segments read back from a partial file. -/
def resumed (segments : List Segment) (size : Int) : Table :=
  { segments, isFresh := false, persists := true, size? := some size }

/-- Number of bytes in front of the payload in the partial file. -/
def headerSize (t : Table) : Nat :=
  if t.persists then ResumeHeader.size t.segments else 0

def whole (t : Table) : Segment :=
  match t.size? with
  | some size => { start := 0, last := size - 1 }
  | none => .unbounded

/-- The table with one segment in place of its plan. -/
def collapse (t : Table) : Table := { t with segments := [t.whole] }

/-- The table as a run starts with it. -/
def begin (t : Table) : Table := { t with segments := t.segments.map Segment.begin }

/-- Number of bytes on disk, as far as this run knows. -/
def sessionTotal (t : Table) : Int := t.segments.foldr (fun s n => s.session + n) 0

/-- Adopt the header of a partial file if it describes a file of this size,
or else plan from scratch. -/
def load (f : OpenFile) (size : Int) (workers : Nat) : Table :=
  match ResumeHeader.read f with
  | .ok segments =>
    if ResumeHeader.covers segments size then resumed segments size
    else fresh (some size) workers true
  | .error _ => fresh (some size) workers true

end Table

end SegmentedDownload
