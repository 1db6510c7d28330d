import SegmentedDownload.Word

/-!
# SegmentedDownload.Segment

A segment is one byte range of the remote file together with what is known
about its bytes on disk:

* `start` and `last` are the first and the last byte of the range;
* `committed` is the progress that the last checkpoint recorded;
* `session` is the progress flushed to disk so far.

Both counters are measured from `start`. A segment whose length is unknown
ends at the largest word, `Segment.unboundedLast`.

`IsValid` is what a segment read back from disk has to satisfy, and
`IsValid.committed_le` is what it buys: the committed bytes lie in the range.
-/

namespace SegmentedDownload

/-- One byte range of the remote file and its progress. -/
structure Segment where
  start : Int
  last : Int
  committed : Int := 0
  session : Int := 0
deriving Repr, DecidableEq, Inhabited

namespace Segment

/-- The last byte of a segment whose length is unknown. -/
def unboundedLast : Int := Word.maxInt

/-- A single segment for a file of unknown length. -/
def unbounded : Segment := { start := 0, last := unboundedLast }

def isUnbounded (s : Segment) : Bool := s.last == unboundedLast

/-- Number of bytes in the range, when it is known. -/
def length? (s : Segment) : Option Int :=
  if s.isUnbounded then none else some (s.last - s.start + 1)

/-- What a segment on disk has to satisfy: the range is not empty and made of
words, and the committed bytes lie inside it. The position behind the last
word is not a word, so a range up to the last word may claim one byte less. -/
def IsValid (s : Segment) : Prop :=
  0 ≤ s.start ∧ s.start ≤ s.last ∧ s.last ≤ Word.maxInt ∧ 0 ≤ s.committed ∧
    s.start + s.committed ≤ min (s.last + 1) Word.maxInt

instance (s : Segment) : Decidable s.IsValid := inferInstanceAs (Decidable (_ ∧ _))

/-- Whether the last checkpoint recorded the whole range. -/
def isComplete (s : Segment) : Bool := s.length? == some s.committed

/-- The segment as a new run starts with it: only committed bytes are on disk. -/
def begin (s : Segment) : Segment := { s with session := s.committed }

/-- The segment as a checkpoint records it. -/
def commit (s : Segment) : Segment := { s with committed := s.session }

/-! ## Consequences -/

theorem IsValid.committed_nonneg {s : Segment} (h : s.IsValid) : 0 ≤ s.committed := h.2.2.2.1

/-- A valid segment has not more than its length committed. -/
theorem IsValid.committed_le {s : Segment} (h : s.IsValid) :
    s.committed ≤ s.last - s.start + 1 := by
  obtain ⟨_, _, _, _, h⟩ := h
  omega

/-- A segment that ends somewhere has a length. -/
theorem length?_of_bounded {s : Segment} (h : s.last < unboundedLast) :
    s.length? = some (s.last - s.start + 1) := by
  have : s.isUnbounded = false := by
    simp only [isUnbounded, beq_eq_false_iff_ne]
    omega
  simp [length?, this]

/-- A segment is complete when all of its bytes are committed. -/
theorem isComplete_iff {s : Segment} (h : s.last < unboundedLast) :
    s.isComplete = true ↔ s.committed = s.last - s.start + 1 := by
  rw [isComplete, length?_of_bounded h]
  simp only [beq_iff_eq, Option.some.injEq]
  omega

end Segment

end SegmentedDownload
