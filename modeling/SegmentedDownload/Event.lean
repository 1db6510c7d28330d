import SegmentedDownload.Timestamp

/-!
# SegmentedDownload.Event

What an observer of jobs gets to know: every change of a job's state, and its
progress from time to time.
-/

namespace SegmentedDownload

inductive JobState
  /-- Nothing runs; an earlier run may have left a file to continue from. -/
  | ready
  | running
  | finished
  | failed
deriving Repr, DecidableEq, Inhabited

def JobState.name : JobState → String
  | ready => "ready"
  | running => "running"
  | finished => "finished"
  | failed => "failed"

/-- A message to an observer. -/
inductive Event
  | progress (name : String) (total transferred : Int)
  /-- The state of the job changed, so many milliseconds after its start. -/
  | statusChanged (name : String) (state : JobState) (reason : String) (elapsed : Nat)
      (moment : Timestamp)
deriving Repr, DecidableEq

end SegmentedDownload
