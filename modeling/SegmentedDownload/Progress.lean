/-!
# SegmentedDownload.Progress

How far a download is, and when its observer hears about it.

* A `Snapshot` is the total size, zero while unknown, and the bytes transferred.
* A `Throttle` decides which updates reach the observer: one with an unchanged
  value never does, one that reports completion always does, and any other only
  after the interval has passed since the last that did.
* A `Reporter` adds up the progress of the segments of a run. It learns the
  total from a single segment when the size was not known before.

Times are milliseconds of a clock that never goes back.
-/

namespace SegmentedDownload

structure Snapshot where
  total : Int := 0
  transferred : Int := 0
deriving Repr, DecidableEq, Inhabited

namespace Snapshot

/-- Whether every byte of a file of known size is there. -/
def isComplete (s : Snapshot) : Bool := decide (0 < s.total) && s.total == s.transferred

/-- The transferred share in percent, zero while the total is unknown. -/
def percent (s : Snapshot) : Float :=
  if 0 < s.total then
    (Int64.ofInt s.transferred).toFloat / (Int64.ofInt s.total).toFloat * 100.0
  else 0.0

end Snapshot

/-- When the observer last heard of progress, and what. -/
structure Throttle where
  interval : Nat
  lastTime? : Option Nat := none
  lastTransferred : Int := -1
deriving Repr, DecidableEq, Inhabited

namespace Throttle

/-- Whether the interval has passed since the last update. -/
def isDue (t : Throttle) (now : Nat) : Bool :=
  match t.lastTime? with
  | none => true
  | some last => decide (t.interval ≤ now - last)

/-- Whether an update is to be passed on. -/
def admits (t : Throttle) (s : Snapshot) (now : Nat) : Bool :=
  s.transferred != t.lastTransferred && (t.isDue now || s.isComplete)

/-- The throttle after it passed on an update. -/
def record (t : Throttle) (s : Snapshot) (now : Nat) : Throttle :=
  { t with lastTime? := some now, lastTransferred := s.transferred }

end Throttle

/-- The progress of the segments of a run. -/
structure Reporter where
  /-- Progress of each segment, measured from its start. -/
  segments : List Int := []
  snapshot : Snapshot := {}
  throttle : Throttle
deriving Repr, DecidableEq, Inhabited

namespace Reporter

/-- A reporter for a file of the given size. Bytes counted before stay counted. -/
def new (size? : Option Int) (interval : Nat) (before : Snapshot) : Reporter :=
  { snapshot := { before with total := size?.getD 0 }, throttle := { interval } }

def sum (progress : List Int) : Int := progress.foldr (· + ·) 0

/-- Start a run with the given progress of each segment. -/
def reset (r : Reporter) (initial : List Int) : Reporter :=
  { r with segments := initial, snapshot := { r.snapshot with transferred := sum initial } }

/-- Pass the present snapshot on to the observer if the throttle admits it. -/
def emit (r : Reporter) (now : Nat) : Reporter × Option Snapshot :=
  if r.throttle.admits r.snapshot now then
    ({ r with throttle := r.throttle.record r.snapshot now }, some r.snapshot)
  else (r, none)

/-- Sending an update does not touch the counters of the segments. -/
theorem emit_segments (r : Reporter) (now : Nat) : (r.emit now).1.segments = r.segments := by
  unfold emit
  split <;> rfl

theorem emit_snapshot (r : Reporter) (now : Nat) : (r.emit now).1.snapshot = r.snapshot := by
  unfold emit
  split <;> rfl

/-- Record the progress of one segment, whose full length may be known. -/
def update (r : Reporter) (index : Nat) (progress : Int) (length? : Option Int) (now : Nat) :
    Reporter × Option Snapshot :=
  let segments := r.segments.set index progress
  let total :=
    if segments.length = 1 ∧ r.snapshot.total = 0 then length?.getD 0 else r.snapshot.total
  emit { r with segments, snapshot := { total, transferred := sum segments } } now

/-- Report the final size once every byte is on disk. -/
def finish (r : Reporter) (size : Int) (now : Nat) : Reporter × Option Snapshot :=
  emit { r with snapshot := { total := size, transferred := size } } now

/-- Forget the counters, as a job does before a new run. -/
def clear (r : Reporter) : Reporter := { r with snapshot := {} }

end Reporter

end SegmentedDownload
