import SegmentedDownload.Plan
import SegmentedDownload.PartialFile

/-!
# SegmentedDownload.Worker

A worker fetches one slot: it asks for a range, and streams the body of the
response into the partial file through a buffer.

* The buffer is flushed when the next chunk would overflow it, and once more
  when the body ends. A chunk larger than the buffer enlarges it.
* `received` counts the bytes taken from the body, `written` those flushed, so
  `received = written + buffer.length` at all times.
* A body longer than its range is clipped; a bounded body that ends early is an
  error.
* A failed flush leaves the buffer and the counters as they were, so that it
  can be repeated.
-/

namespace SegmentedDownload

/-- The life of a worker. -/
inductive WorkerState
  | idle
  | requesting
  | streaming
  | complete
  | failed
deriving Repr, DecidableEq, Inhabited

/-- How a response relates to the request that it answers. -/
inductive Verdict
  /-- The response carries the bytes that were asked for. -/
  | accepted
  /-- The response carries the whole file in place of a range. -/
  | rangeIgnored
  | rejected (status : Nat)
deriving Repr, DecidableEq

/-- A segment that is being fetched. -/
structure Worker where
  slot : Slot
  state : WorkerState := .idle
  buffer : Bytes := []
  /-- Number of bytes that the buffer holds before it is flushed. -/
  capacity : Nat := 102400
  /-- Number of bytes flushed in this run. -/
  written : Nat := 0
  /-- Number of bytes received in this run. -/
  received : Nat := 0
  /-- Number of bytes that the response should carry. -/
  expected? : Option Int := none
deriving Repr, DecidableEq, Inhabited

namespace Worker

/-- A worker that has not asked for anything yet. -/
def ofSlot (slot : Slot) : Worker := { slot }

def isUnbounded (w : Worker) : Bool := w.slot.last == Segment.unboundedLast

/-- Progress from the start of the segment, with the bytes in the buffer. -/
def progress (w : Worker) : Int := w.slot.resumeStart - w.slot.start + w.received

/-- Progress from the start of the segment that is on disk. -/
def flushedProgress (w : Worker) : Int := w.slot.resumeStart - w.slot.start + w.written

def segmentLength? (w : Worker) : Option Int :=
  if w.isUnbounded then w.expected?.map (w.slot.resumeStart - w.slot.start + ·)
  else some (w.slot.last - w.slot.start + 1)

/-- The range to ask for; none stands for the whole file. -/
def range? (w : Worker) : Option String :=
  if w.isUnbounded then
    if w.slot.resumeStart = 0 then none else some s!"bytes={w.slot.resumeStart}-"
  else some s!"bytes={w.slot.resumeStart}-{w.slot.last}"

/-- What the status of a response means for this worker. -/
def classify (w : Worker) (status : Nat) : Verdict :=
  if status = 206 then .accepted
  else if status = 200 then
    if w.range?.isNone then .accepted else .rangeIgnored
  else .rejected status

def fail (w : Worker) : Worker := { w with state := .failed }

/-! ## Buffering -/

/-- Write the buffered bytes to their place in the partial file. -/
def flush (w : Worker) (p : PartialFile) : Worker × PartialFile × Option IoError :=
  if w.buffer.isEmpty then (w, p, none)
  else
    match p.writePayload (Word.toUnsigned (w.slot.resumeStart + w.written)) w.buffer with
    | (p, some e) => (w, p, some e)
    | (p, none) => ({ w with written := w.written + w.buffer.length, buffer := [] }, p, none)

/-- The worker with room in its empty buffer for `n` bytes and half as many. -/
def enlarge (w : Worker) (n : Nat) : Worker :=
  if w.capacity < n then { w with capacity := n + n / 2, buffer := [] } else w

def append (w : Worker) (data : Bytes) : Worker :=
  { w with buffer := w.buffer ++ data, received := w.received + data.length }

/-- Take `data` into the buffer, which is flushed first if it would overflow. -/
def push (w : Worker) (p : PartialFile) (data : Bytes) :
    Worker × PartialFile × Option IoError :=
  if w.capacity < w.buffer.length + data.length then
    match w.flush p with
    | (w, p, some e) => (w, p, some e)
    | (w, p, none) => ((w.enlarge data.length).append data, p, none)
  else (w.append data, p, none)

/-! ## Streaming -/

/-- Begin to stream a response whose body has the given length. -/
def begin (w : Worker) (length? : Option Nat) : Worker :=
  { w with
    state := .streaming
    expected? := if w.isUnbounded then length?.map Word.toSigned
      else some (w.slot.last - w.slot.resumeStart + 1) }

/-- The part of a chunk that still belongs to the segment. -/
def clip (w : Worker) (chunk : Bytes) : Bytes :=
  match w.isUnbounded, w.expected? with
  | false, some expected => chunk.take (expected - w.received).toNat
  | _, _ => chunk

def receive (w : Worker) (p : PartialFile) (chunk : Bytes) :
    Worker × PartialFile × Option IoError :=
  match w.push p (w.clip chunk) with
  | (w, p, some e) => (w.fail, p, some e)
  | (w, p, none) => (w, p, none)

/-- How many bytes a bounded worker got of how many it needs, if the body was too short. -/
def shortfall? (w : Worker) : Option (Nat × Int) :=
  match w.isUnbounded, w.expected? with
  | false, some expected => if w.received < expected then some (w.received, expected) else none
  | _, _ => none

/-- The end of the body: flush, and check that the segment is filled. -/
def finish (w : Worker) (p : PartialFile) : Worker × PartialFile × Option IoError :=
  match w.flush p with
  | (w, p, some e) => (w.fail, p, some e)
  | (w, p, none) =>
    match w.shortfall? with
    | some (received, expected) =>
      (w.fail, p, some (.segmentEnded w.slot.index received expected))
    | none => ({ w with state := .complete }, p, none)

end Worker

end SegmentedDownload
