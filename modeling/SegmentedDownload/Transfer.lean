import SegmentedDownload.Error
import SegmentedDownload.Progress
import SegmentedDownload.Table
import SegmentedDownload.Worker

/-!
# SegmentedDownload.Transfer

One run over all incomplete segments of a table.

1. A worker per incomplete segment sends its request (`begin`).
2. When all replies are there, they decide who streams (`accept`). If the very
   first segment of a fresh plan gets the whole file, the plan collapses to one
   segment; anywhere else this is an error of the run. A worker whose request was
   lost or rejected has failed, and the others go on.
3. A fresh plan that persists is written to the front of the file, and the file
   is brought to its final length (`prepare`).
4. The bodies arrive in any order, until all have ended, the file fails, or a
   stop is noticed (`deliver`).
5. All buffers are flushed. The run is complete if every worker is, or if every
   byte of the file is on disk; otherwise the progress is committed (`close`).

What the outside world does is a `Course`: the replies, and then what happens
one after the other. It is an input of `run`, so that every order of chunks and
every moment of a stop or failure is one of its values.
-/

namespace SegmentedDownload

/-- What came back for a request. -/
inductive Reply
  /-- The connection failed. -/
  | lost
  | answered (status : Nat) (length? : Option Nat)
deriving Repr, DecidableEq

/-- What happens while bodies arrive. -/
inductive Incident
  /-- A part of the body for a worker. -/
  | chunk (worker : Nat) (data : Bytes)
  /-- The end of a body. -/
  | ended (worker : Nat)
  /-- The connection of a worker failed. -/
  | broken (worker : Nat)
  /-- A stop is noticed. -/
  | stop
deriving Repr, DecidableEq

/-- What the outside world does during a run. -/
structure Course where
  /-- The replies to the workers in their order; none if a stop is noticed before
  all of them are there. -/
  replies? : Option (List Reply)
  /-- What happens then, and when. -/
  incidents : List (Nat × Incident) := []
  /-- When the run closes. -/
  closing : Nat := 0
deriving Repr, DecidableEq

inductive Outcome
  /-- Every byte is on disk. -/
  | completed (length : Nat)
  /-- The run was stopped. -/
  | interrupted
  /-- Some segments failed. -/
  | incomplete (failed : Nat)
deriving Repr, DecidableEq

structure Transfer where
  table : Table
  file : PartialFile
  reporter : Reporter
  workers : List Worker := []
  /-- What the observer heard of, in order. -/
  callbacks : List Snapshot := []
  /-- The error that ends the run. -/
  fatal? : Option DownloadError := none
  stopped : Bool := false
deriving Repr, DecidableEq

namespace Transfer

/-! ## Requests -/

/-- A worker that waits for the reply to its request. -/
def request (slot : Slot) : Worker := { slot, state := .requesting }

/-- Begin a run: every incomplete segment is requested. -/
def begin (table : Table) (file : PartialFile) (reporter : Reporter) : Transfer :=
  let table := table.begin
  { table, file
    reporter := reporter.reset (table.segments.map Segment.session)
    workers := (Plan.resume table.segments).map request }

/-- The ranges that are asked for. -/
def ranges (t : Transfer) : List (Option String) := t.workers.map Worker.range?

/-! ## Replies -/

/-- The reply to the first segment of a fresh plan, if it carries the whole file.
Returns the length of its body. -/
def wholeFile? (t : Transfer) (replies : List Reply) : Option (Option Nat) :=
  match t.table.isFresh, t.workers, replies with
  | true, w :: _, .answered status length? :: _ =>
    if w.slot.index = 0 ∧ w.classify status = .rangeIgnored then some length? else none
  | _, _, _ => none

/-- The run with one worker in place of all, which gets a body of the given
length. -/
def collapse (t : Transfer) (length? : Option Nat) : Transfer :=
  let slot : Slot := { index := 0, start := 0, resumeStart := 0, last := t.table.whole.last }
  { t with
    table := t.table.collapse
    workers := [(request slot).begin length?]
    reporter := t.reporter.reset [0] }

/-- A worker after its reply. -/
def acceptOne (w : Worker) : Reply → Except DownloadError Worker
  | .lost => .ok w.fail
  | .answered status length? =>
    match w.classify status with
    | .accepted => .ok (w.begin length?)
    | .rangeIgnored => .error (.rangeUnsupported w.slot.index)
    | .rejected _ => .ok w.fail

/-- All workers after their replies. One without a reply lost it. -/
def acceptAll : List Worker → List Reply → Except DownloadError (List Worker)
  | [], _ => .ok []
  | w :: workers, replies => do
    let w ← acceptOne w (replies.headD .lost)
    return w :: (← acceptAll workers replies.tail)

/-- The run after all replies. -/
def accept (t : Transfer) (replies : List Reply) : Except DownloadError Transfer :=
  match t.wholeFile? replies with
  | some length? => .ok (t.collapse length?)
  | none => (acceptAll t.workers replies).map fun workers => { t with workers }

/-! ## Preparing the file -/

def writeHeader (t : Transfer) : Transfer × Option IoError :=
  if t.table.isFresh && t.table.persists then
    let (file, fault?) := ResumeHeader.write t.file.file t.table.segments
    ({ t with file := { t.file with file } }, fault?)
  else (t, none)

/-- The run with the payload right behind the header. -/
def setPayloadOffset (t : Transfer) : Transfer :=
  { t with file := { t.file with payloadOffset := t.table.headerSize } }

/-- Bring the file of a fresh plan to its final length, if that is known. -/
def reserve (t : Transfer) : Transfer × Option IoError :=
  match t.table.isFresh, t.table.size? with
  | true, some size =>
    let (file, fault?) := t.file.file.setLength (t.table.headerSize + size.toNat)
    ({ t with file := { t.file with file } }, fault?)
  | _, _ => (t, none)

/-- Prepare the file for the bodies. -/
def prepare (t : Transfer) : Transfer × Option IoError :=
  match t.writeHeader with
  | (t, some fault) => (t, some fault)
  | (t, none) => t.setPayloadOffset.reserve

/-! ## Streaming -/

/-- Whether nothing that arrives counts any more. -/
def isHalted (t : Transfer) : Bool := t.fatal?.isSome || t.stopped

/-- The run after a worker did something with the file. An error of the file ends
the run. -/
def advance (t : Transfer) (i : Nat) : Worker × PartialFile × Option IoError → Transfer
  | (w, file, fault?) =>
    { t with
      workers := t.workers.set i w
      file
      fatal? := fault?.map .io }

def report (t : Transfer) (w : Worker) (now : Nat) : Transfer :=
  let (reporter, heard?) :=
    t.reporter.update w.slot.index w.progress w.segmentLength? now
  { t with reporter, callbacks := t.callbacks ++ heard?.toList }

/-- A worker whose body still arrives. -/
def streaming? (t : Transfer) (i : Nat) : Option Worker :=
  t.workers[i]?.filter (·.state = .streaming)

/-- The run after an incident. -/
def deliver (t : Transfer) (now : Nat) (incident : Incident) : Transfer :=
  if t.isHalted then t
  else match incident with
    | .stop => { t with stopped := true }
    | .chunk i data =>
      match t.streaming? i with
      | none => t
      | some w =>
        match w.receive t.file data with
        | (w, file, some fault) => t.advance i (w, file, some fault)
        | (w, file, none) => (t.advance i (w, file, none)).report w now
    | .ended i =>
      match t.streaming? i with
      | none => t
      | some w => t.advance i (w.finish t.file)
    | .broken i =>
      match t.streaming? i with
      | none => t
      | some w => { t with workers := t.workers.set i w.fail }

def stream (t : Transfer) (incidents : List (Nat × Incident)) : Transfer :=
  incidents.foldl (fun t (now, incident) => t.deliver now incident) t

/-! ## Closing -/

/-- The segments with the flushed progress of a worker. -/
def recordProgress (w : Worker) (segments : List Segment) : List Segment :=
  segments.modify w.slot.index fun s => { s with session := max s.committed w.flushedProgress }

/-- Flush one worker. The first error of the file is kept. -/
def flushOne (t : Transfer) (i : Nat) (w : Worker) : Transfer :=
  let (w, file, fault?) := w.flush t.file
  { t with
    workers := t.workers.set i w
    file
    fatal? := t.fatal? <|> fault?.map .io
    table := { t.table with segments := recordProgress w t.table.segments } }

/-- Flush all workers. -/
def flushAll (t : Transfer) : Transfer :=
  t.workers.zipIdx.foldl (fun t (w, i) => t.flushOne i w) t

def isComplete (t : Transfer) : Bool :=
  t.workers.all (·.state == .complete) || t.table.size? == some t.table.sessionTotal

def payloadLength (t : Transfer) : Int := t.table.size?.getD t.table.sessionTotal

/-- Report that the file is complete. -/
def announce (t : Transfer) (now : Nat) : Transfer :=
  let (reporter, heard?) := t.reporter.finish t.payloadLength now
  { t with reporter, callbacks := t.callbacks ++ heard?.toList }

/-- Commit the progress to the header. -/
def checkpoint (t : Transfer) : Transfer :=
  if t.table.persists then
    let (file, segments, fault?) := ResumeHeader.update t.file.file t.table.segments
    { t with
      file := { t.file with file }
      table := { t.table with segments }
      fatal? := t.fatal? <|> fault?.map .io }
  else t

/-- How many workers did not complete. -/
def failures (t : Transfer) : Nat := t.workers.countP (·.state != .complete)

def close (t : Transfer) (now : Nat) : Except DownloadError Outcome × Transfer :=
  let t := t.flushAll
  if !t.isHalted && t.isComplete then
    (.ok (.completed (Word.toUnsigned t.payloadLength)), t.announce now)
  else
    let t := t.checkpoint
    match t.fatal? with
    | some e => (.error e, t)
    | none => (.ok (if t.stopped then .interrupted else .incomplete t.failures), t)

/-! ## Whole runs -/

/-- The run from the replies on. -/
def proceed (t : Transfer) (replies : List Reply) (course : Course) :
    Except DownloadError Outcome × Transfer :=
  match t.accept replies with
  | .error e => (.error e, t)
  | .ok t =>
    match t.prepare with
    | (t, some fault) => (.error (.io fault), t)
    | (t, none) => (t.stream course.incidents).close course.closing

def run (table : Table) (file : PartialFile) (reporter : Reporter) (course : Course) :
    Except DownloadError Outcome × Transfer :=
  let t := begin table file reporter
  match course.replies? with
  | none => (.ok .interrupted, t)
  | some replies => t.proceed replies course

end Transfer

end SegmentedDownload
