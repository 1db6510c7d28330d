import SegmentedDownload.Download
import SegmentedDownload.Event

/-!
# SegmentedDownload.Job

A job: one download that can be started, stopped and resumed.

* A run goes through the phases of `Phase`. It has a thread of its own, the
  runner, which also makes the callbacks to the observer: one when the run begins
  and one when its final state is published, which is just before.
* `start` is refused while the job is in the state `running`, and always when it
  is called from a callback, that is, by the runner.
* `stop` raises a flag that the run looks at from time to time. Like `wait`, it
  then waits for the end of the run, unless the runner itself calls it.

A thread cannot have a name with a NUL character. Starting a job of such a name
crashes after its state was changed.
-/

namespace SegmentedDownload

inductive Caller
  /-- A callback of the job's own run. -/
  | runner
  | other
deriving Repr, DecidableEq

/-- How far a run is. -/
inductive Phase
  /-- There is no run. -/
  | idle
  /-- The run was accepted, and the observer does not know yet. -/
  | accepted
  /-- The observer knows that the run began. -/
  | announced
  /-- The final state is published, and the observer does not know yet. -/
  | concluded
deriving Repr, DecidableEq, Inhabited

structure Status where
  name : String
  state : JobState
  reason : String
deriving Repr, DecidableEq

/-- How a call of `start` ended. -/
inductive StartResult
  | accepted
  | refused (cause : DownloadError)
  | crashed
deriving Repr, DecidableEq

structure Job where
  config : Config
  state : JobState := .ready
  phase : Phase := .idle
  /-- Whether a stop is asked for. -/
  cancelled : Bool := false
  progress : Snapshot := {}
  /-- The path of the finished file, once a run has made one. -/
  output? : Option String := none
  /-- What the observer heard of changes of state, in order. -/
  statuses : List Status := []
  /-- What the observer heard of progress, in order. -/
  callbacks : List Snapshot := []
  /-- The reason of the final state that the observer is about to hear. -/
  reason : String := ""
deriving Repr, DecidableEq

namespace Job

/-! ## Steps of a run -/

/-- Tell the observer something. -/
def notify (j : Job) (state : JobState) (reason : String) : Job :=
  { j with statuses := j.statuses ++ [{ name := j.config.fileName, state, reason }] }

/-- The run begins. -/
def announce (j : Job) : Job :=
  if j.phase = .accepted then { j with phase := .announced }.notify .running "" else j

/-- The final state of a run, and the reason for it. -/
def verdict : Except DownloadError Outcome → JobState × String
  | .ok (.completed _) => (.finished, "")
  | .ok .interrupted => (.ready, "")
  | .ok (.incomplete failed) => (.failed, s!"{failed} segment(s) failed")
  | .error e => (.failed, e.message)

/-- The run publishes its final state. -/
def conclude (j : Job) (outcome : Except DownloadError Outcome) (d : Download) : Job :=
  if j.phase = .announced then
    let (state, reason) := verdict outcome
    { j with
      state, reason
      phase := .concluded
      progress := d.progress
      output? := d.output?
      callbacks := j.callbacks ++ d.callbacks }
  else j

/-- The run ends. -/
def retire (j : Job) : Job :=
  if j.phase = .concluded then { j with phase := .idle }.notify j.state j.reason else j

/-- The rest of a run, and the files that it leaves behind. -/
def complete (j : Job) (files : FileSystem) (world : World) : Job × FileSystem :=
  match j.phase with
  | .idle => (j, files)
  | .concluded => (j.retire, files)
  | .accepted | .announced =>
    let (outcome, d) := Download.run j.config files world
    ((j.announce.conclude outcome d).retire, d.files)

/-! ## Calls -/

/-- The job as a new run finds it. -/
def renew (j : Job) : Job :=
  { j with state := .running, cancelled := false, progress := {}, output? := none }

/-- Start a run. A run before, whose final state is published, ends first. -/
def start (j : Job) (caller : Caller) : Job × StartResult :=
  match j.config.validate with
  | .error cause => (j, .refused (.config cause))
  | .ok () =>
    if caller = .runner ∨ j.state = .running then (j, .refused .alreadyRunning)
    else if j.config.fileName.toList.contains '\x00' then (j.retire.renew, .crashed)
    else ({ j.retire.renew with phase := .accepted }, .accepted)

/-- Ask the run to stop. -/
def requestStop (j : Job) : Job := { j with cancelled := true }

/-- Wait for the end of the run, in a world that behaves as given until then. -/
def wait (j : Job) (caller : Caller) (files : FileSystem) (world : World) : Job × FileSystem :=
  match caller with
  | .runner => (j, files)
  | .other => j.complete files world

/-- Ask the run to stop, and wait for its end. -/
def stop (j : Job) (caller : Caller) (files : FileSystem) (world : World) : Job × FileSystem :=
  j.requestStop.wait caller files world

end Job

end SegmentedDownload
