import SegmentedDownload.Job

/-!
# SegmentedDownload.Lifecycle

A job that several threads use at once.

`Job` says what a call does while nothing else happens. Here every call takes its steps one
by one, and so does the thread of a run, in any order. A call that nobody disturbs still does
what `Job` says.

* A call of `start` checks the configuration and the thread that it is on. Behind a mutex it
  then looks at the state, waits for the thread of the run before, forgets what that run left
  behind, and makes a thread for the new run.
* A call of `stop` raises the flag, checks the thread, and raises the flag again behind the
  mutex, because a call of `start` may have lowered it meanwhile. Like `wait` it then waits for
  the thread of the last run.
* The thread of a run registers as the runner, tells the observer that it runs, transfers the
  file, publishes its final state and tells it to the observer. During each callback it may
  call the job itself. What a callback answers is logged and nothing else.

Nothing but a name that a thread cannot have keeps the system from making it.
-/

namespace SegmentedDownload

/-- A thread that uses a job. -/
inductive Thread
  /-- The thread of a run, which makes the callbacks. -/
  | runner (run : Nat)
  | caller (id : Nat)
deriving Repr, DecidableEq

/-- What a thread asks of a job. -/
inductive Call
  | start
  | stop
  | wait
deriving Repr, DecidableEq

/-- What a call comes back with. -/
inductive Result
  | started (result : StartResult)
  | done
deriving Repr, DecidableEq

/-- What a call does next. -/
inductive Point
  /-- `start` checks the configuration, and `stop` raises the flag. -/
  | enter (call : Call)
  /-- Compare the thread with the runner. -/
  | identify (call : Call)
  /-- Wait for the mutex. -/
  | acquire (call : Call)
  /-- Change the state to running if it is not. -/
  | claim
  /-- Raise the flag once more. -/
  | raise
  /-- Wait for the thread of the last run. -/
  | join (call : Call)
  /-- Lower the flag. -/
  | clear
  /-- Forget the progress. -/
  | reset
  /-- Forget the finished file. -/
  | forget
  /-- Make a thread for a new run. -/
  | spawn
  /-- Give back the mutex and return. -/
  | unlock (result : Result)
  /-- Return without having had the mutex. -/
  | leave (result : Result)
deriving Repr, DecidableEq

/-- How far the thread of a run is. From the end of the transfer on, it has a final state and
a reason. -/
inductive Stage
  | spawned
  /-- It is registered as the runner. -/
  | begun
  /-- In the callback that the run began. -/
  | announcing
  | working
  /-- In a callback of progress. -/
  | reporting
  | settled (final : JobState × String)
  | published (final : JobState × String)
  /-- In the callback of the final state. -/
  | telling (final : JobState × String)
  | ended (final : JobState × String)
deriving Repr, DecidableEq

/-- How a callback ends. -/
inductive Answer
  | done
  | failed
  | panicked
deriving Repr, DecidableEq

/-- What the observer hears of a change of state. -/
def Config.status (c : Config) (change : JobState × String) : Status :=
  { name := c.fileName, state := change.1, reason := change.2 }

/-- A job and the threads that use it. -/
structure Lifecycle where
  files : FileSystem
  state : JobState := .ready
  /-- Whether a stop is asked for. -/
  cancelled : Bool := false
  progress : Snapshot := {}
  output? : Option String := none
  /-- The run whose thread is registered as the runner. -/
  runner? : Option Nat := none
  /-- The thread that has the mutex. -/
  lock? : Option Thread := none
  /-- The run whose thread nobody has waited for yet. -/
  handle? : Option Nat := none
  /-- The threads of all runs, in order. -/
  stages : List Stage := []
  /-- The calls that have not returned. -/
  calls : Thread → Option Point := fun _ => none
  /-- What the observer heard of changes of state, in order. -/
  heard : List Status := []
  /-- What the observer heard of progress, in order. -/
  callbacks : List Snapshot := []

namespace Call

/-- What a call does when it is made by the runner. -/
def ownResult : Call → Result
  | start => .started (.refused .alreadyRunning)
  | stop | wait => .done

/-- What a call does with the mutex. -/
def locked : Call → Point
  | start => .claim
  | stop => .raise
  | wait => .join .wait

/-- What a call does when no thread of a run is left. -/
def joined : Call → Point
  | start => .clear
  | stop | wait => .unlock .done

end Call

namespace Stage

/-- Whether the observer is being called. -/
def inCallback : Stage → Bool
  | announcing | reporting | telling _ => true
  | _ => false

/-- Where the thread goes on when its callback returns, whatever the answer is. -/
def answered? : Stage → Option Stage
  | announcing | reporting => some working
  | telling final => some (ended final)
  | _ => none

end Stage

namespace Lifecycle

def new (files : FileSystem) : Lifecycle := { files }

/-- The thread of the registered run. -/
def IsRunner (s : Lifecycle) (t : Thread) : Prop := ∃ n, s.runner? = some n ∧ t = .runner n

/-- A thread that can call the job: a run calls it from its callbacks only. -/
def MayCall (s : Lifecycle) : Thread → Prop
  | .caller _ => True
  | .runner n => ∃ stage, s.stages[n]? = some stage ∧ stage.inCallback = true

/-- A call goes on to a point. -/
def goto (s : Lifecycle) (t : Thread) (p : Point) : Lifecycle :=
  { s with calls := fun u => if u = t then some p else s.calls u }

/-- A call returns. -/
def drop (s : Lifecycle) (t : Thread) : Lifecycle :=
  { s with calls := fun u => if u = t then none else s.calls u }

/-- The thread of a run goes on to a stage. -/
def advance (s : Lifecycle) (n : Nat) (stage : Stage) : Lifecycle :=
  { s with stages := s.stages.set n stage }

/-- The observer hears of a change of state. -/
def tell (s : Lifecycle) (c : Config) (change : JobState × String) : Lifecycle :=
  { s with heard := s.heard ++ [c.status change] }

end Lifecycle

/-- In this world a run notices a stop. -/
def World.HearsStop (world : World) : Prop :=
  world.sizes? = none ∨ world.course.replies? = none ∨ ∃ x ∈ world.course.incidents, x.2 = .stop

namespace Lifecycle

/-- A step of a call that changes nothing but the call. -/
inductive Moves (c : Config) (s : Lifecycle) (t : Thread) : Point → Point → Prop
  | invalid (cause : ConfigError) (hinvalid : c.validate = .error cause) :
    Moves c s t (.enter .start) (.leave (.started (.refused (.config cause))))
  | valid (hvalid : c.validate = .ok ()) : Moves c s t (.enter .start) (.identify .start)
  | wait : Moves c s t (.enter .wait) (.identify .wait)
  | own (call : Call) (hrunner : s.IsRunner t) :
    Moves c s t (.identify call) (.leave call.ownResult)
  | other (call : Call) (hrunner : ¬ s.IsRunner t) : Moves c s t (.identify call) (.acquire call)
  | running (hstate : s.state = .running) :
    Moves c s t .claim (.unlock (.started (.refused .alreadyRunning)))
  | vacant (call : Call) (hhandle : s.handle? = none) : Moves c s t (.join call) call.joined
  /-- A thread cannot have a name with a NUL character. -/
  | crash (hname : '\x00' ∈ c.fileName.toList) : Moves c s t .spawn (.unlock (.started .crashed))

/-- A step of a call of `stop` that raises the flag. -/
inductive Raises : Point → Point → Prop
  | enter : Raises (.enter .stop) (.identify .stop)
  | again : Raises .raise (.join .stop)

/-- A step of a thread whose call is at a point, or that makes no call yet. -/
inductive CallStep (c : Config) (s : Lifecycle) (t : Thread) : Option Point → Lifecycle → Prop
  | enter (call : Call) (hmay : s.MayCall t) : CallStep c s t none (s.goto t (.enter call))
  | move {p p' : Point} (hmoves : Moves c s t p p') : CallStep c s t (some p) (s.goto t p')
  | raise {p p' : Point} (hraises : Raises p p') :
    CallStep c s t (some p) ({ s with cancelled := true }.goto t p')
  | acquire (call : Call) (hfree : s.lock? = none) :
    CallStep c s t (some (.acquire call)) ({ s with lock? := some t }.goto t call.locked)
  | claim (hstate : s.state ≠ .running) :
    CallStep c s t (some .claim) ({ s with state := .running }.goto t (.join .start))
  | join (call : Call) (n : Nat) (final : JobState × String) (hhandle : s.handle? = some n)
      (hended : s.stages[n]? = some (.ended final)) :
    CallStep c s t (some (.join call)) ({ s with handle? := none }.goto t call.joined)
  | clear : CallStep c s t (some .clear) ({ s with cancelled := false }.goto t .reset)
  | reset : CallStep c s t (some .reset) ({ s with progress := {} }.goto t .forget)
  | forget : CallStep c s t (some .forget) ({ s with output? := none }.goto t .spawn)
  | spawn (hname : '\x00' ∉ c.fileName.toList) :
    CallStep c s t (some .spawn) ({ s with
      stages := s.stages ++ [Stage.spawned]
      handle? := some s.stages.length }.goto t (.unlock (.started .accepted)))
  | unlock (result : Result) :
    CallStep c s t (some (.unlock result)) ({ s with lock? := none }.drop t)
  | leave (result : Result) : CallStep c s t (some (.leave result)) (s.drop t)

inductive RunStep (c : Config) (s : Lifecycle) (n : Nat) : Lifecycle → Prop
  | begin (hat : s.stages[n]? = some .spawned) :
    RunStep c s n ({ s with runner? := some n }.advance n .begun)
  | announce (hat : s.stages[n]? = some .begun) :
    RunStep c s n ((s.tell c (.running, "")).advance n .announcing)
  | answer (stage stage' : Stage) (answer : Answer) (hat : s.stages[n]? = some stage)
      (hanswered : stage.answered? = some stage') (hidle : s.calls (.runner n) = none) :
    RunStep c s n (s.advance n stage')
  | report (progress : Snapshot) (hat : s.stages[n]? = some .working) :
    RunStep c s n
      ({ s with progress, callbacks := s.callbacks ++ [progress] }.advance n .reporting)
  | settle (world : World) (hat : s.stages[n]? = some .working)
      (hstop : world.HearsStop → s.cancelled = true) :
    RunStep c s n ({ s with
      files := (Download.run c s.files world).2.files
      progress := (Download.run c s.files world).2.progress
      output? := (Download.run c s.files world).2.output? }.advance n
      (.settled (Job.verdict (Download.run c s.files world).1)))
  | publish (final : JobState × String) (hat : s.stages[n]? = some (.settled final)) :
    RunStep c s n ({ s with state := final.1 }.advance n (.published final))
  | tell (final : JobState × String) (hat : s.stages[n]? = some (.published final)) :
    RunStep c s n ((s.tell c final).advance n (.telling final))

inductive Step (c : Config) (s s' : Lifecycle) : Prop
  | call (t : Thread) (hcall : CallStep c s t (s.calls t) s')
  | run (n : Nat) (hrun : RunStep c s n s')

inductive Steps (c : Config) (s : Lifecycle) : Lifecycle → Prop
  | refl : Steps c s s
  | step {s' s'' : Lifecycle} (hsteps : Steps c s s') (hstep : Step c s' s'') : Steps c s s''

/-- The steps of an execution in order, each as the states in front of it and behind it. -/
inductive Trace (c : Config) (s : Lifecycle) : List (Lifecycle × Lifecycle) → Lifecycle → Prop
  | refl : Trace c s [] s
  | step {path : List (Lifecycle × Lifecycle)} {s' s'' : Lifecycle} (htrace : Trace c s path s')
    (hstep : Step c s' s'') : Trace c s (path ++ [(s', s'')]) s''

/-- What can become of a new job. -/
def Reachable (c : Config) (files : FileSystem) (s : Lifecycle) : Prop := Steps c (new files) s

end Lifecycle

end SegmentedDownload
