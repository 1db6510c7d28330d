import SegmentedDownload.Lifecycle

/-!
# SegmentedDownload.Proofs.OneRun

What holds of a job however its threads take turns.

`Inv` is kept by every step (`step_inv`), and so it holds of all that can become of a new job
(`Reachable.inv`).  Its core is that the mutex guards the handle: whoever makes a new thread
has waited for the last one, and nobody else can make one meanwhile.  Therefore only the last
run can be active (`Inv.last`), it is the registered runner as soon as it makes callbacks, and
it has published its final state before a new run claims the state.
-/

namespace SegmentedDownload

namespace Point

/-- Points behind the mutex. -/
def isLocked : Point → Bool
  | claim | raise | join _ | clear | reset | forget | spawn | unlock _ => true
  | enter _ | identify _ | acquire _ | leave _ => false

/-- Points of a start that has changed the state, and has not yet made a thread. -/
def isClaimed : Point → Bool
  | join .start | clear | reset | forget | spawn => true
  | _ => false

/-- Points at which the thread of the last run has been waited for. -/
def isVacant : Point → Bool
  | clear | reset | forget | spawn | unlock .done => true
  | _ => false

/-- Where a start that has changed the state goes on. -/
def next? : Point → Option Point
  | join .start => some clear
  | clear => some reset
  | reset => some forget
  | forget => some spawn
  | spawn => some (unlock (.started .accepted))
  | _ => none

end Point

namespace Stage

def isEnded : Stage → Bool
  | ended _ => true
  | _ => false

/-- The state of a job whose last run is at a stage. -/
def state : Stage → JobState
  | spawned | begun | announcing | working | reporting | settled _ => .running
  | published final | telling final | ended final => final.1

/-- What the observer has heard from a run. -/
def told : Stage → List (JobState × String)
  | spawned | begun => []
  | announcing | working | reporting | settled _ | published _ => [(.running, "")]
  | telling final | ended final => [(.running, ""), final]

/-- The final state of a run, once there is one. -/
def final? : Stage → Option (JobState × String)
  | settled final | published final | telling final | ended final => some final
  | _ => none

/-- The final state of a run, once the job has it. -/
def published? : Stage → Option (JobState × String)
  | published final | telling final | ended final => some final
  | _ => none

end Stage

namespace Lifecycle

variable {c : Config} {files : FileSystem} {s s' s'' : Lifecycle} {t : Thread} {p p' : Point}
  {p? : Option Point} {n : Nat} {stage stage' : Stage}

/-- The state that the last run stands for. -/
def lastState (s : Lifecycle) : JobState := (s.stages.getLast?.map Stage.state).getD .ready

/-- What holds when the thread with the mutex is at a point. -/
structure Guards (s : Lifecycle) (p : Point) : Prop where
  vacant : p.isVacant = true → s.handle? = none
  claimed : p.isClaimed = true → s.state = .running ∧ s.lastState ≠ .running
  unclaimed : p.isClaimed = false → s.state = s.lastState
  raised : p = .join .stop → s.cancelled = true

/-- What holds of a job at any time. -/
structure Inv (c : Config) (s : Lifecycle) : Prop where
  handle : ∀ n, s.handle? = some n → n + 1 = s.stages.length
  ended : ∀ n stage, s.stages[n]? = some stage → s.handle? ≠ some n → stage.isEnded = true
  runner : ∀ n stage, s.stages[n]? = some stage → s.handle? = some n → stage ≠ .spawned →
    s.runner? = some n
  calling : ∀ n p, s.calls (.runner n) = some p → p.isLocked = false ∧
    (∀ call, p ≠ .acquire call) ∧ s.MayCall (.runner n)
  locked : ∀ t p, s.calls t = some p → p.isLocked = true → s.lock? = some t
  held : ∀ t, s.lock? = some t → ∃ p, s.calls t = some p ∧ p.isLocked = true ∧ s.Guards p
  free : s.lock? = none → s.state = s.lastState
  finals : ∀ stage ∈ s.stages, ∀ final, stage.final? = some final → final.1 ≠ .running
  heard : s.heard = s.stages.flatMap fun stage => stage.told.map c.status

/-! ## Stages -/

/-- A stage after a change is the new one, or one that was there. -/
theorem stage_set_cases {stages : List Stage} {m : Nat} {x : Stage}
    (h : (stages.set n stage)[m]? = some x) : m = n ∧ x = stage ∨ m ≠ n ∧ stages[m]? = some x := by
  rw [List.getElem?_set] at h
  split at h
  · next heq =>
    split at h
    · exact Or.inl ⟨heq.symm, (Option.some.inj h).symm⟩
    · contradiction
  · next hne => exact Or.inr ⟨Ne.symm hne, h⟩

/-- A stage after a new run is that of the run, or one that was there. -/
theorem stage_snoc_cases {stages : List Stage} {x : Stage}
    (h : (stages ++ [stage])[n]? = some x) :
    n < stages.length ∧ stages[n]? = some x ∨ n = stages.length ∧ x = stage := by
  rw [List.getElem?_append] at h
  split at h
  · next hn => exact Or.inl ⟨hn, h⟩
  · rw [List.getElem?_singleton] at h
    split at h
    · exact Or.inr ⟨by omega, (Option.some.inj h).symm⟩
    · contradiction

/-! ## The last run -/

/-- Only the last run can be active, and its thread is the one that somebody is to wait for. -/
theorem Inv.last (h : Inv c s) (hat : s.stages[n]? = some stage) (hactive : stage.isEnded = false) :
    s.handle? = some n ∧ ∃ front, s.stages = front ++ [stage] ∧ front.length = n := by
  have hhandle : s.handle? = some n := Decidable.byContradiction fun hne => by
    rw [h.ended n stage hat hne] at hactive
    contradiction
  have hlength := h.handle n hhandle
  refine ⟨hhandle, s.stages.take n, ?_, ?_⟩
  · have htake := List.take_add_one (l := s.stages) (i := n)
    rw [hat, hlength, List.take_length] at htake
    exact htake
  · rw [List.length_take]
    omega

theorem lastState_append {front : List Stage} (h : s.stages = front ++ [stage]) :
    s.lastState = stage.state := by
  simp [lastState, h]

/-- Where the mutex is not, or a start has not claimed the state, it is that of the last run. -/
theorem Inv.state_cases (h : Inv c s) :
    s.state = s.lastState ∨
      ∃ t p, s.lock? = some t ∧ s.calls t = some p ∧ p.isClaimed = true ∧
        s.state = .running ∧ s.lastState ≠ .running := by
  cases hlock : s.lock? with
  | none => exact Or.inl (h.free hlock)
  | some t =>
    obtain ⟨p, hat, -, hguards⟩ := h.held t hlock
    cases hclaimed : p.isClaimed with
    | false => exact Or.inl (hguards.unclaimed hclaimed)
    | true => exact Or.inr ⟨t, p, rfl, hat, hclaimed, hguards.claimed hclaimed⟩

/-! ## Steps of calls -/

@[simp] theorem goto_calls (s : Lifecycle) (t : Thread) (p : Point) (u : Thread) :
    (s.goto t p).calls u = if u = t then some p else s.calls u := rfl

@[simp] theorem drop_calls (s : Lifecycle) (t u : Thread) :
    (s.drop t).calls u = if u = t then none else s.calls u := rfl

theorem Guards.congr (h : s.Guards p) (hhandle : s'.handle? = s.handle?)
    (hstate : s'.state = s.state) (hlast : s'.lastState = s.lastState)
    (hcancelled : s'.cancelled = s.cancelled) : s'.Guards p where
  vacant hvacant := hhandle.trans (h.vacant hvacant)
  claimed hclaimed := by
    rw [hstate, hlast]
    exact h.claimed hclaimed
  unclaimed hclaimed := by
    rw [hstate, hlast]
    exact h.unclaimed hclaimed
  raised hp := hcancelled.trans (h.raised hp)

/-- A start that has changed the state and waited goes on. -/
theorem Guards.proceed (h : s.Guards p) (hclaimed : p.isClaimed = true)
    (hvacant : p.isVacant = true) (hp' : p'.isClaimed = true) (hhandle : s'.handle? = s.handle?)
    (hstate : s'.state = s.state) (hlast : s'.lastState = s.lastState) : s'.Guards p' where
  vacant _ := hhandle.trans (h.vacant hvacant)
  claimed _ := by
    rw [hstate, hlast]
    exact h.claimed hclaimed
  unclaimed hopen := by
    rw [hp'] at hopen
    contradiction
  raised hjoin := by
    rw [hjoin] at hp'
    contradiction

/-- A call has waited for the last run. -/
theorem Guards.joined {call : Call} (h : s.Guards (.join call)) (hhandle : s'.handle? = none)
    (hstate : s'.state = s.state) (hlast : s'.lastState = s.lastState) :
    s'.Guards call.joined := by
  have hclaimed : call.joined.isClaimed = (Point.join call).isClaimed := by cases call <;> rfl
  constructor
  case vacant => exact fun _ => hhandle
  case claimed =>
    rw [hclaimed, hstate, hlast]
    exact h.claimed
  case unclaimed =>
    rw [hclaimed, hstate, hlast]
    exact h.unclaimed
  case raised => cases call <;> exact nofun

/-- The thread with the mutex is the only one behind it. -/
theorem Inv.holder (h : Inv c s) (hat : s.calls t = some p) (hlocked : p.isLocked = true) :
    s.Guards p := by
  obtain ⟨p', hat', -, hguards⟩ := h.held t (h.locked t p hat hlocked)
  obtain rfl := Option.some.inj (hat.symm.trans hat')
  exact hguards

/-- A call moves in front of the mutex. -/
theorem Inv.goto_open (h : Inv c s) (hopen : ∀ p, s.calls t = some p → p.isLocked = false)
    (hp' : p'.isLocked = false)
    (hown : ∀ n, t = .runner n → (∀ call, p' ≠ .acquire call) ∧ s.MayCall (.runner n)) :
    Inv c (s.goto t p') where
  handle := h.handle
  ended := h.ended
  runner := h.runner
  calling n p hat := by
    rw [goto_calls] at hat
    split at hat
    · next heq =>
      obtain rfl := Option.some.inj hat
      exact ⟨hp', hown n heq.symm⟩
    · exact h.calling n p hat
  locked u p hat hlocked := by
    rw [goto_calls] at hat
    split at hat
    · obtain rfl := Option.some.inj hat
      rw [hp'] at hlocked
      contradiction
    · exact h.locked u p hat hlocked
  held u hlock := by
    obtain ⟨p, hat, hlocked, hguards⟩ := h.held u hlock
    have hne : u ≠ t := by
      rintro rfl
      rw [hopen p hat] at hlocked
      contradiction
    exact ⟨p, (if_neg hne).trans hat, hlocked, hguards.congr rfl rfl rfl rfl⟩
  free := h.free
  finals := h.finals
  heard := h.heard

/-- The thread with the mutex moves on, and changes what the mutex guards. -/
theorem Inv.goto_locked (h : Inv c s) (hat : s.calls t = some p) (hlocked : p.isLocked = true)
    (hp' : p'.isLocked = true) (hcalls : s'.calls = (s.goto t p').calls)
    (hlock : s'.lock? = s.lock?) (hstages : s'.stages = s.stages)
    (hrunner : s'.runner? = s.runner?) (hheard : s'.heard = s.heard)
    (hhandle : ∀ n, s'.handle? = some n → s.handle? = some n)
    (hended : ∀ n stage, s.stages[n]? = some stage → s'.handle? ≠ some n → stage.isEnded = true)
    (hguards : s'.Guards p') : Inv c s' where
  handle n hn := hstages ▸ h.handle n (hhandle n hn)
  ended n stage hstage hn := hended n stage (hstages ▸ hstage) hn
  runner n stage hstage hn hne := hrunner ▸ h.runner n stage (hstages ▸ hstage) (hhandle n hn) hne
  calling n q hq := by
    have hne : Thread.runner n ≠ t := by
      rintro rfl
      rw [(h.calling n p hat).1] at hlocked
      contradiction
    rw [hcalls, goto_calls, if_neg hne] at hq
    rw [MayCall, hstages]
    exact h.calling n q hq
  locked u q hq hqlocked := by
    rw [hlock]
    rw [hcalls, goto_calls] at hq
    split at hq
    · next heq => exact heq ▸ h.locked t p hat hlocked
    · exact h.locked u q hq hqlocked
  held u hu := by
    rw [hlock, h.locked t p hat hlocked] at hu
    obtain rfl := Option.some.inj hu
    exact ⟨p', by rw [hcalls, goto_calls, if_pos rfl], hp', hguards⟩
  free hnone := by
    rw [hlock, h.locked t p hat hlocked] at hnone
    contradiction
  finals := hstages ▸ h.finals
  heard := by rw [hheard, hstages, h.heard]

/-- A call returns that does not have the mutex. -/
theorem Inv.leave (h : Inv c s) {result : Result} (hat : s.calls t = some (.leave result)) :
    Inv c (s.drop t) where
  handle := h.handle
  ended := h.ended
  runner := h.runner
  calling n p hp := by
    rw [drop_calls] at hp
    split at hp
    · contradiction
    · exact h.calling n p hp
  locked u p hp hlocked := by
    rw [drop_calls] at hp
    split at hp
    · contradiction
    · exact h.locked u p hp hlocked
  held u hlock := by
    obtain ⟨p, hp, hlocked, hguards⟩ := h.held u hlock
    have hne : u ≠ t := by
      rintro rfl
      obtain rfl := Option.some.inj (hat.symm.trans hp)
      contradiction
    exact ⟨p, (if_neg hne).trans hp, hlocked, hguards.congr rfl rfl rfl rfl⟩
  free := h.free
  finals := h.finals
  heard := h.heard

/-- A call gives the mutex back and returns. -/
theorem Inv.unlock (h : Inv c s) {result : Result} (hat : s.calls t = some (.unlock result)) :
    Inv c ({ s with lock? := none }.drop t) where
  handle := h.handle
  ended := h.ended
  runner := h.runner
  calling n p hp := by
    rw [drop_calls] at hp
    split at hp
    · contradiction
    · exact h.calling n p hp
  locked u p hp hlocked := by
    rw [drop_calls] at hp
    split at hp
    · contradiction
    · next hne =>
      have hlock := (h.locked u p hp hlocked).symm.trans (h.locked t _ hat rfl)
      exact absurd (Option.some.inj hlock) hne
  held u hlock := by contradiction
  free _ := (h.holder hat rfl).unclaimed rfl
  finals := h.finals
  heard := h.heard

/-- A call gets the mutex. -/
theorem Inv.acquire (h : Inv c s) {call : Call} (hat : s.calls t = some (.acquire call))
    (hfree : s.lock? = none) : Inv c ({ s with lock? := some t }.goto t call.locked) where
  handle := h.handle
  ended := h.ended
  runner := h.runner
  calling n p hp := by
    rw [goto_calls] at hp
    split at hp
    · next heq => exact absurd rfl ((h.calling n _ (heq ▸ hat)).2.1 call)
    · exact h.calling n p hp
  locked u p hp hlocked := by
    rw [goto_calls] at hp
    split at hp
    · next heq => exact congrArg some heq.symm
    · have hlock := h.locked u p hp hlocked
      rw [hfree] at hlock
      contradiction
  held u hu := by
    obtain rfl := Option.some.inj hu
    refine ⟨call.locked, if_pos rfl, by cases call <;> rfl, ?_⟩
    have hstate := h.free hfree
    constructor
    · intro hvacant
      cases call <;> contradiction
    · intro hclaimed
      cases call <;> contradiction
    · exact fun _ => hstate
    · intro hp
      cases call <;> contradiction
  free hnone := by contradiction
  finals := h.finals
  heard := h.heard

/-- A run's thread can call the job only while it is the runner. -/
theorem Inv.isRunner_of_calls (h : Inv c s) (hat : s.calls (.runner n) = some p) :
    s.IsRunner (.runner n) := by
  obtain ⟨-, -, stage, hstage, hcallback⟩ := h.calling n p hat
  have hactive : stage.isEnded = false := by cases stage <;> first | rfl | contradiction
  have hne : stage ≠ .spawned := by
    rintro rfl
    contradiction
  exact ⟨n, h.runner n stage hstage (h.last hstage hactive).1 hne, rfl⟩

/-- A step that changes nothing but the call keeps the invariant. -/
theorem Inv.move (h : Inv c s) (hname : '\x00' ∉ c.fileName.toList) (hat : s.calls t = some p)
    (hmoves : Moves c s t p p') : Inv c (s.goto t p') := by
  have hopen : p.isLocked = false → ∀ q, s.calls t = some q → q.isLocked = false := by
    intro hp q hq
    obtain rfl := Option.some.inj (hat.symm.trans hq)
    exact hp
  have hmay : ∀ n, t = .runner n → s.MayCall (.runner n) := by
    rintro n rfl
    exact (h.calling n p hat).2.2
  cases hmoves with
  | invalid cause _ => exact h.goto_open (hopen rfl) rfl fun n hn => ⟨nofun, hmay n hn⟩
  | valid _ => exact h.goto_open (hopen rfl) rfl fun n hn => ⟨nofun, hmay n hn⟩
  | wait => exact h.goto_open (hopen rfl) rfl fun n hn => ⟨nofun, hmay n hn⟩
  | own call _ => exact h.goto_open (hopen rfl) rfl fun n hn => ⟨nofun, hmay n hn⟩
  | other call hrunner =>
    refine h.goto_open (hopen rfl) rfl ?_
    rintro n rfl
    exact absurd (h.isRunner_of_calls hat) hrunner
  | running hstate =>
    refine h.goto_locked hat rfl rfl rfl rfl rfl rfl rfl (fun _ => id) h.ended ?_
    exact ⟨nofun, nofun, fun _ => (h.holder hat rfl).unclaimed rfl, nofun⟩
  | vacant call hhandle =>
    exact h.goto_locked hat rfl (by cases call <;> rfl) rfl rfl rfl rfl rfl (fun _ => id)
      h.ended ((h.holder hat rfl).joined hhandle rfl rfl)
  | crash hnul => exact absurd hnul hname

/-- Making a thread for a new run keeps the invariant. -/
theorem Inv.spawn (h : Inv c s) (hat : s.calls t = some .spawn) :
    Inv c ({ s with
      stages := s.stages ++ [Stage.spawned]
      handle? := some s.stages.length }.goto t (.unlock (.started .accepted))) := by
  have hguards := h.holder hat rfl
  have hnone := hguards.vacant rfl
  have hrunning := (hguards.claimed rfl).1
  have hlock := h.locked t _ hat rfl
  constructor
  case handle =>
    intro n hn
    obtain rfl := Option.some.inj hn
    change s.stages.length + 1 = (s.stages ++ [Stage.spawned]).length
    simp
  case ended =>
    intro n stage hstage hne
    rcases stage_snoc_cases hstage with ⟨-, hold⟩ | ⟨rfl, -⟩
    · exact h.ended n stage hold (by rw [hnone]; exact nofun)
    · exact absurd rfl hne
  case runner =>
    intro n stage hstage hn hne
    obtain rfl := Option.some.inj hn
    rcases stage_snoc_cases hstage with ⟨hlt, -⟩ | ⟨-, rfl⟩
    · exact absurd hlt (Nat.lt_irrefl _)
    · exact absurd rfl hne
  case calling =>
    intro n q hq
    rw [goto_calls] at hq
    split at hq
    · next heq => exact absurd (h.calling n .spawn (heq ▸ hat)).1 (by decide)
    · obtain ⟨hopen, hacquire, stage, hstage, hcallback⟩ := h.calling n q hq
      have hlt : n < s.stages.length := (List.getElem?_eq_some_iff.mp hstage).1
      exact ⟨hopen, hacquire, stage, (List.getElem?_append_left hlt).trans hstage, hcallback⟩
  case locked =>
    intro u q hq hlocked
    rw [goto_calls] at hq
    split at hq
    · next heq => exact heq ▸ hlock
    · exact h.locked u q hq hlocked
  case held =>
    intro u hu
    obtain rfl := Option.some.inj (hlock.symm.trans hu)
    have hnew : ∀ s' : Lifecycle, s'.stages = s.stages ++ [Stage.spawned] →
        s.state = s'.lastState := fun s' hs' => hrunning.trans (lastState_append hs').symm
    exact ⟨_, if_pos rfl, rfl, nofun, nofun, fun _ => hnew _ rfl, nofun⟩
  case free =>
    intro hfree
    exact absurd (hlock.symm.trans hfree) nofun
  case finals =>
    intro stage hstage final hfinal
    rcases List.mem_append.mp hstage with hold | hnew
    · exact h.finals stage hold final hfinal
    · obtain rfl := List.mem_singleton.mp hnew
      contradiction
  case heard =>
    change s.heard = (s.stages ++ [Stage.spawned]).flatMap _
    rw [List.flatMap_append, ← h.heard]
    exact (List.append_nil _).symm

/-! ## Steps of runs -/

/-- The thread of a run goes on.  Only publishing its final state changes the state. -/
theorem Inv.advance (h : Inv c s) (hat : s.stages[n]? = some stage)
    (hactive : stage.isEnded = false) (hcalls : s'.calls = s.calls) (hlock : s'.lock? = s.lock?)
    (hhandle : s'.handle? = s.handle?) (hcancelled : s'.cancelled = s.cancelled)
    (hstages : s'.stages = s.stages.set n stage') (hrunner : s'.runner? = some n)
    (hstate : s'.state = s.state ∧ stage'.state = stage.state ∨
      stage.state = .running ∧ s'.state = stage'.state)
    (htold : ∃ more, stage'.told = stage.told ++ more ∧
      s'.heard = s.heard ++ more.map c.status)
    (hfinal : ∀ final, stage'.final? = some final → final.1 ≠ .running)
    (hcalling : s.calls (.runner n) = none ∨ stage'.inCallback = true) : Inv c s' := by
  obtain ⟨hlast, front, hfront, hlength⟩ := h.last hat hactive
  have hset : s'.stages = front ++ [stage'] := by
    rw [hstages, hfront, ← hlength]
    simp
  have hbefore : s.lastState = stage.state := lastState_append hfront
  have hafter : s'.lastState = stage'.state := lastState_append hset
  have hfollows : s.state = s.lastState → s'.state = s'.lastState := by
    rw [hbefore, hafter]
    rcases hstate with ⟨hkept, hsame⟩ | ⟨-, hnew⟩
    · rw [hkept, hsame]
      exact id
    · exact fun _ => hnew
  constructor
  case handle =>
    intro m hm
    rw [hstages, List.length_set]
    exact h.handle m (hhandle ▸ hm)
  case ended =>
    intro m x hx hne
    rcases stage_set_cases (hstages ▸ hx) with ⟨rfl, -⟩ | ⟨-, hold⟩
    · exact absurd (hhandle.trans hlast) hne
    · exact h.ended m x hold (hhandle ▸ hne)
  case runner =>
    intro m x _ hm _
    obtain rfl := Option.some.inj (hlast.symm.trans (hhandle ▸ hm))
    exact hrunner
  case calling =>
    intro m q hq
    rw [hcalls] at hq
    obtain ⟨hopen, hacquire, x, hx, hcallback⟩ := h.calling m q hq
    refine ⟨hopen, hacquire, ?_⟩
    by_cases hm : m = n
    · subst hm
      have hlt : m < s.stages.length := (List.getElem?_eq_some_iff.mp hat).1
      refine ⟨stage', by rw [hstages, List.getElem?_set_self hlt], ?_⟩
      exact hcalling.resolve_left (by rw [hq]; exact nofun)
    · exact ⟨x, by rw [hstages, List.getElem?_set_ne (Ne.symm hm), hx], hcallback⟩
  case locked =>
    intro u q hq hlocked
    exact hlock.trans (h.locked u q (hcalls ▸ hq) hlocked)
  case held =>
    intro u hu
    obtain ⟨q, hq, hlocked, hguards⟩ := h.held u (hlock ▸ hu)
    refine ⟨q, hcalls ▸ hq, hlocked, fun hvacant => hhandle.trans (hguards.vacant hvacant),
      fun hclaimed => ?_, fun hclaimed => hfollows (hguards.unclaimed hclaimed),
      fun hq => hcancelled.trans (hguards.raised hq)⟩
    -- a start claims the state only after the last run has published its own
    obtain ⟨hrunning, hpublished⟩ := hguards.claimed hclaimed
    rw [hbefore] at hpublished
    rw [hafter]
    rcases hstate with ⟨hkept, hsame⟩ | ⟨hrunning', -⟩
    · exact ⟨hkept.trans hrunning, hsame ▸ hpublished⟩
    · exact absurd hrunning' hpublished
  case free => exact fun hnone => hfollows (h.free (hlock ▸ hnone))
  case finals =>
    intro x hx final hfinal'
    rw [hset, List.mem_append, List.mem_singleton] at hx
    rcases hx with hold | rfl
    · exact h.finals x (hfront ▸ List.mem_append_left _ hold) final hfinal'
    · exact hfinal final hfinal'
  case heard =>
    obtain ⟨more, hmore, hheard⟩ := htold
    rw [hheard, h.heard, hset, hfront, List.flatMap_append, List.flatMap_append,
      List.append_assoc]
    simp [hmore]

/-- Outside of its callbacks a run makes no call. -/
theorem Inv.idle (h : Inv c s) (hat : s.stages[n]? = some stage)
    (hcallback : stage.inCallback = false) : s.calls (.runner n) = none := by
  cases hcall : s.calls (.runner n) with
  | none => rfl
  | some p =>
    obtain ⟨-, -, stage', hat', hcallback'⟩ := h.calling n p hcall
    obtain rfl := Option.some.inj (hat.symm.trans hat')
    rw [hcallback] at hcallback'
    contradiction

/-- A final state is not running. -/
theorem Inv.final (h : Inv c s) (hat : s.stages[n]? = some stage) {final : JobState × String}
    (hfinal : stage.final? = some final) : final.1 ≠ .running :=
  h.finals stage (List.mem_of_getElem? hat) final hfinal

/-- From its first step to its end a run is the registered runner. -/
theorem Inv.registered (h : Inv c s) (hat : s.stages[n]? = some stage)
    (hactive : stage.isEnded = false) (hspawned : stage ≠ .spawned) : s.runner? = some n :=
  h.runner n stage hat (h.last hat hactive).1 hspawned

/-- A stop raises the flag for the first time. -/
theorem Inv.request (h : Inv c s) (hat : s.calls t = some (.enter .stop)) :
    Inv c ({ s with cancelled := true }.goto t (.identify .stop)) := by
  have hraised : Inv c { s with cancelled := true } :=
    { handle := h.handle, ended := h.ended, runner := h.runner, calling := h.calling
      locked := h.locked, free := h.free, finals := h.finals, heard := h.heard
      held := fun u hu => by
        obtain ⟨p, hp, hlocked, hguards⟩ := h.held u hu
        exact ⟨p, hp, hlocked, hguards.vacant, hguards.claimed, hguards.unclaimed, fun _ => rfl⟩ }
  refine hraised.goto_open ?_ rfl ?_
  · rintro p hp
    obtain rfl := Option.some.inj (hat.symm.trans hp)
    rfl
  · rintro n rfl
    exact ⟨nofun, (h.calling n _ hat).2.2⟩

/-- A transfer never ends as running. -/
theorem not_running_verdict (outcome : Except DownloadError Outcome) :
    (Job.verdict outcome).1 ≠ .running := by
  rcases outcome with e | ⟨_⟩ | _ | _ <;> exact nofun

/-! ## All steps -/

/-- Every step of a call keeps the invariant. -/
theorem CallStep.inv (hname : '\x00' ∉ c.fileName.toList) (h : Inv c s)
    (hat : s.calls t = p?) (hstep : CallStep c s t p? s') : Inv c s' := by
  cases hstep with
  | enter call hmay =>
    refine h.goto_open (fun p hp => absurd (hat.symm.trans hp) nofun) rfl ?_
    rintro n rfl
    exact ⟨nofun, hmay⟩
  | move hmoves => exact h.move hname hat hmoves
  | raise hraises =>
    cases hraises with
    | enter => exact h.request hat
    | again =>
      refine h.goto_locked hat rfl rfl rfl rfl rfl rfl rfl (fun _ => id) h.ended ?_
      exact ⟨nofun, nofun, fun _ => (h.holder hat rfl).unclaimed rfl, fun _ => rfl⟩
  | acquire call hfree => exact h.acquire hat hfree
  | claim hstate =>
    refine h.goto_locked hat rfl rfl rfl rfl rfl rfl rfl (fun _ => id) h.ended ?_
    have hlast := (h.holder hat rfl).unclaimed rfl
    exact ⟨nofun, fun _ => ⟨rfl, hlast ▸ hstate⟩, nofun, nofun⟩
  | join call n final hhandle hended =>
    refine h.goto_locked hat rfl (by cases call <;> rfl) rfl rfl rfl rfl rfl nofun ?_
      ((h.holder hat rfl).joined rfl rfl rfl)
    intro m stage hstage _
    by_cases hm : m = n
    · subst hm
      obtain rfl := Option.some.inj (hended.symm.trans hstage)
      rfl
    · exact h.ended m stage hstage fun heq => hm (Option.some.inj (heq.symm.trans hhandle))
  | clear =>
    exact h.goto_locked hat rfl rfl rfl rfl rfl rfl rfl (fun _ => id) h.ended
      ((h.holder hat rfl).proceed rfl rfl rfl rfl rfl rfl)
  | reset =>
    exact h.goto_locked hat rfl rfl rfl rfl rfl rfl rfl (fun _ => id) h.ended
      ((h.holder hat rfl).proceed rfl rfl rfl rfl rfl rfl)
  | forget =>
    exact h.goto_locked hat rfl rfl rfl rfl rfl rfl rfl (fun _ => id) h.ended
      ((h.holder hat rfl).proceed rfl rfl rfl rfl rfl rfl)
  | spawn _ => exact h.spawn hat
  | unlock result => exact h.unlock hat
  | leave result => exact h.leave hat

/-- So does every step of a run. -/
theorem RunStep.inv (h : Inv c s) (hstep : RunStep c s n s') : Inv c s' := by
  cases hstep with
  | begin hat =>
    exact h.advance hat rfl rfl rfl rfl rfl rfl rfl (Or.inl ⟨rfl, rfl⟩)
      ⟨[], rfl, (List.append_nil _).symm⟩ nofun (Or.inl (h.idle hat rfl))
  | announce hat =>
    exact h.advance hat rfl rfl rfl rfl rfl rfl (h.registered hat rfl nofun) (Or.inl ⟨rfl, rfl⟩)
      ⟨[(.running, "")], rfl, rfl⟩ nofun (Or.inr rfl)
  | answer stage stage' answer hat hanswered hidle =>
    cases stage with
    | announcing =>
      obtain rfl := Option.some.inj hanswered
      exact h.advance hat rfl rfl rfl rfl rfl rfl (h.registered hat rfl nofun)
        (Or.inl ⟨rfl, rfl⟩) ⟨[], rfl, (List.append_nil _).symm⟩ nofun (Or.inl hidle)
    | reporting =>
      obtain rfl := Option.some.inj hanswered
      exact h.advance hat rfl rfl rfl rfl rfl rfl (h.registered hat rfl nofun)
        (Or.inl ⟨rfl, rfl⟩) ⟨[], rfl, (List.append_nil _).symm⟩ nofun (Or.inl hidle)
    | telling final =>
      obtain rfl := Option.some.inj hanswered
      exact h.advance hat rfl rfl rfl rfl rfl rfl (h.registered hat rfl nofun)
        (Or.inl ⟨rfl, rfl⟩) ⟨[], rfl, (List.append_nil _).symm⟩ (fun _ => h.final hat)
        (Or.inl hidle)
    | _ => contradiction
  | report progress hat =>
    exact h.advance hat rfl rfl rfl rfl rfl rfl (h.registered hat rfl nofun) (Or.inl ⟨rfl, rfl⟩)
      ⟨[], rfl, (List.append_nil _).symm⟩ nofun (Or.inr rfl)
  | settle world hat hstop =>
    refine h.advance hat rfl rfl rfl rfl rfl rfl (h.registered hat rfl nofun)
      (Or.inl ⟨rfl, rfl⟩) ⟨[], rfl, (List.append_nil _).symm⟩ ?_ (Or.inl (h.idle hat rfl))
    rintro final hfinal
    obtain rfl := Option.some.inj hfinal
    exact not_running_verdict _
  | publish final hat =>
    exact h.advance hat rfl rfl rfl rfl rfl rfl (h.registered hat rfl nofun) (Or.inr ⟨rfl, rfl⟩)
      ⟨[], rfl, (List.append_nil _).symm⟩ (fun _ => h.final hat) (Or.inl (h.idle hat rfl))
  | tell final hat =>
    exact h.advance hat rfl rfl rfl rfl rfl rfl (h.registered hat rfl nofun) (Or.inl ⟨rfl, rfl⟩)
      ⟨[final], rfl, rfl⟩ (fun _ => h.final hat) (Or.inr rfl)

/-- So does every step. -/
theorem step_inv (hname : '\x00' ∉ c.fileName.toList) (h : Inv c s) (hstep : Step c s s') :
    Inv c s' := by
  cases hstep with
  | call t hcall => exact hcall.inv hname h rfl
  | run n hrun => exact hrun.inv h

/-- A new job has no calls and no runs to disagree. -/
theorem new_inv : Inv c (new files) where
  handle := nofun
  ended := nofun
  runner := nofun
  calling := nofun
  locked := nofun
  held := nofun
  free _ := rfl
  finals := nofun
  heard := rfl

/-- Any number of steps keep the invariant. -/
theorem Steps.inv (hname : '\x00' ∉ c.fileName.toList) (h : Inv c s) (hsteps : Steps c s s') :
    Inv c s' := by
  induction hsteps with
  | refl => exact h
  | step _ hstep ih => exact step_inv hname ih hstep

/-- The invariant holds of every job there can be. -/
theorem Reachable.inv (hname : '\x00' ∉ c.fileName.toList) (h : Reachable c files s) : Inv c s :=
  Steps.inv hname new_inv h

/-! ## What steps change -/

theorem Steps.single (hstep : Step c s s') : Steps c s s' := .step .refl hstep

theorem Steps.trans (h : Steps c s s') (h' : Steps c s' s'') : Steps c s s'' := by
  induction h' with
  | refl => exact h
  | step _ hstep ih => exact ih.step hstep

theorem Reachable.step (h : Reachable c files s) (hstep : Step c s s') : Reachable c files s' :=
  Steps.step h hstep

theorem goto_calls_self (s : Lifecycle) (t : Thread) (p : Point) :
    (s.goto t p).calls t = some p := if_pos rfl

theorem drop_calls_self (s : Lifecycle) (t : Thread) : (s.drop t).calls t = none := if_pos rfl

/-- A call moves on only by steps of its thread. -/
theorem CallStep.others {u : Thread} (h : CallStep c s t p? s') (hne : u ≠ t) :
    s'.calls u = s.calls u := by
  cases h <;> exact if_neg hne

/-- A step of a call that is at a point. -/
theorem Step.of_call (hat : s.calls t = p?) (h : CallStep c s t p? s') : Step c s s' :=
  .call t (hat ▸ h)

/-- A run does not change the calls of the job. -/
theorem RunStep.calls (h : RunStep c s n s') : s'.calls = s.calls := by
  cases h <;> rfl

/-- Only a start that is accepted makes a thread for a run. -/
theorem CallStep.stages (h : CallStep c s t p? s') :
    s'.stages = s.stages ∧ s'.calls t ≠ some (.unlock (.started .accepted)) ∨
      p? = some .spawn ∧ s'.calls t = some (.unlock (.started .accepted)) ∧
        s'.stages = s.stages ++ [.spawned] := by
  have hto : ∀ {s : Lifecycle} {p}, p ≠ .unlock (.started .accepted) →
      (s.goto t p).calls t ≠ some (.unlock (.started .accepted)) :=
    fun hne heq => hne (Option.some.inj ((goto_calls_self _ t _).symm.trans heq))
  cases h with
  | spawn _ => exact Or.inr ⟨rfl, goto_calls_self _ t _, rfl⟩
  | move hmoves =>
    refine Or.inl ⟨rfl, hto ?_⟩
    cases hmoves with
    | vacant call _ => cases call <;> exact nofun
    | _ => exact nofun
  | raise hraises => exact Or.inl ⟨rfl, hto (by cases hraises <;> exact nofun)⟩
  | acquire call _ => exact Or.inl ⟨rfl, hto (by cases call <;> exact nofun)⟩
  | join call _ _ _ _ => exact Or.inl ⟨rfl, hto (by cases call <;> exact nofun)⟩
  | unlock _ => exact Or.inl ⟨rfl, fun heq => absurd ((drop_calls_self _ t).symm.trans heq) nofun⟩
  | leave _ => exact Or.inl ⟨rfl, fun heq => absurd ((drop_calls_self _ t).symm.trans heq) nofun⟩
  | _ => exact Or.inl ⟨rfl, hto nofun⟩

/-- A start that has changed the state lowers the flag and makes a thread. -/
theorem CallStep.claimed (hname : '\x00' ∉ c.fileName.toList) (h : CallStep c s t (some p) s')
    (hclaimed : p.isClaimed = true) :
    ∃ p', p.next? = some p' ∧ s'.calls t = some p' ∧ (p = .clear → s'.cancelled = false) ∧
      (p ≠ .spawn → s'.stages = s.stages) := by
  cases h with
  | move hmoves =>
    cases hmoves with
    | vacant call _ =>
      cases call with
      | start => exact ⟨.clear, rfl, goto_calls_self s t _, nofun, fun _ => rfl⟩
      | _ => contradiction
    | crash hnul => exact absurd hnul hname
    | _ => contradiction
  | raise hraises => cases hraises <;> contradiction
  | join call n final _ _ =>
    cases call with
    | start => exact ⟨.clear, rfl, goto_calls_self _ t _, nofun, fun _ => rfl⟩
    | _ => contradiction
  | clear => exact ⟨.reset, rfl, goto_calls_self _ t _, fun _ => rfl, fun _ => rfl⟩
  | reset => exact ⟨.forget, rfl, goto_calls_self _ t _, nofun, fun _ => rfl⟩
  | forget => exact ⟨.spawn, rfl, goto_calls_self _ t _, nofun, fun _ => rfl⟩
  | spawn _ => exact ⟨_, rfl, goto_calls_self _ t _, nofun, fun hne => absurd rfl hne⟩
  | _ => contradiction

/-- The thread of a run goes on from a stage that is not the last one.  It keeps the final
state that it has. -/
theorem RunStep.stages (h : RunStep c s n s') :
    ∃ stage stage', s.stages[n]? = some stage ∧ s'.stages = s.stages.set n stage' ∧
      stage.isEnded = false ∧
      (∀ final, stage.final? = some final → stage'.final? = some final) ∧
      (∀ final, stage.published? = some final → stage'.published? = some final) := by
  cases h with
  | begin hat => exact ⟨_, _, hat, rfl, rfl, nofun, nofun⟩
  | announce hat => exact ⟨_, _, hat, rfl, rfl, nofun, nofun⟩
  | answer stage stage' answer hat hanswered hidle =>
    cases stage with
    | announcing => exact ⟨_, _, hat, rfl, rfl, nofun, nofun⟩
    | reporting => exact ⟨_, _, hat, rfl, rfl, nofun, nofun⟩
    | telling final =>
      obtain rfl := Option.some.inj hanswered
      exact ⟨_, _, hat, rfl, rfl, fun _ => id, fun _ => id⟩
    | _ => contradiction
  | report progress hat => exact ⟨_, _, hat, rfl, rfl, nofun, nofun⟩
  | settle world hat _ => exact ⟨_, _, hat, rfl, rfl, nofun, nofun⟩
  | publish final hat => exact ⟨_, _, hat, rfl, rfl, fun _ => id, nofun⟩
  | tell final hat => exact ⟨_, _, hat, rfl, rfl, fun _ => id, fun _ => id⟩

end Lifecycle

end SegmentedDownload
