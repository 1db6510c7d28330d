import SegmentedDownload.Proofs.Stopping
import SegmentedDownload.Proofs.Undisturbed

/-!
# SegmentedDownload.Proofs.Orderly

The order that a job keeps, whatever its threads do and however they take turns.

`Orderly` says it field by field, `lifecycle_orderly` that it holds: of every configuration
whose file name can be part of the name of a thread, whatever files there are, whatever the
world does to the runs, and whatever the callbacks answer or call.  What is said of a start, a
stop or a wait is said of each of its steps, because other threads take theirs in between.
-/

namespace SegmentedDownload

namespace Point

/-- Points of a call of `start`. -/
def isStart : Point → Bool
  | enter .start | identify .start | acquire .start | join .start => true
  | claim | clear | reset | forget | spawn => true
  | unlock (.started _) | leave (.started _) => true
  | _ => false

/-- What a start comes back with, once that is decided. -/
def answer? : Point → Option StartResult
  | join .start | clear | reset | forget | spawn => some .accepted
  | unlock (.started result) | leave (.started result) => some result
  | _ => none

/-- What is certain of a thread whose call has come to a point. -/
def Justified (c : Config) (t : Thread) : Point → Prop
  | identify .start | acquire .start | claim => c.validate = .ok ()
  | leave .done => ∃ n, t = .runner n
  | _ => True

end Point

namespace Lifecycle

/-- The run has a thread that has not ended. -/
def IsActive (s : Lifecycle) (n : Nat) : Prop :=
  ∃ stage, s.stages[n]? = some stage ∧ stage.isEnded = false

/-- A start that a thread has made deserves its answer. -/
structure Deserves (c : Config) (s : Lifecycle) (t : Thread) (result : StartResult) : Prop where
  config : ∀ cause, result = .refused (.config cause) ↔ c.validate = .error cause
  alreadyRunning : result = .refused .alreadyRunning ↔
    c.validate = .ok () ∧ (s.IsRunner t ∨ s.state = .running)
  accepted : result = .accepted ↔
    c.validate = .ok () ∧ ¬ s.IsRunner t ∧ s.state ≠ .running

/-- The order that a job keeps. -/
structure Orderly (c : Config) (files : FileSystem) : Prop where
  /-- At most one run is active. -/
  alone : ∀ {s m n}, Reachable c files s → s.IsActive m → s.IsActive n → m = n
  /-- A run can go on to its end. -/
  concludes : ∀ {s n}, Reachable c files s → s.IsActive n →
    ∃ s', Steps c s s' ∧ ∃ final, s'.stages[n]? = some (.ended final)
  /-- A call can return. -/
  returns : ∀ {s} t, Reachable c files s → ∃ s', Steps c s s' ∧ s'.calls t = none
  /-- The step of a start that decides on its answer decides on the right one. -/
  decides : ∀ {s s' t p p' result}, Reachable c files s → s.calls t = some p →
    CallStep c s t (some p) s' → p.isStart = true → p.answer? = none →
    s'.calls t = some p' → p'.answer? = some result → Deserves c s t result
  /-- A start that is decided on comes back with its answer. -/
  answers : ∀ {s s' t p result}, Reachable c files s → s.calls t = some p →
    CallStep c s t (some p) s' → p.answer? = some result →
    (∃ p', s'.calls t = some p' ∧ p'.answer? = some result) ∨
      s'.calls t = none ∧ (p = .unlock (.started result) ∨ p = .leave (.started result))
  /-- A start that is not accepted changes nothing. -/
  rejects : ∀ {s s' t}, Reachable c files s → CallStep c s t (s.calls t) s' →
    (∀ p', s'.calls t = some p' → p'.isStart = true ∧ p'.answer? ≠ some .accepted) →
    s'.state = s.state ∧ s'.progress = s.progress ∧ s'.cancelled = s.cancelled ∧
      s'.output? = s.output?
  /-- A start that is accepted makes one run. -/
  begins : ∀ {s s' t}, Reachable c files s → CallStep c s t (s.calls t) s' →
    s'.calls t = some (.unlock (.started .accepted)) → s'.stages = s.stages ++ [.spawned]
  /-- Nothing else makes runs. -/
  accepted : ∀ {s s'}, Reachable c files s → Step c s s' → s'.stages.length ≠ s.stages.length →
    ∃ t, s.calls t = some .spawn ∧ s'.calls t = some (.unlock (.started .accepted))
  /-- The observer hears of every run, one after the other, that it is running, and then of its
  final state. -/
  hears : ∀ {s}, Reachable c files s →
    s.heard = s.stages.flatMap fun stage => stage.told.map c.status
  /-- A final state is one of three. -/
  finals : ∀ {s} {n : Nat} {stage : Stage} {final : JobState × String}, Reachable c files s →
    s.stages[n]? = some stage → stage.final? = some final →
    final.1 = .ready ∨ final.1 = .finished ∨ final.1 = .failed
  /-- The final state of a run is that of the job until another start is accepted. -/
  lasts : ∀ {s s'} {n : Nat} {stage : Stage} {final : JobState × String}, Reachable c files s →
    Steps c s s' → s.stages[n]? = some stage → stage.published? = some final →
    s'.stages.length = n + 1 →
    s'.state = final.1 ∨
      ∃ t p, s'.calls t = some p ∧ p.answer? = some .accepted ∧ s'.state = .running
  /-- When a stop or a wait returns that is not on the runner, no run is left. -/
  ends : ∀ {s s' t p}, Reachable c files s → s.calls t = some p → CallStep c s t (some p) s' →
    p.isStart = false → s'.calls t = none → ¬ s.IsRunner t →
    s'.state ≠ .running ∧ ∀ n, ¬ s'.IsActive n
  /-- A stop or a wait leaves the job as it is, but for the flag that a stop raises. -/
  leaves : ∀ {s s' t}, Reachable c files s → CallStep c s t (s.calls t) s' →
    (∀ p', s'.calls t = some p' → p'.isStart = false) →
    s'.state = s.state ∧ s'.progress = s.progress ∧ s'.output? = s.output? ∧
      s'.stages = s.stages ∧ (s'.cancelled = s.cancelled ∨ s'.cancelled = true)
  /-- While a stop waits for a run, the flag is up. -/
  raised : ∀ {s t}, Reachable c files s → s.calls t = some (.join .stop) → s.cancelled = true
  /-- A run ends as stopped only if a call of `stop` raised the flag in one of the steps that led
  there, after the run was accepted and had the flag lowered. -/
  stopped : ∀ {s s' t path} {stage : Stage} {final : JobState × String}, Reachable c files s →
    s.calls t = some (.join .start) → Trace c s path s' →
    s'.stages[s.stages.length]? = some stage → stage.final? = some final →
    final.1 = .ready → Raised c path
  /-- A call that nobody disturbs does what `Job` says. -/
  undisturbed : ∀ {s j files' id world}, Reachable c files s →
    Makes c j files' (.caller id) none s →
    Comes c s (.caller id) .start (.started (j.start .other).2) (j.start .other).1 files' ∧
      Comes c s (.caller id) .stop .done (j.stop .other files' world).1
        (j.stop .other files' world).2 ∧
      ((world.HearsStop → j.cancelled = true) →
        Comes c s (.caller id) .wait .done (j.wait .other files' world).1
          (j.wait .other files' world).2)
  /-- So does a call from a callback. -/
  reenters : ∀ {s j files' n world}, Reachable c files s →
    Makes c j files' (.runner n) none s → s.MayCall (.runner n) →
    Comes c s (.runner n) .start (.started (j.start .runner).2) (j.start .runner).1 files' ∧
      Comes c s (.runner n) .stop .done (j.stop .runner files' world).1
        (j.stop .runner files' world).2 ∧
      Comes c s (.runner n) .wait .done (j.wait .runner files' world).1
        (j.wait .runner files' world).2

variable {c : Config} {files : FileSystem} {s s' s'' : Lifecycle} {t u : Thread} {p p' : Point}
  {p? : Option Point} {n : Nat} {stage stage' : Stage} {result : StartResult}

/-! ## Starts -/

theorem goto_eq (h : (s.goto t p).calls t = some p') : p = p' :=
  Option.some.inj ((goto_calls_self s t p).symm.trans h)

theorem drop_ne (h : (s.drop t).calls t = some p) : False :=
  Option.some_ne_none p (h.symm.trans (drop_calls_self s t))

/-- Each step of a call keeps what its point says to be certain. -/
theorem CallStep.justified (h : CallStep c s t p? s')
    (hbefore : ∀ p, p? = some p → p.Justified c t) (hat : s'.calls t = some p) :
    p.Justified c t := by
  cases h with
  | enter call _ =>
    obtain rfl := goto_eq hat
    trivial
  | move hmoves =>
    obtain rfl := goto_eq hat
    cases hmoves with
    | valid hvalid => exact hvalid
    | own call hrunner =>
      obtain ⟨n, -, rfl⟩ := hrunner
      cases call with
      | start => trivial
      | stop | wait => exact ⟨n, rfl⟩
    | other call _ =>
      cases call with
      | start => exact hbefore (.identify .start) rfl
      | stop | wait => trivial
    | vacant call _ => cases call <;> trivial
    | _ => trivial
  | raise hraises =>
    obtain rfl := goto_eq hat
    cases hraises <;> trivial
  | acquire call _ =>
    obtain rfl := goto_eq hat
    cases call with
    | start => exact hbefore (.acquire .start) rfl
    | stop | wait => trivial
  | join call _ _ _ _ =>
    obtain rfl := goto_eq hat
    cases call <;> trivial
  | unlock _ | leave _ => exact (drop_ne hat).elim
  | _ =>
    obtain rfl := goto_eq hat
    trivial

/-- What a point says to be certain is so, as only the call itself can change its point. -/
theorem Reachable.justified (h : Reachable c files s) :
    ∀ t p, s.calls t = some p → p.Justified c t := by
  induction h with
  | refl => exact nofun
  | step _ hstep ih =>
    intro t p hat
    cases hstep with
    | run n hrun => exact ih t p (hrun.calls ▸ hat)
    | call u hcall =>
      by_cases hu : t = u
      · subst hu
        exact hcall.justified (ih t) hat
      · exact ih t p ((hcall.others hu).symm.trans hat)

/-- A thread with the mutex is not the runner. -/
theorem Inv.not_isRunner (h : Inv c s) (hat : s.calls t = some p) (hlocked : p.isLocked = true) :
    ¬ s.IsRunner t := by
  rintro ⟨n, -, rfl⟩
  rw [(h.calling n p hat).1] at hlocked
  contradiction

/-- A configuration that is not valid is refused for its first fault. -/
theorem deserves_config {cause : ConfigError} (h : c.validate = .error cause) :
    Deserves c s t (.refused (.config cause)) := by
  constructor
  case config => intro cause'; rw [h]; simp
  all_goals simp [h]

/-- A start on the runner, or of a job that runs, deserves to be refused. -/
theorem deserves_alreadyRunning (hvalid : c.validate = .ok ())
    (h : s.IsRunner t ∨ s.state = .running) : Deserves c s t (.refused .alreadyRunning) := by
  constructor
  case config => simp [hvalid]
  case alreadyRunning => simp [hvalid, h]
  case accepted =>
    simp only [reduceCtorEq, false_iff]
    rintro ⟨-, hrunner, hstate⟩
    exact h.elim hrunner hstate

/-- Any other start with a valid configuration deserves to be accepted. -/
theorem deserves_accepted (hvalid : c.validate = .ok ()) (hrunner : ¬ s.IsRunner t)
    (hstate : s.state ≠ .running) : Deserves c s t .accepted := by
  constructor
  case config => simp [hvalid]
  case alreadyRunning => simp [hvalid, hrunner, hstate]
  case accepted => simp [hvalid, hrunner, hstate]

/-- The step that decides on a start decides on the answer that it deserves. -/
theorem CallStep.decides (hinv : Inv c s) (hjustified : p.Justified c t)
    (hat : s.calls t = some p) (h : CallStep c s t (some p) s') (hstart : p.isStart = true)
    (hopen : p.answer? = none) (hat' : s'.calls t = some p') (hanswer : p'.answer? = some result) :
    Deserves c s t result := by
  cases h with
  | move hmoves =>
    obtain rfl := goto_eq hat'
    cases hmoves with
    | invalid cause hinvalid =>
      obtain rfl := Option.some.inj hanswer
      exact deserves_config hinvalid
    | own call hrunner =>
      cases call with
      | start =>
        obtain rfl := Option.some.inj hanswer
        exact deserves_alreadyRunning hjustified (Or.inl hrunner)
      | _ => contradiction
    | running hstate =>
      obtain rfl := Option.some.inj hanswer
      exact deserves_alreadyRunning hjustified (Or.inr hstate)
    | vacant call _ => cases call <;> contradiction
    | _ => contradiction
  | raise hraises => cases hraises <;> contradiction
  | acquire call _ =>
    obtain rfl := goto_eq hat'
    cases call <;> contradiction
  | claim hstate =>
    obtain rfl := goto_eq hat'
    obtain rfl := Option.some.inj hanswer
    exact deserves_accepted hjustified (hinv.not_isRunner hat rfl) hstate
  | join call _ _ _ _ => cases call <;> contradiction
  | unlock _ | leave _ => exact (drop_ne hat').elim
  | _ => contradiction

/-- A start that is decided on has changed the state, or is about to return. -/
theorem answer?_cases (h : p.answer? = some result) :
    p.isClaimed = true ∧ result = .accepted ∨ p = .unlock (.started result) ∨
      p = .leave (.started result) := by
  cases p with
  | join call =>
    cases call with
    | start => exact Or.inl ⟨rfl, (Option.some.inj h).symm⟩
    | _ => contradiction
  | clear | reset | forget | spawn => exact Or.inl ⟨rfl, (Option.some.inj h).symm⟩
  | unlock r | leave r =>
    cases r with
    | started _ =>
      obtain rfl := Option.some.inj h
      simp
    | done => contradiction
  | _ => contradiction

/-- A start that has changed the state is accepted, and stays so. -/
theorem answer?_next (hclaimed : p.isClaimed = true) (hnext : p.next? = some p') :
    p'.answer? = some .accepted := by
  cases p with
  | join call =>
    cases call with
    | start =>
      obtain rfl := Option.some.inj hnext
      rfl
    | _ => contradiction
  | clear | reset | forget | spawn =>
    obtain rfl := Option.some.inj hnext
    rfl
  | _ => contradiction

/-- An answer does not change until the start returns with it. -/
theorem CallStep.answers (hname : '\x00' ∉ c.fileName.toList) (h : CallStep c s t (some p) s')
    (hanswer : p.answer? = some result) :
    (∃ p', s'.calls t = some p' ∧ p'.answer? = some result) ∨
      s'.calls t = none ∧ (p = .unlock (.started result) ∨ p = .leave (.started result)) := by
  rcases answer?_cases hanswer with ⟨hclaimed, rfl⟩ | rfl | rfl
  · obtain ⟨p', hnext, hat', -⟩ := h.claimed hname hclaimed
    exact Or.inl ⟨p', hat', answer?_next hclaimed hnext⟩
  · cases h with
    | unlock _ => exact Or.inr ⟨drop_calls_self _ t, Or.inl rfl⟩
    | move hmoves => contradiction
    | raise hraises => contradiction
  · cases h with
    | leave _ => exact Or.inr ⟨drop_calls_self _ t, Or.inr rfl⟩
    | move hmoves => contradiction
    | raise hraises => contradiction

/-- Only behind its decision does a start change anything. -/
theorem CallStep.rejects (h : CallStep c s t p? s')
    (hrejected : ∀ p', s'.calls t = some p' → p'.isStart = true ∧ p'.answer? ≠ some .accepted) :
    s'.state = s.state ∧ s'.progress = s.progress ∧ s'.cancelled = s.cancelled ∧
      s'.output? = s.output? := by
  cases h with
  | raise hraises =>
    have hstart := (hrejected _ (goto_calls_self _ t _)).1
    cases hraises <;> contradiction
  | claim _ | clear | reset | forget =>
    exact absurd rfl (hrejected _ (goto_calls_self _ t _)).2
  | _ => exact ⟨rfl, rfl, rfl, rfl⟩

/-! ## Stops and waits -/

/-- A stop or a wait raises the flag, or changes nothing. -/
theorem CallStep.leaves (h : CallStep c s t p? s')
    (hother : ∀ p', s'.calls t = some p' → p'.isStart = false) :
    s'.state = s.state ∧ s'.progress = s.progress ∧ s'.output? = s.output? ∧
      s'.stages = s.stages ∧ (s'.cancelled = s.cancelled ∨ s'.cancelled = true) := by
  cases h with
  | raise _ => exact ⟨rfl, rfl, rfl, rfl, Or.inr rfl⟩
  | claim _ | clear | reset | forget | spawn _ =>
    exact absurd (hother _ (goto_calls_self _ t _)) nofun
  | _ => exact ⟨rfl, rfl, rfl, rfl, Or.inl rfl⟩

/-- A job is at rest when nobody is left to wait for. -/
theorem Inv.at_rest (h : Inv c s) (hnone : s.handle? = none) : ∀ n, ¬ s.IsActive n := by
  rintro n ⟨stage, hat, hactive⟩
  rw [(h.last hat hactive).1] at hnone
  contradiction

/-- When nobody is left to wait for, the last run has ended. -/
theorem Inv.lastState_ne (h : Inv c s) (hnone : s.handle? = none) : s.lastState ≠ .running := by
  unfold lastState
  cases hlast : s.stages.getLast? with
  | none => exact nofun
  | some stage =>
    have hmem := List.mem_of_getLast? hlast
    obtain ⟨n, hat⟩ := List.getElem?_of_mem hmem
    have hended := h.ended n stage hat (by rw [hnone]; exact nofun)
    cases stage with
    | ended final => exact h.finals _ hmem final rfl
    | _ => contradiction

/-- A stop or a wait that is not on the runner returns when no run is left. -/
theorem CallStep.ends (hinv : Inv c s) (hjustified : p.Justified c t) (hat : s.calls t = some p)
    (h : CallStep c s t (some p) s') (hother : p.isStart = false) (hreturns : s'.calls t = none)
    (hrunner : ¬ s.IsRunner t) : s'.state ≠ .running ∧ ∀ n, ¬ s'.IsActive n := by
  cases h with
  | unlock result =>
    cases result with
    | started _ => contradiction
    | done =>
      have hguards := hinv.holder hat rfl
      have hnone := hguards.vacant rfl
      have hstate : s.state ≠ .running := hguards.unclaimed rfl ▸ hinv.lastState_ne hnone
      exact ⟨hstate, hinv.at_rest hnone⟩
  | leave result =>
    cases result with
    | started _ => contradiction
    | done =>
      obtain ⟨n, rfl⟩ := hjustified
      exact absurd (hinv.isRunner_of_calls hat) hrunner
  | _ => exact absurd ((goto_calls_self _ t _).symm.trans hreturns) nofun

/-! ## Final states -/

theorem final_cases {state : JobState} (h : state ≠ .running) :
    state = .ready ∨ state = .finished ∨ state = .failed := by
  cases state with
  | ready => exact Or.inl rfl
  | running => contradiction
  | finished => exact Or.inr (Or.inl rfl)
  | failed => exact Or.inr (Or.inr rfl)

/-- A final state that was published stays that of its run. -/
theorem RunStep.published (h : RunStep c s n s') {m : Nat} {final : JobState × String}
    (hat : s.stages[m]? = some stage) (hfinal : stage.published? = some final) :
    ∃ stage', s'.stages[m]? = some stage' ∧ stage'.published? = some final := by
  obtain ⟨before, after, hbefore, hset, -, -, hkept⟩ := h.stages
  by_cases hm : n = m
  · subst hm
    obtain rfl := Option.some.inj (hbefore.symm.trans hat)
    have hlt := (List.getElem?_eq_some_iff.mp hat).1
    exact ⟨after, by rw [hset, List.getElem?_set_self hlt], hkept final hfinal⟩
  · exact ⟨stage, by rw [hset, List.getElem?_set_ne hm, hat], hfinal⟩

theorem Steps.published (h : Steps c s s') {final : JobState × String}
    (hat : s.stages[n]? = some stage) (hfinal : stage.published? = some final) :
    ∃ stage', s'.stages[n]? = some stage' ∧ stage'.published? = some final := by
  induction h with
  | refl => exact ⟨stage, hat, hfinal⟩
  | step _ hstep ih =>
    obtain ⟨before, hbefore, hkept⟩ := ih
    cases hstep with
    | run m hrun => exact hrun.published hbefore hkept
    | call t hcall =>
      refine ⟨before, ?_, hkept⟩
      rcases hcall.stages with ⟨hsame, -⟩ | ⟨-, -, hmore⟩
      · rw [hsame, hbefore]
      · have hlt := (List.getElem?_eq_some_iff.mp hbefore).1
        rw [hmore, List.getElem?_append_left hlt, hbefore]

theorem answer?_of_isClaimed (h : p.isClaimed = true) : p.answer? = some .accepted := by
  cases p with
  | join call =>
    cases call with
    | start => rfl
    | _ => contradiction
  | clear | reset | forget | spawn => rfl
  | _ => contradiction

/-- The state is that of the last run, or a start that was accepted has changed it. -/
theorem Inv.lasts (h : Inv c s) {final : JobState × String} (hat : s.stages[n]? = some stage)
    (hfinal : stage.published? = some final) (hlast : s.stages.length = n + 1) :
    s.state = final.1 ∨
      ∃ t p, s.calls t = some p ∧ p.answer? = some .accepted ∧ s.state = .running := by
  rcases h.state_cases with hstate | ⟨t, p, -, hp, hclaimed, hrunning, -⟩
  · left
    have hstage : s.stages.getLast? = some stage := by
      rw [List.getLast?_eq_getElem?, hlast, Nat.add_sub_cancel, hat]
    rw [hstate, lastState, hstage]
    cases stage with
    | published _ | telling _ | ended _ =>
      obtain rfl := Option.some.inj hfinal
      rfl
    | _ => contradiction
  · exact Or.inr ⟨t, p, hp, answer?_of_isClaimed hclaimed, hrunning⟩

/-! ## The order -/

/-- Whatever its threads do, a job is in order. -/
theorem lifecycle_orderly (hname : '\x00' ∉ c.fileName.toList) : Orderly c files where
  alone h hm hn := by
    obtain ⟨_, hm, hmactive⟩ := hm
    obtain ⟨_, hn, hnactive⟩ := hn
    have hinv := h.inv hname
    exact Option.some.inj ((hinv.last hm hmactive).1.symm.trans (hinv.last hn hnactive).1)
  concludes h hn := by
    obtain ⟨_, hn, -⟩ := hn
    obtain ⟨s', hgoes, hended⟩ := (h.inv hname).concludes hname hn
    exact ⟨s', hgoes.steps, hended⟩
  returns t h := (h.inv hname).returns hname t
  decides h hat hcall hstart hopen hat' hanswer :=
    hcall.decides (h.inv hname) (h.justified _ _ hat) hat hstart hopen hat' hanswer
  answers _ _ hcall hanswer := hcall.answers hname hanswer
  rejects _ hcall hrejected := hcall.rejects hrejected
  begins _ hcall haccepted := by
    rcases hcall.stages with ⟨-, hne⟩ | ⟨-, -, hstages⟩
    · exact absurd haccepted hne
    · exact hstages
  accepted _ hstep hne := by
    cases hstep with
    | run n hrun =>
      obtain ⟨_, _, -, hset, -⟩ := hrun.stages
      rw [hset, List.length_set] at hne
      contradiction
    | call t hcall =>
      rcases hcall.stages with ⟨hsame, -⟩ | ⟨hspawn, hat, -⟩
      · rw [hsame] at hne
        contradiction
      · exact ⟨t, hspawn, hat⟩
  hears h := (h.inv hname).heard
  finals h hat hfinal := final_cases ((h.inv hname).final hat hfinal)
  lasts h hsteps hat hfinal hlast := by
    obtain ⟨_, hat', hfinal'⟩ := hsteps.published hat hfinal
    exact (hsteps.inv hname (h.inv hname)).lasts hat' hfinal' hlast
  ends h hat hcall hother hreturns hrunner :=
    hcall.ends (h.inv hname) (h.justified _ _ hat) hat hother hreturns hrunner
  leaves _ hcall hother := hcall.leaves hother
  raised h hat := ((h.inv hname).holder hat rfl).raised rfl
  stopped h hat htrace hstage hfinal hready :=
    ((h.inv hname).stopped hname hat htrace).resolve_right fun hunstopped =>
      hunstopped.not_ready (Nat.le_refl _) hstage hfinal hready
  undisturbed h hmakes :=
    have hinv := h.inv hname
    ⟨hinv.shows_start hname hmakes, hinv.shows_stop hname hmakes _,
      hinv.shows_wait hname hmakes⟩
  reenters h hmakes hmay := (h.inv hname).shows_own hname hmakes hmay _

/-- One file, under the name that its URL ends in. -/
def plain : Config :=
  { url := "http://h/a.b", directory := ".", baseName := "a", extension := ".b" }

/-- A job for `plain` is in order, and it can run. -/
theorem plain_orderly : '\x00' ∉ plain.fileName.toList ∧ Orderly plain {} ∧
    ∃ s n, Reachable plain {} s ∧ s.IsActive n := by
  have hname : '\x00' ∉ plain.fileName.toList := by decide
  refine ⟨hname, lifecycle_orderly hname, ?_⟩
  have hmakes := new_makes plain {} (.caller 0)
  have hphase : (Job.start { config := plain } .other).1.phase = .accepted := by decide +kernel
  obtain ⟨s₁, s', hsteps, -, hstep, hstarted⟩ := new_inv.shows_start hname hmakes
  have hstands := hstarted.shows.stands
  rw [hphase] at hstands
  obtain ⟨⟨n, hat⟩, -⟩ := hstands
  have hentered : Step plain (new {}) _ := .of_call hmakes.own (.enter .start trivial)
  exact ⟨s', n, ((Steps.single hentered).trans hsteps).step hstep, .spawned, hat, rfl⟩

end Lifecycle

end SegmentedDownload
