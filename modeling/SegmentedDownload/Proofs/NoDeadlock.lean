import SegmentedDownload.Proofs.OneRun

/-!
# SegmentedDownload.Proofs.NoDeadlock

Nothing that happens in a job can get stuck.

* The thread of a run can go on to its end, whatever the other threads do
  (`Inv.concludes`).  It never waits for the mutex: its own calls, made from its callbacks, find
  that they are on the runner and return (`Inv.hang_up`).
* A call that has the mutex waits for the last run at most (`Inv.yields`).
* So every call can return (`Inv.returns`).
-/

namespace SegmentedDownload

namespace Lifecycle

variable {c : Config} {files : FileSystem} {s s' s'' : Lifecycle} {t u : Thread} {p : Point}
  {p? : Option Point} {n : Nat} {stage stage' : Stage}

/-! ## Runs -/

/-- Threads of runs take steps, and no other ones do. -/
structure Goes (c : Config) (s s' : Lifecycle) : Prop where
  steps : Steps c s s'
  lock : s'.lock? = s.lock?
  handle : s'.handle? = s.handle?
  callers : ∀ id, s'.calls (.caller id) = s.calls (.caller id)

theorem Goes.refl : Goes c s s := ⟨.refl, rfl, rfl, fun _ => rfl⟩

theorem Goes.trans (h : Goes c s s') (h' : Goes c s' s'') : Goes c s s'' where
  steps := h.steps.trans h'.steps
  lock := h'.lock.trans h.lock
  handle := h'.handle.trans h.handle
  callers id := (h'.callers id).trans (h.callers id)

/-- A step of a run leaves calls and mutex alone. -/
theorem RunStep.goes (h : RunStep c s n s') : Goes c s s' := by
  refine ⟨.single (.run n h), ?_, ?_, fun id => congrFun h.calls (.caller id)⟩
  · cases h <;> rfl
  · cases h <;> rfl

theorem CallStep.goes (h : CallStep c s (.runner n) (some p) s')
    (hat : s.calls (.runner n) = some p) (hlock : s'.lock? = s.lock?)
    (hhandle : s'.handle? = s.handle?) : Goes c s s' :=
  ⟨.single (.of_call hat h), hlock, hhandle, fun _ => h.others nofun⟩

/-- The call that the runner has made can return. -/
def HangsUp (c : Config) (n : Nat) (s : Lifecycle) : Prop :=
  ∃ s', Goes c s s' ∧ s'.calls (.runner n) = none ∧ s'.stages = s.stages

/-- A call of a runner that hangs up later hangs up. -/
theorem HangsUp.step (h : HangsUp c n s') (hgoes : Goes c s s')
    (hstages : s'.stages = s.stages) : HangsUp c n s := by
  obtain ⟨s'', hmore, hnone, hkept⟩ := h
  exact ⟨s'', hgoes.trans hmore, hnone, hkept.trans hstages⟩

/-- A call that is about to leave hangs up. -/
theorem hangsUp_leave {result : Result} (hat : s.calls (.runner n) = some (.leave result)) :
    HangsUp c n s :=
  ⟨s.drop (.runner n), (CallStep.leave result).goes hat rfl rfl, drop_calls_self _ _, rfl⟩

/-- A call that finds itself on the runner hangs up. -/
theorem hangsUp_identify {call : Call} (hat : s.calls (.runner n) = some (.identify call))
    (hrunner : s.IsRunner (.runner n)) : HangsUp c n s :=
  (hangsUp_leave (goto_calls_self s _ _)).step
    ((CallStep.move (.own call hrunner)).goes hat rfl rfl) rfl

/-- A call that is made by the runner never waits. -/
theorem Inv.hang_up (h : Inv c s) (hat : s.calls (.runner n) = some p) : HangsUp c n s := by
  have hrunner := h.isRunner_of_calls hat
  obtain ⟨hopen, hacquire, -⟩ := h.calling n p hat
  cases p with
  | enter call =>
    cases call with
    | start =>
      cases hvalid : c.validate with
      | error cause =>
        exact (hangsUp_leave (goto_calls_self s _ _)).step
          ((CallStep.move (.invalid cause hvalid)).goes hat rfl rfl) rfl
      | ok _ =>
        exact (hangsUp_identify (goto_calls_self s _ _) hrunner).step
          ((CallStep.move (.valid hvalid)).goes hat rfl rfl) rfl
    | stop =>
      exact (hangsUp_identify (goto_calls_self { s with cancelled := true } _ _) hrunner).step
        ((CallStep.raise .enter).goes hat rfl rfl) rfl
    | wait =>
      exact (hangsUp_identify (goto_calls_self s _ _) hrunner).step
        ((CallStep.move .wait).goes hat rfl rfl) rfl
  | identify call => exact hangsUp_identify hat hrunner
  | acquire call => exact absurd rfl (hacquire call)
  | leave result => exact hangsUp_leave hat
  | _ => contradiction

/-- A run can go on to its end. -/
def Concludes (c : Config) (n : Nat) (s : Lifecycle) : Prop :=
  ∃ s', Goes c s s' ∧ ∃ final, s'.stages[n]? = some (.ended final)

/-- A run that concludes later concludes. -/
theorem Concludes.step (h : Concludes c n s') (hgoes : Goes c s s') : Concludes c n s := by
  obtain ⟨s'', hmore, hended⟩ := h
  exact ⟨s'', hgoes.trans hmore, hended⟩

theorem advance_stages (hat : s.stages[n]? = some stage) (stage' : Stage) :
    (s.advance n stage').stages[n]? = some stage' :=
  List.getElem?_set_self (List.getElem?_eq_some_iff.mp hat).1

/-- A callback comes back, after the calls that it makes. -/
theorem Inv.answered (h : Inv c s) (hat : s.stages[n]? = some stage)
    (hanswered : stage.answered? = some stage') :
    ∃ s', Goes c s s' ∧ s'.stages[n]? = some stage' := by
  cases hcall : s.calls (.runner n) with
  | none =>
    exact ⟨_, (RunStep.answer _ _ .done hat hanswered hcall).goes, advance_stages hat _⟩
  | some p =>
    obtain ⟨s', hgoes, hidle, hstages⟩ := h.hang_up hcall
    have hat' := hstages ▸ hat
    exact ⟨_, hgoes.trans (RunStep.answer _ _ .done hat' hanswered hidle).goes,
      advance_stages hat' _⟩

variable {final : JobState × String}

/-- A run in its last callback concludes, when what it calls there has returned. -/
theorem Inv.concludes_telling (h : Inv c s) (hat : s.stages[n]? = some (.telling final)) :
    Concludes c n s := by
  obtain ⟨s', hgoes, hended⟩ := h.answered hat rfl
  exact ⟨s', hgoes, final, hended⟩

theorem Inv.concludes_published (h : Inv c s) (hat : s.stages[n]? = some (.published final)) :
    Concludes c n s :=
  have htell := RunStep.tell final hat
  ((htell.inv h).concludes_telling (advance_stages hat _)).step htell.goes

theorem Inv.concludes_settled (h : Inv c s) (hat : s.stages[n]? = some (.settled final)) :
    Concludes c n s :=
  have hpublish := RunStep.publish final hat
  ((hpublish.inv h).concludes_published (advance_stages hat _)).step hpublish.goes

/-- A world in which nothing is heard of. -/
def quietWorld : World := { sizes? := some [], course := { replies? := some [] } }

/-- In this world nobody asks for a stop. -/
theorem quiet : ¬ quietWorld.HearsStop := by
  rintro (h | h | ⟨x, hx, -⟩) <;> contradiction

/-- A run at work concludes in a world where nothing happens. -/
theorem Inv.concludes_working (h : Inv c s) (hat : s.stages[n]? = some .working) :
    Concludes c n s :=
  have hsettle := RunStep.settle quietWorld hat fun hstop => absurd hstop quiet
  ((hsettle.inv h).concludes_settled (advance_stages hat _)).step hsettle.goes

/-- A run in a callback goes back to work. -/
theorem Inv.concludes_answered (hname : '\x00' ∉ c.fileName.toList) (h : Inv c s)
    (hat : s.stages[n]? = some stage) (hanswered : stage.answered? = some .working) :
    Concludes c n s := by
  obtain ⟨s', hgoes, hworking⟩ := h.answered hat hanswered
  exact ((hgoes.steps.inv hname h).concludes_working hworking).step hgoes

theorem Inv.concludes_begun (hname : '\x00' ∉ c.fileName.toList) (h : Inv c s)
    (hat : s.stages[n]? = some .begun) : Concludes c n s :=
  have hannounce := RunStep.announce hat
  ((hannounce.inv h).concludes_answered hname (advance_stages hat _) rfl).step hannounce.goes

/-- At every stage a run can go on to its end. -/
theorem Inv.concludes (hname : '\x00' ∉ c.fileName.toList) (h : Inv c s)
    (hat : s.stages[n]? = some stage) : Concludes c n s := by
  cases stage with
  | spawned =>
    have hbegin := RunStep.begin (c := c) hat
    exact ((hbegin.inv h).concludes_begun hname (advance_stages hat _)).step hbegin.goes
  | begun => exact h.concludes_begun hname hat
  | announcing => exact h.concludes_answered hname hat rfl
  | working => exact h.concludes_working hat
  | reporting => exact h.concludes_answered hname hat rfl
  | settled final => exact h.concludes_settled hat
  | published final => exact h.concludes_published hat
  | telling final => exact h.concludes_telling hat
  | ended final => exact ⟨s, .refl, final, hat⟩

/-! ## Calls -/

/-- A call of a thread can return. -/
def Returns (c : Config) (t : Thread) (s : Lifecycle) : Prop :=
  ∃ s', Steps c s s' ∧ s'.calls t = none

/-- A call that returns later returns. -/
theorem Returns.step (h : Returns c t s') (hsteps : Steps c s s') : Returns c t s := by
  obtain ⟨s'', hmore, hnone⟩ := h
  exact ⟨s'', hsteps.trans hmore, hnone⟩

/-- The thread that has the mutex gives it back, and other calls do not move meanwhile, unless
the last run makes them. -/
def Yields (c : Config) (t : Thread) (s : Lifecycle) : Prop :=
  ∃ s', Steps c s s' ∧ s'.lock? = none ∧ s'.calls t = none ∧
    ∀ id, .caller id ≠ t → s'.calls (.caller id) = s.calls (.caller id)

/-- A thread that yields the mutex later yields it, if no caller is disturbed meanwhile. -/
theorem Yields.step (h : Yields c t s') (hsteps : Steps c s s')
    (hcalls : ∀ id, .caller id ≠ t → s'.calls (.caller id) = s.calls (.caller id)) :
    Yields c t s := by
  obtain ⟨s'', hmore, hfree, hnone, hothers⟩ := h
  exact ⟨s'', hsteps.trans hmore, hfree, hnone,
    fun id hid => (hothers id hid).trans (hcalls id hid)⟩

theorem Yields.call (h : Yields c t s') (hat : s.calls t = p?) (hcall : CallStep c s t p? s') :
    Yields c t s :=
  h.step (.single (.of_call hat hcall)) fun _ hid => hcall.others hid

theorem yields_unlock {result : Result} (hat : s.calls t = some (.unlock result)) :
    Yields c t s :=
  have hunlock : CallStep c s t _ _ := .unlock result
  ⟨_, .single (.of_call hat hunlock), rfl, drop_calls_self _ _, fun _ hid => hunlock.others hid⟩

/-- A start that makes a thread gives back the mutex next. -/
theorem yields_spawn (hname : '\x00' ∉ c.fileName.toList) (hat : s.calls t = some .spawn) :
    Yields c t s :=
  (yields_unlock (goto_calls_self _ t _)).call hat (.spawn hname)

theorem yields_forget (hname : '\x00' ∉ c.fileName.toList) (hat : s.calls t = some .forget) :
    Yields c t s :=
  (yields_spawn hname (goto_calls_self _ t _)).call hat .forget

theorem yields_reset (hname : '\x00' ∉ c.fileName.toList) (hat : s.calls t = some .reset) :
    Yields c t s :=
  (yields_forget hname (goto_calls_self _ t _)).call hat .reset

theorem yields_clear (hname : '\x00' ∉ c.fileName.toList) (hat : s.calls t = some .clear) :
    Yields c t s :=
  (yields_reset hname (goto_calls_self _ t _)).call hat .clear

/-- A call yields the mutex once nobody is left to wait for. -/
theorem yields_joined (hname : '\x00' ∉ c.fileName.toList) (call : Call)
    (hat : s.calls t = some call.joined) : Yields c t s := by
  cases call with
  | start => exact yields_clear hname hat
  | stop => exact yields_unlock hat
  | wait => exact yields_unlock hat

/-- A call that waits for the last run goes on when that has ended. -/
theorem Inv.yields_join (hname : '\x00' ∉ c.fileName.toList) (h : Inv c s) {call : Call}
    (hat : s.calls t = some (.join call)) : Yields c t s := by
  cases hhandle : s.handle? with
  | none =>
    exact (yields_joined hname call (goto_calls_self _ t _)).call hat
      (.move (.vacant call hhandle))
  | some n =>
    have hlt : n < s.stages.length := Nat.lt_of_succ_le (Nat.le_of_eq (h.handle n hhandle))
    obtain ⟨s', hgoes, final, hended⟩ := h.concludes hname (List.getElem?_eq_getElem hlt)
    have hat' : s'.calls t = some (.join call) := by
      cases t with
      | runner m => exact absurd (h.calling m _ hat).1 nofun
      | caller id => exact (hgoes.callers id).trans hat
    have hjoin : CallStep c s' t _ _ := .join call n final (hgoes.handle.trans hhandle) hended
    exact ((yields_joined hname call (goto_calls_self _ t _)).call hat' hjoin).step hgoes.steps
      fun id _ => hgoes.callers id

/-- The thread that has the mutex can give it back. -/
theorem Inv.yields (hname : '\x00' ∉ c.fileName.toList) (h : Inv c s) (hat : s.calls t = some p)
    (hlocked : p.isLocked = true) : Yields c t s := by
  cases p with
  | claim =>
    by_cases hstate : s.state = .running
    · exact (yields_unlock (goto_calls_self _ t _)).call hat (.move (.running hstate))
    · have hclaim : CallStep c s t _ _ := .claim hstate
      exact ((hclaim.inv hname h hat).yields_join hname (goto_calls_self _ t _)).call hat hclaim
  | raise =>
    have hraise : CallStep c s t _ _ := .raise .again
    exact ((hraise.inv hname h hat).yields_join hname (goto_calls_self _ t _)).call hat hraise
  | join call => exact h.yields_join hname hat
  | clear => exact yields_clear hname hat
  | reset => exact yields_reset hname hat
  | forget => exact yields_forget hname hat
  | spawn => exact yields_spawn hname hat
  | unlock result => exact yields_unlock hat
  | _ => contradiction

/-- A thread that yields the mutex returns. -/
theorem Yields.returns (h : Yields c t s) : Returns c t s := by
  obtain ⟨s', hsteps, -, hnone, -⟩ := h
  exact ⟨s', hsteps, hnone⟩

theorem Returns.call (h : Returns c t s') (hat : s.calls t = p?) (hcall : CallStep c s t p? s') :
    Returns c t s :=
  h.step (.single (.of_call hat hcall))

theorem returns_leave {result : Result} (hat : s.calls t = some (.leave result)) :
    Returns c t s :=
  ⟨_, .single (.of_call hat (.leave result)), drop_calls_self _ _⟩

/-- A call returns if the mutex is free. -/
theorem Inv.returns_free (hname : '\x00' ∉ c.fileName.toList) (h : Inv c s) {call : Call}
    (hat : s.calls t = some (.acquire call)) (hfree : s.lock? = none) : Returns c t s := by
  have hacquire : CallStep c s t _ _ := .acquire call hfree
  exact ((hacquire.inv hname h hat).yields hname (goto_calls_self _ t _)
    (by cases call <;> rfl)).returns.call hat hacquire

/-- A call that waits for the mutex gets it. -/
theorem Inv.returns_acquire (hname : '\x00' ∉ c.fileName.toList) (h : Inv c s) {id : Nat}
    {call : Call} (hat : s.calls (.caller id) = some (.acquire call)) :
    Returns c (.caller id) s := by
  cases hlock : s.lock? with
  | none => exact h.returns_free hname hat hlock
  | some u =>
    obtain ⟨p, hp, hlocked, -⟩ := h.held u hlock
    have hne : Thread.caller id ≠ u := by
      rintro rfl
      obtain rfl := Option.some.inj (hat.symm.trans hp)
      contradiction
    obtain ⟨s', hsteps, hfree, -, hothers⟩ := h.yields hname hp hlocked
    exact ((hsteps.inv hname h).returns_free hname ((hothers id hne).trans hat) hfree).step hsteps

/-- A call from outside returns, as it is not on the runner. -/
theorem Inv.returns_identify (hname : '\x00' ∉ c.fileName.toList) (h : Inv c s) {id : Nat}
    {call : Call} (hat : s.calls (.caller id) = some (.identify call)) :
    Returns c (.caller id) s := by
  have hrunner : ¬ s.IsRunner (.caller id) := by
    rintro ⟨_, -, heq⟩
    contradiction
  have hother : CallStep c s (.caller id) _ _ := .move (.other call hrunner)
  exact ((hother.inv hname h hat).returns_acquire hname (goto_calls_self _ _ _)).call hat hother

/-- Every call can return. -/
theorem Inv.returns (hname : '\x00' ∉ c.fileName.toList) (h : Inv c s) (t : Thread) :
    Returns c t s := by
  cases hat : s.calls t with
  | none => exact ⟨s, .refl, hat⟩
  | some p =>
    cases t with
    | runner n =>
      obtain ⟨s', hgoes, hnone, -⟩ := h.hang_up hat
      exact ⟨s', hgoes.steps, hnone⟩
    | caller id =>
      cases p with
      | enter call =>
        cases call with
        | start =>
          cases hvalid : c.validate with
          | error cause =>
            exact (returns_leave (goto_calls_self _ _ _)).call hat
              (.move (.invalid cause hvalid))
          | ok _ =>
            have hmove : CallStep c s (.caller id) _ _ := .move (.valid hvalid)
            exact ((hmove.inv hname h hat).returns_identify hname
              (goto_calls_self _ _ _)).call hat hmove
        | stop =>
          have hraise : CallStep c s (.caller id) _ _ := .raise .enter
          exact ((hraise.inv hname h hat).returns_identify hname
            (goto_calls_self _ _ _)).call hat hraise
        | wait =>
          have hmove : CallStep c s (.caller id) _ _ := .move .wait
          exact ((hmove.inv hname h hat).returns_identify hname
            (goto_calls_self _ _ _)).call hat hmove
      | identify call => exact h.returns_identify hname hat
      | acquire call => exact h.returns_acquire hname hat
      | leave result => exact returns_leave hat
      | _ => exact (h.yields hname hat rfl).returns

end Lifecycle

end SegmentedDownload
