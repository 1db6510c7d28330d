import SegmentedDownload.Proofs.NoDeadlock

/-!
# SegmentedDownload.Proofs.Undisturbed

Calls that nobody disturbs do what `Job` says.

`Shows` relates what became of a job that several threads use to a `Job`.  From a state that
shows a job, a run can go on to show `Job.complete` (`Inv.shows_complete`), and a thread can make
a call that shows `Job.start` with its result (`Inv.shows_start`), `Job.wait` or `Job.stop`
(`Inv.shows_wait`, `Inv.shows_stop`).  So can the runner from a callback (`Inv.shows_own`).
-/

namespace SegmentedDownload

namespace Lifecycle

/-- How far the last run is, and what the observer has heard. -/
def Stands (c : Config) (j : Job) (s : Lifecycle) : Phase → Prop
  | .idle => (∀ (n : Nat) stage, s.stages[n]? = some stage → stage.isEnded = true) ∧
      s.heard = j.statuses
  | .accepted => (∃ n : Nat, s.stages[n]? = some .spawned) ∧ s.heard = j.statuses
  | .announced => (∃ (n : Nat) (stage : Stage), s.stages[n]? = some stage ∧
      (stage = .working ∨ stage.answered? = some .working)) ∧ s.heard = j.statuses
  | .concluded => ∃ n : Nat,
      s.stages[n]? = some (.published (j.state, j.reason)) ∧ s.heard = j.statuses ∨
        s.stages[n]? = some (.telling (j.state, j.reason)) ∧
          s.heard = j.statuses ++ [c.status (j.state, j.reason)]

/-- A job that several threads use looks like a job that is used by one. -/
structure Shows (c : Config) (j : Job) (files : FileSystem) (s : Lifecycle) : Prop where
  config : j.config = c
  files : s.files = files
  state : s.state = j.state
  cancelled : s.cancelled = j.cancelled
  progress : s.progress = j.progress
  output? : s.output? = j.output?
  callbacks : s.callbacks = j.callbacks
  stands : Stands c j s j.phase

variable {c : Config} {j : Job} {files : FileSystem} {world : World} {s s' s'' : Lifecycle}
  {t : Thread} {p p' : Point} {p? : Option Point} {n : Nat} {stage stage' : Stage}

/-! ## Runs -/

/-- When the last run has ended, all have. -/
theorem Inv.all_ended (h : Inv c s) (hat : s.stages[n]? = some stage)
    (hactive : stage.isEnded = false) (final : JobState × String) (m : Nat) (x : Stage)
    (hx : (s.stages.set n (.ended final))[m]? = some x) : x.isEnded = true := by
  rcases stage_set_cases hx with ⟨-, rfl⟩ | ⟨hne, hold⟩
  · rfl
  · refine h.ended m x hold fun hm => hne ?_
    exact Option.some.inj (hm.symm.trans (h.last hat hactive).1)

theorem retire_concluded (hphase : j.phase = .concluded) :
    j.retire = { j with phase := .idle }.notify j.state j.reason := if_pos hphase

/-- The observer hears of the final state. -/
theorem Inv.shows_retire (h : Inv c s) (hshows : Shows c j files s)
    (hphase : j.phase = .concluded) (hidle : ∀ n, s.calls (.runner n) = none) :
    ∃ s', Goes c s s' ∧ s'.calls = s.calls ∧ Shows c j.retire files s' := by
  obtain ⟨hconfig, hfiles, hstate, hcancelled, hprogress, houtput, hcallbacks, hstands⟩ := hshows
  rw [hphase] at hstands
  rw [retire_concluded hphase]
  have htold : j.statuses ++ [c.status (j.state, j.reason)] =
      ({ j with phase := .idle }.notify j.state j.reason).statuses := by rw [← hconfig]; rfl
  obtain ⟨n, ⟨hat, hheard⟩ | ⟨hat, hheard⟩⟩ := hstands
  · have htell := RunStep.tell (c := c) _ hat
    have hat' := advance_stages (s := s.tell c (j.state, j.reason)) hat
      (.telling (j.state, j.reason))
    have hanswer := RunStep.answer (c := c) _ _ .done hat' rfl (hidle n)
    refine ⟨_, htell.goes.trans hanswer.goes, rfl, hconfig, hfiles, hstate, hcancelled, hprogress,
      houtput, hcallbacks, (htell.inv h).all_ended hat' rfl _, ?_⟩
    exact (congrArg (· ++ [c.status (j.state, j.reason)]) hheard).trans htold
  · have hanswer := RunStep.answer (c := c) _ _ .done hat rfl (hidle n)
    exact ⟨_, hanswer.goes, rfl, hconfig, hfiles, hstate, hcancelled, hprogress, houtput,
      hcallbacks, h.all_ended hat rfl _, hheard.trans htold⟩

/-- The observer hears of progress, any number of times. -/
theorem goes_report (snapshots : List Snapshot) (hat : s.stages[n]? = some .working)
    (hidle : s.calls (.runner n) = none) :
    ∃ progress, Goes c s { s with progress, callbacks := s.callbacks ++ snapshots } := by
  induction snapshots generalizing s with
  | nil =>
    rw [List.append_nil]
    exact ⟨s.progress, .refl⟩
  | cons x snapshots ih =>
    have hreport := RunStep.report (c := c) x hat
    have hat' := advance_stages (s := { s with progress := x, callbacks := s.callbacks ++ [x] })
      hat .reporting
    have hanswer := RunStep.answer (c := c) .reporting .working .done hat' rfl hidle
    have hset : (s.stages.set n .reporting).set n .working = s.stages := by
      obtain ⟨hlt, hat⟩ := List.getElem?_eq_some_iff.mp hat
      rw [List.set_set, ← hat, List.set_getElem_self]
    have hgoes := hreport.goes.trans hanswer.goes
    unfold advance at hgoes
    dsimp only at hgoes
    rw [hset] at hgoes
    obtain ⟨progress, hmore⟩ := ih (s := { s with progress := x, callbacks := s.callbacks ++ [x] })
      hat hidle
    dsimp only at hmore
    rw [List.append_assoc] at hmore
    exact ⟨progress, hgoes.trans hmore⟩

theorem conclude_announced (hphase : j.phase = .announced)
    (outcome : Except DownloadError Outcome) (d : Download) :
    j.conclude outcome d = { j with
      state := (Job.verdict outcome).1
      reason := (Job.verdict outcome).2
      phase := .concluded
      progress := d.progress
      output? := d.output?
      callbacks := j.callbacks ++ d.callbacks } := if_pos hphase

/-- The callback of a run that has begun comes back. -/
theorem shows_working (hshows : Shows c j files s) (hphase : j.phase = .announced)
    (hidle : ∀ n, s.calls (.runner n) = none) :
    ∃ s', ∃ n : Nat, Goes c s s' ∧ s'.calls = s.calls ∧ Shows c j files s' ∧
      s'.stages[n]? = some .working ∧ s'.heard = j.statuses := by
  have hstands := hshows.stands
  rw [hphase] at hstands
  obtain ⟨⟨n, stage, hat, rfl | hanswered⟩, hheard⟩ := hstands
  · exact ⟨s, n, .refl, rfl, hshows, hat, hheard⟩
  · have hanswer := RunStep.answer (c := c) stage .working .done hat hanswered (hidle n)
    have hworking := advance_stages hat .working
    refine ⟨_, n, hanswer.goes, rfl, { hshows with stands := ?_ }, hworking, hheard⟩
    rw [hphase]
    exact ⟨⟨n, .working, hworking, Or.inl rfl⟩, hheard⟩

/-- A run works, and publishes its final state. -/
theorem shows_conclude (hshows : Shows c j files s) (hphase : j.phase = .announced)
    (hat : s.stages[n]? = some .working) (hheard : s.heard = j.statuses)
    (hidle : s.calls (.runner n) = none) (hstop : world.HearsStop → j.cancelled = true) :
    ∃ s', Goes c s s' ∧ s'.calls = s.calls ∧
      Shows c (j.conclude (Download.run c files world).1 (Download.run c files world).2)
        (Download.run c files world).2.files s' := by
  obtain ⟨hconfig, rfl, hstate, hcancelled, hprogress, houtput, hcallbacks, -⟩ := hshows
  rw [conclude_announced hphase]
  obtain ⟨progress, hreports⟩ :=
    goes_report (c := c) (Download.run c s.files world).2.callbacks hat hidle
  have hsettle := RunStep.settle (c := c) (s := { s with
      progress
      callbacks := s.callbacks ++ (Download.run c s.files world).2.callbacks })
    world hat fun hheard => hcancelled.trans (hstop hheard)
  have hsettled := advance_stages hat (.settled (Job.verdict (Download.run c s.files world).1))
  have hpublish := RunStep.publish (c := c) (s := { s with
      files := (Download.run c s.files world).2.files
      progress := (Download.run c s.files world).2.progress
      output? := (Download.run c s.files world).2.output?
      callbacks := s.callbacks ++ (Download.run c s.files world).2.callbacks }.advance n _) _
    hsettled
  refine ⟨_, (hreports.trans hsettle.goes).trans hpublish.goes, rfl, hconfig, rfl, rfl, hcancelled,
    rfl, rfl, congrArg (· ++ _) hcallbacks, n, Or.inl ⟨advance_stages hsettled _, hheard⟩⟩

theorem announce_accepted (hphase : j.phase = .accepted) :
    j.announce = { j with phase := .announced }.notify .running "" := if_pos hphase

/-- The observer hears that a run has begun. -/
theorem shows_announce (hshows : Shows c j files s) (hphase : j.phase = .accepted) :
    ∃ s', Goes c s s' ∧ s'.calls = s.calls ∧ Shows c j.announce files s' := by
  obtain ⟨hconfig, hfiles, hstate, hcancelled, hprogress, houtput, hcallbacks, hstands⟩ := hshows
  rw [hphase] at hstands
  rw [announce_accepted hphase]
  obtain ⟨⟨n, hat⟩, hheard⟩ := hstands
  have hbegin := RunStep.begin (c := c) hat
  have hbegun := advance_stages (s := { s with runner? := some n }) hat .begun
  have hannounce := RunStep.announce (c := c) hbegun
  have hannouncing := advance_stages hbegun .announcing
  have htold : j.statuses ++ [c.status (.running, "")] =
      ({ j with phase := .announced }.notify .running "").statuses := by rw [← hconfig]; rfl
  exact ⟨_, hbegin.goes.trans hannounce.goes, rfl, hconfig, hfiles, hstate, hcancelled, hprogress,
    houtput, hcallbacks, ⟨n, .announcing, hannouncing, Or.inr rfl⟩,
    (congrArg (· ++ [c.status (.running, "")]) hheard).trans htold⟩

/-- The rest of a run that has begun. -/
theorem Inv.shows_rest (hname : '\x00' ∉ c.fileName.toList) (h : Inv c s)
    (hshows : Shows c j files s) (hphase : j.phase = .announced)
    (hidle : ∀ n, s.calls (.runner n) = none) (hstop : world.HearsStop → j.cancelled = true) :
    ∃ s', Goes c s s' ∧ s'.calls = s.calls ∧
      Shows c (j.conclude (Download.run c files world).1 (Download.run c files world).2).retire
        (Download.run c files world).2.files s' := by
  obtain ⟨s₁, n, hworks, hcalls₁, hshows₁, hat, hheard⟩ := shows_working hshows hphase hidle
  obtain ⟨s₂, hconcludes, hcalls₂, hshows₂⟩ :=
    shows_conclude hshows₁ hphase hat hheard (hcalls₁ ▸ hidle n) hstop
  have hgoes := hworks.trans hconcludes
  have hconcluded : (j.conclude (Download.run c files world).1
      (Download.run c files world).2).phase = .concluded := by rw [conclude_announced hphase]
  obtain ⟨s₃, hretires, hcalls₃, hshows₃⟩ := (hgoes.steps.inv hname h).shows_retire hshows₂
    hconcluded fun n => (hcalls₂.trans hcalls₁) ▸ hidle n
  exact ⟨s₃, hgoes.trans hretires, hcalls₃.trans (hcalls₂.trans hcalls₁), hshows₃⟩

/-- A run goes on to its end as `Job.complete` says. -/
theorem Inv.shows_complete (hname : '\x00' ∉ c.fileName.toList) (h : Inv c s)
    (hshows : Shows c j files s) (hidle : ∀ n, s.calls (.runner n) = none)
    (hstop : world.HearsStop → j.cancelled = true) :
    ∃ s', Goes c s s' ∧ s'.calls = s.calls ∧
      Shows c (j.complete files world).1 (j.complete files world).2 s' := by
  unfold Job.complete
  rw [hshows.config]
  cases hphase : j.phase with
  | idle => exact ⟨s, .refl, rfl, hshows⟩
  | concluded => exact h.shows_retire hshows hphase hidle
  | announced =>
    have hannounced : j.announce = j := if_neg (by rw [hphase]; decide)
    rw [hannounced]
    exact h.shows_rest hname hshows hphase hidle hstop
  | accepted =>
    obtain ⟨s₁, hannounces, hcalls₁, hshows₁⟩ := shows_announce hshows hphase
    have hphase₁ : j.announce.phase = .announced := by rw [announce_accepted hphase]; rfl
    have hcancelled : j.announce.cancelled = j.cancelled := by rw [announce_accepted hphase]; rfl
    obtain ⟨s₂, hrest, hcalls₂, hshows₂⟩ := (hannounces.steps.inv hname h).shows_rest hname
      hshows₁ hphase₁ (fun n => hcalls₁ ▸ hidle n) (hcancelled ▸ hstop)
    exact ⟨s₂, hannounces.trans hrest, hcalls₂.trans hcalls₁, hshows₂⟩

/-! ## Calls -/

/-- One thread uses a job; it makes no call, or its call is at a point. -/
structure Makes (c : Config) (j : Job) (files : FileSystem) (t : Thread) (p? : Option Point)
    (s : Lifecycle) : Prop where
  shows : Shows c j files s
  own : s.calls t = p?
  others : ∀ u, u ≠ t → s.calls u = none
  lock : s.lock? = if p?.any Point.isLocked then some t else none

/-- Steps lead from a state to one where a thread has come to a point. -/
def Leads (c : Config) (s : Lifecycle) (j : Job) (files : FileSystem) (t : Thread)
    (p? : Option Point) : Prop :=
  ∃ s', Steps c s s' ∧ Makes c j files t p? s'

variable {j' : Job} {files' : FileSystem} {p'? p''? : Option Point} {call : Call} {id : Nat}

theorem Makes.here (h : Makes c j files t p? s) : Leads c s j files t p? := ⟨s, .refl, h⟩

/-- The thread takes a step. -/
theorem Makes.next (h : Makes c j files t p? s) (hstep : CallStep c s t p? s')
    (hshows : Shows c j' files s') (hown : s'.calls t = p'?)
    (hlock : s'.lock? = if p'?.any Point.isLocked then some t else none) :
    Leads c s j' files t p'? :=
  ⟨s', .single (.of_call h.own hstep), hshows, hown,
    fun u hu => (hstep.others hu).trans (h.others u hu), hlock⟩

theorem Leads.trans (h : Leads c s j files t p?) (hinv : Inv c s)
    (hname : '\x00' ∉ c.fileName.toList)
    (hthen : ∀ s', Inv c s' → Makes c j files t p? s' → Leads c s' j' files' t p'?) :
    Leads c s j' files' t p'? := by
  obtain ⟨s₁, hsteps, hmakes⟩ := h
  obtain ⟨s₂, hmore, hmakes'⟩ := hthen s₁ (hsteps.inv hname hinv) hmakes
  exact ⟨s₂, hsteps.trans hmore, hmakes'⟩

/-- A step that changes nothing but the call. -/
theorem Makes.move (h : Makes c j files t (some p) s) (hmoves : Moves c s t p p')
    (hlocked : p.isLocked = p'.isLocked) : Leads c s j files t (some p') :=
  h.next (.move hmoves) { h.shows with stands := h.shows.stands } (goto_calls_self s t p')
    (h.lock.trans (by simp [hlocked]))

theorem not_isRunner (s : Lifecycle) (id : Nat) : ¬ s.IsRunner (.caller id) := by
  rintro ⟨_, -, heq⟩
  contradiction

/-- A call that has checked its thread gets the mutex, when no other call is made. -/
theorem Makes.locks (h : Makes c j files (.caller id) (some (.identify call)) s) (hinv : Inv c s)
    (hname : '\x00' ∉ c.fileName.toList) : Leads c s j files (.caller id) (some call.locked) := by
  refine (h.move (.other call (not_isRunner s id)) rfl).trans hinv hname fun s' _ h => ?_
  exact h.next (.acquire call h.lock) { h.shows with stands := h.shows.stands }
    (goto_calls_self _ _ _) (by cases call <;> rfl)

/-- A call that waits for the last run goes on at once, if no run is left. -/
theorem Makes.joins (h : Makes c j files t (some (.join call)) s) (hinv : Inv c s)
    (hphase : j.phase = .idle) : Leads c s j files t (some call.joined) := by
  cases hhandle : s.handle? with
  | none => exact h.move (.vacant call hhandle) (by cases call <;> rfl)
  | some n =>
    have hstands := h.shows.stands
    rw [hphase] at hstands
    have hlt : n < s.stages.length := Nat.lt_of_succ_le (Nat.le_of_eq (hinv.handle n hhandle))
    have hended := hstands.1 n _ (List.getElem?_eq_getElem hlt)
    cases hstage : s.stages[n] with
    | ended final =>
      have hat : s.stages[n]? = some (.ended final) := by rw [List.getElem?_eq_getElem hlt, hstage]
      exact h.next (.join call n final hhandle hat) { h.shows with stands := h.shows.stands }
        (goto_calls_self _ _ _) (h.lock.trans (by cases call <;> rfl))
    | _ =>
      rw [hstage] at hended
      contradiction

/-- A call comes back with a result. -/
def Comes (c : Config) (s : Lifecycle) (t : Thread) (call : Call) (result : Result) (j : Job)
    (files : FileSystem) : Prop :=
  ∃ s₁ s', Steps c (s.goto t (.enter call)) s₁ ∧
    (s₁.calls t = some (.unlock result) ∨ s₁.calls t = some (.leave result)) ∧
    Step c s₁ s' ∧ Makes c j files t none s'

/-- A call comes back with its result when it gives back the mutex. -/
theorem Leads.unlocks {result : Result}
    (h : Leads c (s.goto t (.enter call)) j files t (some (.unlock result))) :
    Comes c s t call result j files := by
  obtain ⟨s₁, hsteps, hmakes⟩ := h
  refine ⟨s₁, _, hsteps, Or.inl hmakes.own, .of_call hmakes.own (.unlock result),
    { hmakes.shows with stands := hmakes.shows.stands }, drop_calls_self _ t, fun u hu => ?_, rfl⟩
  exact (if_neg hu).trans (hmakes.others u hu)

/-- A call that never had the mutex comes back with its result. -/
theorem Leads.returns {result : Result}
    (h : Leads c (s.goto t (.enter call)) j files t (some (.leave result))) :
    Comes c s t call result j files := by
  obtain ⟨s₁, hsteps, hmakes⟩ := h
  refine ⟨s₁, _, hsteps, Or.inr hmakes.own, .of_call hmakes.own (.leave result),
    { hmakes.shows with stands := hmakes.shows.stands }, drop_calls_self _ t, fun u hu => ?_,
    hmakes.lock⟩
  exact (if_neg hu).trans (hmakes.others u hu)

theorem Makes.enters (h : Makes c j files t none s) (call : Call) :
    Makes c j files t (some (.enter call)) (s.goto t (.enter call)) :=
  ⟨{ h.shows with stands := h.shows.stands }, goto_calls_self s t _,
    fun u hu => (if_neg hu).trans (h.others u hu), h.lock⟩

/-- Runs go on while a caller waits. -/
theorem Makes.runs (h : Makes c j files (.caller id) p? s)
    (hruns : ∃ s', Goes c s s' ∧ s'.calls = s.calls ∧ Shows c j' files' s') :
    Leads c s j' files' (.caller id) p? := by
  obtain ⟨s', hgoes, hcalls, hshows⟩ := hruns
  exact ⟨s', hgoes.steps, hshows, hcalls ▸ h.own, hcalls ▸ h.others, hgoes.lock.trans h.lock⟩

theorem complete_phase (j : Job) (files : FileSystem) (world : World) :
    (j.complete files world).1.phase = .idle := by
  have hretire : ∀ j : Job, j.phase = .concluded → j.retire.phase = .idle := by
    intro j hphase
    rw [retire_concluded hphase]
    rfl
  have hconclude : ∀ (j : Job) outcome d, j.phase = .announced →
      (j.conclude outcome d).phase = .concluded := by
    intro j outcome d hphase
    rw [conclude_announced hphase]
  unfold Job.complete
  split
  · next hphase => exact hphase
  · next hphase => exact hretire j hphase
  · next hphase =>
    refine hretire _ (hconclude _ _ _ ?_)
    rw [announce_accepted hphase]
    rfl
  · next hphase =>
    refine hretire _ (hconclude _ _ _ ?_)
    exact (congrArg Job.phase (if_neg (by rw [hphase]; decide))).trans hphase

/-- A caller that waits for the last run waits for `Job.complete`. -/
theorem Makes.completes (hname : '\x00' ∉ c.fileName.toList)
    (h : Makes c j files (.caller id) (some (.join call)) s) (hinv : Inv c s)
    (hstop : world.HearsStop → j.cancelled = true) :
    Leads c s (j.complete files world).1 (j.complete files world).2 (.caller id)
      (some call.joined) :=
  (h.runs (hinv.shows_complete hname h.shows (fun _ => h.others _ nofun) hstop)).trans hinv hname
    fun _ hinv h => h.joins hinv (complete_phase j files world)

/-- A wait does what `Job.wait` says. -/
theorem Inv.shows_wait (hname : '\x00' ∉ c.fileName.toList) (h : Inv c s)
    (hmakes : Makes c j files (.caller id) none s) (hstop : world.HearsStop → j.cancelled = true) :
    Comes c s (.caller id) .wait .done (j.wait .other files world).1
      (j.wait .other files world).2 := by
  have hentered := CallStep.inv hname h hmakes.own (.enter .wait trivial)
  refine Leads.unlocks ?_
  refine ((hmakes.enters .wait).move .wait rfl).trans hentered hname fun s hinv h => ?_
  refine (h.locks hinv hname).trans hinv hname fun s hinv h => ?_
  exact h.completes hname hinv hstop

/-- A stop does what `Job.stop` says. -/
theorem Inv.shows_stop (hname : '\x00' ∉ c.fileName.toList) (h : Inv c s)
    (hmakes : Makes c j files (.caller id) none s) (world : World) :
    Comes c s (.caller id) .stop .done (j.stop .other files world).1
      (j.stop .other files world).2 := by
  have hentered := CallStep.inv hname h hmakes.own (.enter .stop trivial)
  have hraises : ∀ {s j p p'}, Makes c j files (.caller id) (some p) s → Raises p p' →
      p.isLocked = p'.isLocked → Leads c s j.requestStop files (.caller id) (some p') := by
    intro s j p p' h hraises hlocked
    exact h.next (.raise hraises) { h.shows with stands := h.shows.stands, cancelled := rfl }
      (goto_calls_self _ _ _) (h.lock.trans (by simp [hlocked]))
  refine Leads.unlocks ?_
  refine (hraises (hmakes.enters .stop) .enter rfl).trans hentered hname fun s hinv h => ?_
  refine (h.locks hinv hname).trans hinv hname fun s hinv h => ?_
  refine (hraises h .again rfl).trans hinv hname fun s hinv h => ?_
  exact h.completes hname hinv fun _ => rfl

/-- A job that does not run has no run on its way, but for one that has published its state. -/
theorem Inv.phase_cases (h : Inv c s) (hshows : Shows c j files s) (hfree : s.lock? = none)
    (hstate : j.state ≠ .running) : j.phase = .idle ∨ j.phase = .concluded := by
  have hrunning : ∀ (n : Nat) (stage : Stage), s.stages[n]? = some stage →
      stage.isEnded = false → stage.state ≠ .running := by
    intro n stage hat hactive heq
    obtain ⟨-, front, hfront, -⟩ := h.last hat hactive
    rw [← hshows.state, h.free hfree, lastState_append hfront] at hstate
    exact hstate heq
  have hstands := hshows.stands
  cases hphase : j.phase with
  | idle => exact Or.inl rfl
  | concluded => exact Or.inr rfl
  | accepted =>
    rw [hphase] at hstands
    obtain ⟨⟨n, hat⟩, -⟩ := hstands
    exact absurd rfl (hrunning n _ hat rfl)
  | announced =>
    rw [hphase] at hstands
    obtain ⟨⟨n, stage, hat, hstage⟩, -⟩ := hstands
    cases stage with
    | working | announcing | reporting => exact absurd rfl (hrunning n _ hat rfl)
    | telling _ => rcases hstage with hstage | hstage <;> injections
    | _ => rcases hstage with hstage | hstage <;> contradiction

/-- What is left of the last run ends before a new one. -/
theorem Makes.retires (h : Makes c j files (.caller id) p? s) (hinv : Inv c s)
    (hphase : j.phase = .idle ∨ j.phase = .concluded) :
    Leads c s j.retire files (.caller id) p? ∧ j.retire.phase = .idle ∧
      j.retire.state = j.state := by
  rcases hphase with hphase | hphase
  · have hsame : j.retire = j := if_neg (by rw [hphase]; decide)
    rw [hsame]
    exact ⟨h.here, hphase, rfl⟩
  · have hretire := retire_concluded hphase
    refine ⟨h.runs (hinv.shows_retire h.shows hphase fun _ => h.others _ nofun), ?_, ?_⟩
    · rw [hretire]
      rfl
    · rw [hretire]
      rfl

/-- A start that has changed the state makes a run. -/
theorem Makes.starts (hname : '\x00' ∉ c.fileName.toList)
    (h : Makes c j files (.caller id) (some .claim) s) (hinv : Inv c s)
    (hphase : j.phase = .idle) (hstate : j.state ≠ .running) :
    Leads c s { j.renew with phase := .accepted } files (.caller id)
      (some (.unlock (.started .accepted))) := by
  -- in the phase `idle` what stands does not depend on the state, so that it may change
  obtain ⟨config, state, phase, cancelled, progress, output?, statuses, callbacks, reason⟩ := j
  obtain rfl : phase = .idle := hphase
  have hclaims : Leads c s { config, statuses, callbacks, reason, cancelled, progress, output?
                             state := .running } files (.caller id) (some (.join .start)) :=
    h.next (.claim (h.shows.state ▸ hstate))
      { h.shows with stands := h.shows.stands, state := rfl } (goto_calls_self _ _ _) h.lock
  refine hclaims.trans hinv hname fun s hinv h => ?_
  refine (h.joins hinv rfl).trans hinv hname fun s hinv h => ?_
  have hclears : Leads c s { config, statuses, callbacks, reason, progress, output?
                             state := .running } files (.caller id) (some .reset) :=
    h.next .clear { h.shows with stands := h.shows.stands, cancelled := rfl }
      (goto_calls_self _ _ _) h.lock
  refine hclears.trans hinv hname fun s hinv h => ?_
  have hresets : Leads c s { config, statuses, callbacks, reason, output?
                             state := .running } files (.caller id) (some .forget) :=
    h.next .reset { h.shows with stands := h.shows.stands, progress := rfl }
      (goto_calls_self _ _ _) h.lock
  refine hresets.trans hinv hname fun s hinv h => ?_
  have hforgets : Leads c s { config, statuses, callbacks, reason
                              state := .running } files (.caller id) (some .spawn) :=
    h.next .forget { h.shows with stands := h.shows.stands, output? := rfl }
      (goto_calls_self _ _ _) h.lock
  refine hforgets.trans hinv hname fun s hinv h => ?_
  refine h.next (.spawn hname) { h.shows with stands := ?_ } (goto_calls_self _ _ _) h.lock
  exact ⟨⟨s.stages.length, List.getElem?_concat_length⟩, h.shows.stands.2⟩

/-- A start does what `Job.start` says. -/
theorem Inv.shows_start (hname : '\x00' ∉ c.fileName.toList) (h : Inv c s)
    (hmakes : Makes c j files (.caller id) none s) :
    Comes c s (.caller id) .start (.started (j.start .other).2) (j.start .other).1 files := by
  have hentered := CallStep.inv hname h hmakes.own (.enter .start trivial)
  have hnul : c.fileName.toList.contains '\x00' = false := by simpa using hname
  unfold Job.start
  rw [hmakes.shows.config]
  cases hvalid : c.validate with
  | error cause => exact ((hmakes.enters .start).move (.invalid cause hvalid) rfl).returns
  | ok _ =>
    have hchecked := (hmakes.enters .start).move (.valid hvalid) rfl
    by_cases hstate : j.state = .running
    · dsimp only
      rw [if_pos (Or.inr hstate)]
      refine Leads.unlocks (hchecked.trans hentered hname fun s hinv h => ?_)
      refine (h.locks hinv hname).trans hinv hname fun s hinv h => ?_
      exact h.move (.running (h.shows.state.trans hstate)) rfl
    · have hfree : ¬ (Caller.other = .runner ∨ j.state = .running) := by simp [hstate]
      dsimp only
      rw [if_neg hfree, hnul]
      refine Leads.unlocks (hchecked.trans hentered hname fun s hinv h => ?_)
      have hphase := hinv.phase_cases h.shows h.lock hstate
      obtain ⟨hretires, hidle, hkept⟩ := h.retires hinv hphase
      refine hretires.trans hinv hname fun s hinv h => ?_
      refine (h.locks hinv hname).trans hinv hname fun s hinv h => ?_
      exact h.starts hname hinv hidle (hkept ▸ hstate)

/-- A call that the runner makes from a callback does what `Job` says of it. -/
theorem Inv.shows_own (hname : '\x00' ∉ c.fileName.toList) (h : Inv c s)
    (hmakes : Makes c j files (.runner n) none s) (hmay : s.MayCall (.runner n)) (world : World) :
    Comes c s (.runner n) .start (.started (j.start .runner).2) (j.start .runner).1 files ∧
      Comes c s (.runner n) .stop .done (j.stop .runner files world).1
        (j.stop .runner files world).2 ∧
      Comes c s (.runner n) .wait .done (j.wait .runner files world).1
        (j.wait .runner files world).2 := by
  have hentered := fun call => CallStep.inv hname h hmakes.own (.enter call hmay)
  have howns : ∀ {s j call}, Inv c s →
      Makes c j files (.runner n) (some (.identify call)) s →
      Leads c s j files (.runner n) (some (.leave call.ownResult)) :=
    fun hinv h => h.move (.own _ (hinv.isRunner_of_calls h.own)) rfl
  refine ⟨?_, ?_, ?_⟩
  · unfold Job.start
    rw [hmakes.shows.config]
    cases hvalid : c.validate with
    | error cause => exact ((hmakes.enters .start).move (.invalid cause hvalid) rfl).returns
    | ok _ =>
      have hchecked := (hmakes.enters .start).move (.valid hvalid) rfl
      exact (hchecked.trans (hentered .start) hname fun s hinv h => howns hinv h).returns
  · have hraised : Leads c _ j.requestStop files (.runner n) (some (.identify .stop)) :=
      (hmakes.enters .stop).next (.raise .enter)
        { hmakes.shows with stands := hmakes.shows.stands, cancelled := rfl }
        (goto_calls_self _ _ _) hmakes.lock
    exact (hraised.trans (hentered .stop) hname fun s hinv h => howns hinv h).returns
  · have hchecked := (hmakes.enters .wait).move .wait rfl
    exact (hchecked.trans (hentered .wait) hname fun s hinv h => howns hinv h).returns

/-- A job that was made just now. -/
theorem new_makes (c : Config) (files : FileSystem) (t : Thread) :
    Makes c { config := c } files t none (new files) :=
  ⟨⟨rfl, rfl, rfl, rfl, rfl, rfl, rfl, nofun, rfl⟩, rfl, fun _ _ => rfl, rfl⟩

end Lifecycle

end SegmentedDownload
