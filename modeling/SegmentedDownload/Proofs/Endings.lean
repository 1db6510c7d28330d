import SegmentedDownload.Proofs.Accord
import SegmentedDownload.Proofs.FailedStart

/-!
# SegmentedDownload.Proofs.Endings

The final state of a run agrees with the output of the job and with its files.

Files are changed in one step of a run only, the end of its transfer, and the output there and
where a start forgets it.  So what a run leaves stays until another start is accepted: `Fate`
says how far the run is that a start is about to make, and is kept by every step of every thread
(`Fate.step`).  What `Accords` says of a download then holds of the job, whatever its other
threads do (`run_agrees`).
-/

namespace SegmentedDownload

/-! ## Stages and points -/

theorem Stage.isEnded_of_final? {stage : Stage} (h : stage.final? = none) :
    stage.isEnded = false := by
  cases stage <;> first | rfl | contradiction

theorem Stage.state_of_final? {stage : Stage} (h : stage.final? = none) :
    stage.state = .running := by
  cases stage <;> first | rfl | contradiction

/-- A start that has changed the state has the mutex. -/
theorem Point.isLocked_of_isClaimed {p : Point} (h : p.isClaimed = true) : p.isLocked = true := by
  cases p with
  | join _ | clear | reset | forget | spawn => rfl
  | _ => contradiction

namespace Lifecycle

open Naming

variable {c : Config} {files : FileSystem} {s s' s'' : Lifecycle}
  {path : List (Lifecycle × Lifecycle)} {t u : Thread} {p p' : Point} {p? : Option Point}
  {n m : Nat} {stage stage' : Stage}

/-! ## Files and output -/

/-- A call never touches the files. -/
theorem CallStep.files_eq (h : CallStep c s t p? s') : s'.files = s.files := by
  cases h <;> rfl

/-- A call forgets the output at one point only. -/
theorem CallStep.output_cases (h : CallStep c s t p? s') :
    s'.output? = s.output? ∨ p? = some .forget := by
  cases h with
  | forget => exact Or.inr rfl
  | _ => exact Or.inl rfl

/-- A start that is about to make a thread has just forgotten the output. -/
theorem CallStep.forgets (h : CallStep c s t (some p) s') (hat : s'.calls t = some .spawn) :
    s'.output? = none := by
  cases h with
  | forget => rfl
  | move hmoves =>
    have hp' := goto_eq hat
    cases hmoves with
    | own call _ | vacant call _ => cases call <;> contradiction
    | _ => contradiction
  | raise hraises =>
    have hp' := goto_eq hat
    cases hraises <;> contradiction
  | acquire call _ | join call _ _ _ _ =>
    have hp' := goto_eq hat
    cases call <;> contradiction
  | unlock _ | leave _ =>
    rw [drop_calls_self] at hat
    contradiction
  | _ =>
    have hp' := goto_eq hat
    contradiction

/-- What a step of a run does to its final state, the files and the output. -/
inductive RunStep.Leaves (c : Config) (s : Lifecycle) (n : Nat) (s' : Lifecycle) : Prop
  /-- The transfer goes on, or has ended before. -/
  | same (stage stage' : Stage) (hat : s.stages[n]? = some stage)
      (hstages : s'.stages = s.stages.set n stage') (hfinal : stage'.final? = stage.final?)
      (hfiles : s'.files = s.files) (houtput : s'.output? = s.output?)
  /-- The transfer ends. -/
  | settled (world : World) (hat : s.stages[n]? = some .working)
      (hstages : s'.stages = s.stages.set n
        (.settled (Job.verdict (Download.run c s.files world).1)))
      (hfiles : s'.files = (Download.run c s.files world).2.files)
      (houtput : s'.output? = (Download.run c s.files world).2.output?)

/-- Every step of a run is the end of its transfer, or leaves the files and the output alone. -/
theorem RunStep.leaves (h : RunStep c s n s') : RunStep.Leaves c s n s' := by
  cases h with
  | settle world hat _ => exact .settled world hat rfl rfl rfl
  | answer stage stage' _ hat hanswered _ =>
    refine .same stage stage' hat rfl ?_ rfl rfl
    cases stage with
    | announcing | reporting | telling _ =>
      obtain rfl := Option.some.inj hanswered
      rfl
    | _ => contradiction
  | begin hat | announce hat | report _ hat | publish _ hat | tell _ hat =>
    exact .same _ _ hat rfl rfl rfl rfl

/-! ## The fate of a run -/

/-- While a run is active, no start has changed the state. -/
theorem Inv.not_claimed (h : Inv c s) (hat : s.stages[n]? = some stage)
    (hrunning : stage.state = .running) (hactive : stage.isEnded = false)
    (hp : s.calls t = some p) : p.isClaimed = false := by
  rw [← Bool.not_eq_true]
  intro hclaimed
  obtain ⟨-, front, hstages, -⟩ := h.last hat hactive
  have hguards := h.holder hp (Point.isLocked_of_isClaimed hclaimed)
  exact (hguards.claimed hclaimed).2 ((lastState_append hstages).trans hrunning)

/-- How far the run is that a start is about to make, as the `n`-th one, on some files. -/
inductive Fate (c : Config) (t : Thread) (files : FileSystem) (n : Nat) (s : Lifecycle) : Prop
  /-- The start has yet to make the thread. -/
  | awaited (p : Point) (hat : s.calls t = some p) (hclaimed : p.isClaimed = true)
      (hstages : s.stages.length = n) (hfiles : s.files = files)
      (hforgot : p = .spawn → s.output? = none)
  /-- The transfer has not ended. -/
  | active (stage : Stage) (hat : s.stages[n]? = some stage) (hopen : stage.final? = none)
      (hfiles : s.files = files) (houtput : s.output? = none)
  /-- The transfer has ended, and what it left is there. -/
  | settled (world : World) (stage : Stage) (hat : s.stages[n]? = some stage)
      (hfinal : stage.final? = some (Job.verdict (Download.run c files world).1))
      (hstages : s.stages.length = n + 1)
      (hfiles : s.files = (Download.run c files world).2.files)
      (houtput : s.output? = (Download.run c files world).2.output?)
  /-- Another start has changed the state. -/
  | superseded (u : Thread) (p : Point) (hat : s.calls u = some p) (hclaimed : p.isClaimed = true)
      (hstages : s.stages.length = n + 1)
  /-- Another run was made. -/
  | followed (hstages : n + 1 < s.stages.length)

/-- A step of a run keeps the fate of the run that was asked for. -/
theorem Fate.run (hinv : Inv c s) (h : Fate c t files n s) (hrun : RunStep c s m s') :
    Fate c t files n s' := by
  obtain ⟨before, after, hbefore, hset, hnotEnded, -, -⟩ := hrun.stages
  have hlength : s'.stages.length = s.stages.length := by rw [hset, List.length_set]
  have hlast : m + 1 = s.stages.length := hinv.handle m (hinv.last hbefore hnotEnded).1
  cases h with
  | awaited p hat hclaimed hstages hfiles hforgot =>
    cases hrun.leaves with
    | same _ _ _ _ _ hfiles' houtput' =>
      exact .awaited p (hrun.calls ▸ hat) hclaimed (hlength.trans hstages) (hfiles'.trans hfiles)
        fun hp => houtput'.trans (hforgot hp)
    | settled world hworking _ _ _ =>
      have hnot := hinv.not_claimed hworking rfl rfl hat
      rw [hclaimed] at hnot
      contradiction
  | active stage hat hopen hfiles houtput =>
    have hn : n + 1 = s.stages.length :=
      hinv.handle n (hinv.last hat (Stage.isEnded_of_final? hopen)).1
    obtain rfl : m = n := by omega
    have hlt : m < s.stages.length := by omega
    cases hrun.leaves with
    | same stage₁ stage₂ hat₁ hset₁ hfinal hfiles' houtput' =>
      obtain rfl := Option.some.inj (hat.symm.trans hat₁)
      refine .active stage₂ ?_ (hfinal.trans hopen) (hfiles'.trans hfiles) (houtput'.trans houtput)
      rw [hset₁, List.getElem?_set_self hlt]
    | settled world _ hset₁ hfiles' houtput' =>
      rw [hfiles] at hset₁ hfiles' houtput'
      refine .settled world (.settled (Job.verdict (Download.run c files world).1)) ?_ rfl
        (hlength.trans hn.symm) hfiles' houtput'
      rw [hset₁, List.getElem?_set_self hlt]
  | settled world stage hat hfinal hstages hfiles houtput =>
    obtain rfl : m = n := by omega
    have hlt : m < s.stages.length := by omega
    cases hrun.leaves with
    | same stage₁ stage₂ hat₁ hset₁ hfinal₁ hfiles' houtput' =>
      obtain rfl := Option.some.inj (hat.symm.trans hat₁)
      refine .settled world stage₂ ?_ (hfinal₁.trans hfinal) (hlength.trans hstages)
        (hfiles'.trans hfiles) (houtput'.trans houtput)
      rw [hset₁, List.getElem?_set_self hlt]
    | settled world' hworking _ _ _ =>
      obtain rfl := Option.some.inj (hat.symm.trans hworking)
      contradiction
  | superseded u p hat hclaimed hstages =>
    exact .superseded u p (hrun.calls ▸ hat) hclaimed (hlength.trans hstages)
  | followed hstages => exact .followed (hlength ▸ hstages)

/-- A start that has changed the state makes a thread, or has yet to do so. -/
theorem CallStep.claims (hname : '\x00' ∉ c.fileName.toList) (h : CallStep c s t (some p) s')
    (hclaimed : p.isClaimed = true) :
    p = .spawn ∧ s'.stages = s.stages ++ [.spawned] ∨
      ∃ p', s'.calls t = some p' ∧ p'.isClaimed = true ∧ s'.stages = s.stages := by
  obtain ⟨p', hnext, hat', -, hkept⟩ := h.claimed hname hclaimed
  rcases next?_cases hclaimed hnext with ⟨rfl, rfl⟩ | ⟨hne, hclaimed'⟩
  · rcases h.stages with ⟨-, hother⟩ | ⟨-, -, hmore⟩
    · exact absurd hat' hother
    · exact Or.inl ⟨rfl, hmore⟩
  · exact Or.inr ⟨p', hat', hclaimed', hkept hne⟩

/-- While a start has changed the state, no other call makes a thread or forgets the output. -/
theorem CallStep.waits (hinv : Inv c s) (hat : s.calls t = some p) (hclaimed : p.isClaimed = true)
    (h : CallStep c s u (s.calls u) s') (hu : u ≠ t) :
    s'.calls t = some p ∧ s'.stages = s.stages ∧ s'.output? = s.output? := by
  have hlocked := Point.isLocked_of_isClaimed hclaimed
  have hother : ∀ q, q.isLocked = true → s.calls u ≠ some q := by
    intro q hq hcalls
    have hsame := (hinv.locked t p hat hlocked).symm.trans (hinv.locked u q hcalls hq)
    exact hu (Option.some.inj hsame).symm
  refine ⟨(h.others hu.symm).trans hat, ?_, h.output_cases.resolve_right (hother .forget rfl)⟩
  rcases h.stages with ⟨hkept, -⟩ | ⟨hspawn, -, -⟩
  · exact hkept
  · exact absurd hspawn (hother .spawn rfl)

/-- A start that has changed the state makes a thread, or is still on its way.  Where it makes
the thread, the output is forgotten. -/
theorem CallStep.goes_on (hname : '\x00' ∉ c.fileName.toList) (hinv : Inv c s)
    (hat : s.calls t = some p) (hclaimed : p.isClaimed = true)
    (h : CallStep c s u (s.calls u) s') :
    p = .spawn ∧ s'.stages = s.stages ++ [.spawned] ∧ s'.output? = s.output? ∨
      ∃ p', s'.calls t = some p' ∧ p'.isClaimed = true ∧ s'.stages = s.stages ∧
        (p' = .spawn → s'.output? = none ∨ p = .spawn ∧ s'.output? = s.output?) := by
  by_cases hu : u = t
  · subst hu
    rw [hat] at h
    rcases h.claims hname hclaimed with ⟨rfl, hmore⟩ | ⟨p', hat', hclaimed', hkept⟩
    · exact Or.inl ⟨rfl, hmore, h.output_cases.resolve_right nofun⟩
    · exact Or.inr ⟨p', hat', hclaimed', hkept, fun hp' => Or.inl (h.forgets (hp' ▸ hat'))⟩
  · obtain ⟨hat', hkept, houtput⟩ := h.waits hinv hat hclaimed hu
    exact Or.inr ⟨p, hat', hclaimed, hkept, fun hp => Or.inr ⟨hp, houtput⟩⟩

theorem Fate.call (hname : '\x00' ∉ c.fileName.toList) (hinv : Inv c s) (h : Fate c t files n s)
    (hcall : CallStep c s u (s.calls u) s') : Fate c t files n s' := by
  have hfiles' := hcall.files_eq
  have hmore : ∀ {stages : List Stage} {m}, s'.stages = stages ++ [.spawned] →
      stages.length = m → s'.stages.length = m + 1 := by
    rintro _ _ hstages rfl
    rw [hstages, List.length_append, List.length_singleton]
  cases h with
  | awaited p hat hclaimed hstages hfiles hforgot =>
    rcases hcall.goes_on hname hinv hat hclaimed with ⟨hp, hmade, houtput⟩ |
      ⟨p', hat', hclaimed', hkept, hforgets⟩
    · refine .active .spawned ?_ rfl (hfiles'.trans hfiles) (houtput.trans (hforgot hp))
      rw [hmade, ← hstages, List.getElem?_concat_length]
    · refine .awaited p' hat' hclaimed' (hkept ▸ hstages) (hfiles'.trans hfiles) fun hp' => ?_
      rcases hforgets hp' with hnone | ⟨hp, houtput⟩
      · exact hnone
      · exact houtput.trans (hforgot hp)
  | active stage hat hopen hfiles houtput =>
    have hother : ∀ q, q.isClaimed = true → s.calls u ≠ some q := by
      intro q hq hcalls
      rw [hinv.not_claimed hat (Stage.state_of_final? hopen) (Stage.isEnded_of_final? hopen)
        hcalls] at hq
      contradiction
    have hkept : s'.stages = s.stages := by
      rcases hcall.stages with ⟨hkept, -⟩ | ⟨hspawn, -, -⟩
      · exact hkept
      · exact absurd hspawn (hother .spawn rfl)
    have houtput' := hcall.output_cases.resolve_right (hother .forget rfl)
    exact .active stage (hkept ▸ hat) hopen (hfiles'.trans hfiles) (houtput'.trans houtput)
  | settled world stage hat hfinal hstages hfiles houtput =>
    rcases hcall.stages with ⟨hkept, -⟩ | ⟨-, -, hmade⟩
    · rcases hcall.output_cases with houtput' | hforget
      · exact .settled world stage (hkept ▸ hat) hfinal (hkept ▸ hstages) (hfiles'.trans hfiles)
          (houtput'.trans houtput)
      · -- the output is forgotten by a start of another run
        rcases hcall.goes_on hname hinv hforget rfl with ⟨hspawn, -⟩ | ⟨p', hat', hclaimed', -⟩
        · contradiction
        · exact .superseded u p' hat' hclaimed' (hkept ▸ hstages)
    · exact .followed (by rw [hmore hmade hstages]; exact Nat.lt_succ_self _)
  | superseded v p hat hclaimed hstages =>
    rcases hcall.goes_on hname hinv hat hclaimed with ⟨-, hmade, -⟩ |
      ⟨p', hat', hclaimed', hkept, -⟩
    · exact .followed (by rw [hmore hmade hstages]; exact Nat.lt_succ_self _)
    · exact .superseded v p' hat' hclaimed' (hkept ▸ hstages)
  | followed hstages =>
    rcases hcall.stages with ⟨hkept, -⟩ | ⟨-, -, hmade⟩
    · exact .followed (hkept ▸ hstages)
    · exact .followed (by rw [hmore hmade rfl]; omega)

/-- From a start that was accepted on, the fate of its run is known. -/
theorem Inv.fate (hname : '\x00' ∉ c.fileName.toList) (h : Inv c s)
    (hat : s.calls t = some (.join .start)) (hsteps : Steps c s s') :
    Fate c t s.files s.stages.length s' := by
  induction hsteps with
  | refl => exact .awaited _ hat rfl rfl rfl nofun
  | step hsteps hstep ih =>
    have hinv := hsteps.inv hname h
    cases hstep with
    | run m hrun => exact ih.run hinv hrun
    | call u hcall => exact ih.call hname hinv hcall

/-! ## The end of a run -/

/-- The state of a job is that of its last run, or running. -/
theorem Inv.state_of_last (h : Inv c s) (hat : s.stages[n]? = some stage)
    (hlast : s.stages.length = n + 1) : s.state = stage.state ∨ s.state = .running := by
  rcases h.state_cases with hstate | ⟨_, _, _, _, _, hrunning, -⟩
  · left
    rw [hstate, lastState, List.getLast?_eq_getElem?, hlast, Nat.add_sub_cancel, hat]
    rfl
  · exact Or.inr hrunning

/-- The last run has published a final state with a reason. -/
def Published (s : Lifecycle) (final : JobState × String) : Prop :=
  ∃ stage, s.stages.getLast? = some stage ∧ stage.published? = some final

/-- The state of a job agrees with its output and its files, from the end of a run on.  The start
of that run was accepted at `s`, and the steps of `path` followed. -/
structure Agrees (c : Config) (s : Lifecycle) (path : List (Lifecycle × Lifecycle))
    (s' : Lifecycle) (world : World) : Prop where
  files_eq : s'.files = (Download.run c s.files world).2.files
  output_eq : s'.output? = (Download.run c s.files world).2.output?
  published : s'.Published (Job.verdict (Download.run c s.files world).1)
  state_eq : s'.state = (Job.verdict (Download.run c s.files world).1).1
  /-- A job that is finished has an output with the payload of its transfer, whose name led to
  nothing before the run.  Its digest is the expected one. -/
  finished : s'.state = .finished → ∃ place payload target, s'.output? = some target ∧
    Download.Saves c s.files world s'.files place payload target ∧ c.Admits payload
  /-- A job that is ready again has no output, and was asked to stop on the way. -/
  ready : s'.state = .ready → s'.output? = none ∧ Raised c path
  /-- A job that has failed has no output, unless the digest of its finished file is wrong. -/
  failed : s'.state = .failed → s'.output? = none ∨
    ∃ place payload target hash kind, s'.output? = some target ∧
      Download.Saves c s.files world s'.files place payload target ∧
      c.expectedHash? = some hash ∧ Digest.ofHex? hash = some kind ∧
      kind.compute payload ≠ Digest.lower hash ∧ s'.Published (.failed, "hash mismatch")

/-- What accords for a download agrees for the job that ran it. -/
theorem agrees_of_accords {world : World}
    (hfiles : s'.files = (Download.run c s.files world).2.files)
    (houtput : s'.output? = (Download.run c s.files world).2.output?)
    (hpublished : s'.Published (Job.verdict (Download.run c s.files world).1))
    (hstate : s'.state = (Job.verdict (Download.run c s.files world).1).1)
    (hraised : s'.state = .ready → Raised c path)
    (haccords : Download.Accords c s.files world s'.files (Download.run c s.files world).1
      s'.output?) : Agrees c s path s' world := by
  refine ⟨hfiles, houtput, hpublished, hstate, ?_, ?_, ?_⟩
  all_goals
    intro hnow
    have houtcome := hstate.symm.trans hnow
    generalize (Download.run c s.files world).1 = outcome at hpublished houtcome haccords
    generalize s'.output? = output? at haccords
  · cases haccords with
    | finished place payload target hsaves hhash =>
      exact ⟨place, payload, target, rfl, hsaves, hhash⟩
    | _ => contradiction
  · cases haccords with
    | stopped _ => exact ⟨rfl, hraised hnow⟩
    | _ => contradiction
  · cases haccords with
    | mismatched place payload target hash kind hsaves hexpected hkind hdiffers =>
      exact Or.inr ⟨place, payload, target, hash, kind, rfl, hsaves, hexpected, hkind, hdiffers,
        hpublished⟩
    | finished _ _ _ _ _ => contradiction
    | _ => exact Or.inl rfl

/-- **The final state of a run agrees with the output and the files**, whatever the server, the
file system and the other threads of the job do.  If the directory has a free name for the
finished file, this holds from the end of a run until another start is accepted. -/
theorem run_agrees (hvalid : c.validate = .ok ()) (hreachable : Reachable c files s)
    (haccepted : s.calls t = some (.join .start)) (htrace : Trace c s path s')
    (hmade : s'.stages.length = s.stages.length + 1) (hended : s'.state ≠ .running)
    (hfree : ∀ made, s.files.createDirectory c.directory = (made, none) →
      ∃ n, n ≤ lastNumber ∧ made.has (destinationPath c n) = false) :
    ∃ world, Agrees c s path s' world := by
  have hsteps := htrace.steps
  have hname : '\x00' ∉ c.fileName.toList := by
    intro hname
    rw [((hsteps.runless hname (hreachable.runless hname)).1).1] at hmade
    contradiction
  have hinv := hreachable.inv hname
  have hinv' := hsteps.inv hname hinv
  cases hinv.fate hname haccepted hsteps with
  | awaited _ _ _ hstages _ _ => omega
  | followed hstages => omega
  | superseded u p hat hclaimed _ =>
    have hguards := hinv'.holder hat (Point.isLocked_of_isClaimed hclaimed)
    exact absurd (hguards.claimed hclaimed).1 hended
  | active stage hat hopen _ _ =>
    rcases hinv'.state_of_last hat hmade with hstate | hrunning
    · exact absurd (hstate.trans (Stage.state_of_final? hopen)) hended
    · exact absurd hrunning hended
  | settled world stage hat hfinal _ hfiles houtput =>
    have hstate := (hinv'.state_of_last hat hmade).resolve_right hended
    have hlast : s'.stages.getLast? = some stage := by
      rw [List.getLast?_eq_getElem?, hmade, Nat.add_sub_cancel, hat]
    obtain ⟨hpublished, hstate⟩ :
        stage.published? = some (Job.verdict (Download.run c s.files world).1) ∧
          s'.state = (Job.verdict (Download.run c s.files world).1).1 := by
      rw [hstate] at hended ⊢
      cases stage with
      | settled _ => exact absurd rfl hended
      | published final | telling final | ended final =>
        obtain rfl := Option.some.inj hfinal
        exact ⟨rfl, rfl⟩
      | _ => contradiction
    have hready : s'.state = .ready → Raised c path := by
      intro hready
      rw [hstate] at hready
      refine (hinv.stopped hname haccepted htrace).resolve_right fun hunstopped => ?_
      exact hunstopped.not_ready (Nat.le_refl _) hat hfinal hready
    refine ⟨world, agrees_of_accords hfiles houtput ⟨stage, hlast, hpublished⟩ hstate hready ?_⟩
    rw [hfiles, houtput]
    exact Download.run_accords hvalid world hfree

/-- A start that has changed the state makes a run, if no thread is left of the run before. -/
theorem Steps.spawns (hname : '\x00' ∉ c.fileName.toList) (hat : s.calls t = some (.join .start))
    (hhandle : s.handle? = none) : ∃ s', Steps c s s' ∧ s'.stages = s.stages ++ [.spawned] ∧
      s'.files = s.files ∧ ∀ u, u ≠ t → s'.calls u = s.calls u := by
  obtain ⟨s₁, hprepares, hat₁, hstages, hfiles, hothers⟩ := During.prepares (c := c) hat hhandle
  have hmade := hprepares.own hat₁ (.spawn hname) (goto_calls_self _ t _)
  refine ⟨_, hmade.steps, congrArg (· ++ [Stage.spawned]) hstages, hfiles, fun u hu => ?_⟩
  rw [← hothers u hu, goto_calls, if_neg hu]

/-- A run that was made ends as its transfer has it, if its server asks for no stop. -/
theorem Steps.concludes {world : World} (hat : s.stages[n]? = some .spawned)
    (hidle : s.calls (.runner n) = none) (hunstopped : ¬ world.HearsStop) :
    ∃ s', Steps c s s' ∧ s'.stages.length = s.stages.length ∧
      s'.state = (Job.verdict (Download.run c s.files world).1).1 := by
  have hbegun : Steps c s _ := .single (.run n (.begin hat))
  have hannouncing := hbegun.step (.run n (.announce (advance_stages hat _)))
  have hworking := hannouncing.step (.run n (.answer .announcing .working .done
    (advance_stages (advance_stages hat .begun) _) rfl hidle))
  have hsettled := hworking.step (.run n (.settle world
    (advance_stages (advance_stages (advance_stages hat .begun) .announcing) _)
    fun h => absurd h hunstopped))
  have hpublished := hsettled.step (.run n (.publish _
    (advance_stages (advance_stages (advance_stages (advance_stages hat .begun) .announcing)
      .working) _)))
  refine ⟨_, hpublished, ?_, rfl⟩
  simp only [advance, tell, List.length_set]

/-- The run of a job that goes on from a quarter of a file ends as finished, and agrees. -/
theorem halfDone_agrees : Job.halfDone.config.validate = .ok () ∧ ∃ s path s' world,
    Reachable Job.halfDone.config Job.halfDoneFiles s ∧
      s.calls (.caller 0) = some (.join .start) ∧ Trace Job.halfDone.config s path s' ∧
      s'.stages.length = s.stages.length + 1 ∧ s'.state = .finished ∧
      Agrees Job.halfDone.config s path s' world := by
  have hvalid : Job.halfDone.config.validate = .ok () := by decide +kernel
  have hname : '\x00' ∉ Job.halfDone.config.fileName.toList := by decide
  have hunstopped : ¬ Job.halfDoneWorld.HearsStop := by
    rintro (hsizes | hreplies | ⟨x, hx, hstop⟩)
    · contradiction
    · contradiction
    · revert x
      decide
  obtain ⟨s, hjoin, hat, -, ⟨hnone, hhandle⟩, hfiles, hidle⟩ :=
    During.first hvalid Job.halfDoneFiles 0
  have hreachable : Reachable Job.halfDone.config Job.halfDoneFiles s :=
    (Reachable.entered _ _ 0).trans hjoin.steps
  obtain ⟨s₁, hspawns, hmade, hfiles₁, hothers⟩ := Steps.spawns hname hat hhandle
  have hspawned : s₁.stages[0]? = some .spawned := by rw [hmade, hnone]; rfl
  obtain ⟨s', hconcludes, hlength, hstate⟩ := Steps.concludes (c := Job.halfDone.config) hspawned
    ((hothers (.runner 0) nofun).trans (hidle 0)) hunstopped
  rw [hfiles₁, hfiles] at hstate
  have hfinished : s'.state = .finished := hstate.trans (by decide +kernel)
  obtain ⟨path, htrace⟩ := (hspawns.trans hconcludes).exists_trace
  have hone : s'.stages.length = s.stages.length + 1 := by
    rw [hlength, hmade, List.length_append, List.length_singleton]
  obtain ⟨world, hagrees⟩ := run_agrees hvalid hreachable hat htrace hone
    (by rw [hfinished]; exact nofun) (by
      intro made hcreated
      have hsame : Job.halfDoneFiles.createDirectory Job.halfDone.config.directory =
          (Job.halfDoneFiles, none) := by decide +kernel
      rw [hfiles, hsame] at hcreated
      obtain rfl := (Prod.mk.inj hcreated).1
      exact ⟨1, by decide, by decide +kernel⟩)
  exact ⟨hvalid, s, path, s', world, hreachable, hat, htrace, hone, hfinished, hagrees⟩

end Lifecycle

end SegmentedDownload
