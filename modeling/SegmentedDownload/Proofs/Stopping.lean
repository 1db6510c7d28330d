import SegmentedDownload.Proofs.OneRun
import SegmentedDownload.Proofs.Closing
import SegmentedDownload.Proofs.Preparation

/-!
# SegmentedDownload.Proofs.Stopping

What a stop does to the runs of a job.

A run that is interrupted has noticed a stop (`Download.hearsStop_of_interrupted`), which it
can do only while the flag is up.  A start lowers the flag before it makes a thread, and only a
call of `stop` raises it.  So on the way to a run that ends as stopped, from its start on, there is
a step in which a call of `stop` raises the flag (`Inv.stopped`).
-/

namespace SegmentedDownload

/-! ## Interrupted runs -/

namespace Transfer

/-- The setup does not hear a stop. -/
theorem accept_stopped {t t' : Transfer} {replies : List Reply} (h : t.accept replies = .ok t') :
    t'.stopped = t.stopped := by
  cases accept_accepts h with
  | whole _ _ length? _ _ _ _ => rfl
  | each workers _ => rfl

/-- A transfer is interrupted only by a stop, before its replies or while bodies arrive. -/
theorem stop_of_interrupted {table : Table} {file : PartialFile} {reporter : Reporter}
    {course : Course} (h : (run table file reporter course).1 = .ok .interrupted) :
    course.replies? = none ∨ ∃ x ∈ course.incidents, x.2 = .stop := by
  have hends := run_ends table file reporter course
  rw [h] at hends
  generalize (run table file reporter course).2 = t at hends
  cases hends with
  | unanswered hreplies => exact Or.inl hreplies
  | closed replies t₁ t₀ t outcome _ haccept hprepare hclose =>
    right
    cases close_closes hclose with
    | interrupted _ hstopped =>
      rw [flushAll_stopped] at hstopped
      refine (stream_stopped hstopped).resolve_left ?_
      obtain ⟨-, -, -, hprepared⟩ := prepare_eq hprepare
      rw [hprepared, accept_stopped haccept]
      exact Bool.false_ne_true

end Transfer

namespace Download

/-- The last stage is not interrupted. -/
theorem finish_ne_interrupted (d : Download) (c : Config) (path : String) (place : Place)
    (file : OpenFile) (headerSize length : Nat) :
    (d.finish c path place file headerSize length).1 ≠ .ok .interrupted := by
  unfold finish
  split
  · exact nofun
  · dsimp only
    cases verify _ c _ <;> exact nofun

theorem stop_of_interrupted {d : Download} {c : Config} {size? : Option Int} {path : String}
    {place : Place} {contents : Bytes} {world : World}
    (h : (d.transfer c size? path place contents world).1 = .ok .interrupted) :
    world.course.replies? = none ∨ ∃ x ∈ world.course.incidents, x.2 = .stop := by
  unfold transfer at h
  dsimp only at h
  split at h
  · exact absurd h (finish_ne_interrupted _ _ _ _ _ _ _)
  · next hrun => exact Transfer.stop_of_interrupted h

/-- A download that was interrupted has heard a stop. -/
theorem hearsStop_of_interrupted {c : Config} {files : FileSystem} {world : World}
    (h : (run c files world).1 = .ok .interrupted) : world.HearsStop := by
  unfold run at h
  dsimp only at h
  split at h
  · contradiction
  · split at h
    · next hsizes => exact Or.inl hsizes
    · unfold fetch at h
      split at h
      · contradiction
      · dsimp only at h
        split at h
        · contradiction
        · exact Or.inr (stop_of_interrupted h)

end Download

theorem Job.interrupted_of_verdict {outcome : Except DownloadError Outcome}
    (h : (verdict outcome).1 = .ready) : outcome = .ok .interrupted := by
  rcases outcome with e | ⟨_⟩ | _ | _
  · contradiction
  · contradiction
  · rfl
  · contradiction

/-! ## The flag -/

namespace Lifecycle

variable {c : Config} {s s' s'' : Lifecycle} {path : List (Lifecycle × Lifecycle)} {t : Thread}
  {p? : Option Point} {n m first : Nat} {stage : Stage}

/-- A call raises the flag as a stop, lowers it as a start, or leaves it. -/
theorem CallStep.cancelled (h : CallStep c s t p? s') :
    s'.cancelled = s.cancelled ∨ s'.cancelled = false ∨ s'.cancelled = true ∧
      ∃ p p', Raises p p' ∧ p? = some p ∧ s'.calls t = some p' := by
  cases h with
  | raise hraises => exact Or.inr (Or.inr ⟨rfl, _, _, hraises, rfl, goto_calls_self _ t _⟩)
  | clear => exact Or.inr (Or.inl rfl)
  | _ => exact Or.inl rfl

theorem RunStep.cancelled (h : RunStep c s n s') : s'.cancelled = s.cancelled := by
  cases h <;> rfl

/-- A run ends as stopped only while the flag is up. -/
theorem RunStep.ready (h : RunStep c s n s') (hlowered : s.cancelled = false)
    (hat : s'.stages[m]? = some stage) {final : JobState × String}
    (hfinal : stage.final? = some final) (hready : final.1 = .ready) :
    ∃ before, s.stages[m]? = some before ∧ before.final? = some final := by
  have hset : ∀ {before after : Stage}, s.stages[n]? = some before →
      s'.stages = s.stages.set n after →
      (after.final? = some final → before.final? = some final) →
      ∃ before, s.stages[m]? = some before ∧ before.final? = some final := by
    intro before after hbefore hstages hkept
    rcases stage_set_cases (hstages ▸ hat) with ⟨rfl, rfl⟩ | ⟨-, hsame⟩
    · exact ⟨before, hbefore, hkept hfinal⟩
    · exact ⟨stage, hsame, hfinal⟩
  cases h with
  | begin hbefore => exact hset hbefore rfl nofun
  | announce hbefore => exact hset hbefore rfl nofun
  | answer before after answer hbefore hanswered _ =>
    refine hset hbefore rfl ?_
    cases before with
    | announcing =>
      obtain rfl := Option.some.inj hanswered
      exact nofun
    | reporting =>
      obtain rfl := Option.some.inj hanswered
      exact nofun
    | telling final =>
      obtain rfl := Option.some.inj hanswered
      exact id
    | _ => contradiction
  | report progress hbefore => exact hset hbefore rfl nofun
  | settle world hbefore hstop =>
    refine hset hbefore rfl fun hsettled => ?_
    obtain rfl := Option.some.inj hsettled
    have hinterrupted := Job.interrupted_of_verdict hready
    rw [hstop (Download.hearsStop_of_interrupted hinterrupted)] at hlowered
    contradiction
  | publish final hbefore => exact hset hbefore rfl id
  | tell final hbefore => exact hset hbefore rfl id

/-- In this step a call of `stop` that is pending raises the flag, which was down. -/
def RaisesFlag (c : Config) (s s' : Lifecycle) : Prop :=
  s.cancelled = false ∧ s'.cancelled = true ∧ ∃ t p p', s.calls t = some p ∧ Raises p p' ∧
    CallStep c s t (some p) s' ∧ s'.calls t = some p'

/-- In one of the steps of an execution a call of `stop` raises the flag. -/
def Raised (c : Config) (path : List (Lifecycle × Lifecycle)) : Prop :=
  ∃ step ∈ path, RaisesFlag c step.1 step.2

theorem Raised.step (h : Raised c path) (step : Lifecycle × Lifecycle) :
    Raised c (path ++ [step]) := by
  obtain ⟨earlier, hmem, hraises⟩ := h
  exact ⟨earlier, List.mem_append_left _ hmem, hraises⟩

theorem Raised.last (h : RaisesFlag c s s') : Raised c (path ++ [(s, s')]) :=
  ⟨(s, s'), List.mem_append_right _ List.mem_cons_self, h⟩

theorem Trace.steps (h : Trace c s path s') : Steps c s s' := by
  induction h with
  | refl => exact .refl
  | step _ hstep ih => exact ih.step hstep

/-- Every execution has its steps. -/
theorem Steps.exists_trace (h : Steps c s s') : ∃ path, Trace c s path s' := by
  induction h with
  | refl => exact ⟨[], .refl⟩
  | step _ hstep ih =>
    obtain ⟨path, htrace⟩ := ih
    exact ⟨_, htrace.step hstep⟩

/-- No stop has reached the runs from the first one on.  Before that run is made, the start that
makes it has yet to lower the flag. -/
inductive Unstopped (t : Thread) (first : Nat) (s : Lifecycle) : Prop
  | raised (hat : s.calls t = some (.join .start) ∨ s.calls t = some .clear)
      (hstages : s.stages.length = first)
  | lowered (hlowered : s.cancelled = false)
      (hnone : ∀ n stage final, first ≤ n → s.stages[n]? = some stage →
        stage.final? = some final → final.1 ≠ .ready)

/-- A run that no stop has reached does not end as stopped. -/
theorem Unstopped.not_ready (h : Unstopped t first s) (hn : first ≤ n)
    (hat : s.stages[n]? = some stage) {final : JobState × String}
    (hfinal : stage.final? = some final) : final.1 ≠ .ready := by
  cases h with
  | raised _ hstages =>
    have hlt := (List.getElem?_eq_some_iff.mp hat).1
    omega
  | lowered _ hnone => exact hnone n stage final hn hat hfinal

/-- A step of a run keeps it so, as the flag is down. -/
theorem Unstopped.run (h : Unstopped t first s) (hrun : RunStep c s n s') :
    Unstopped t first s' := by
  cases h with
  | raised hat hstages =>
    obtain ⟨_, _, -, hset, -⟩ := hrun.stages
    refine .raised (hrun.calls ▸ hat) ?_
    rw [hset, List.length_set, hstages]
  | lowered hlowered hnone =>
    refine .lowered (hrun.cancelled.trans hlowered) fun m stage final hm hat hfinal hready => ?_
    obtain ⟨before, hbefore, hkept⟩ := hrun.ready hlowered hat hfinal hready
    exact hnone m before final hm hbefore hkept hready

/-- A step of a call keeps it so, or raises the flag. -/
theorem Unstopped.call (hname : '\x00' ∉ c.fileName.toList) (h : Unstopped t first s)
    (hinv : Inv c s) {u : Thread} (hp : s.calls u = p?) (hcall : CallStep c s u p? s') :
    Unstopped t first s' ∨ RaisesFlag c s s' := by
  cases h with
  | raised hat hstages =>
    left
    have hlocked : s.lock? = some t := by
      rcases hat with hat | hat <;> exact hinv.locked t _ hat rfl
    by_cases hu : t = u
    · subst hu
      rcases hat with hat | hat
      · obtain rfl := hp.symm.trans hat
        obtain ⟨p', hp', hclear, -, hkept⟩ := hcall.claimed hname rfl
        obtain rfl := Option.some.inj hp'
        exact .raised (Or.inr hclear) (hkept nofun ▸ hstages)
      · obtain rfl := hp.symm.trans hat
        obtain ⟨_, _, _, hlowered, hkept⟩ := hcall.claimed hname rfl
        refine .lowered (hlowered rfl) fun n stage final hn hstage hfinal => ?_
        exact (Unstopped.raised (Or.inr hat) hstages).not_ready hn (hkept nofun ▸ hstage) hfinal
    · refine .raised ((hcall.others hu).symm ▸ hat) ?_
      rcases hcall.stages with ⟨hkept, -⟩ | ⟨hspawn, -, -⟩
      · rw [hkept, hstages]
      · have hlock := hinv.locked u _ (hp.trans hspawn) rfl
        exact absurd (Option.some.inj (hlocked.symm.trans hlock)) hu
  | lowered hlowered hnone =>
    have hstages : ∀ n stage final, first ≤ n → s'.stages[n]? = some stage →
        stage.final? = some final → final.1 ≠ .ready := by
      intro n stage final hn hat hfinal
      rcases hcall.stages with ⟨hkept, -⟩ | ⟨-, -, hspawned⟩
      · exact hnone n stage final hn (hkept ▸ hat) hfinal
      · rcases stage_snoc_cases (hspawned ▸ hat) with ⟨-, hold⟩ | ⟨-, rfl⟩
        · exact hnone n stage final hn hold hfinal
        · contradiction
    rcases hcall.cancelled with hkept | hcleared | ⟨hup, p, p', hraises, rfl, hat'⟩
    · exact Or.inl (.lowered (hkept.trans hlowered) hstages)
    · exact Or.inl (.lowered hcleared hstages)
    · exact Or.inr ⟨hlowered, hup, u, p, p', hp, hraises, hcall, hat'⟩

/-- An execution from an accepted start on raises the flag before its run can end as stopped. -/
theorem Inv.stopped (hname : '\x00' ∉ c.fileName.toList) (h : Inv c s)
    (hat : s.calls t = some (.join .start)) (htrace : Trace c s path s') :
    Raised c path ∨ Unstopped t s.stages.length s' := by
  induction htrace with
  | refl => exact Or.inr (.raised (Or.inl hat) rfl)
  | step htrace hstep ih =>
    rcases ih with hraised | hunstopped
    · exact Or.inl (hraised.step _)
    · cases hstep with
      | run n hrun => exact Or.inr (hunstopped.run hrun)
      | call u hcall =>
        rcases hunstopped.call hname (htrace.steps.inv hname h) rfl hcall with hkept | hraises
        · exact Or.inr hkept
        · exact Or.inl (.last hraises)

end Lifecycle

end SegmentedDownload
