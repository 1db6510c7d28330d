import SegmentedDownload.Proofs.Orderly

/-!
# SegmentedDownload.Proofs.FailedStart

What becomes of a start, from the moment at which it is made until it comes back.

* A start off the runner that has a valid configuration does not come back before it has looked
  at the state (`During.looks`).
* If it finds the job running it is refused (`EndsWith.running`).  If not, it has changed the
  state, and whether it is accepted or crashes depends only on the name of the job
  (`EndsWith.bound`).
* A job whose name has a NUL character never has a run, so nothing takes back what a start has
  done to the state: the job is running for ever (`Steps.runless`), and every later start is
  refused (`EndsWith.stuck`).

`StartOutcomes` puts this together.
-/

namespace SegmentedDownload

namespace Point

/-- Points of a start that has changed the state. -/
def IsBound (c : Config) (p : Point) : Prop :=
  p.isClaimed = true ∨ p = .unlock (.started .accepted) ∧ '\x00' ∉ c.fileName.toList ∨
    p = .unlock (.started .crashed) ∧ '\x00' ∈ c.fileName.toList

/-- Points of a start in front of the look at the state. -/
def isEarly : Point → Bool
  | enter .start | identify .start | acquire .start | claim => true
  | _ => false

/-- Points of a start that is not decided on, or is refused since the job is running. -/
def isHeld : Point → Bool
  | enter .start | identify .start | acquire .start | claim => true
  | unlock (.started (.refused .alreadyRunning)) => true
  | leave (.started (.refused .alreadyRunning)) => true
  | _ => false

end Point

namespace Lifecycle

variable {c : Config} {files : FileSystem} {s s' s₁ s₂ : Lifecycle} {t : Thread} {p p' : Point}
  {p? : Option Point} {n : Nat} {result : StartResult}

/-! ## Calls on their way -/

/-- Since `s` a thread is in a call. -/
inductive During (c : Config) (t : Thread) (s : Lifecycle) : Lifecycle → Prop
  | refl : During c t s s
  | step {s' s'' : Lifecycle} (h : During c t s s') (hstep : Step c s' s'')
      (hpending : s''.calls t ≠ none) : During c t s s''

/-- The start that a thread is in at `s` comes back at `s'`. -/
structure EndsWith (c : Config) (t : Thread) (s s' : Lifecycle) (result : StartResult) : Prop where
  during : During c t s s'
  decided : s'.calls t = some (.unlock (.started result)) ∨
    s'.calls t = some (.leave (.started result))

/-- A start looks at the state. -/
structure Looks (c : Config) (t : Thread) (s s' : Lifecycle) : Prop where
  hat : s.calls t = some .claim
  step : CallStep c s t (some .claim) s'

theorem During.steps (h : During c t s s') : Steps c s s' := by
  induction h with
  | refl => exact .refl
  | step _ hstep _ ih => exact ih.step hstep

theorem During.trans (h : During c t s s') (h' : During c t s' s₁) : During c t s s₁ := by
  induction h' with
  | refl => exact h
  | step _ hstep hpending ih => exact ih.step hstep hpending

/-- A call that is at a point stays there, or takes a step. -/
theorem Step.own_or_other (h : Step c s s') (hat : s.calls t = some p) :
    CallStep c s t (some p) s' ∨ s'.calls t = some p := by
  cases h with
  | run n hrun => exact Or.inr (hrun.calls ▸ hat)
  | call u hcall =>
    by_cases hu : t = u
    · subst hu
      exact Or.inl (hat ▸ hcall)
    · exact Or.inr ((hcall.others hu).trans hat)

/-- What each step of a call keeps is kept as long as it takes. -/
theorem During.track {motive : Point → Prop} (h : During c t s s') (hat : s.calls t = some p)
    (hp : motive p)
    (hown : ∀ {s₁ s₂ p p'}, During c t s s₁ → CallStep c s₁ t (some p) s₂ →
      s₂.calls t = some p' → motive p → motive p') :
    ∃ p', s'.calls t = some p' ∧ motive p' := by
  induction h with
  | refl => exact ⟨p, hat, hp⟩
  | step h hstep hpending ih =>
    obtain ⟨q, hq, hmotive⟩ := ih
    obtain ⟨q', hq'⟩ := Option.ne_none_iff_exists'.mp hpending
    rcases hstep.own_or_other hq with hcall | hsame
    · exact ⟨q', hq', hown h hcall hq' hmotive⟩
    · exact ⟨q, hsame, hmotive⟩

theorem EndsWith.eq_of_calls (h : EndsWith c t s s' result) (hat : s'.calls t = some p) :
    p = .unlock (.started result) ∨ p = .leave (.started result) := by
  rcases h.decided with hp | hp
  · exact Or.inl (Option.some.inj (hat.symm.trans hp))
  · exact Or.inr (Option.some.inj (hat.symm.trans hp))

/-- A call that ends with a result has no other answer before. -/
theorem EndsWith.eq_of_answer (h : EndsWith c t s s' result) (hat : s'.calls t = some p)
    {result' : StartResult} (hanswer : p.answer? = some result') : result = result' := by
  rcases h.eq_of_calls hat with rfl | rfl <;> exact Option.some.inj hanswer

/-! ## Steps of a start -/

theorem CallStep.isStart (h : CallStep c s t (some p) s') (hat : s'.calls t = some p')
    (hp : p.isStart = true) : p'.isStart = true := by
  cases h with
  | move hmoves =>
    obtain rfl := goto_eq hat
    cases hmoves with
    | own call _ | other call _ | vacant call _ => cases call <;> first | rfl | contradiction
    | _ => first | rfl | contradiction
  | raise hraises => cases hraises <;> contradiction
  | acquire call _ | join call _ _ _ _ =>
    obtain rfl := goto_eq hat
    cases call <;> first | rfl | contradiction
  | unlock _ | leave _ => exact (drop_ne hat).elim
  | _ =>
    obtain rfl := goto_eq hat
    rfl

/-- A start that has changed the state is accepted or crashes. -/
theorem CallStep.bound (h : CallStep c s t (some p) s') (hat : s'.calls t = some p')
    (hp : p.IsBound c) : p'.IsBound c := by
  cases h with
  | move hmoves =>
    obtain rfl := goto_eq hat
    cases hmoves with
    | vacant call _ =>
      cases call with
      | start => exact Or.inl rfl
      | _ => rcases hp with hp | ⟨hp, -⟩ | ⟨hp, -⟩ <;> contradiction
    | crash hname => exact Or.inr (Or.inr ⟨rfl, hname⟩)
    | _ => rcases hp with hp | ⟨hp, -⟩ | ⟨hp, -⟩ <;> contradiction
  | join call _ _ _ _ =>
    obtain rfl := goto_eq hat
    cases call with
    | start => exact Or.inl rfl
    | _ => rcases hp with hp | ⟨hp, -⟩ | ⟨hp, -⟩ <;> contradiction
  | clear | reset | forget =>
    obtain rfl := goto_eq hat
    exact Or.inl rfl
  | spawn hname =>
    obtain rfl := goto_eq hat
    exact Or.inr (Or.inl ⟨rfl, hname⟩)
  | unlock _ => exact (drop_ne hat).elim
  | raise hraises =>
    rcases hp with hp | ⟨hp, -⟩ | ⟨hp, -⟩ <;> cases hraises <;> contradiction
  | _ => rcases hp with hp | ⟨hp, -⟩ | ⟨hp, -⟩ <;> contradiction

/-- A start that finds the job running is refused. -/
theorem CallStep.held (hvalid : c.validate = .ok ()) (h : CallStep c s t (some p) s')
    (hstate : s.state = .running) (hat : s'.calls t = some p') (hp : p.isHeld = true) :
    p'.isHeld = true := by
  cases h with
  | move hmoves =>
    obtain rfl := goto_eq hat
    cases hmoves with
    | invalid cause hinvalid =>
      rw [hvalid] at hinvalid
      contradiction
    | own call _ | other call _ =>
      cases call with
      | start => rfl
      | _ => contradiction
    | valid _ | running _ => rfl
    | _ => contradiction
  | raise hraises => cases hraises <;> contradiction
  | acquire call _ =>
    obtain rfl := goto_eq hat
    cases call with
    | start => rfl
    | _ => contradiction
  | claim hfree => exact absurd hstate hfree
  | unlock _ | leave _ => exact (drop_ne hat).elim
  | _ => contradiction

/-- Off the runner, a start goes on to its look at the state. -/
theorem CallStep.early (hvalid : c.validate = .ok ()) {id : Nat}
    (h : CallStep c s (.caller id) (some p) s') (hat : s'.calls (.caller id) = some p')
    (hp : p.isEarly = true) : p'.isEarly = true ∨ p = .claim := by
  cases h with
  | move hmoves =>
    obtain rfl := goto_eq hat
    cases hmoves with
    | invalid cause hinvalid =>
      rw [hvalid] at hinvalid
      contradiction
    | own call hrunner => exact absurd hrunner (not_isRunner s id)
    | other call _ =>
      cases call with
      | start => exact Or.inl rfl
      | _ => contradiction
    | valid _ => exact Or.inl rfl
    | running _ => exact Or.inr rfl
    | _ => contradiction
  | raise hraises => cases hraises <;> contradiction
  | acquire call _ =>
    obtain rfl := goto_eq hat
    cases call with
    | start => exact Or.inl rfl
    | _ => contradiction
  | claim _ => exact Or.inr rfl
  | _ => contradiction

/-! ## Whole starts -/

/-- No start off the runner comes back before it has looked at the state. -/
theorem During.looks (hvalid : c.validate = .ok ()) {id : Nat}
    (h : During c (.caller id) s s') (hat : s.calls (.caller id) = some (.enter .start)) :
    (∃ p, s'.calls (.caller id) = some p ∧ p.isEarly = true) ∨
      ∃ s₁ s₂, During c (.caller id) s s₁ ∧ Looks c (.caller id) s₁ s₂ ∧
        During c (.caller id) s₂ s' := by
  induction h with
  | refl => exact Or.inl ⟨_, hat, rfl⟩
  | step h hstep hpending ih =>
    rcases ih with ⟨p, hp, hearly⟩ | ⟨s₁, s₂, hbefore, hlooks, hafter⟩
    · obtain ⟨p', hp'⟩ := Option.ne_none_iff_exists'.mp hpending
      rcases hstep.own_or_other hp with hcall | hsame
      · rcases hcall.early hvalid hp' hearly with hearly' | rfl
        · exact Or.inl ⟨p', hp', hearly'⟩
        · exact Or.inr ⟨_, _, h, ⟨hp, hcall⟩, .refl⟩
      · exact Or.inl ⟨p, hsame, hearly⟩
    · exact Or.inr ⟨s₁, s₂, hbefore, hlooks, hafter.step hstep hpending⟩

/-- What a start that looks at the state finds. -/
theorem Looks.cases (h : Looks c t s s') :
    s.state = .running ∧ s'.calls t = some (.unlock (.started (.refused .alreadyRunning))) ∨
      s.state ≠ .running ∧ s'.calls t = some (.join .start) ∧ s'.state = .running := by
  obtain ⟨-, hstep⟩ := h
  cases hstep with
  | move hmoves =>
    cases hmoves with
    | running hstate => exact Or.inl ⟨hstate, goto_calls_self s t _⟩
  | raise hraises => contradiction
  | claim hstate => exact Or.inr ⟨hstate, goto_calls_self _ t _, rfl⟩

/-- A start that finds the job not running is accepted or crashes, as the name will have it. -/
theorem EndsWith.bound (h : EndsWith c t s' s₁ result) (hlooks : Looks c t s s')
    (hstate : s.state ≠ .running) :
    result = .accepted ∧ '\x00' ∉ c.fileName.toList ∨
      result = .crashed ∧ '\x00' ∈ c.fileName.toList := by
  rcases hlooks.cases with ⟨hrunning, -⟩ | ⟨-, hat, -⟩
  · exact absurd hrunning hstate
  · obtain ⟨p, hp, hbound⟩ := h.during.track hat (Or.inl rfl : Point.IsBound c (.join .start))
      fun _ hcall => hcall.bound
    rcases hbound with hclaimed | ⟨rfl, hname⟩ | ⟨rfl, hname⟩
    · rcases h.eq_of_calls hp with rfl | rfl <;> contradiction
    · exact Or.inl ⟨h.eq_of_answer hp rfl, hname⟩
    · exact Or.inr ⟨h.eq_of_answer hp rfl, hname⟩

/-- A start that is about to return does nothing else. -/
theorem During.returning (h : During c t s s')
    (hat : s.calls t = some p) (hp : ∃ r, p = .unlock r ∨ p = .leave r) :
    s'.calls t = some p := by
  obtain ⟨r, hr⟩ := hp
  obtain ⟨p', hp', rfl⟩ := h.track hat (rfl : p = p) fun {_ _ q q'} _ hcall hat' hq => by
    subst hq
    rcases hr with rfl | rfl
    · cases hcall with
      | unlock _ => exact (drop_ne hat').elim
      | move hmoves => contradiction
      | raise hraises => contradiction
    · cases hcall with
      | leave _ => exact (drop_ne hat').elim
      | move hmoves => contradiction
      | raise hraises => contradiction
  exact hp'

/-- A start that finds the job running is refused. -/
theorem EndsWith.running (h : EndsWith c t s' s₁ result) (hlooks : Looks c t s s')
    (hstate : s.state = .running) : result = .refused .alreadyRunning := by
  rcases hlooks.cases with ⟨-, hat⟩ | ⟨hne, -⟩
  · rcases h.eq_of_calls (h.during.returning hat ⟨_, Or.inl rfl⟩) with heq | heq
    · cases heq
      rfl
    · contradiction
  · exact absurd hstate hne

/-- What no step of a start that is refused changes. -/
structure Keeps (s s' : Lifecycle) : Prop where
  state : s'.state = s.state
  progress : s'.progress = s.progress
  cancelled : s'.cancelled = s.cancelled
  output : s'.output? = s.output?
  stages : s'.stages = s.stages

/-- A start that is refused has changed nothing. -/
theorem EndsWith.keeps {s₃ : Lifecycle} {cause : DownloadError}
    (hat : s.calls t = some (.enter .start)) (h : EndsWith c t s s₃ (.refused cause))
    (hbefore : During c t s s₁) (hcall : CallStep c s₁ t (s₁.calls t) s₂)
    (hafter : During c t s₂ s₃) : Keeps s₁ s₂ := by
  obtain ⟨p, hp, hstart⟩ := hbefore.track (motive := fun p => p.isStart = true) hat rfl
    fun _ hcall => hcall.isStart
  rw [hp] at hcall
  have hnext : ∀ p', s₂.calls t = some p' →
      p'.isStart = true ∧ p'.answer? ≠ some .accepted := by
    refine fun p' hp' => ⟨hcall.isStart hp' hstart, fun haccepted => ?_⟩
    rcases answer?_cases haccepted with ⟨hclaimed, -⟩ | rfl | rfl
    · obtain ⟨q, hq, hbound⟩ := hafter.track hp' (Or.inl hclaimed : p'.IsBound c)
        fun _ hcall => hcall.bound
      rcases hbound with hclaimed | ⟨rfl, -⟩ | ⟨rfl, -⟩
      · exact absurd (h.eq_of_answer hq (answer?_of_isClaimed hclaimed)) nofun
      · exact absurd (h.eq_of_answer hq rfl) nofun
      · exact absurd (h.eq_of_answer hq rfl) nofun
    · exact absurd (h.eq_of_answer (hafter.returning hp' ⟨_, Or.inl rfl⟩) rfl) nofun
    · exact absurd (h.eq_of_answer (hafter.returning hp' ⟨_, Or.inr rfl⟩) rfl) nofun
  obtain ⟨hstate, hprogress, hcancelled, houtput⟩ := hcall.rejects hnext
  refine ⟨hstate, hprogress, hcancelled, houtput, ?_⟩
  rcases hcall.stages with ⟨hsame, -⟩ | ⟨-, haccepted, -⟩
  · exact hsame
  · exact absurd rfl (hnext _ haccepted).2

/-! ## Starts come back -/

/-- A call that returns has come to its end. -/
theorem Steps.ends (h : Steps c s s') (hat : s.calls t = some p) :
    During c t s s' ∨ ∃ s₁ s₂ p₁, During c t s s₁ ∧ s₁.calls t = some p₁ ∧
      CallStep c s₁ t (some p₁) s₂ ∧ s₂.calls t = none := by
  induction h with
  | refl => exact Or.inl .refl
  | @step s₁ s₂ _ hstep ih =>
    rcases ih with hduring | hends
    · obtain ⟨p₁, hp₁, -⟩ := hduring.track (motive := fun _ => True) hat trivial
        fun _ _ _ _ => trivial
      cases hnone : s₂.calls t with
      | some _ => exact Or.inl (hduring.step hstep (by rw [hnone]; exact nofun))
      | none =>
        rcases hstep.own_or_other hp₁ with hcall | hsame
        · exact Or.inr ⟨s₁, s₂, p₁, hduring, hp₁, hcall, hnone⟩
        · rw [hnone] at hsame
          contradiction
    · exact Or.inr hends

/-- A start can come back. -/
theorem Inv.comes_back (hname : '\x00' ∉ c.fileName.toList) (h : Inv c s)
    (hat : s.calls t = some p) (hstart : p.isStart = true) :
    ∃ s' result, EndsWith c t s s' result := by
  obtain ⟨s', hsteps, hnone⟩ := h.returns hname t
  rcases hsteps.ends hat with hduring | ⟨s₁, s₂, p₁, hduring, hp₁, hcall, hnone⟩
  · obtain ⟨p', hp', -⟩ := hduring.track (motive := fun _ => True) hat trivial
      fun _ _ _ _ => trivial
    rw [hnone] at hp'
    contradiction
  · obtain ⟨p', hp', hstart'⟩ := hduring.track (motive := fun p => p.isStart = true) hat hstart
      fun _ hcall => hcall.isStart
    obtain rfl := Option.some.inj (hp₁.symm.trans hp')
    have hreturns : ∀ {s : Lifecycle} {q}, (s.goto t q).calls t ≠ none := fun heq =>
      absurd ((goto_calls_self _ t _).symm.trans heq) nofun
    cases hcall with
    | unlock result =>
      cases result with
      | started result => exact ⟨s₁, result, hduring, Or.inl hp₁⟩
      | done => contradiction
    | leave result =>
      cases result with
      | started result => exact ⟨s₁, result, hduring, Or.inr hp₁⟩
      | done => contradiction
    | _ => exact absurd hnone hreturns

/-- While a thread has the mutex, nobody else makes a run. -/
theorem Step.length_stages (hinv : Inv c s) (hat : s.calls t = some p) (hlocked : p.isLocked = true)
    (h : Step c s s') : CallStep c s t (some p) s' ∨
      s'.calls t = some p ∧ s'.stages.length = s.stages.length := by
  cases h with
  | run n hrun =>
    obtain ⟨_, _, -, hset, -⟩ := hrun.stages
    exact Or.inr ⟨hrun.calls ▸ hat, by rw [hset, List.length_set]⟩
  | call u hcall =>
    by_cases hu : t = u
    · subst hu
      exact Or.inl (hat ▸ hcall)
    · refine Or.inr ⟨(hcall.others hu).trans hat, ?_⟩
      rcases hcall.stages with ⟨hsame, -⟩ | ⟨hspawn, -, -⟩
      · rw [hsame]
      · have hlock := (hinv.locked t p hat hlocked).symm.trans (hinv.locked u _ hspawn rfl)
        exact absurd (Option.some.inj hlock) hu

/-- A start that has changed the state goes on to make a thread, or has just made it. -/
theorem next?_cases (hclaimed : p.isClaimed = true) (hnext : p.next? = some p') :
    p = .spawn ∧ p' = .unlock (.started .accepted) ∨ p ≠ .spawn ∧ p'.isClaimed = true := by
  cases p with
  | join call =>
    cases call with
    | start =>
      obtain rfl := Option.some.inj hnext
      exact Or.inr ⟨nofun, rfl⟩
    | _ => contradiction
  | clear | reset | forget =>
    obtain rfl := Option.some.inj hnext
    exact Or.inr ⟨nofun, rfl⟩
  | spawn =>
    obtain rfl := Option.some.inj hnext
    exact Or.inl ⟨rfl, rfl⟩
  | _ => contradiction

/-- A start that has changed the state makes one run. -/
theorem During.makes (hname : '\x00' ∉ c.fileName.toList) (hinv : Inv c s)
    (h : During c t s s') (hat : s.calls t = some p) (hclaimed : p.isClaimed = true) :
    ∃ p', s'.calls t = some p' ∧
      (p'.isClaimed = true ∧ s'.stages.length = s.stages.length ∨
        p' = .unlock (.started .accepted) ∧ s'.stages.length = s.stages.length + 1) := by
  induction h with
  | refl => exact ⟨p, hat, Or.inl ⟨hclaimed, rfl⟩⟩
  | @step s₁ s₂ h hstep hpending ih =>
    obtain ⟨q, hq, hmade⟩ := ih
    have hinv₁ := h.steps.inv hname hinv
    have hlocked : q.isLocked = true := by
      rcases hmade with ⟨hq, -⟩ | ⟨rfl, -⟩
      · cases q <;> first | rfl | contradiction
      · rfl
    rcases hstep.length_stages hinv₁ hq hlocked with hcall | ⟨hsame, hlength⟩
    · rcases hmade with ⟨hq', hlength⟩ | ⟨rfl, -⟩
      · obtain ⟨q', hnext, hat', -, hkept⟩ := hcall.claimed hname hq'
        refine ⟨q', hat', ?_⟩
        rcases next?_cases hq' hnext with ⟨-, rfl⟩ | ⟨hne, hclaimed'⟩
        · rcases hcall.stages with ⟨-, hne⟩ | ⟨-, -, hmore⟩
          · exact absurd hat' hne
          · exact Or.inr ⟨rfl, by rw [hmore, List.length_append, hlength]; rfl⟩
        · exact Or.inl ⟨hclaimed', by rw [hkept hne, hlength]⟩
      · cases hcall with
        | unlock _ => exact absurd (drop_calls_self _ t) hpending
        | move hmoves => contradiction
        | raise hraises => contradiction
    · exact ⟨q, hsame, hlength ▸ hmade⟩

/-- A start that ends as accepted has made one run. -/
theorem EndsWith.makes (hname : '\x00' ∉ c.fileName.toList) (hinv : Inv c s')
    (h : EndsWith c t s' s₁ .accepted) (hlooks : Looks c t s s') (hstate : s.state ≠ .running) :
    s₁.stages.length = s.stages.length + 1 := by
  rcases hlooks.cases with ⟨hrunning, -⟩ | ⟨-, hat, -⟩
  · exact absurd hrunning hstate
  · have hsame : s'.stages = s.stages := by
      rcases hlooks.step.stages with ⟨hsame, -⟩ | ⟨hspawn, -⟩
      · exact hsame
      · contradiction
    obtain ⟨p, hp, hmade⟩ := h.during.makes hname hinv hat rfl
    rcases hmade with ⟨hclaimed, -⟩ | ⟨-, hlength⟩
    · rcases h.eq_of_calls hp with rfl | rfl <;> contradiction
    · rw [hlength, hsame]

/-! ## Names with a NUL character -/

/-- No thread was made for a run. -/
def Runless (s : Lifecycle) : Prop := s.stages = [] ∧ s.handle? = none

/-- Where no run was made, none takes a step. -/
theorem RunStep.not_runless (h : RunStep c s n s') : ¬ Runless s := by
  rintro ⟨hnone, -⟩
  obtain ⟨_, _, hat, -⟩ := h.stages
  rw [hnone] at hat
  contradiction

/-- A job whose name has a NUL character has no run, and nothing takes back that it is running. -/
theorem CallStep.runless (hname : '\x00' ∈ c.fileName.toList) (hnone : Runless s)
    (h : CallStep c s t p? s') : Runless s' ∧ (s.state = .running → s'.state = .running) := by
  cases h with
  | claim _ => exact ⟨hnone, fun _ => rfl⟩
  | join call n final hhandle _ =>
    rw [hnone.2] at hhandle
    contradiction
  | spawn hname' => exact absurd hname hname'
  | _ => exact ⟨hnone, id⟩

/-- Where no thread can be made no run begins, and once the state is running it stays so. -/
theorem Steps.runless (hname : '\x00' ∈ c.fileName.toList) (hnone : Runless s)
    (h : Steps c s s') : Runless s' ∧ (s.state = .running → s'.state = .running) := by
  induction h with
  | refl => exact ⟨hnone, id⟩
  | step _ hstep ih =>
    obtain ⟨hnone', hkept⟩ := ih
    cases hstep with
    | run n hrun => exact absurd hnone' hrun.not_runless
    | call u hcall =>
      obtain ⟨hnone'', hkept'⟩ := hcall.runless hname hnone'
      exact ⟨hnone'', hkept' ∘ hkept⟩

/-- A job whose file name cannot be that of a thread never runs. -/
theorem Reachable.runless (hname : '\x00' ∈ c.fileName.toList) (h : Reachable c files s) :
    Runless s :=
  (Steps.runless hname ⟨rfl, rfl⟩ h).1

/-- While a job without a run is running, every start is refused. -/
theorem EndsWith.stuck (hvalid : c.validate = .ok ()) (hname : '\x00' ∈ c.fileName.toList)
    (hnone : Runless s) (hstate : s.state = .running) (hat : s.calls t = some (.enter .start))
    (h : EndsWith c t s s' result) : result = .refused .alreadyRunning := by
  obtain ⟨p, hp, hheld⟩ := h.during.track (motive := fun p => p.isHeld = true) hat rfl
    fun hduring hcall => hcall.held hvalid ((hduring.steps.runless hname hnone).2 hstate)
  rcases h.eq_of_calls hp with rfl | rfl
  · cases result with
    | refused cause => cases cause <;> first | rfl | contradiction
    | _ => contradiction
  · cases result with
    | refused cause => cases cause <;> first | rfl | contradiction
    | _ => contradiction

/-- A call takes a step. -/
theorem During.own (h : During c t s s₁) (hat : s₁.calls t = some p)
    (hcall : CallStep c s₁ t (some p) s₂) (hat' : s₂.calls t = some p') : During c t s s₂ :=
  h.step (.of_call hat hcall) (by rw [hat']; exact nofun)

/-- A start that has changed the state comes to the making of the thread, if none is left of the
run before. -/
theorem During.prepares (hat : s.calls t = some (.join .start)) (hhandle : s.handle? = none) :
    ∃ s', During c t s s' ∧ s'.calls t = some .spawn ∧ s'.stages = s.stages ∧
      s'.files = s.files ∧ ∀ u, u ≠ t → s'.calls u = s.calls u := by
  have hclear : During c t s _ :=
    .own .refl hat (.move (.vacant .start hhandle)) (goto_calls_self s t .clear)
  have hreset := hclear.own (goto_calls_self _ t _) .clear (goto_calls_self _ t _)
  have hforget := hreset.own (goto_calls_self _ t _) .reset (goto_calls_self _ t _)
  have hspawn := hforget.own (goto_calls_self _ t _) .forget (goto_calls_self _ t _)
  exact ⟨_, hspawn, goto_calls_self _ t _, rfl, rfl, fun u hu => by simp [goto, hu]⟩

/-- A start that has changed the state of a job without a run can crash. -/
theorem Runless.crashes (hname : '\x00' ∈ c.fileName.toList) (hnone : Runless s)
    (hat : s.calls t = some (.join .start)) : ∃ s', EndsWith c t s s' .crashed := by
  obtain ⟨s₁, hprepares, hat₁, -⟩ := During.prepares (c := c) hat hnone.2
  have hcrash := hprepares.own hat₁ (.move (.crash hname)) (goto_calls_self _ t _)
  exact ⟨_, hcrash, Or.inl (goto_calls_self _ t _)⟩

/-! ## New jobs -/

/-- A caller can enter a start at once. -/
theorem Reachable.entered (c : Config) (files : FileSystem) (id : Nat) :
    Reachable c files ((new files).goto (.caller id) (.enter .start)) :=
  .single (.call (.caller id) (.enter .start trivial))

/-- The first start of a new job changes the state. -/
theorem During.first (hvalid : c.validate = .ok ()) (files : FileSystem) (id : Nat) :
    ∃ s, During c (.caller id) ((new files).goto (.caller id) (.enter .start)) s ∧
      s.calls (.caller id) = some (.join .start) ∧ s.state = .running ∧ Runless s ∧
      s.files = files ∧ ∀ n, s.calls (.runner n) = none := by
  have hidentify : During c (.caller id) ((new files).goto (.caller id) (.enter .start)) _ :=
    .own .refl (goto_calls_self _ _ _) (.move (.valid hvalid)) (goto_calls_self _ _ _)
  have hacquire := hidentify.own (goto_calls_self _ _ _)
    (.move (.other .start (not_isRunner _ id))) (goto_calls_self _ _ _)
  have hclaim := hacquire.own (goto_calls_self _ _ _) (.acquire .start rfl) (goto_calls_self _ _ _)
  have hjoin := hclaim.own (goto_calls_self _ _ _) (.claim nofun) (goto_calls_self _ _ _)
  exact ⟨_, hjoin, goto_calls_self _ _ _, rfl, ⟨rfl, rfl⟩, rfl, fun n => by simp [goto, new]⟩

/-! ## Outcomes -/

/-- How the starts of a job with a valid configuration end. -/
structure StartOutcomes (c : Config) (files : FileSystem) : Prop where
  /-- A start can come back. -/
  returns : '\x00' ∉ c.fileName.toList → ∀ {s t p}, Reachable c files s → s.calls t = some p →
    p.isStart = true → ∃ s' result, EndsWith c t s s' result
  /-- Off the runner, it does not come back before it has looked at the state. -/
  looks : ∀ {s s' : Lifecycle} {id result}, s.calls (.caller id) = some (.enter .start) →
    EndsWith c (.caller id) s s' result → ∃ s₁ s₂, During c (.caller id) s s₁ ∧
      Looks c (.caller id) s₁ s₂ ∧ During c (.caller id) s₂ s'
  /-- If it finds the job not running, it comes back as accepted, and has made one run. -/
  accepts : '\x00' ∉ c.fileName.toList → ∀ {s s₁ s' t result}, Reachable c files s →
    Looks c t s s₁ → s.state ≠ .running → EndsWith c t s₁ s' result →
    result = .accepted ∧ s'.stages.length = s.stages.length + 1
  /-- If it finds the job running, it is refused. -/
  running : ∀ {s s₁ s' : Lifecycle} {t result}, Looks c t s s₁ → s.state = .running →
    EndsWith c t s₁ s' result → result = .refused .alreadyRunning
  /-- No step of a start that is refused changes the job. -/
  refuses : ∀ {s s₁ s₂ s' : Lifecycle} {t cause}, s.calls t = some (.enter .start) →
    EndsWith c t s s' (.refused cause) → During c t s s₁ → CallStep c s₁ t (s₁.calls t) s₂ →
    During c t s₂ s' → Keeps s₁ s₂
  /-- If the name has a NUL character, a start that finds the job not running changes the state
  and crashes. -/
  crashes : '\x00' ∈ c.fileName.toList → ∀ {s s₁ t}, Reachable c files s → Looks c t s s₁ →
    s.state ≠ .running → s₁.state = .running ∧ (∃ s', EndsWith c t s₁ s' .crashed) ∧
      ∀ {s' result}, EndsWith c t s₁ s' result → result = .crashed
  /-- From then on the job is running without a run, and every start is refused. -/
  sticks : '\x00' ∈ c.fileName.toList → ∀ {s s'}, Reachable c files s → s.state = .running →
    Steps c s s' → s'.state = .running ∧ s'.stages = [] ∧
      ∀ {t s₁ result}, s'.calls t = some (.enter .start) → EndsWith c t s' s₁ result →
        result = .refused .alreadyRunning

/-- A start off the runner that finds the job not running is accepted and makes a run, unless the
name of the job has a NUL character.  With such a name the first start crashes, and the job is
running for ever. -/
theorem start_outcomes (hvalid : c.validate = .ok ()) : StartOutcomes c files where
  returns hname _ _ _ h hat hstart := (h.inv hname).comes_back hname hat hstart
  looks hat hends := by
    rcases hends.during.looks hvalid hat with ⟨p, hp, hearly⟩ | hlooks
    · rcases hends.eq_of_calls hp with rfl | rfl <;> contradiction
    · exact hlooks
  accepts hname _ _ _ _ _ h hlooks hstate hends := by
    rcases hends.bound hlooks hstate with ⟨rfl, -⟩ | ⟨-, hname'⟩
    · have hinv := (h.step (.of_call hlooks.hat hlooks.step)).inv hname
      exact ⟨rfl, hends.makes hname hinv hlooks hstate⟩
    · exact absurd hname' hname
  running hlooks hstate hends := hends.running hlooks hstate
  refuses hat hends hbefore hcall hafter := hends.keeps hat hbefore hcall hafter
  crashes hname _ _ _ h hlooks hstate := by
    rcases hlooks.cases with ⟨hrunning, -⟩ | ⟨-, hat, hrunning⟩
    · exact absurd hrunning hstate
    · have hnone := (h.step (.of_call hlooks.hat hlooks.step)).runless hname
      refine ⟨hrunning, hnone.crashes hname hat, fun hends => ?_⟩
      rcases hends.bound hlooks hstate with ⟨-, hname'⟩ | ⟨hcrashed, -⟩
      · exact absurd hname hname'
      · exact hcrashed
  sticks hname _ _ h hstate hsteps := by
    obtain ⟨hnone, hkept⟩ := hsteps.runless hname (h.runless hname)
    exact ⟨hkept hstate, hnone.1, fun hat hends =>
      hends.stuck hvalid hname hnone (hkept hstate) hat⟩

/-- The starts of `plain` end in one of these ways, and they can come back. -/
theorem plain_start_outcomes : plain.validate = .ok () ∧ StartOutcomes plain {} ∧
    ∃ s' result,
      EndsWith plain (.caller 0) ((new {}).goto (.caller 0) (.enter .start)) s' result := by
  have hvalid : plain.validate = .ok () := by decide +kernel
  have houtcomes : StartOutcomes plain {} := start_outcomes hvalid
  exact ⟨hvalid, houtcomes,
    houtcomes.returns (by decide) (.entered plain {} 0) (goto_calls_self _ _ _) rfl⟩

/-- One file, under the name that its URL ends in.  It has a NUL character. -/
def nulName : Config := .new "http://h/a%00b" "d"

/-- The configuration of `nulName` is valid, but the first start of the job crashes.  From then on
the job is running without a run, and every start is refused. -/
theorem nulName_sticks : nulName.validate = .ok () ∧
    ∃ s s₁, Reachable nulName {} s ∧ s.state = .ready ∧
      s.calls (.caller 0) = some (.enter .start) ∧ EndsWith nulName (.caller 0) s s₁ .crashed ∧
      ∀ {s'}, Steps nulName s₁ s' → s'.state = .running ∧ s'.stages = [] ∧
        ∀ {t s₂ result}, s'.calls t = some (.enter .start) → EndsWith nulName t s' s₂ result →
          result = .refused .alreadyRunning := by
  have hvalid : nulName.validate = .ok () := by decide +kernel
  have hname : '\x00' ∈ nulName.fileName.toList := by decide +kernel
  have hentered := Reachable.entered nulName {} 0
  obtain ⟨s, hjoin, hat, hstate, hnone, -⟩ := During.first hvalid {} 0
  obtain ⟨s₁, hcrashes⟩ := hnone.crashes hname hat
  obtain ⟨hnone₁, hkept₁⟩ := hcrashes.during.steps.runless hname hnone
  refine ⟨hvalid, _, s₁, hentered, rfl, goto_calls_self _ _ _,
    ⟨hjoin.trans hcrashes.during, hcrashes.decided⟩, fun hsteps => ?_⟩
  obtain ⟨hnone', hkept⟩ := hsteps.runless hname hnone₁
  have hrunning := hkept (hkept₁ hstate)
  exact ⟨hrunning, hnone'.1, fun hat hends => hends.stuck hvalid hname hnone' hrunning hat⟩

end Lifecycle

end SegmentedDownload
