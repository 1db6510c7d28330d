import SegmentedDownload.Proofs.Arrival

/-!
# SegmentedDownload.Proofs.ShortBody

What a body that ends too early does to a run.

A worker with a range counts what it received.  When its body ends before the range
is filled, the worker reports an error of the file, and with an error of the file
the whole run ends, although the file did what it was asked for:

* `EndsShort t₀ done i w` says that the body of the `i`-th worker, which is `w`, is
  over behind the incidents `done` and too short; `Filled` says that no body is.
* `Running` is what holds while a run goes on: a worker streams as long as nothing
  has ended its body, and has counted all of it that its slot has room for.  Each
  incident keeps it, or ends the run (`Running.step`).
* `run_short` sorts the runs that were not stopped and whose file did not fail.
  If every body is filled, they are completed or incomplete; otherwise the first
  short body ends them with an error, and what comes after it is not looked at.
-/

namespace SegmentedDownload

/-! ## Counting -/

namespace Worker

variable {w w' : Worker} {p p' : PartialFile}

/-- The worker knows its range, and has counted what fits of its body. -/
structure Counts (w : Worker) (body : Bytes) : Prop where
  expects : w.Expects
  received_eq : w.isUnbounded = false → w.received = min w.slot.length body.length

/-- Pushing data that the file takes counts it. -/
theorem push_counts {data : Bytes} (h : w.push p data = (w', p', none)) :
    w'.slot = w.slot ∧ w'.state = w.state ∧ w'.expected? = w.expected? ∧
      w'.received = w.received + data.length := by
  unfold push at h
  split at h
  · cases hflush : w.flush p with
    | mk w₁ result =>
      obtain ⟨p₁, fault?⟩ := result
      have hresult := flush_result hflush
      rw [hflush] at h
      cases fault? with
      | some e => cases h
      | none =>
        obtain rfl : w₁ = w.flushed := hresult
        obtain ⟨rfl, rfl, -⟩ := h
        simp only [append, enlarge]
        split <;> exact ⟨rfl, rfl, rfl, rfl⟩
  · obtain ⟨rfl, rfl, -⟩ := h
    exact ⟨rfl, rfl, rfl, rfl⟩

/-- Receiving a chunk that the file takes counts what fits of it. -/
theorem receive_counts {chunk body : Bytes} (h : w.receive p chunk = (w', p', none))
    (hcounts : w.Counts body) :
    w'.slot = w.slot ∧ w'.state = w.state ∧ w'.Counts (body ++ chunk) := by
  unfold receive at h
  cases hpush : w.push p (w.clip chunk) with
  | mk w₁ result =>
    obtain ⟨p₁, fault?⟩ := result
    rw [hpush] at h
    cases fault? with
    | some e => cases h
    | none =>
      obtain ⟨rfl, rfl, -⟩ := h
      obtain ⟨hslot, hstate, hexpected, hreceived⟩ := push_counts hpush
      have hbound : w'.isUnbounded = w.isUnbounded := by
        rw [isUnbounded, isUnbounded, hslot]
      refine ⟨hslot, hstate, fun hu => ?_, fun hu => ?_⟩
      · rw [hexpected, hslot]
        exact hcounts.expects (hbound ▸ hu)
      · rw [hbound] at hu
        have hcount := hcounts.received_eq hu
        have hclip : (w.clip chunk).length =
            min (w.slot.last - w.slot.resumeStart + 1 - w.received).toNat chunk.length := by
          simp only [clip, hu, hcounts.expects hu, List.length_take]
        rw [hreceived, hclip, hslot, List.length_append]
        unfold Slot.length at hcount ⊢
        omega

end Worker

namespace Transfer

variable {t₀ t t' : Transfer} {incidents done : List (Nat × Incident)}

/-! ## Bodies that are too short -/

/-- The body of the `i`-th worker, `w`, is over behind these incidents if an end is
next, and its range is not filled. -/
structure EndsShort (t₀ : Transfer) (done : List (Nat × Incident)) (i : Nat) (w : Worker) :
    Prop where
  streaming : t₀.streaming? i = some w
  bounded : w.isUnbounded = false
  unended : Open done i
  short : ((bodyOf done i).length : Int) < w.slot.last - w.slot.resumeStart + 1

/-- No body ends before its range is filled. -/
def Filled (t₀ : Transfer) (incidents : List (Nat × Incident)) : Prop :=
  ∀ done now i w rest, incidents = done ++ (now, .ended i) :: rest → ¬ t₀.EndsShort done i w

theorem filled_nil (t₀ : Transfer) : t₀.Filled [] := by
  intro done now i w rest h
  simp at h

/-- An incident that is not a short end leaves all bodies filled. -/
theorem Filled.snoc (h : t₀.Filled done) {x : Nat × Incident}
    (hx : ∀ i w, x.2 = .ended i → ¬ t₀.EndsShort done i w) : t₀.Filled (done ++ [x]) := by
  intro front now i w back heq hshort
  cases back using List.reverseRecOn with
  | nil =>
    obtain ⟨rfl, hlast⟩ := List.append_inj' heq rfl
    obtain rfl : x = (now, .ended i) := by simpa using hlast
    exact hx i w rfl hshort
  | append_singleton back y =>
    rw [← List.cons_append, ← List.append_assoc] at heq
    obtain ⟨rfl, -⟩ := List.append_inj' heq rfl
    exact h front now i w back rfl hshort

/-! ## Runs that go on -/

/-- What holds after some incidents while a run goes on. -/
structure Running (t₀ : Transfer) (done : List (Nat × Incident)) (t : Transfer) : Prop where
  fatal : t.fatal? = none
  stopped : t.stopped = false
  length_eq : t.workers.length = t₀.workers.length
  worker : ∀ (i : Nat) (w : Worker), t.workers[i]? = some w → ∃ w₀, t₀.workers[i]? = some w₀ ∧
    w.slot = w₀.slot ∧ (w.state = .streaming ↔ w₀.state = .streaming ∧ Open done i) ∧
      (w.state = .streaming → w.Counts (bodyOf done i))

namespace Running

variable {x : Nat × Incident} {i : Nat} {w : Worker}

/-- A worker that the incident is not about goes on as before. -/
theorem spared (h : Running t₀ done t) (hw : t.workers[i]? = some w)
    (hx : w.state = .streaming → x.2.worker? ≠ some i) :
    ∃ w₀, t₀.workers[i]? = some w₀ ∧ w.slot = w₀.slot ∧
      (w.state = .streaming ↔ w₀.state = .streaming ∧ Open (done ++ [x]) i) ∧
      (w.state = .streaming → w.Counts (bodyOf (done ++ [x]) i)) := by
  obtain ⟨w₀, hw₀, hslot, hstate, hcounts⟩ := h.worker i w hw
  refine ⟨w₀, hw₀, hslot, ⟨fun hs => ?_, fun hs => ?_⟩, fun hs => ?_⟩
  · obtain ⟨hs₀, hopen⟩ := hstate.mp hs
    exact ⟨hs₀, open_snoc.mpr ⟨hopen, Incident.open_of_ne (hx hs)⟩⟩
  · exact hstate.mpr ⟨hs.1, (open_snoc.mp hs.2).1⟩
  · rw [bodyOf_snoc, Incident.data_of_ne (hx hs), List.append_nil]
    exact hcounts hs

/-- An incident about a worker that does not stream changes nothing. -/
theorem unheard (h : Running t₀ done t) (habout : x.2.worker? = some i)
    (hstream : t.streaming? i = none) : Running t₀ (done ++ [x]) t := by
  refine ⟨h.fatal, h.stopped, h.length_eq, fun j v hv => h.spared hv fun hstate hj => ?_⟩
  obtain rfl := Option.some.inj (habout.symm.trans hj)
  exact streaming?_eq_none hstream hv hstate

/-- An incident about a worker that streams changes that worker alone. -/
theorem set (h : Running t₀ done t) (w' : Worker) (hw : t.workers[i]? = some w)
    (hstreams : w.state = .streaming) (habout : x.2.worker? = some i)
    (hslot : w'.slot = w.slot)
    (hstate : w'.state = .streaming ↔ x.2 ≠ .ended i ∧ x.2 ≠ .broken i)
    (hcounts : w'.state = .streaming → w'.Counts (bodyOf (done ++ [x]) i))
    (hworkers : t'.workers = t.workers.set i w') (hfatal : t'.fatal? = none)
    (hstopped : t'.stopped = t.stopped) : Running t₀ (done ++ [x]) t' := by
  refine ⟨hfatal, hstopped.trans h.stopped, ?_, fun j v hv => ?_⟩
  · rw [hworkers, List.length_set, h.length_eq]
  · rw [hworkers] at hv
    by_cases hij : i = j
    · subst hij
      rw [List.getElem?_set_self (List.getElem?_eq_some_iff.mp hw).1] at hv
      obtain rfl := Option.some.inj hv
      obtain ⟨w₀, hw₀, hslot₀, hstate₀, -⟩ := h.worker i w hw
      obtain ⟨hs₀, hopen⟩ := hstate₀.mp hstreams
      refine ⟨w₀, hw₀, hslot.trans hslot₀, ?_, hcounts⟩
      rw [hstate, open_snoc]
      exact ⟨fun hnot => ⟨hs₀, hopen, hnot⟩, fun hs => hs.2.2⟩
    · rw [List.getElem?_set_ne hij] at hv
      exact h.spared hv fun _ hj => hij (Option.some.inj (habout.symm.trans hj))

/-- A worker that streams stands for one that streamed from the beginning. -/
theorem streaming (h : Running t₀ done t) (hstream : t.streaming? i = some w) :
    ∃ w₀, t₀.streaming? i = some w₀ ∧ w.slot = w₀.slot ∧ Open done i ∧
      w.Counts (bodyOf done i) := by
  obtain ⟨hw, hstate⟩ := streaming?_eq_some.mp hstream
  obtain ⟨w₀, hw₀, hslot, hiff, hcounts⟩ := h.worker i w hw
  obtain ⟨hs₀, hopen⟩ := hiff.mp hstate
  exact ⟨w₀, streaming?_eq_some.mpr ⟨hw₀, hs₀⟩, hslot, hopen, hcounts hstate⟩

/-- A worker that does not stream has no body that could still end short. -/
theorem not_endsShort (h : Running t₀ done t) (hstream : t.streaming? i = none) (w : Worker) :
    ¬ t₀.EndsShort done i w := by
  intro hshort
  obtain ⟨hw₀, hs₀⟩ := streaming?_eq_some.mp hshort.streaming
  have hlt : i < t.workers.length := h.length_eq ▸ (List.getElem?_eq_some_iff.mp hw₀).1
  obtain ⟨v₀, hv₀, -, hiff, -⟩ := h.worker i _ (List.getElem?_eq_getElem hlt)
  obtain rfl := Option.some.inj (hv₀.symm.trans hw₀)
  exact streaming?_eq_none hstream (List.getElem?_eq_getElem hlt)
    (hiff.mpr ⟨hs₀, hshort.unended⟩)

end Running

/-! ## Steps -/

/-- The error of a worker whose body is too short. -/
def shortError (w : Worker) (body : Bytes) : DownloadError :=
  .io (.segmentEnded w.slot.index body.length (w.slot.last - w.slot.resumeStart + 1))

/-- The run ended because its file failed. -/
def MediumFailed (t : Transfer) : Prop :=
  ∃ cause, t.fatal? = some (.io cause) ∧ cause.OfMedium

/-- Nothing happens to a run that an error has ended. -/
theorem deliver_of_fatal {e : DownloadError} (h : t.fatal? = some e) (now : Nat)
    (incident : Incident) : t.deliver now incident = t := by
  simp [deliver, isHalted, h]

namespace Running

variable {now i : Nat} {w w' : Worker} {p' : PartialFile} {fault? : Option IoError}

/-- The end of a body completes its worker, unless the body is too short or the file
fails. -/
theorem ended (h : Running t₀ done t) (hstream : t.streaming? i = some w)
    (hfinish : w.finish t.file = (w', p', fault?)) :
    (Running t₀ (done ++ [(now, .ended i)]) (t.advance i (w', p', fault?)) ∧
        ∀ v, ¬ t₀.EndsShort done i v) ∨
      (t.advance i (w', p', fault?)).MediumFailed ∨
      ∃ v, t₀.EndsShort done i v ∧
        (t.advance i (w', p', fault?)).fatal? = some (shortError v (bodyOf done i)) := by
  obtain ⟨hw, hstate⟩ := streaming?_eq_some.mp hstream
  obtain ⟨w₀, hstream₀, hslot, hopen, hcounts⟩ := h.streaming hstream
  have hbounds : w.isUnbounded = w₀.isUnbounded := by
    rw [Worker.isUnbounded, Worker.isUnbounded, hslot]
  have hlength : w.slot.length = (w.slot.last - w.slot.resumeStart + 1).toNat := rfl
  rcases Worker.finish_cases hcounts.expects hfinish with
    ⟨cause, rfl, hmedium⟩ | ⟨hu, hlt, -, rfl⟩ | ⟨hfull, rfl, rfl⟩
  · exact Or.inr (Or.inl ⟨cause, rfl, hmedium⟩)
  · have hreceived := hcounts.received_eq hu
    have hcount : w.received = (bodyOf done i).length := by omega
    refine Or.inr (Or.inr ⟨w₀, ⟨hstream₀, hbounds ▸ hu, hopen, ?_⟩, ?_⟩)
    · rw [← hslot, ← hcount]
      exact hlt
    · rw [shortError, ← hslot, ← hcount]
      rfl
  · refine Or.inl ⟨h.set { w.flushed with state := .complete } hw hstate rfl rfl ?_ ?_ rfl rfl rfl,
      ?_⟩
    · exact ⟨fun hs => WorkerState.noConfusion hs, fun hnot => absurd rfl hnot.1⟩
    · exact fun hs => WorkerState.noConfusion hs
    · intro v₀ hshort
      obtain rfl := Option.some.inj (hstream₀.symm.trans hshort.streaming)
      have hu : w.isUnbounded = false := hbounds.trans hshort.bounded
      have hreceived := hcounts.received_eq hu
      have hle := hfull hu
      have hlt := hshort.short
      rw [← hslot] at hlt
      omega

/-- Every incident but a stop keeps a run going, unless it ends a body that is too
short or the file fails. -/
theorem step (h : Running t₀ done t) {incident : Incident} (hstep : Step t now incident t')
    (hstop : incident ≠ .stop) :
    (Running t₀ (done ++ [(now, incident)]) t' ∧
        ∀ i w, incident = .ended i → ¬ t₀.EndsShort done i w) ∨
      t'.MediumFailed ∨
      ∃ i w, incident = .ended i ∧ t₀.EndsShort done i w ∧
        t'.fatal? = some (shortError w (bodyOf done i)) := by
  cases hstep with
  | halted _ hhalted =>
    rw [isHalted_eq_false.mpr ⟨h.fatal, h.stopped⟩] at hhalted
    contradiction
  | stopped _ => contradiction
  | unheard _ i _ habout hstream =>
    refine Or.inl ⟨h.unheard habout hstream, ?_⟩
    rintro j w rfl
    obtain rfl : j = i := Option.some.inj habout
    exact h.not_endsShort hstream w
  | refused i data w w' p' cause _ hstream hreceive =>
    exact Or.inr (Or.inl ⟨cause, rfl, Worker.receive_fault hreceive⟩)
  | received i data w w' p' _ hstream hreceive =>
    obtain ⟨hw, hstate⟩ := streaming?_eq_some.mp hstream
    obtain ⟨-, -, -, -, hcounts⟩ := h.streaming hstream
    obtain ⟨hslot, hstate', hcounts'⟩ := Worker.receive_counts hreceive hcounts
    refine Or.inl ⟨h.set w' hw hstate rfl hslot ?_ ?_ rfl rfl rfl,
      fun _ _ => Incident.noConfusion⟩
    · rw [hstate']
      exact ⟨fun _ => ⟨Incident.noConfusion, Incident.noConfusion⟩, fun _ => hstate⟩
    · intro _
      rw [bodyOf_snoc, show (Incident.chunk i data).data i = data from if_pos rfl]
      exact hcounts'
  | ended i w w' p' fault? _ hstream hfinish =>
    rcases h.ended hstream hfinish with ⟨hrunning, hfilled⟩ | hmedium | ⟨v, hshort, hfatal⟩
    · refine Or.inl ⟨hrunning, fun j v hended => ?_⟩
      obtain rfl := Incident.ended.inj hended
      exact hfilled v
    · exact Or.inr (Or.inl hmedium)
    · exact Or.inr (Or.inr ⟨i, v, rfl, hshort, hfatal⟩)
  | broken i w _ hstream =>
    obtain ⟨hw, hstate⟩ := streaming?_eq_some.mp hstream
    refine Or.inl ⟨h.set w.fail hw hstate rfl rfl ?_ ?_ rfl h.fatal rfl,
      fun _ _ => Incident.noConfusion⟩
    · exact ⟨fun hs => WorkerState.noConfusion hs, fun hnot => absurd rfl hnot.2⟩
    · exact fun hs => WorkerState.noConfusion hs

end Running

/-! ## Streams -/

/-- How far a run gets that is not stopped: to the end with all bodies filled, to an
error of the file, or to the first body that is too short. -/
inductive Reaches (t₀ : Transfer) (incidents : List (Nat × Incident)) : Prop
  | all (hrunning : Running t₀ incidents (t₀.stream incidents)) (hfilled : t₀.Filled incidents)
  | medium (hmedium : (t₀.stream incidents).MediumFailed)
  | short (done : List (Nat × Incident)) (now i : Nat) (rest : List (Nat × Incident))
      (w : Worker) (heq : incidents = done ++ (now, .ended i) :: rest)
      (hfilled : t₀.Filled done) (hshort : t₀.EndsShort done i w)
      (hfatal : (t₀.stream incidents).fatal? = some (shortError w (bodyOf done i)))
      (hcut : t₀.stream incidents = t₀.stream (done ++ [(now, .ended i)]))

/-- Incidents without a stop run to their end, or to the first body that is short. -/
theorem stream_reaches (hbegin : Running t₀ [] t₀) (hstop : ∀ x ∈ incidents, x.2 ≠ .stop) :
    Reaches t₀ incidents := by
  induction incidents using List.reverseRecOn with
  | nil => exact .all hbegin (filled_nil t₀)
  | append_singleton front x ih =>
    have hsnoc := stream_snoc t₀ front x
    cases ih fun y hy => hstop y (List.mem_append_left _ hy) with
    | all hrunning hfilled =>
      rcases hrunning.step (step_deliver _ x.1 x.2) (hstop x (by simp)) with
        ⟨hnext, hx⟩ | hmedium | ⟨i, w, hended, hshort, hfatal⟩
      · exact .all (hsnoc ▸ hnext) (hfilled.snoc hx)
      · exact .medium (hsnoc ▸ hmedium)
      · obtain ⟨now, incident⟩ := x
        obtain rfl : incident = .ended i := hended
        exact .short front now i [] w rfl hfilled hshort (hsnoc ▸ hfatal) rfl
    | medium hmedium =>
      obtain ⟨cause, hfatal, -⟩ := id hmedium
      rw [deliver_of_fatal hfatal] at hsnoc
      exact .medium (hsnoc ▸ hmedium)
    | short done now i rest w heq hfilled hshort hfatal hcut =>
      rw [deliver_of_fatal hfatal] at hsnoc
      refine .short done now i (rest ++ [x]) w ?_ hfilled hshort (hsnoc ▸ hfatal)
        (hsnoc.trans hcut)
      rw [heq, List.append_assoc, List.cons_append]

/-! ## Whole runs -/

section Runs

variable {table : Table} {p : PartialFile} {reporter : Reporter} {replies : List Reply}
  {t₁ : Transfer}

/-- When all replies are there, nothing has been received. -/
theorem accept_running (haccept : (begin table p reporter).accept replies = .ok t₁) :
    t₁.fatal? = none ∧ t₁.stopped = false ∧
      ∀ w ∈ t₁.workers, w.received = 0 ∧ (w.state = .streaming → w.Expects) := by
  cases accept_accepts haccept with
  | whole _ _ _ _ _ _ _ =>
    refine ⟨rfl, rfl, fun w hw => ?_⟩
    obtain rfl := List.mem_singleton.mp hw
    exact ⟨rfl, fun _ => begin_expects _ _⟩
  | each workers hall =>
    refine ⟨rfl, rfl, fun w' hw' => ?_⟩
    obtain ⟨i, hi⟩ := List.getElem?_of_mem hw'
    obtain ⟨w, hw, hone⟩ := (acceptAll_eq_ok hall).2 i w' hi
    obtain ⟨slot, -, rfl⟩ := List.mem_map.mp (List.mem_of_getElem? hw)
    rcases acceptOne_eq_ok hone with rfl | ⟨-, length?, -, -, rfl⟩
    · exact ⟨rfl, fun hstate => WorkerState.noConfusion hstate⟩
    · exact ⟨rfl, fun _ => begin_expects _ _⟩

/-- A run whose file is prepared goes on. -/
theorem running_begin (haccept : (begin table p reporter).accept replies = .ok t₁)
    (hprepare : t₁.prepare = (t₀, none)) : Running t₀ [] t₀ := by
  obtain ⟨hfatal, hstopped, hworkers⟩ := accept_running haccept
  obtain ⟨-, hsame, hfatal', hstopped'⟩ := prepare_eq hprepare
  refine ⟨hfatal'.trans hfatal, hstopped'.trans hstopped, rfl, fun i w hw => ?_⟩
  obtain ⟨hreceived, hexpects⟩ := hworkers w (hsame ▸ List.mem_of_getElem? hw)
  refine ⟨w, hw, rfl, ⟨fun hstate => ⟨hstate, fun x hx => absurd hx List.not_mem_nil⟩,
    fun hstate => hstate.1⟩, fun hstate => ⟨hexpects hstate, fun _ => ?_⟩⟩
  rw [hreceived]
  exact (Nat.min_zero _).symm

end Runs

/-- A run that has an error ends with it. -/
theorem close_of_fatal {e : DownloadError} (h : t.fatal? = some e) (now : Nat) :
    (t.close now).1 = .error e := by
  have hflushed := flushAll_fatal h
  have hcommitted := checkpoint_fatal_some hflushed
  simp [close, isHalted, hflushed, hcommitted]

/-- A run without an error is completed or incomplete, unless its file fails at last. -/
theorem close_of_running (hfatal : t.fatal? = none) (hstopped : t.stopped = false) (now : Nat) :
    (∃ n, (t.close now).1 = .ok (.completed n)) ∨
      (t.close now).1 = .ok (.incomplete (t.close now).2.failures) ∨
      ∃ cause, (t.close now).1 = .error (.io cause) ∧ cause.OfMedium := by
  have hclose : t.close now = ((t.close now).1, (t.close now).2) := rfl
  generalize (t.close now).1 = outcome, (t.close now).2 = t' at hclose ⊢
  cases close_closes hclose with
  | completed _ _ => exact Or.inl ⟨_, rfl⟩
  | failed e hfailed =>
    refine Or.inr (Or.inr ?_)
    rcases checkpoint_fatal_cases hfailed with hflushed | ⟨cause, rfl, hmedium⟩
    · rcases (flushAll_flushed t).fatal with heq | ⟨-, cause, hcause, hmedium⟩
      · rw [heq, hfatal] at hflushed
        contradiction
      · obtain rfl := Option.some.inj (hflushed.symm.trans hcause)
        exact ⟨cause, rfl, hmedium⟩
    · exact ⟨cause, rfl, hmedium⟩
  | interrupted _ hstop =>
    rw [flushAll_stopped, hstopped] at hstop
    contradiction
  | incomplete _ _ _ =>
    rw [checkpoint_failures]
    exact Or.inr (Or.inl rfl)

/-- What short bodies do to a run that is not stopped and whose file does not fail.

If every body fills the range of its worker, the run is completed, or incomplete
with one failure for each worker that is not complete.  Otherwise the first body
that is too short ends the run with an error of the file: what would come after it
is ignored, and the outcome is no count of failed segments.  The only other error
is that of a server which sends the whole file in place of a segment. -/
theorem run_short (table : Table) (p : PartialFile) (reporter : Reporter) {course : Course}
    {replies : List Reply} (hreplies : course.replies? = some replies)
    (hstop : ∀ x ∈ course.incidents, x.2 ≠ .stop)
    (hfile : ∀ cause, (run table p reporter course).1 = .error (.io cause) → ¬ cause.OfMedium) :
    (∃ index, (run table p reporter course).1 = .error (.rangeUnsupported index)) ∨
      ∃ t₁ t₀, (begin table p reporter).accept replies = .ok t₁ ∧ t₁.prepare = (t₀, none) ∧
        ((t₀.Filled course.incidents ∧
            ((∃ n, (run table p reporter course).1 = .ok (.completed n)) ∨
              (run table p reporter course).1 =
                .ok (.incomplete (run table p reporter course).2.failures))) ∨
          ∃ done now i rest w, course.incidents = done ++ (now, .ended i) :: rest ∧
            t₀.Filled done ∧ t₀.EndsShort done i w ∧
            (run table p reporter course).1 = .error (shortError w (bodyOf done i)) ∧
            run table p reporter course =
              run table p reporter { course with incidents := done ++ [(now, .ended i)] }) := by
  cases haccept : (begin table p reporter).accept replies with
  | error e =>
    obtain ⟨index, rfl⟩ := accept_eq_error haccept
    exact Or.inl ⟨index, by simp [run, hreplies, proceed, haccept]⟩
  | ok t₁ =>
    right
    cases hprepare : t₁.prepare with
    | mk t₀ fault? =>
      cases fault? with
      | some cause =>
        have herror : (run table p reporter course).1 = .error (.io cause) := by
          simp [run, hreplies, proceed, haccept, hprepare]
        exact absurd (prepare_fault hprepare) (hfile cause herror)
      | none =>
        have hrun : ∀ incidents, run table p reporter { course with incidents } =
            (t₀.stream incidents).close course.closing := by
          intro incidents
          simp [run, hreplies, proceed, haccept, hprepare]
        have hself : run table p reporter course =
            (t₀.stream course.incidents).close course.closing := hrun course.incidents
        refine ⟨t₁, t₀, rfl, hprepare, ?_⟩
        cases stream_reaches (running_begin haccept hprepare) hstop with
        | all hrunning hfilled =>
          refine Or.inl ⟨hfilled, ?_⟩
          rw [hself] at hfile ⊢
          rcases close_of_running hrunning.fatal hrunning.stopped course.closing with
            hcompleted | hincomplete | ⟨cause, herror, hmedium⟩
          · exact Or.inl hcompleted
          · exact Or.inr hincomplete
          · exact absurd hmedium (hfile cause herror)
        | medium hmedium =>
          obtain ⟨cause, hfatal, hmedium⟩ := hmedium
          rw [hself] at hfile
          exact absurd hmedium (hfile cause (close_of_fatal hfatal course.closing))
        | short done now i rest w heq hfilled hshort hfatal hcut =>
          refine Or.inr ⟨done, now, i, rest, w, heq, hfilled, hshort, ?_, ?_⟩
          · rw [hself]
            exact close_of_fatal hfatal course.closing
          · rw [hself, hrun, hcut]

/-- Two workers for four bytes: the first gets one byte and the end of its body, the
second all that it asked for. -/
def shortFirst : Course :=
  { replies? := some [.answered 206 none, .answered 206 none]
    incidents := [(0, .chunk 0 [1]), (1, .ended 0), (2, .chunk 1 [3, 4]), (3, .ended 1)] }

/-- The end of the first body is where the run is cut. -/
theorem shortFirst_cut :
    let result := run (Table.fresh (some 4) 2 true) {} (Reporter.new (some 4) 100 {}) shortFirst
    ∃ t₀ done now i rest w, shortFirst.incidents = done ++ (now, .ended i) :: rest ∧
      EndsShort t₀ done i w ∧ result.1 = .error (shortError w (bodyOf done i)) ∧
      result = run (Table.fresh (some 4) 2 true) {} (Reporter.new (some 4) 100 {})
        { shortFirst with incidents := done ++ [(now, .ended i)] } := by
  have herror : (run (Table.fresh (some 4) 2 true) {} (Reporter.new (some 4) 100 {})
      shortFirst).1 = .error (.io (.segmentEnded 0 1 2)) := by decide +kernel
  have hfile : ∀ cause, (run (Table.fresh (some 4) 2 true) {} (Reporter.new (some 4) 100 {})
      shortFirst).1 = .error (.io cause) → ¬ cause.OfMedium := by
    intro cause hcause hmedium
    rw [herror] at hcause
    cases hcause
    exact hmedium 0 1 2 rfl
  have hreplies : shortFirst.replies? = some [.answered 206 none, .answered 206 none] := rfl
  rcases run_short (Table.fresh (some 4) 2 true) {} (Reporter.new (some 4) 100 {}) hreplies
      (by decide) hfile with
    ⟨index, hrange⟩ | ⟨-, t₀, -, -, ⟨-, ⟨n, hok⟩ | hok⟩ |
      ⟨done, now, i, rest, w, heq, -, hshort, hresult, hcut⟩⟩
  · rw [herror] at hrange
    cases hrange
  · rw [herror] at hok
    cases hok
  · rw [herror] at hok
    cases hok
  · exact ⟨t₀, done, now, i, rest, w, heq, hshort, hresult, hcut⟩

/-- The file takes every write and nothing is stopped, and yet the run does not end
incomplete with one failure: it fails, and the second worker never gets its body. -/
theorem shortFirst_fails :
    let result := run (Table.fresh (some 4) 2 true) {} (Reporter.new (some 4) 100 {}) shortFirst
    ({} : PartialFile).file.Reliable ∧ (∀ x ∈ shortFirst.incidents, x.2 ≠ .stop) ∧
      result.1 = .error (.io (.segmentEnded 0 1 2)) ∧
      result.2.workers.map (·.state) = [.failed, .streaming] :=
  ⟨⟨rfl, rfl, by decide⟩, by decide, by decide +kernel, by decide +kernel⟩

end Transfer

end SegmentedDownload
