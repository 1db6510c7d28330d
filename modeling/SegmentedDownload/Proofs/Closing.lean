import Mathlib
import SegmentedDownload.Proofs.Faults

/-!
# SegmentedDownload.Proofs.Closing

What closing a run does, up to its outcome.

* `flushAll` flushes the workers one by one (`flushAll_induction`), and goes on
  after an error.  `Flushed t n u` says what the first `n` of them have done.
* Each worker records its progress in the segment that its slot stands for
  (`recordAll`).  Slots stand for different segments, so no record is lost
  (`getElem?_recordAll`).
* `Closes` is the inversion of `close`: it announces a complete run, and commits the
  progress of any other.
-/

namespace SegmentedDownload.Transfer

/-! ## Recording progress -/

/-- The segments with the flushed progress of some workers. -/
def recordAll (workers : List Worker) (segments : List Segment) : List Segment :=
  workers.foldl (fun segments w => recordProgress w segments) segments

theorem recordAll_snoc (workers : List Worker) (w : Worker) (segments : List Segment) :
    recordAll (workers ++ [w]) segments = recordProgress w (recordAll workers segments) := by
  simp [recordAll]

/-- The record of a worker leaves the other segments alone. -/
theorem getElem?_recordProgress {w : Worker} {segments : List Segment} {i : Nat}
    (h : w.slot.index ≠ i) : (recordProgress w segments)[i]? = segments[i]? := by
  rw [recordProgress, List.getElem?_modify]
  simp only [if_neg h]
  exact Option.map_id_apply

/-- A segment without a worker keeps its progress. -/
theorem getElem?_recordAll_of_ne {workers : List Worker} {segments : List Segment} {i : Nat}
    (h : ∀ w ∈ workers, w.slot.index ≠ i) : (recordAll workers segments)[i]? = segments[i]? := by
  induction workers generalizing segments with
  | nil => rfl
  | cons w workers ih =>
    have hrest : (recordAll workers (recordProgress w segments))[i]? =
        (recordProgress w segments)[i]? := ih fun v hv => h v (List.mem_cons_of_mem w hv)
    exact hrest.trans (getElem?_recordProgress (h w List.mem_cons_self))

/-- Every worker records its progress in its own segment. -/
theorem getElem?_recordAll {workers : List Worker} {segments : List Segment}
    (hindices : workers.Pairwise fun v w => v.slot.index < w.slot.index) {w : Worker}
    (hw : w ∈ workers) :
    (recordAll workers segments)[w.slot.index]? =
      segments[w.slot.index]?.map fun s =>
        { s with session := max s.committed w.flushedProgress } := by
  induction workers generalizing segments with
  | nil => contradiction
  | cons v workers ih =>
    obtain ⟨hlater, hrest⟩ := List.pairwise_cons.mp hindices
    rcases List.mem_cons.mp hw with rfl | hw
    · have hsame : (recordAll workers (recordProgress w segments))[w.slot.index]? =
          (recordProgress w segments)[w.slot.index]? :=
        getElem?_recordAll_of_ne fun v hv => Nat.ne_of_gt (hlater v hv)
      refine hsame.trans ?_
      rw [recordProgress, List.getElem?_modify]
      simp only [if_pos]
      rfl
    · have hother : (recordProgress v segments)[w.slot.index]? = segments[w.slot.index]? :=
        getElem?_recordProgress (Nat.ne_of_lt (hlater w hw))
      rw [← hother]
      exact ih hrest hw

theorem length_recordAll (workers : List Worker) (segments : List Segment) :
    (recordAll workers segments).length = segments.length := by
  induction workers generalizing segments with
  | nil => rfl
  | cons w workers ih =>
    exact (ih (recordProgress w segments)).trans (List.length_modify _ _ _)

/-! ## Flushing all workers -/

/-- Flushing all workers flushes one after the other. -/
theorem flushAll_induction {motive : Nat → Transfer → Prop} (t : Transfer) (h0 : motive 0 t)
    (hstep : ∀ n u w, t.workers[n]? = some w → motive n u → motive (n + 1) (u.flushOne n w)) :
    motive t.workers.length t.flushAll := by
  have hfold : ∀ (rest : List Worker) (n : Nat) (u : Transfer), t.workers.drop n = rest →
      motive n u → motive (n + rest.length)
        ((rest.zipIdx n).foldl (fun u x => u.flushOne x.2 x.1) u) := by
    intro rest
    induction rest with
    | nil => exact fun n u _ h => h
    | cons w rest ih =>
      intro n u hdrop h
      have hw : t.workers[n]? = some w := by
        rw [← Nat.add_zero n, ← List.getElem?_drop, hdrop]
        rfl
      have hrest : t.workers.drop (n + 1) = rest := by
        rw [← List.drop_drop, hdrop]
        rfl
      have hnext := ih (n + 1) (u.flushOne n w) hrest (hstep n u w hw h)
      rw [List.length_cons, Nat.add_comm rest.length, ← Nat.add_assoc]
      exact hnext
  have hall := hfold t.workers 0 t rfl h0
  rw [Nat.zero_add] at hall
  exact hall

/-- What flushing the first `n` workers of a run made of it. -/
structure Flushed (t : Transfer) (n : Nat) (u : Transfer) : Prop where
  length_eq : u.workers.length = t.workers.length
  kept : ∀ (i : Nat) (w' : Worker), u.workers[i]? = some w' →
    ∃ w, t.workers[i]? = some w ∧ (w' = w ∨ w' = w.flushed)
  later : ∀ i, n ≤ i → u.workers[i]? = t.workers[i]?
  table_eq : u.table = { t.table with
    segments := recordAll (u.workers.take n) t.table.segments }
  stopped_eq : u.stopped = t.stopped
  emptied : u.fatal? = none → ∀ (i : Nat) (w : Worker), i < n → u.workers[i]? = some w →
    w.buffer = []
  fatal : u.fatal? = t.fatal? ∨
    (t.fatal? = none ∧ ∃ cause, u.fatal? = some (.io cause) ∧ cause.OfMedium)

variable {t₀ t u : Transfer} {bodies : Nat → Bytes} {n : Nat}

theorem flushed_zero (t : Transfer) : Flushed t 0 t :=
  ⟨rfl, fun _ w hw => ⟨w, hw, Or.inl rfl⟩, fun _ _ => rfl, rfl, rfl,
    fun _ _ _ hi => absurd hi (Nat.not_lt_zero _), Or.inl rfl⟩

/-- Without an error at the end there was none before. -/
theorem Flushed.fatal_none (h : Flushed t n u) (hu : u.fatal? = none) : t.fatal? = none := by
  rcases h.fatal with heq | ⟨hnone, -⟩
  · rw [← heq, hu]
  · exact hnone

/-- The flush of one worker changes that worker, the file and the errors. -/
theorem flushOne_eq {w w' : Worker} {p' : PartialFile} {fault? : Option IoError}
    (hflush : w.flush u.file = (w', p', fault?)) :
    u.flushOne n w = { u with
      workers := u.workers.set n w'
      file := p'
      fatal? := u.fatal? <|> fault?.map .io
      table := { u.table with segments := recordProgress w' u.table.segments } } := by
  unfold flushOne
  rw [hflush]

/-- Flushing a worker keeps it in order. -/
theorem tracks_flush {w w' : Worker} {p p' : PartialFile} {fault? : Option IoError} {body : Bytes}
    (hslot : w.slot.IsSound) (h : w.Tracks p body) (hflush : w.flush p = (w', p', fault?)) :
    w'.Tracks p' body := by
  have hstep := Worker.flush_step hslot h.sound hflush
  have hresult := Worker.flush_result hflush
  refine ⟨hstep.sound, ?_, ?_, ?_⟩
  · rw [hstep.taken_eq, List.append_nil]
    exact h.taken_front
  · intro hstate
    cases fault? with
    | some e =>
      obtain rfl : w' = w := hresult
      exact h.expects hstate
    | none =>
      obtain rfl : w' = w.flushed := hresult
      exact h.expects hstate
  · intro hstate
    have hbefore : w.state = .complete := by
      cases fault? with
      | some e => exact (show w' = w from hresult) ▸ hstate
      | none => rwa [show w' = w.flushed from hresult] at hstate
    -- a complete worker has nothing left to flush
    obtain ⟨hbuffer, hfull⟩ := h.complete hbefore
    obtain ⟨rfl, -, -⟩ := Worker.flush_nil hflush hbuffer
    exact ⟨hbuffer, hfull⟩

/-- Flushing the next worker. -/
theorem Flushed.next (h : Flushed t n u) {w w' : Worker} {p' : PartialFile}
    {fault? : Option IoError} (hw : t.workers[n]? = some w)
    (hflush : w.flush u.file = (w', p', fault?)) : Flushed t (n + 1) (u.flushOne n w) := by
  have hu : u.workers[n]? = some w := (h.later n (Nat.le_refl n)).trans hw
  have hlt := (List.getElem?_eq_some_iff.mp hu).1
  have hresult := Worker.flush_result hflush
  rw [flushOne_eq hflush]
  refine ⟨?_, ?_, ?_, ?_, h.stopped_eq, ?_, ?_⟩
  · exact (List.length_set).trans h.length_eq
  · intro i v' hv'
    by_cases hi : i = n
    · subst hi
      rw [List.getElem?_set_self hlt] at hv'
      obtain rfl := Option.some.inj hv'
      refine ⟨w, hw, ?_⟩
      cases fault? with
      | some e => exact Or.inl hresult
      | none => exact Or.inr hresult
    · rw [List.getElem?_set_ne (Ne.symm hi)] at hv'
      exact h.kept i v' hv'
  · intro i hi
    rw [List.getElem?_set_ne (by omega)]
    exact h.later i (by omega)
  · have htake : (u.workers.set n w').take (n + 1) = u.workers.take n ++ [w'] := by
      rw [List.take_add_one, List.getElem?_set_self hlt, List.take_set_of_le (Nat.le_refl n)]
      rfl
    dsimp only
    rw [htake, recordAll_snoc, h.table_eq]
  · intro hnone i v hi hv
    obtain ⟨hbefore, hfault⟩ : u.fatal? = none ∧ fault? = none := by
      cases hf : u.fatal? <;> cases fault? <;> simp_all
    by_cases hin : i = n
    · subst hin
      rw [List.getElem?_set_self hlt] at hv
      obtain rfl := Option.some.inj hv
      subst hfault
      rw [show w' = w.flushed from hresult]
      rfl
    · rw [List.getElem?_set_ne (Ne.symm hin)] at hv
      exact h.emptied hbefore i v (by omega) hv
  · dsimp only
    cases hf : u.fatal? with
    | some e =>
      have hfatal := h.fatal
      rw [hf] at hfatal
      exact hfatal
    | none =>
      have hnone := h.fatal_none hf
      cases fault? with
      | none => exact Or.inl hnone.symm
      | some cause => exact Or.inr ⟨hnone, cause, rfl, Worker.flush_fault hflush⟩

/-- Flushing a worker keeps what is known of the run. -/
theorem Streamed.flushOne (hready : t₀.Ready) (h : Streamed t₀ bodies u) {w : Worker}
    (hw : u.workers[n]? = some w) : Streamed t₀ bodies (u.flushOne n w) := by
  have hslot := h.slot_isSound hready hw
  have htracks := h.tracks n w hw
  cases hflush : w.flush u.file with
  | mk w' result =>
    obtain ⟨p', fault?⟩ := result
    have hstep := Worker.flush_step hslot htracks.sound hflush
    have hresult := Worker.flush_result hflush
    refine h.step hready (fun _ => List.prefix_rfl) hw hstep ?_ (tracks_flush hslot htracks hflush)
      ?_ ?_
    · intro hstate
      cases fault? with
      | some e => exact (show w' = w from hresult) ▸ hstate
      | none => rwa [show w' = w.flushed from hresult] at hstate
    · rw [flushOne_eq hflush]
    · rw [flushOne_eq hflush]

/-- Flushing all workers keeps what is known of the run. -/
theorem flushAll_spec (hready : t₀.Ready) (h : Streamed t₀ bodies t) :
    Streamed t₀ bodies t.flushAll ∧ Flushed t t.workers.length t.flushAll := by
  refine flushAll_induction (motive := fun n u => Streamed t₀ bodies u ∧ Flushed t n u) t
    ⟨h, flushed_zero t⟩ ?_
  rintro n u w hw ⟨hstreamed, hflushed⟩
  have hu : u.workers[n]? = some w := (hflushed.later n (Nat.le_refl n)).trans hw
  exact ⟨hstreamed.flushOne hready hu, hflushed.next hw rfl⟩

/-- Flushing all workers flushes every one of them. -/
theorem flushAll_flushed (t : Transfer) : Flushed t t.workers.length t.flushAll := by
  refine flushAll_induction (motive := Flushed t) t (flushed_zero t) ?_
  intro n u w hw hflushed
  exact hflushed.next hw rfl

/-- An error stays while workers are flushed. -/
theorem flushAll_fatal {e : DownloadError} (h : t.fatal? = some e) :
    t.flushAll.fatal? = some e := by
  rcases (flushAll_flushed t).fatal with heq | ⟨hnone, -⟩
  · rw [heq, h]
  · rw [h] at hnone
    contradiction

/-- Flushing stops nothing. -/
theorem flushAll_stopped (t : Transfer) : t.flushAll.stopped = t.stopped := by
  refine flushAll_induction (motive := fun _ u => u.stopped = t.stopped) t rfl ?_
  intro n u w _ hstopped
  exact hstopped

/-! ## Checkpoints -/

@[simp] theorem checkpoint_workers (u : Transfer) : u.checkpoint.workers = u.workers := by
  unfold checkpoint
  split <;> rfl

@[simp] theorem checkpoint_stopped (u : Transfer) : u.checkpoint.stopped = u.stopped := by
  unfold checkpoint
  split <;> rfl

@[simp] theorem checkpoint_failures (u : Transfer) : u.checkpoint.failures = u.failures := by
  rw [failures, failures, checkpoint_workers]

/-- A checkpoint commits the progress of a table that persists. -/
theorem checkpoint_segments (u : Transfer) :
    u.checkpoint.table.segments =
      if u.table.persists then u.table.segments.map Segment.commit else u.table.segments := by
  unfold checkpoint
  split <;> rfl

/-- An error stays when the progress is committed. -/
theorem checkpoint_fatal_some {e : DownloadError} (h : u.fatal? = some e) :
    u.checkpoint.fatal? = some e := by
  unfold checkpoint
  split
  · simp [h]
  · exact h

/-- Without an error after a checkpoint there was none before. -/
theorem checkpoint_fatal (h : u.checkpoint.fatal? = none) : u.fatal? = none := by
  cases hf : u.fatal? with
  | none => rfl
  | some e =>
    rw [checkpoint_fatal_some hf] at h
    contradiction

/-- A checkpoint fails with the file, or not at all. -/
theorem checkpoint_fatal_cases {e : DownloadError} (h : u.checkpoint.fatal? = some e) :
    u.fatal? = some e ∨ ∃ cause, e = .io cause ∧ cause.OfMedium := by
  cases hf : u.fatal? with
  | some e' =>
    rw [checkpoint_fatal_some hf] at h
    exact Or.inl h
  | none =>
    right
    unfold checkpoint at h
    split at h
    · have hupdate : (ResumeHeader.update u.file.file u.table.segments).2.2.map .io = some e := by
        simpa [hf] using h
      obtain ⟨cause, hcause, rfl⟩ := Option.map_eq_some_iff.mp hupdate
      exact ⟨cause, rfl, ResumeHeader.update_fault hcause⟩
    · rw [hf] at h
      contradiction

/-- A checkpoint fails with the file. -/
theorem Excused.checkpoint (h : u.Excused) : u.checkpoint.Excused := by
  intro e he
  rcases checkpoint_fatal_cases he with hbefore | ⟨cause, rfl, hmedium⟩
  · obtain ⟨cause, rfl, hreason⟩ := h e hbefore
    refine ⟨cause, rfl, hreason.imp_right ?_⟩
    rw [checkpoint_workers]
    exact id
  · exact ⟨cause, rfl, Or.inl hmedium⟩

/-! ## Outcomes -/

/-- How a run whose workers were flushed is closed. -/
inductive Closes (u : Transfer) (now : Nat) : Except DownloadError Outcome → Transfer → Prop
  | completed (hrunning : u.isHalted = false) (hcomplete : u.isComplete = true) :
    Closes u now (.ok (.completed (Word.toUnsigned u.payloadLength))) (u.announce now)
  | failed (e : DownloadError) (hfatal : u.checkpoint.fatal? = some e) :
    Closes u now (.error e) u.checkpoint
  | interrupted (hfatal : u.checkpoint.fatal? = none) (hstopped : u.stopped = true) :
    Closes u now (.ok .interrupted) u.checkpoint
  | incomplete (hfatal : u.checkpoint.fatal? = none) (hstopped : u.stopped = false)
      (hincomplete : u.isComplete = false) :
    Closes u now (.ok (.incomplete u.failures)) u.checkpoint

/-- Whatever the end of a run does is one of the ends of `Closes`. -/
theorem close_closes {now : Nat} {outcome : Except DownloadError Outcome} {t' : Transfer}
    (h : t.close now = (outcome, t')) : Closes t.flushAll now outcome t' := by
  unfold close at h
  dsimp only at h
  split at h
  · next hboth =>
    obtain ⟨hrunning, hcomplete⟩ := Bool.and_eq_true_iff.mp hboth
    obtain ⟨rfl, rfl⟩ := h
    exact .completed (by simpa using hrunning) hcomplete
  · next hboth =>
    split at h
    · next e hfatal =>
      obtain ⟨rfl, rfl⟩ := h
      exact .failed e hfatal
    · next hfatal =>
      obtain ⟨rfl, rfl⟩ := h
      rw [checkpoint_stopped, checkpoint_failures]
      cases hstopped : t.flushAll.stopped with
      | true => exact .interrupted hfatal hstopped
      | false =>
        refine .incomplete hfatal hstopped ?_
        simpa [isHalted, checkpoint_fatal hfatal, hstopped] using hboth

end SegmentedDownload.Transfer
