import SegmentedDownload.Proofs.FailedFinish

/-!
# SegmentedDownload.Proofs.OnDisk

A run that completes has its payload on disk, also if nobody knew its length before.

* What a worker counts as written ends inside of the partial file (`Worker.Backed`).  This holds
  of every run, whatever the server sends: the file does not get shorter during a run, and a
  write that succeeds ends inside of it.
* So the partial file of a download that completes reaches as far as its payload, unless the
  run began with the last byte counted as committed (`engine_reaches`).
* A run fails because of the file, or because a range was ignored (`run_error`).
-/

namespace SegmentedDownload

/-! ## Workers -/

/-- A file after some writes. -/
structure PartialFile.Grows (p p' : PartialFile) : Prop where
  offset_eq : p'.payloadOffset = p.payloadOffset
  length_le : p.file.contents.length ≤ p'.file.contents.length

theorem PartialFile.Grows.refl (p : PartialFile) : Grows p p := ⟨rfl, Nat.le_refl _⟩

namespace Worker

variable {w w' : Worker} {p p' : PartialFile} {fault? : Option IoError} {data : Bytes}

/-- What the worker counts as written ends inside of the file. -/
def Backed (w : Worker) (p : PartialFile) : Prop :=
  w.written = 0 ∨
    p.payloadOffset + Word.toUnsigned (w.slot.resumeStart + w.written) ≤ p.file.contents.length

theorem Backed.mono (h : w.Backed p) (hgrows : p.Grows p') : w.Backed p' := by
  refine h.imp_right fun hle => ?_
  rw [hgrows.offset_eq]
  exact Nat.le_trans hle hgrows.length_le

/-- The part of a worker that says what is on disk. -/
structure Keeps (w : Worker) (p : PartialFile) (w' : Worker) (p' : PartialFile) : Prop where
  slot_eq : w'.slot = w.slot
  grows : p.Grows p'
  backed : w.Backed p → w'.Backed p'

/-- Whatever else changes in a worker does not matter for what is on disk. -/
theorem Keeps.of_eq {w₁ : Worker} (h : Keeps w p w₁ p') (hslot : w'.slot = w₁.slot)
    (hwritten : w'.written = w₁.written) : Keeps w p w' p' := by
  refine ⟨hslot.trans h.slot_eq, h.grows, fun hbacked => ?_⟩
  have hbacked := h.backed hbacked
  rw [Backed] at hbacked ⊢
  rwa [hslot, hwritten]

/-- A flush that fails keeps what was written before. -/
theorem flush_keeps (hflush : w.flush p = (w', p', fault?)) : Keeps w p w' p' := by
  by_cases hbuffer : w.buffer = []
  · obtain ⟨rfl, rfl, -⟩ := flush_nil hflush hbuffer
    exact ⟨rfl, .refl _, id⟩
  obtain ⟨hwrite, hresult⟩ := flush_eq hflush hbuffer
  have hpatched := PartialFile.patched_writePayload p
    (Word.toUnsigned (w.slot.resumeStart + w.written)) w.buffer
  have hoffset := PartialFile.writePayload_offset p
    (Word.toUnsigned (w.slot.resumeStart + w.written)) w.buffer
  have hread := @PartialFile.payload_writePayload p
    (Word.toUnsigned (w.slot.resumeStart + w.written)) w.buffer
  rw [hwrite] at hpatched hoffset hread
  have hgrows : p.Grows p' := ⟨hoffset, hpatched.length_le⟩
  cases fault? with
  | some fault =>
    obtain rfl : w' = w := hresult
    exact ⟨rfl, hgrows, fun h => h.mono hgrows⟩
  | none =>
    obtain rfl : w' = w.flushed := hresult
    refine ⟨rfl, hgrows, fun _ => Or.inr ?_⟩
    -- the buffer is read back behind the position that it was written to
    have hend := congrArg List.length (hread rfl)
    have hpos := List.length_pos_iff.mpr hbuffer
    dsimp only at hend
    rw [PartialFile.payload, Bytes.length_slice] at hend
    change p'.payloadOffset + Word.toUnsigned (w.slot.resumeStart + ↑(w.written + w.buffer.length))
      ≤ _
    rw [Word.toUnsigned] at hend ⊢
    omega

theorem push_keeps (hpush : w.push p data = (w', p', fault?)) : Keeps w p w' p' := by
  unfold push at hpush
  split at hpush
  · split at hpush
    · next hflush =>
      obtain ⟨rfl, rfl, -⟩ := hpush
      exact flush_keeps hflush
    · next hflush =>
      obtain ⟨rfl, rfl, -⟩ := hpush
      refine (flush_keeps hflush).of_eq ?_ ?_
      · unfold append enlarge
        split <;> rfl
      · unfold append enlarge
        split <;> rfl
  · obtain ⟨rfl, rfl, -⟩ := hpush
    exact ⟨rfl, .refl _, id⟩

theorem receive_keeps (hreceive : w.receive p data = (w', p', fault?)) : Keeps w p w' p' := by
  unfold receive at hreceive
  split at hreceive
  · next hpush =>
    obtain ⟨rfl, rfl, -⟩ := hreceive
    exact (push_keeps hpush).of_eq rfl rfl
  · next hpush =>
    obtain ⟨rfl, rfl, -⟩ := hreceive
    exact push_keeps hpush

theorem finish_keeps (hfinish : w.finish p = (w', p', fault?)) : Keeps w p w' p' := by
  unfold finish at hfinish
  split at hfinish
  · next hflush =>
    obtain ⟨rfl, rfl, -⟩ := hfinish
    exact (flush_keeps hflush).of_eq rfl rfl
  · next hflush =>
    split at hfinish
    · obtain ⟨rfl, rfl, -⟩ := hfinish
      exact (flush_keeps hflush).of_eq rfl rfl
    · obtain ⟨rfl, rfl, -⟩ := hfinish
      exact (flush_keeps hflush).of_eq rfl rfl

end Worker

/-! ## Runs -/

namespace Transfer

variable {t₀ t t' t₁ : Transfer} {table : Table} {p : PartialFile} {reporter : Reporter}
  {course : Course} {replies : List Reply} {incidents : List (Nat × Incident)} {i : Nat}
  {w w' : Worker} {p' : PartialFile}

/-- What a run whose bodies arrive keeps on disk, and which errors it may have. -/
structure OnDisk (t₀ t : Transfer) : Prop where
  slots_eq : t.workers.map (·.slot) = t₀.workers.map (·.slot)
  offset_eq : t.file.payloadOffset = t₀.file.payloadOffset
  backed : ∀ w ∈ t.workers, w.Backed t.file
  fatal : ∀ e, t.fatal? = some e → ∃ cause, e = .io cause

/-- A worker does something with the file. -/
theorem OnDisk.set (h : OnDisk t₀ t) (hw : t.workers[i]? = some w)
    (hkeeps : w.Keeps t.file w' p')
    (hworkers : t'.workers = t.workers.set i w') (hfile : t'.file = p')
    (hfatal : ∀ e, t'.fatal? = some e → ∃ cause, e = .io cause) : OnDisk t₀ t' where
  slots_eq := by
    rw [← h.slots_eq, hworkers, List.map_set, hkeeps.slot_eq]
    obtain ⟨hlt, rfl⟩ := List.getElem?_eq_some_iff.mp hw
    have hmap : (t.workers.map (·.slot))[i]? = some t.workers[i].slot := by simp [hlt]
    obtain ⟨hlt', heq⟩ := List.getElem?_eq_some_iff.mp hmap
    rw [← heq, List.set_getElem_self hlt']
  offset_eq := by rw [hfile, hkeeps.grows.offset_eq, h.offset_eq]
  backed v hv := by
    rw [hfile]
    rw [hworkers] at hv
    rcases List.mem_or_eq_of_mem_set hv with hv | rfl
    · exact (h.backed v hv).mono hkeeps.grows
    · exact hkeeps.backed (h.backed w (List.mem_of_getElem? hw))
  fatal := hfatal

/-- Whatever happens to one worker, the recorded bytes of all are on disk. -/
theorem OnDisk.step (h : OnDisk t₀ t) {now : Nat} {incident : Incident}
    (hstep : Step t now incident t') : OnDisk t₀ t' := by
  have hio : ∀ (fault? : Option IoError) (e : DownloadError),
      fault?.map DownloadError.io = some e → ∃ cause, e = .io cause := by
    intro fault? e he
    obtain ⟨cause, -, rfl⟩ := Option.map_eq_some_iff.mp he
    exact ⟨cause, rfl⟩
  cases hstep with
  | halted _ _ | unheard _ _ _ _ _ => exact h
  | stopped _ => exact ⟨h.slots_eq, h.offset_eq, h.backed, h.fatal⟩
  | refused i data w w' p' cause _ hstream hreceive =>
    exact h.set (streaming?_eq_some.mp hstream).1 (Worker.receive_keeps hreceive) rfl rfl
      (hio (some cause))
  | received i data w w' p' _ hstream hreceive =>
    exact h.set (streaming?_eq_some.mp hstream).1 (Worker.receive_keeps hreceive) rfl rfl nofun
  | ended i w w' p' fault? _ hstream hfinish =>
    exact h.set (streaming?_eq_some.mp hstream).1 (Worker.finish_keeps hfinish) rfl rfl (hio fault?)
  | broken i w _ hstream =>
    have hfail : w.Keeps t.file w.fail t.file := ⟨rfl, .refl _, id⟩
    exact h.set (streaming?_eq_some.mp hstream).1 hfail rfl rfl h.fatal

theorem OnDisk.stream (h : OnDisk t₀ t₀) (incidents : List (Nat × Incident)) :
    OnDisk t₀ (t₀.stream incidents) := by
  induction incidents using List.reverseRecOn with
  | nil => exact h
  | append_singleton done x ih =>
    rw [stream_snoc]
    exact ih.step (step_deliver _ _ _)

theorem OnDisk.flushAll (h : OnDisk t₀ t) : OnDisk t₀ t.flushAll := by
  refine (flushAll_induction (motive := fun n u => OnDisk t₀ u ∧ Flushed t n u) t
    ⟨h, flushed_zero t⟩ ?_).1
  rintro n u w hw ⟨hdisk, hflushed⟩
  refine ⟨?_, hflushed.next hw rfl⟩
  have hu : u.workers[n]? = some w := (hflushed.later n (Nat.le_refl n)).trans hw
  cases hflush : w.flush u.file with
  | mk w' result =>
    obtain ⟨p', fault?⟩ := result
    rw [flushOne_eq hflush]
    refine hdisk.set hu (Worker.flush_keeps hflush) rfl rfl fun e he => ?_
    cases hfatal : u.fatal? with
    | some e' => exact hdisk.fatal e (by simpa [hfatal] using he)
    | none =>
      obtain ⟨cause, -, rfl⟩ := Option.map_eq_some_iff.mp (by simpa [hfatal] using he)
      exact ⟨cause, rfl⟩

/-- An incident does not change the table. -/
theorem Step.table_eq {now : Nat} {incident : Incident} (h : Step t now incident t') :
    t'.table = t.table := by
  cases h <;> rfl

/-- Bodies do not change the table. -/
theorem stream_table (t : Transfer) (incidents : List (Nat × Incident)) :
    (t.stream incidents).table = t.table := by
  induction incidents using List.reverseRecOn with
  | nil => rfl
  | append_singleton done x ih =>
    rw [stream_snoc, (step_deliver _ _ _).table_eq, ih]

/-- Before the bodies arrive nothing counts as written. -/
theorem onDisk_ready (haccept : (begin table p reporter).accept replies = .ok t₁)
    (hprepare : t₁.prepare = (t₀, none)) : OnDisk t₀ t₀ := by
  obtain ⟨-, hworkers, hfatal, -⟩ := prepare_eq hprepare
  have hready : (∀ w ∈ t₁.workers, w.written = 0) ∧ t₁.fatal? = none := by
    cases accept_accepts haccept with
    | whole w others length? rest _ _ _ =>
      refine ⟨fun v hv => ?_, rfl⟩
      obtain rfl := List.mem_singleton.mp hv
      rfl
    | each workers hall =>
      refine ⟨fun v hv => ?_, rfl⟩
      obtain ⟨i, hi⟩ := List.getElem?_of_mem hv
      obtain ⟨w, hw, hone⟩ := (acceptAll_eq_ok hall).2 i v hi
      obtain ⟨slot, -, rfl⟩ := List.mem_map.mp (List.mem_of_getElem? hw)
      rcases acceptOne_eq_ok hone with rfl | ⟨_, _, -, -, rfl⟩ <;> rfl
  refine ⟨rfl, rfl, fun w hw => Or.inl (hready.1 w (hworkers ▸ hw)), fun e he => ?_⟩
  rw [hfatal, hready.2] at he
  contradiction

/-- A run fails because of the file, or because a range was ignored. -/
theorem run_error {e : DownloadError} (h : (run table p reporter course).1 = .error e) :
    (∃ index, e = .rangeUnsupported index) ∨ ∃ cause, e = .io cause := by
  have hends := run_ends table p reporter course
  rw [h] at hends
  generalize (run table p reporter course).2 = t at hends
  cases hends with
  | rejected _ index _ _ => exact Or.inl ⟨index, rfl⟩
  | unprepared _ _ _ cause _ _ _ => exact Or.inr ⟨cause, rfl⟩
  | closed replies t₁ t₀ _ _ _ haccept hprepare hclose =>
    have hdisk := ((onDisk_ready haccept hprepare).stream course.incidents).flushAll
    cases close_closes hclose with
    | failed _ hfatal =>
      rcases checkpoint_fatal_cases hfatal with hbefore | ⟨cause, hcause, -⟩
      · exact Or.inr (hdisk.fatal e hbefore)
      · exact Or.inr ⟨cause, hcause⟩

/-! ## Payloads -/

/-- The last byte of a file of known size is committed before the run, or on disk in its end. -/
theorem known_reaches {size : Int} (hknown : table.Known size) {n : Nat}
    (h : (run table p reporter course).1 = .ok (.completed n))
    (hcounted : ¬ table.Committed (n - 1)) :
    (run table p reporter course).2.table.headerSize + n ≤
      (run table p reporter course).2.file.file.contents.length := by
  obtain ⟨hn, -, -, hbytes⟩ := (run_ends table p reporter course).completed hknown h
  have hpos := hknown.pos
  rcases hbytes (n - 1) (by omega) (by omega) with hcommitted | ⟨_, _, _, _, -, -, -, -, hbyte⟩
  · exact absurd hcommitted hcounted
  · have hlt := (List.getElem?_eq_some_iff.mp hbyte).1
    omega

/-- A run of unknown size completes with as many bytes as are on disk. -/
theorem unsized_reaches {workers n : Nat}
    (h : (run (Table.fresh none workers false) p reporter course).1 = .ok (.completed n)) :
    (run (Table.fresh none workers false) p reporter course).2.table.headerSize + n ≤
      (run (Table.fresh none workers false) p reporter course).2.file.file.contents.length := by
  have hends := run_ends (Table.fresh none workers false) p reporter course
  rw [h] at hends
  generalize (run (Table.fresh none workers false) p reporter course).2 = t at hends ⊢
  cases hends with
  | closed replies t₁ t₀ _ _ _ haccept hprepare hclose =>
    have hdisk := ((onDisk_ready haccept hprepare).stream course.incidents).flushAll
    have htable : t₀.table =
        { segments := [.unbounded], isFresh := true, persists := false, size? := none } := by
      rw [(prepare_eq hprepare).1]
      rcases (accept_table haccept).2 with htable | ⟨-, htable⟩ <;> rw [htable] <;> rfl
    have hslots : t₀.workers.map (·.slot) = [openSlot] := by
      rw [(prepare_eq hprepare).2.1]
      cases accept_accepts haccept with
      | whole _ _ _ _ _ _ _ => rfl
      | each workers hall =>
        obtain ⟨hlength, heach⟩ := acceptAll_eq_ok hall
        obtain ⟨w', rfl⟩ := List.length_eq_one_iff.mp hlength
        obtain ⟨w, hw, hone⟩ := heach 0 w' rfl
        obtain rfl := Option.some.inj hw
        rcases acceptOne_eq_ok hone with rfl | ⟨_, _, -, -, rfl⟩ <;> rfl
    have hworkers : ∃ w, (t₀.stream course.incidents).flushAll.workers = [w] ∧
        w.slot = openSlot := by
      have hmap := hdisk.slots_eq
      rw [hslots] at hmap
      exact List.map_eq_singleton_iff.mp hmap
    obtain ⟨w, hworkers, hslot⟩ := hworkers
    have hflushed := flushAll_flushed (t₀.stream course.incidents)
    have htotal := hflushed.table_eq
    rw [← hflushed.length_eq, hworkers, stream_table, htable] at htotal
    have hlength : (t₀.stream course.incidents).flushAll.payloadLength = w.written := by
      rw [payloadLength, htotal]
      simp [recordAll, recordProgress, Table.sessionTotal, Segment.unbounded,
        Worker.flushedProgress, hslot, openSlot]
    have hheader : (t₀.stream course.incidents).flushAll.table.headerSize = 0 := by
      rw [htotal]
      rfl
    cases close_closes hclose with
    | completed _ _ =>
      change (t₀.stream course.incidents).flushAll.table.headerSize + _ ≤
        (t₀.stream course.incidents).flushAll.file.file.contents.length
      rw [hheader, Nat.zero_add, hlength]
      rcases hdisk.backed w (by simp [hworkers]) with hnone | hle
      · rw [hnone]
        exact Nat.zero_le _
      · rw [hslot] at hle
        change _ + Word.toUnsigned (0 + _) ≤ _ at hle
        rw [Int.zero_add] at hle
        omega

end Transfer

namespace Download

variable {c : Config} {size? : Option Int} {contents : Bytes} {world : World}

/-- The table of a download whose size is known, or the only one there is. -/
theorem table_cases (c : Config) (size? : Option Int) (file : OpenFile)
    (hsize : ∀ size, size? = some size → 0 < size ∧ size ≤ Word.maxInt) :
    (∃ size, size? = some size ∧ (table c size? file).Known size) ∨
      size? = none ∧ table c size? file = Table.fresh none c.workers false := by
  cases size? with
  | none => exact Or.inr ⟨rfl, rfl⟩
  | some size =>
    obtain ⟨hpos, hmax⟩ := hsize size rfl
    refine Or.inl ⟨size, rfl, ?_⟩
    unfold table
    dsimp only
    split
    · exact Table.known_load hmax (Table.size_load hpos)
    · exact Table.known_fresh hmax (by simp [Table.fresh, hpos])

variable {n : Nat} (hsize : ∀ size, size? = some size → 0 < size ∧ size ≤ Word.maxInt)
  (h : (engine c size? contents world).1 = .ok (.completed n))

include hsize h

/-- A download that completes has as many bytes as the server told. -/
theorem engine_length {size : Int} (hsome : size? = some size) : (n : Int) = size := by
  subst hsome
  unfold engine at h
  rcases table_cases c (some size) { contents, faults := world.faults } hsize with
    ⟨size', hsame, hknown⟩ | ⟨hnone, -⟩
  · obtain rfl := Option.some.inj hsame
    exact ((Transfer.run_ends _ _ _ _).completed hknown h).1
  · contradiction

/-- The partial file of a download that completes reaches as far as its payload, unless the run
began with the last byte counted as committed. -/
theorem engine_reaches
    (hcounted : ¬ (table c size? { contents, faults := world.faults }).Committed (n - 1)) :
    (engine c size? contents world).2.table.headerSize + n ≤
      (engine c size? contents world).2.file.file.contents.length := by
  unfold engine at h ⊢
  dsimp only at h ⊢
  rcases table_cases c size? { contents, faults := world.faults } hsize with
    ⟨size, -, hknown⟩ | ⟨-, htable⟩
  · exact Transfer.known_reaches hknown h hcounted
  · rw [htable] at h ⊢
    exact Transfer.unsized_reaches h

end Download

end SegmentedDownload
