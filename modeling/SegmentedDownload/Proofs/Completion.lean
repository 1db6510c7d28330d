import Mathlib
import SegmentedDownload.Proofs.Records

/-!
# SegmentedDownload.Proofs.Completion

The outcome of a run says exactly how much of the file is on disk.

* A run that completes has only full records, and every byte of the file was
  committed before or lies where the body of its worker puts it
  (`Settled.delivered`).
* A run whose records are all full completes, unless it was stopped, never got to
  the bodies, or its file failed. A worker that failed behind its last byte does
  not matter.
* A run that is incomplete has a record that is not full, and a failed worker for
  each of them.
-/

namespace SegmentedDownload

/-- The byte at an offset is committed. -/
def Table.Committed (table : Table) (o : Int) : Prop :=
  ∃ s ∈ table.segments, s.start ≤ o ∧ o < s.start + s.committed

/-- A table that was built for a known size. -/
theorem Table.known_of_built {size : Int} {table : Table} (hmax : size ≤ Word.maxInt)
    (hsize : table.size? = some size)
    (hbuilt : (∃ size? workers persist, table = Table.fresh size? workers persist) ∨
      ∃ f workers, table = Table.load f size workers) : table.Known size := by
  rcases hbuilt with ⟨size?, workers, persist, rfl⟩ | ⟨f, workers, rfl⟩
  · cases size? with
    | none => contradiction
    | some size' => exact known_fresh hmax hsize
  · exact known_load hmax hsize

namespace Transfer

/-- The byte at an offset came with the body of the worker that asked for it, and
is at its place in the file. -/
def Delivered (t : Transfer) (incidents : List (Nat × Incident)) (o : Int) : Prop :=
  ∃ (i : Nat) (w : Worker) (n : Nat) (b : UInt8), t.workers[i]? = some w ∧
    o = w.slot.resumeStart + n ∧ n < w.slot.length ∧ (bodyOf incidents i)[n]? = some b ∧
    t.file.file.contents[t.table.headerSize + o.toNat]? = some b

/-- A byte that a full record covers was committed before, or is delivered. -/
theorem Settled.delivered {size : Int} {t₀ u : Transfer} {incidents : List (Nat × Incident)}
    (h : Settled size t₀ (t₀.bodies incidents) u)
    (hoffset : u.file.payloadOffset = u.table.headerSize)
    (hfull : ∀ s ∈ u.table.segments, s.IsFull) {o : Int} (h0 : 0 ≤ o) (ho : o < size) :
    t₀.table.Committed o ∨ u.Delivered incidents o := by
  obtain ⟨s, hs, hstart, hlast⟩ := h.planned.known.partition.exists_mem h0 ho
  obtain ⟨i, hi⟩ := List.getElem?_of_mem hs
  obtain ⟨hbegun, hbounded, hvalid⟩ := h.begun hi
  by_cases hbefore : o < s.start + s.committed
  · exact Or.inl ⟨s, hs, hstart, hbefore⟩
  right
  rcases h.record_cases hi with ⟨hc, -⟩ | ⟨hc, w, hw, hslot, hrecord⟩
  · have := (Segment.isComplete_iff hbounded).mp hc
    omega
  · have hwritten := (h.isFull_iff hi hc hw hslot).mp (hfull _ (List.mem_of_getElem? hrecord))
    obtain ⟨j, hj⟩ := List.getElem?_of_mem hw
    have hlength := (h.sound hw).1.length_eq
    have hreach : w.slot.resumeStart ≤ s.start + s.committed := by
      rw [hslot]
      exact (Plan.resumeStart_bounds hvalid.committed_nonneg).2
    have hwlast : w.slot.last = s.last := by rw [hslot]; rfl
    have hnonneg := (h.sound hw).1.start_nonneg
    have hle := (h.sound hw).1.start_le
    have hn : (o - w.slot.resumeStart).toNat < w.written := by omega
    obtain ⟨b, hbody, hbyte⟩ := h.stored_byte hj hn
    refine ⟨j, w, (o - w.slot.resumeStart).toNat, b, hj, by omega, by omega,
      getElem?_bodies hbody, ?_⟩
    rw [← hoffset, ← hbyte]
    congr 1
    omega

section Ends

variable {size : Int} {table : Table} {p : PartialFile} {reporter : Reporter} {course : Course}
  {outcome : Except DownloadError Outcome} {t : Transfer}

/-- A plan that collapses to one segment has nothing committed. -/
theorem committed_accept (hknown : table.Known size) {replies : List Reply} {t₁ : Transfer}
    (haccept : (begin table p reporter).accept replies = .ok t₁) {o : Int}
    (h : t₁.table.Committed o) : table.Committed o := by
  obtain ⟨s', hs', hrange⟩ := h
  rcases (accept_table haccept).2 with htable | ⟨-, htable⟩
  · rw [htable] at hs'
    obtain ⟨s, hs, rfl⟩ := List.mem_map.mp hs'
    exact ⟨s, hs, hrange⟩
  · rw [htable] at hs'
    have hwhole : s' ∈ [table.begin.whole] := hs'
    rw [List.mem_singleton.mp hwhole, hknown.begin.whole_eq] at hrange
    simp only at hrange
    omega

/-- A run that completes has the whole file. -/
theorem Ends.completed (hknown : table.Known size)
    (h : Ends table p reporter course outcome t) {n : Nat}
    (hcompleted : outcome = .ok (.completed n)) :
    (n : Int) = size ∧ Plan.IsPartition size t.table.segments ∧
      (∀ s ∈ t.table.segments, s.IsFull) ∧
      ∀ o : Int, 0 ≤ o → o < size → table.Committed o ∨ t.Delivered course.incidents o := by
  cases h with
  | unanswered => cases hcompleted
  | rejected => cases hcompleted
  | unprepared => cases hcompleted
  | closed replies t₁ t₀ _ _ hreplies haccept hprepare hclose =>
    have hsettled := settled_of_accept hknown haccept hprepare course.incidents
    have hoffset := hsettled.offset_eq (prepare_offset hprepare)
    cases close_closes hclose with
    | failed => cases hcompleted
    | interrupted => cases hcompleted
    | incomplete => cases hcompleted
    | completed hrunning hcomplete =>
      have hfull := hsettled.isComplete_iff.mp hcomplete
      have hlength : (t₀.stream course.incidents).flushAll.payloadLength = size := by
        rw [payloadLength, hsettled.size_eq, Option.getD_some]
      have hn : Word.toUnsigned size = n := by
        rw [hlength] at hcompleted
        simpa using hcompleted
      have hpos := hknown.pos
      rw [Word.toUnsigned_of_nonneg (le_of_lt hpos) hknown.partition.size_le] at hn
      refine ⟨by omega, hsettled.partition, hfull, fun o h0 ho => ?_⟩
      refine (hsettled.delivered hoffset hfull h0 ho).imp_left fun hcommitted => ?_
      rw [Table.Committed, (prepare_eq hprepare).1] at hcommitted
      exact committed_accept hknown haccept hcommitted

/-- Committing progress does not change which records are full. -/
theorem isFull_checkpoint {u : Transfer} :
    (∀ s ∈ u.checkpoint.table.segments, s.IsFull) ↔ ∀ s ∈ u.table.segments, s.IsFull := by
  rw [checkpoint_segments]
  split
  · exact List.forall_mem_map
  · exact Iff.rfl

/-- A checkpoint leaves as many segments full as there were. -/
theorem countP_checkpoint {u : Transfer} :
    u.checkpoint.table.segments.countP (fun s => !decide s.IsFull) =
      u.table.segments.countP (fun s => !decide s.IsFull) := by
  rw [checkpoint_segments]
  split
  · exact List.countP_map
  · rfl

/-- A run whose records are all full completes, if nothing else ended it. -/
theorem Ends.completes (hknown : table.Known size)
    (h : Ends table p reporter course outcome t) (hfull : ∀ s ∈ t.table.segments, s.IsFull)
    (hreplies : course.replies? ≠ none) (hstop : ∀ x ∈ course.incidents, x.2 ≠ .stop)
    (hsetup : ∀ index, outcome ≠ .error (.rangeUnsupported index))
    (hfile : ∀ cause, outcome = .error (.io cause) → ¬ cause.OfMedium) :
    outcome = .ok (.completed size.toNat) := by
  cases h with
  | unanswered hnone => exact absurd hnone hreplies
  | rejected replies index => exact absurd rfl (hsetup index)
  | unprepared replies t₁ _ cause _ _ hprepare =>
    exact absurd (prepare_fault hprepare) (hfile cause rfl)
  | closed replies t₁ t₀ _ _ _ haccept hprepare hclose =>
    have hsettled := settled_of_accept hknown haccept hprepare course.incidents
    have hpos := hknown.pos
    have hmax := hknown.partition.size_le
    cases close_closes hclose with
    | completed hrunning hcomplete =>
      rw [payloadLength, hsettled.size_eq, Option.getD_some,
        Word.toUnsigned_of_nonneg (le_of_lt hpos) hmax]
    | failed e hfatal =>
      -- the error is not one of the file, so some worker is short of its slot
      obtain ⟨cause, rfl, hreason⟩ := hsettled.excused.checkpoint e hfatal
      obtain ⟨i, w, hi, -, hshort⟩ := hreason.resolve_left (hfile cause rfl)
      rw [checkpoint_workers] at hi
      have hw := List.mem_of_getElem? hi
      obtain ⟨j, s, hs, hincomplete, hslot⟩ := hsettled.mem_slot hw
      have hrecord := hsettled.record_of_worker hw hs hslot
      have hreceived := (hsettled.sound hw).2.received_eq
      rw [isFull_checkpoint] at hfull
      have hwritten := (hsettled.isFull_iff hs hincomplete hw hslot).mp
        (hfull _ (List.mem_of_getElem? hrecord))
      omega
    | interrupted hfatal hstopped =>
      rw [flushAll_stopped] at hstopped
      rcases stream_stopped hstopped with hbefore | ⟨x, hx, hx'⟩
      · rw [hsettled.planned.running.2] at hbefore
        contradiction
      · exact absurd hx' (hstop x hx)
    | incomplete hfatal hstopped hincomplete =>
      rw [isFull_checkpoint, ← hsettled.isComplete_iff, hincomplete] at hfull
      contradiction

/-- A run that is incomplete has a failed worker for each record that is not full. -/
theorem Ends.incomplete (hknown : table.Known size)
    (h : Ends table p reporter course outcome t) {failed : Nat}
    (hincomplete : outcome = .ok (.incomplete failed)) :
    1 ≤ failed ∧ failed ≤ t.workers.length ∧
      1 ≤ t.table.segments.countP (fun s => !decide s.IsFull) ∧
      t.table.segments.countP (fun s => !decide s.IsFull) ≤ failed := by
  cases h with
  | unanswered => cases hincomplete
  | rejected => cases hincomplete
  | unprepared => cases hincomplete
  | closed replies t₁ t₀ _ _ _ haccept hprepare hclose =>
    have hsettled := settled_of_accept hknown haccept hprepare course.incidents
    cases close_closes hclose with
    | completed => cases hincomplete
    | failed => cases hincomplete
    | interrupted => cases hincomplete
    | incomplete hfatal hstopped hnot =>
      obtain rfl : (t₀.stream course.incidents).flushAll.failures = failed := by
        simpa using hincomplete
      rw [countP_checkpoint, checkpoint_workers]
      have hsome : 1 ≤ (t₀.stream course.incidents).flushAll.table.segments.countP
          (fun s => !decide s.IsFull) := by
        by_contra hzero
        have hnone := List.countP_eq_zero.mp (Nat.lt_one_iff.mp (Nat.not_le.mp hzero))
        have hcomplete := hsettled.isComplete_iff.mpr fun s hs => by simpa using hnone s hs
        rw [hnot] at hcomplete
        contradiction
      have hle := hsettled.count_le_failures
      exact ⟨Nat.le_trans hsome hle, List.countP_le_length, hsome, hle⟩

end Ends

/-- **Completion is exact**, whatever the server does. A run completes only with the
size of the file and every byte of it; a run whose records are all full completes
if it got to the bodies, was not stopped, and its file did not fail; and a run that
is incomplete counts a failed worker for each record that is not full. -/
theorem run_completion {size : Int} {table : Table} (hmax : size ≤ Word.maxInt)
    (hsize : table.size? = some size)
    (hbuilt : (∃ size? workers persist, table = Table.fresh size? workers persist) ∨
      ∃ f workers, table = Table.load f size workers)
    (p : PartialFile) (reporter : Reporter) (course : Course) :
    let outcome := (run table p reporter course).1
    let t := (run table p reporter course).2
    (∀ n, outcome = .ok (.completed n) →
      (n : Int) = size ∧ Plan.IsPartition size t.table.segments ∧
        (∀ s ∈ t.table.segments, s.IsFull) ∧
        ∀ o : Int, 0 ≤ o → o < size → table.Committed o ∨ t.Delivered course.incidents o) ∧
    ((∀ s ∈ t.table.segments, s.IsFull) →
      course.replies? ≠ none → (∀ x ∈ course.incidents, x.2 ≠ .stop) →
      (∀ index, outcome ≠ .error (.rangeUnsupported index)) →
      (∀ cause, outcome = .error (.io cause) → ¬ cause.OfMedium) →
      outcome = .ok (.completed size.toNat)) ∧
    (∀ failed, outcome = .ok (.incomplete failed) →
      1 ≤ failed ∧ failed ≤ t.workers.length ∧
        1 ≤ t.table.segments.countP (fun s => !decide s.IsFull) ∧
        t.table.segments.countP (fun s => !decide s.IsFull) ≤ failed) := by
  have hknown := Table.known_of_built hmax hsize hbuilt
  have hends := run_ends table p reporter course
  exact ⟨fun n => hends.completed hknown, hends.completes hknown,
    fun failed => hends.incomplete hknown⟩

/-- A run over two segments, the second of which breaks behind its last byte. -/
def brokenBehindLast : Except DownloadError Outcome × Transfer :=
  run (Table.fresh (some 5) 2 true) {} (Reporter.new (some 5) 100 {})
    { replies? := some [.answered 206 none, .answered 206 none]
      incidents :=
        [(0, .chunk 1 [3, 4, 5, 9]), (1, .broken 1), (2, .chunk 0 [1, 2]), (3, .ended 0)]
      closing := 4 }

/-- The run completes with a failed worker, and has every byte. -/
theorem brokenBehindLast_completes :
    brokenBehindLast.2.workers.map (·.state) = [.complete, .failed] ∧
      brokenBehindLast.1 = .ok (.completed 5) ∧
      ∀ o : Int, 0 ≤ o → o < 5 → (Table.fresh (some 5) 2 true).Committed o ∨
        brokenBehindLast.2.Delivered
          [(0, .chunk 1 [3, 4, 5, 9]), (1, .broken 1), (2, .chunk 0 [1, 2]), (3, .ended 0)] o := by
  have hrun := run_completion (by decide) rfl (Or.inl ⟨some 5, 2, true, rfl⟩) {}
    (Reporter.new (some 5) 100 {})
    { replies? := some [.answered 206 none, .answered 206 none]
      incidents :=
        [(0, .chunk 1 [3, 4, 5, 9]), (1, .broken 1), (2, .chunk 0 [1, 2]), (3, .ended 0)]
      closing := 4 }
  have houtcome : brokenBehindLast.1 = .ok (.completed 5) := by decide +kernel
  refine ⟨by decide +kernel, hrun.2.1 (by decide +kernel) (by decide) (by decide) ?_ ?_,
    (hrun.1 5 houtcome).2.2.2⟩
  · intro index herror
    cases houtcome.symm.trans herror
  · intro cause herror
    cases houtcome.symm.trans herror

end Transfer

end SegmentedDownload
