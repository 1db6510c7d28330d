import Mathlib
import SegmentedDownload.Proofs.Preparation
import SegmentedDownload.Proofs.Closing

/-!
# SegmentedDownload.Proofs.Records

What the segments of a run say once all buffers were flushed.

`Settled size t₀ bodies u` relates a plan to the run that flushed its workers.
Each segment was complete before and is as it was, or has a worker, whose flushed
progress it records (`Settled.record_cases`).  Hence

* a record claims what was committed, and never more than its range (`bounds`);
* it is full exactly when its worker stored all it asked for (`isFull_iff`);
* what a worker stored is the front of its body, at its place (`stored_byte`);
* a run is complete if and only if every record is full (`isComplete_iff`), and
  otherwise every record that is not full has a worker of its own that did not
  complete (`count_le_failures`).
-/

namespace SegmentedDownload.Transfer

/-- A plan, and the run once all its workers were flushed. -/
structure Settled (size : Int) (t₀ : Transfer) (bodies : Nat → Bytes) (u : Transfer) : Prop where
  planned : Planned size t₀
  streamed : Streamed t₀ bodies u
  table_eq : u.table = { t₀.table with segments := recordAll u.workers t₀.table.segments }
  emptied : u.fatal? = none → ∀ w ∈ u.workers, w.buffer = []
  excused : u.Excused

/-- Flushing a plan after any incidents settles it. -/
theorem Planned.settled {size : Int} {t₀ : Transfer} (h : Planned size t₀)
    (incidents : List (Nat × Incident)) :
    Settled size t₀ (t₀.bodies incidents) (t₀.stream incidents).flushAll := by
  have hfollows := stream_follows h.ready (h.fits (t₀.bodies incidents))
  have hexcused := stream_excused h.ready (h.fits (t₀.bodies incidents))
  obtain ⟨hstreamed, hflushed⟩ := flushAll_spec h.ready hfollows.streamed
  refine ⟨h, hstreamed, ?_, ?_, ?_⟩
  · rw [hflushed.table_eq, hfollows.table_eq, ← hflushed.length_eq, List.take_length]
  · intro hnone w hw
    obtain ⟨i, hw⟩ := List.getElem?_of_mem hw
    refine hflushed.emptied hnone i w ?_ hw
    rw [← hflushed.length_eq]
    exact (List.getElem?_eq_some_iff.mp hw).1
  · intro e he
    rcases hflushed.fatal with heq | ⟨-, cause, hcause, hmedium⟩
    · obtain ⟨cause, hcause, hreason⟩ := hexcused e (heq ▸ he)
      refine ⟨cause, hcause, hreason.imp_right ?_⟩
      -- a worker that is too short before it is flushed is so afterwards
      rintro ⟨i, w, hw, hbounded, hshort⟩
      have hi := (List.getElem?_eq_some_iff.mp hw).1
      rw [← hflushed.length_eq] at hi
      obtain ⟨w', hw'⟩ : ∃ w', (t₀.stream incidents).flushAll.workers[i]? = some w' :=
        ⟨_, List.getElem?_eq_getElem hi⟩
      obtain ⟨v, hv, hkept⟩ := hflushed.kept i w' hw'
      obtain rfl : w = v := Option.some.inj (hw.symm.trans hv)
      refine ⟨i, w', hw', ?_⟩
      rcases hkept with rfl | rfl
      · exact ⟨hbounded, hshort⟩
      · exact ⟨hbounded, hshort⟩
    · rw [hcause] at he
      exact ⟨cause, (Option.some.inj he).symm, Or.inl hmedium⟩

/-- Workers stay bounded, whatever arrives. -/
theorem Planned.bounded_streamed {size : Int} {t₀ t : Transfer} {bodies : Nat → Bytes}
    (h : Planned size t₀) (hstreamed : Streamed t₀ bodies t) {i : Nat} {w : Worker}
    (hw : t.workers[i]? = some w) : w.isUnbounded = false := by
  obtain ⟨w₀, hw₀, hslot⟩ := hstreamed.slot_eq hw
  rw [Worker.isUnbounded, ← hslot]
  exact h.bounded (List.mem_of_getElem? hw₀)

/-- A run that got to the bodies is settled once its workers were flushed. -/
theorem settled_of_accept {size : Int} {table : Table} {p : PartialFile} {reporter : Reporter}
    {replies : List Reply} {t₁ t₀ : Transfer} (hknown : table.Known size)
    (haccept : (begin table p reporter).accept replies = .ok t₁)
    (hprepare : t₁.prepare = (t₀, none)) (incidents : List (Nat × Incident)) :
    Settled size t₀ (t₀.bodies incidents) (t₀.stream incidents).flushAll :=
  (((planned_begin hknown).accept haccept).prepare hprepare).settled incidents

/-- Recording progress changes nothing but the session progress. -/
theorem map_begin_recordProgress (w : Worker) (segments : List Segment) :
    (recordProgress w segments).map Segment.begin = segments.map Segment.begin := by
  apply List.ext_getElem?
  intro i
  rw [recordProgress, List.getElem?_map, List.getElem?_map, List.getElem?_modify]
  cases segments[i]? with
  | none => rfl
  | some s =>
    simp only [Option.map_eq_map, Option.map_some, Option.some.injEq]
    split <;> rfl

/-- Recording progress changes nothing but the progress of the session. -/
theorem map_begin_recordAll (workers : List Worker) (segments : List Segment) :
    (recordAll workers segments).map Segment.begin = segments.map Segment.begin := by
  induction workers generalizing segments with
  | nil => rfl
  | cons w workers ih =>
    exact (ih (recordProgress w segments)).trans (map_begin_recordProgress w segments)

namespace Settled

variable {size : Int} {t₀ u : Transfer} {bodies : Nat → Bytes}

/-- The segments are those of the setup with the progress of the workers. -/
theorem segments_eq (h : Settled size t₀ bodies u) :
    u.table.segments = recordAll u.workers t₀.table.segments := by
  rw [h.table_eq]

/-- Every worker still has the slot that it was set up with. -/
theorem slots_eq (h : Settled size t₀ bodies u) :
    u.workers.map (·.slot) = Plan.resume t₀.table.segments :=
  h.streamed.slots_eq.trans h.planned.slots_eq

/-- A worker stands for an incomplete segment. -/
theorem mem_slot (h : Settled size t₀ bodies u) {w : Worker} (hw : w ∈ u.workers) :
    ∃ i s, t₀.table.segments[i]? = some s ∧ s.isComplete = false ∧ w.slot = Plan.slot i s := by
  have hmem : w.slot ∈ u.workers.map (·.slot) := List.mem_map_of_mem hw
  rw [h.slots_eq] at hmem
  exact Plan.mem_resume.mp hmem

theorem sound (h : Settled size t₀ bodies u) {w : Worker} (hw : w ∈ u.workers) :
    w.slot.IsSound ∧ w.Sound u.file := by
  obtain ⟨i, hi⟩ := List.getElem?_of_mem hw
  exact ⟨h.streamed.slot_isSound h.planned.ready hi, (h.streamed.tracks i w hi).sound⟩

/-- The segments are still those of the plan. -/
theorem partition (h : Settled size t₀ bodies u) : Plan.IsPartition size u.table.segments := by
  refine h.planned.known.partition.congr ?_
  rw [h.segments_eq, map_begin_recordAll]

/-- The payload stays where it was. -/
theorem offset_eq (h : Settled size t₀ bodies u)
    (hoffset : t₀.file.payloadOffset = t₀.table.headerSize) :
    u.file.payloadOffset = u.table.headerSize := by
  rw [h.streamed.offset_eq, hoffset, h.table_eq, Table.headerSize, Table.headerSize,
    ResumeHeader.size, ResumeHeader.size, length_recordAll]

/-- A worker records its progress in the segment that it stands for. -/
theorem record_of_worker (h : Settled size t₀ bodies u) {w : Worker} (hw : w ∈ u.workers) {i : Nat}
    {s : Segment} (hs : t₀.table.segments[i]? = some s) (hslot : w.slot = Plan.slot i s) :
    u.table.segments[i]? = some { s with session := max s.committed w.flushedProgress } := by
  have hslots : (Plan.resume t₀.table.segments).Pairwise fun a b => a.index < b.index :=
    Plan.pairwise_resume
  rw [← h.slots_eq] at hslots
  have hindices := List.pairwise_map.mp hslots
  have hrecord : (recordAll u.workers t₀.table.segments)[w.slot.index]? = _ :=
    getElem?_recordAll hindices hw
  have hindex : w.slot.index = i := congrArg Slot.index hslot
  rw [hindex, hs] at hrecord
  rw [h.segments_eq]
  exact hrecord

/-- A segment was complete before and is as it was, or records its worker. -/
theorem record_cases (h : Settled size t₀ bodies u) {i : Nat} {s : Segment}
    (hs : t₀.table.segments[i]? = some s) :
    (s.isComplete = true ∧ u.table.segments[i]? = some s) ∨
      (s.isComplete = false ∧ ∃ w ∈ u.workers, w.slot = Plan.slot i s ∧
        u.table.segments[i]? =
          some { s with session := max s.committed w.flushedProgress }) := by
  cases hc : s.isComplete with
  | true =>
    refine Or.inl ⟨rfl, ?_⟩
    rw [h.segments_eq, getElem?_recordAll_of_ne, hs]
    intro w hw hindex
    obtain ⟨j, t, ht, hincomplete, hslot⟩ := h.mem_slot hw
    rw [hslot] at hindex
    obtain rfl : j = i := hindex
    obtain rfl : s = t := Option.some.inj (hs.symm.trans ht)
    rw [hc] at hincomplete
    contradiction
  | false =>
    have hmem : Plan.slot i s ∈ u.workers.map (·.slot) := by
      rw [h.slots_eq]
      exact Plan.mem_resume.mpr ⟨i, s, hs, hc, rfl⟩
    obtain ⟨w, hw, hslot⟩ := List.mem_map.mp hmem
    exact Or.inr ⟨rfl, w, hw, hslot, h.record_of_worker hw hs hslot⟩

/-! ## Full records -/

/-- A worker that fetched something fetched it behind its committed bytes, but for
the last of them. -/
theorem flushedProgress_le (h : Settled size t₀ bodies u) {w : Worker} (hw : w ∈ u.workers)
    {i : Nat} {s : Segment} (hslot : w.slot = Plan.slot i s) :
    w.flushedProgress ≤ s.last - s.start + 1 ∧
      (w.flushedProgress = s.last - s.start + 1 ↔ w.written = w.slot.length) := by
  obtain ⟨hsound, haccount⟩ := h.sound hw
  have hlength := hsound.length_eq
  have hreceived := haccount.received_eq
  have hle := haccount.received_le
  have hstart : w.slot.start = s.start := by rw [hslot]; rfl
  have hlast : w.slot.last = s.last := by rw [hslot]; rfl
  unfold Worker.flushedProgress
  constructor
  · omega
  · constructor <;> intro <;> omega

/-- A segment of a plan has nothing but its committed bytes. -/
theorem begun (h : Settled size t₀ bodies u) {i : Nat} {s : Segment}
    (hs : t₀.table.segments[i]? = some s) :
    s.session = s.committed ∧ s.last < Segment.unboundedLast ∧ s.IsValid := by
  have hmem := List.mem_of_getElem? hs
  exact ⟨h.planned.begun s hmem, h.planned.known.partition.bounded hmem,
    h.planned.known.partition.valid s hmem⟩

/-- A record claims what was committed, and never more than its range. -/
theorem bounds (h : Settled size t₀ bodies u) {i : Nat} {s : Segment}
    (hs : t₀.table.segments[i]? = some s) :
    ∃ s', u.table.segments[i]? = some s' ∧ s'.start = s.start ∧ s'.last = s.last ∧
      s'.committed = s.committed ∧ s.committed ≤ s'.session ∧
      s'.session ≤ s.last - s.start + 1 := by
  obtain ⟨hbegun, -, hvalid⟩ := h.begun hs
  have hcommitted := hvalid.committed_le
  rcases h.record_cases hs with ⟨-, hs'⟩ | ⟨-, w, hw, hslot, hs'⟩
  · exact ⟨s, hs', rfl, rfl, rfl, by omega, by omega⟩
  · have hflushed := (h.flushedProgress_le hw hslot).1
    refine ⟨_, hs', rfl, rfl, rfl, ?_, ?_⟩
    · exact le_max_left _ _
    · exact max_le hcommitted hflushed

/-- Every record comes from a segment of the plan. -/
theorem origin (h : Settled size t₀ bodies u) {i : Nat} {s' : Segment}
    (hi : u.table.segments[i]? = some s') :
    ∃ s, t₀.table.segments[i]? = some s ∧ s'.start = s.start ∧ s'.last = s.last ∧
      s'.committed = s.committed ∧ s.committed ≤ s'.session ∧
      s'.session ≤ s.last - s.start + 1 := by
  have hlt : i < t₀.table.segments.length := by
    have := (List.getElem?_eq_some_iff.mp hi).1
    rwa [h.segments_eq, length_recordAll] at this
  have hs : t₀.table.segments[i]? = some t₀.table.segments[i] := List.getElem?_eq_getElem hlt
  obtain ⟨s'', hs'', hbounds⟩ := h.bounds hs
  obtain rfl : s' = s'' := Option.some.inj (hi.symm.trans hs'')
  exact ⟨_, hs, hbounds⟩

/-- The record of a worker is full exactly when it stored all that it asked for. -/
theorem isFull_iff (h : Settled size t₀ bodies u) {i : Nat} {s : Segment}
    (hs : t₀.table.segments[i]? = some s) (hincomplete : s.isComplete = false) {w : Worker}
    (hw : w ∈ u.workers) (hslot : w.slot = Plan.slot i s) :
    Segment.IsFull { s with session := max s.committed w.flushedProgress } ↔
      w.written = w.slot.length := by
  obtain ⟨-, hbounded, hvalid⟩ := h.begun hs
  have hcommitted := hvalid.committed_le
  have hne : s.committed ≠ s.last - s.start + 1 := by
    intro heq
    rw [(Segment.isComplete_iff hbounded).mpr heq] at hincomplete
    contradiction
  obtain ⟨hle, hiff⟩ := h.flushedProgress_le hw hslot
  rw [← hiff, Segment.IsFull]
  dsimp only
  omega

/-- A segment that was complete stays full. -/
theorem isFull_of_isComplete (h : Settled size t₀ bodies u) {i : Nat} {s : Segment}
    (hs : t₀.table.segments[i]? = some s) (hc : s.isComplete = true) : s.IsFull := by
  obtain ⟨hbegun, hbounded, -⟩ := h.begun hs
  rw [Segment.IsFull, hbegun]
  exact (Segment.isComplete_iff hbounded).mp hc

/-- What a worker stored is the front of its body, at its place. -/
theorem stored_byte (h : Settled size t₀ bodies u) {i : Nat} {w : Worker}
    (hw : u.workers[i]? = some w) {n : Nat} (hn : n < w.written) :
    ∃ b, (bodies i)[n]? = some b ∧
      u.file.file.contents[u.file.payloadOffset + w.slot.resumeStart.toNat + n]? = some b := by
  have htracks := h.streamed.tracks i w hw
  have hlength := htracks.sound.length_stored
  have hlt : n < (w.stored u.file).length := by omega
  obtain ⟨b, hb⟩ : ∃ b, (w.stored u.file)[n]? = some b := ⟨_, List.getElem?_eq_getElem hlt⟩
  refine ⟨b, ?_, ?_⟩
  · obtain ⟨rest, hrest⟩ := htracks.taken_front
    rw [← hrest, Worker.taken, List.append_assoc, List.getElem?_append_left hlt, hb]
  · rw [Worker.stored, PartialFile.payload, Bytes.getElem?_slice, if_pos hn] at hb
    exact hb

/-- A worker that completed stored all that it asked for. -/
theorem written_of_complete (h : Settled size t₀ bodies u) {w : Worker} (hw : w ∈ u.workers)
    (hstate : w.state = .complete) : w.written = w.slot.length := by
  obtain ⟨i, hi⟩ := List.getElem?_of_mem hw
  have htracks := h.streamed.tracks i w hi
  obtain ⟨hbuffer, hfull⟩ := htracks.complete hstate
  have hbounded := h.planned.bounded_streamed h.streamed hi
  have hreceived := htracks.sound.received_eq
  rw [hbuffer, hfull hbounded] at hreceived
  simpa using hreceived.symm

/-- A record that is not full has a worker, which did not complete. -/
theorem exists_worker_of_not_isFull (h : Settled size t₀ bodies u) {s' : Segment}
    (hs' : s' ∈ u.table.segments) (hfull : ¬ s'.IsFull) :
    ∃ w ∈ u.workers, w.slot.start = s'.start ∧ w.written ≠ w.slot.length := by
  obtain ⟨i, hi⟩ := List.getElem?_of_mem hs'
  obtain ⟨s, hs, -⟩ := h.origin hi
  rcases h.record_cases hs with ⟨hc, hsame⟩ | ⟨hc, w, hw, hslot, hrecord⟩
  · obtain rfl : s' = s := Option.some.inj (hi.symm.trans hsame)
    exact absurd (h.isFull_of_isComplete hs hc) hfull
  · obtain rfl := Option.some.inj (hi.symm.trans hrecord)
    refine ⟨w, hw, by rw [hslot]; rfl, ?_⟩
    exact fun hwritten => hfull ((h.isFull_iff hs hc hw hslot).mpr hwritten)

/-! ## Completion -/

/-- The progress of all records is the size exactly when every record is full. -/
theorem sessionTotal_eq_iff (h : Settled size t₀ bodies u) :
    u.table.sessionTotal = size ↔ ∀ s ∈ u.table.segments, s.IsFull := by
  refine h.partition.sum_session_eq_iff fun s' hs' => ?_
  obtain ⟨i, hi⟩ := List.getElem?_of_mem hs'
  obtain ⟨s, -, hstart, hlast, -, -, hle⟩ := h.origin hi
  rw [hstart, hlast]
  exact hle

theorem size_eq (h : Settled size t₀ bodies u) : u.table.size? = some size := by
  rw [h.table_eq]
  exact h.planned.known.size_eq

/-- A run is complete if and only if every record is full. -/
theorem isComplete_iff (h : Settled size t₀ bodies u) :
    u.isComplete = true ↔ ∀ s ∈ u.table.segments, s.IsFull := by
  rw [← h.sessionTotal_eq_iff, isComplete, h.size_eq, Bool.or_eq_true]
  constructor
  · rintro (hall | htotal)
    · rw [h.sessionTotal_eq_iff]
      intro s' hs'
      by_contra hfull
      obtain ⟨w, hw, -, hwritten⟩ := h.exists_worker_of_not_isFull hs' hfull
      have hstate : w.state = .complete := by simpa using List.all_eq_true.mp hall w hw
      exact hwritten (h.written_of_complete hw hstate)
    · exact (Option.some.inj (beq_iff_eq.mp htotal)).symm
  · exact fun htotal => Or.inr (beq_iff_eq.mpr (congrArg some htotal.symm))

/-- Records that are not full are charged to workers of their own. -/
theorem count_le_failures (h : Settled size t₀ bodies u) :
    u.table.segments.countP (fun s => !decide s.IsFull) ≤ u.failures := by
  have hnodup : ((u.table.segments.filter fun s => !decide s.IsFull).map Segment.start).Nodup := by
    refine List.pairwise_map.mpr (List.Pairwise.filter _ ?_)
    refine h.partition.pairwise.imp_of_mem fun {s t} hs _ hlt => ?_
    have := h.partition.start_le_last s hs
    omega
  have hsubset : ((u.table.segments.filter fun s => !decide s.IsFull).map Segment.start) ⊆
      (u.workers.filter (·.state != .complete)).map (·.slot.start) := by
    intro start hstart
    obtain ⟨s, hs, rfl⟩ := List.mem_map.mp hstart
    obtain ⟨hs, hfull⟩ := List.mem_filter.mp hs
    obtain ⟨w, hw, heq, hwritten⟩ := h.exists_worker_of_not_isFull hs (by simpa using hfull)
    refine List.mem_map.mpr ⟨w, List.mem_filter.mpr ⟨hw, ?_⟩, heq⟩
    simpa using fun hstate => hwritten (h.written_of_complete hw hstate)
  have hlength := (List.subperm_of_subset hnodup hsubset).length_le
  simpa [List.countP_eq_length_filter, failures] using hlength

end Settled

end SegmentedDownload.Transfer
