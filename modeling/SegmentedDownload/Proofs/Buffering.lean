import Mathlib
import SegmentedDownload.Worker
import SegmentedDownload.Proofs.Medium
import SegmentedDownload.Proofs.Partition

/-!
# SegmentedDownload.Proofs.Buffering

Where the data of a worker is at any time.

A worker has `taken` some data of its body: what it stored in the partial file,
followed by its buffer.  `Worker.Sound` is the accounting behind that: as many
bytes are stored as `written` says, and no more are taken than the slot has room
for.  Each operation is a `Step`, whether it succeeds or not:

* flushing moves data from the buffer to the file and takes nothing new;
* pushing takes the pushed data, or nothing when the file fails;
* receiving takes what is left of the slot, and no more.

A step puts only bytes of the taken data into the file, each at its place.
-/

namespace SegmentedDownload

namespace Slot

/-- Number of bytes asked for. -/
def length (slot : Slot) : Nat := (slot.last - slot.resumeStart + 1).toNat

/-- The bytes of a body at their places behind `offset`, as far as they were asked for. -/
def Places (slot : Slot) (offset : Nat) (body : Bytes) (k : Nat) (b : UInt8) : Prop :=
  ∃ n, n < slot.length ∧ k = offset + slot.resumeStart.toNat + n ∧ body[n]? = some b

theorem Places.mono {slot : Slot} {offset : Nat} {body body' : Bytes} {k : Nat} {b : UInt8}
    (h : slot.Places offset body k b) (hle : body <+: body') : slot.Places offset body' k b := by
  obtain ⟨n, hn, hk, hb⟩ := h
  obtain ⟨rest, rfl⟩ := hle
  have := (List.getElem?_eq_some_iff.mp hb).1
  exact ⟨n, hn, hk, by rw [List.getElem?_append_left this, hb]⟩

/-- A sound slot asks for as many bytes as there are up to its last one. -/
theorem IsSound.length_eq {slot : Slot} (h : slot.IsSound) :
    (slot.length : Int) = slot.last - slot.resumeStart + 1 := by
  have := h.resumeStart_le
  unfold length
  omega

end Slot

namespace Worker

/-! ## Taken data -/

/-- What the worker stored in the partial file. -/
def stored (w : Worker) (p : PartialFile) : Bytes :=
  p.payload w.slot.resumeStart.toNat w.written

/-- What the worker took of its body. -/
def taken (w : Worker) (p : PartialFile) : Bytes := w.stored p ++ w.buffer

/-- The counters of a worker agree with the file and with its slot. -/
structure Sound (w : Worker) (p : PartialFile) : Prop where
  length_stored : (w.stored p).length = w.written
  received_eq : w.received = w.written + w.buffer.length
  received_le : w.received ≤ w.slot.length

namespace Sound

variable {w : Worker} {p : PartialFile}

/-- A worker has taken as much as it counts. -/
theorem length_taken (h : w.Sound p) : (w.taken p).length = w.received := by
  rw [taken, List.length_append, h.length_stored, h.received_eq]

/-- The stored bytes end inside of the file. -/
theorem end_le (h : w.Sound p) (hw : 0 < w.written) :
    p.payloadOffset + w.slot.resumeStart.toNat + w.written ≤ p.file.contents.length := by
  have := h.length_stored
  rw [stored, PartialFile.payload, Bytes.length_slice] at this
  omega

/-- Writes that spare the stored bytes of a worker do not change what it took. -/
theorem of_patched {p' : PartialFile} {source : Nat → UInt8 → Prop} (h : w.Sound p)
    (hoffset : p'.payloadOffset = p.payloadOffset)
    (hpatch : Bytes.Patched source p.file.contents p'.file.contents)
    (hspare : ∀ k b, p.payloadOffset + w.slot.resumeStart.toNat ≤ k →
      k < p.payloadOffset + w.slot.resumeStart.toNat + w.written → ¬ source k b) :
    w.taken p' = w.taken p ∧ w.Sound p' := by
  have hstored : w.stored p' = w.stored p := by
    unfold stored PartialFile.payload
    rw [hoffset]
    by_cases hw : 0 < w.written
    · exact hpatch.slice_eq (h.end_le hw) hspare
    · rw [Nat.eq_zero_of_not_pos hw, Bytes.slice_zero, Bytes.slice_zero]
  refine ⟨by rw [taken, taken, hstored], ?_, h.received_eq, h.received_le⟩
  rw [hstored, h.length_stored]

end Sound

/-- A worker and the file after the worker took some more data. -/
structure Step (w : Worker) (p : PartialFile) (data : Bytes) (w' : Worker) (p' : PartialFile) :
    Prop where
  slot_eq : w'.slot = w.slot
  offset_eq : p'.payloadOffset = p.payloadOffset
  readLimit_eq : p'.file.readLimit = p.file.readLimit
  patched : Bytes.Patched (w.slot.Places p.payloadOffset (w.taken p ++ data))
    p.file.contents p'.file.contents
  taken_eq : w'.taken p' = w.taken p ++ data
  sound : w'.Sound p'

/-- Changing the state of a worker takes nothing. -/
theorem Step.of_state {w : Worker} {p : PartialFile} {data : Bytes} {w' : Worker}
    {p' : PartialFile} (h : Step w p data w' p') (state : WorkerState) :
    Step w p data { w' with state } p' :=
  ⟨h.slot_eq, h.offset_eq, h.readLimit_eq, h.patched, h.taken_eq, h.sound.1, h.sound.2, h.sound.3⟩

theorem step_refl {w : Worker} {p : PartialFile} (h : w.Sound p) : Step w p [] w p :=
  ⟨rfl, rfl, rfl, Bytes.Patched.refl _ _, (List.append_nil _).symm, h⟩

theorem Step.trans {w w' w'' : Worker} {p p' p'' : PartialFile} {data data' : Bytes}
    (h : Step w p data w' p') (h' : Step w' p' data' w'' p'') :
    Step w p (data ++ data') w'' p'' := by
  have htaken : w''.taken p'' = w.taken p ++ (data ++ data') := by
    rw [h'.taken_eq, h.taken_eq, List.append_assoc]
  have hpatch := h'.patched
  rw [h.slot_eq, h.offset_eq, ← h'.taken_eq, htaken] at hpatch
  refine ⟨h'.slot_eq.trans h.slot_eq, h'.offset_eq.trans h.offset_eq,
    h'.readLimit_eq.trans h.readLimit_eq, Bytes.Patched.trans ?_ hpatch, htaken, h'.sound⟩
  refine h.patched.mono fun k b hb => hb.mono ?_
  rw [← List.append_assoc]
  exact List.prefix_append _ _

/-! ## Flushing -/

/-- The worker with its buffer flushed. -/
def flushed (w : Worker) : Worker :=
  { w with written := w.written + w.buffer.length, buffer := [] }

theorem flushed_of_nil {w : Worker} (hb : w.buffer = []) : w.flushed = w := by
  obtain ⟨slot, state, buffer, capacity, written, received, expected?⟩ := w
  obtain rfl : buffer = [] := hb
  rfl

section

variable {w w' : Worker} {p p' : PartialFile} {fault? : Option IoError}

/-- The buffer belongs right behind the stored bytes. -/
theorem flush_position (hslot : w.slot.IsSound) (h : w.Sound p) (hb : w.buffer ≠ []) :
    Word.toUnsigned (w.slot.resumeStart + w.written) = w.slot.resumeStart.toNat + w.written := by
  have hpos : 0 < w.buffer.length := List.length_pos_iff.mpr hb
  have hreceived := h.received_eq
  have hle := h.received_le
  have hlength := hslot.length_eq
  have h0 := hslot.start_nonneg
  have hstart := hslot.start_le
  have hlast := hslot.last_le
  rw [Word.toUnsigned_of_nonneg (by omega) (by omega)]
  omega

/-- A flush writes the buffer, and counts it if that succeeds. -/
theorem flush_eq (hf : w.flush p = (w', p', fault?)) (hb : w.buffer ≠ []) :
    p.writePayload (Word.toUnsigned (w.slot.resumeStart + w.written)) w.buffer = (p', fault?) ∧
      w' = if fault?.isSome then w else w.flushed := by
  have hne : w.buffer.isEmpty = false := by simpa using hb
  unfold flush at hf
  rw [hne] at hf
  simp only [Bool.false_eq_true, if_false] at hf
  split at hf
  · next p₁ e hwrite =>
    obtain ⟨rfl, rfl, rfl⟩ := hf
    exact ⟨hwrite, rfl⟩
  · next p₁ hwrite =>
    obtain ⟨rfl, rfl, rfl⟩ := hf
    exact ⟨hwrite, rfl⟩

theorem flush_nil (hf : w.flush p = (w', p', fault?)) (hb : w.buffer = []) :
    w' = w ∧ p' = p ∧ fault? = none := by
  unfold flush at hf
  rw [hb] at hf
  obtain ⟨rfl, rfl, rfl⟩ := hf
  exact ⟨rfl, rfl, rfl⟩

/-- Flushing touches only the buffer and the count of what is written. -/
theorem flush_result (hf : w.flush p = (w', p', fault?)) :
    w' = if fault?.isSome then w else w.flushed := by
  by_cases hb : w.buffer = []
  · obtain ⟨rfl, -, rfl⟩ := flush_nil hf hb
    exact (flushed_of_nil hb).symm
  · exact (flush_eq hf hb).2

/-- The place of the buffer in the file is its place in the body. -/
theorem places_buffer (h : w.Sound p) {contents contents' : Bytes}
    (hpatch : Bytes.Patched
      (Bytes.Written (p.payloadOffset + (w.slot.resumeStart.toNat + w.written)) w.buffer)
      contents contents') :
    Bytes.Patched (w.slot.Places p.payloadOffset (w.taken p)) contents contents' := by
  refine hpatch.mono fun k b hsource => ?_
  have hge := hsource.1
  have hlt := hsource.lt
  have hreceived := h.received_eq
  have hle := h.received_le
  refine ⟨w.written + (k - (p.payloadOffset + (w.slot.resumeStart.toNat + w.written))),
    by omega, by omega, ?_⟩
  rw [taken, List.getElem?_append_right (by rw [h.length_stored]; omega), h.length_stored,
    Nat.add_sub_cancel_left]
  exact hsource.2

/-- After a flush that succeeds, the buffer is stored behind what was stored before. -/
theorem stored_flushed
    (hread : p.payload (w.slot.resumeStart.toNat + w.written) w.buffer.length = w.buffer) :
    w.flushed.stored p = w.stored p ++ w.buffer := by
  calc w.flushed.stored p
      = w.stored p ++ p.payload (w.slot.resumeStart.toNat + w.written) w.buffer.length := by
        unfold stored flushed PartialFile.payload
        rw [← Nat.add_assoc, Bytes.slice_append_slice]
    _ = w.stored p ++ w.buffer := by rw [hread]

/-- Flushing takes nothing, whether it succeeds or not. -/
theorem flush_step (hslot : w.slot.IsSound) (h : w.Sound p) (hf : w.flush p = (w', p', fault?)) :
    Step w p [] w' p' := by
  by_cases hb : w.buffer = []
  · obtain ⟨rfl, rfl, -⟩ := flush_nil hf hb
    exact step_refl h
  obtain ⟨hwrite, hw'⟩ := flush_eq hf hb
  rw [flush_position hslot h hb] at hwrite
  obtain ⟨rfl, rfl⟩ : p' = (p.writePayload (w.slot.resumeStart.toNat + w.written) w.buffer).1 ∧
      fault? = (p.writePayload (w.slot.resumeStart.toNat + w.written) w.buffer).2 := by
    rw [hwrite]
    exact ⟨rfl, rfl⟩
  have hoffset := PartialFile.writePayload_offset p (w.slot.resumeStart.toNat + w.written) w.buffer
  have hpatch := PartialFile.patched_writePayload p (w.slot.resumeStart.toNat + w.written) w.buffer
  have hlimit := PartialFile.writePayload_readLimit p (w.slot.resumeStart.toNat + w.written)
    w.buffer
  have hread := @PartialFile.payload_writePayload p (w.slot.resumeStart.toNat + w.written) w.buffer
  generalize p.writePayload (w.slot.resumeStart.toNat + w.written) w.buffer = result
    at hw' hoffset hpatch hlimit hread ⊢
  have hplaces : Bytes.Patched (w.slot.Places p.payloadOffset (w.taken p ++ []))
      p.file.contents result.1.file.contents := by
    rw [List.append_nil]
    exact places_buffer h hpatch
  -- the stored bytes are spared, since the write begins behind them
  have hspared : w.stored result.1 = w.stored p := by
    have hs := (h.of_patched hoffset hpatch fun k b _ hlt hsource => by
      have := hsource.1
      omega).1
    rw [taken, taken] at hs
    exact List.append_cancel_right hs
  cases hfault : result.2 with
  | some e =>
    obtain rfl : w' = w := by simpa [hfault] using hw'
    refine ⟨rfl, hoffset, hlimit, hplaces, ?_, ?_, h.received_eq, h.received_le⟩
    · rw [taken, taken, hspared, List.append_nil]
    · rw [hspared, h.length_stored]
  | none =>
    obtain rfl : w' = w.flushed := by simpa [hfault] using hw'
    have hstored := (stored_flushed (hread hfault)).trans (congrArg (· ++ w.buffer) hspared)
    refine ⟨rfl, hoffset, hlimit, hplaces, ?_, ?_, ?_, h.received_le⟩
    · rw [taken, hstored]
      rfl
    · rw [hstored, List.length_append, h.length_stored]
      rfl
    · have := h.received_eq
      simpa [flushed] using this

/-! ## Taking data -/

/-- Data that the slot has room for can be added to the buffer. -/
theorem append_step (h : w.Sound p) {data : Bytes}
    (hroom : w.received + data.length ≤ w.slot.length) : Step w p data (w.append data) p := by
  refine ⟨rfl, rfl, rfl, Bytes.Patched.refl _ _, ?_, h.length_stored, ?_, hroom⟩
  · exact (List.append_assoc _ _ _).symm
  · have := h.received_eq
    simp only [append, List.length_append]
    omega

/-- A worker with an empty buffer can be given a larger one. -/
theorem enlarge_step (h : w.Sound p) (hb : w.buffer = []) (n : Nat) :
    Step w p [] (w.enlarge n) p := by
  unfold enlarge
  split
  · refine ⟨rfl, rfl, rfl, Bytes.Patched.refl _ _, ?_, h.length_stored, ?_, h.received_le⟩
    · simp [taken, hb, stored]
    · rw [h.received_eq, hb]
  · exact step_refl h

/-- Pushing takes the data, or nothing when the file fails. -/
theorem push_step (hslot : w.slot.IsSound) (h : w.Sound p) {data : Bytes}
    (hroom : w.received + data.length ≤ w.slot.length)
    (hf : w.push p data = (w', p', fault?)) :
    Step w p (if fault?.isSome then [] else data) w' p' ∧ w'.state = w.state ∧
      w'.expected? = w.expected? := by
  unfold push at hf
  split at hf
  · cases hflush : w.flush p with
    | mk w₁ result =>
      obtain ⟨p₁, fault₁?⟩ := result
      have hstep := flush_step hslot h hflush
      have hresult := flush_result hflush
      rw [hflush] at hf
      cases fault₁? with
      | some e =>
        obtain rfl : w₁ = w := hresult
        obtain ⟨rfl, rfl, rfl⟩ := hf
        exact ⟨hstep, rfl, rfl⟩
      | none =>
        obtain rfl : w₁ = w.flushed := hresult
        obtain ⟨rfl, rfl, rfl⟩ := hf
        have henlarge := enlarge_step hstep.sound rfl data.length
        have hroom' : (w.flushed.enlarge data.length).received + data.length ≤
            (w.flushed.enlarge data.length).slot.length := by
          rw [henlarge.slot_eq]
          simp only [enlarge]
          split <;> exact hroom
        have happend := append_step henlarge.sound hroom'
        refine ⟨?_, ?_, ?_⟩
        · simpa using (hstep.trans henlarge).trans happend
        · simp only [append, enlarge]
          split <;> rfl
        · simp only [append, enlarge]
          split <;> rfl
  · obtain ⟨rfl, rfl, rfl⟩ := hf
    exact ⟨append_step h hroom, rfl, rfl⟩

/-! ## Receiving -/

/-- What a worker expects of a response for its slot. -/
def Expects (w : Worker) : Prop :=
  w.isUnbounded = false → w.expected? = some (w.slot.last - w.slot.resumeStart + 1)

theorem shortfall?_of_unbounded (hu : w.isUnbounded = true) : w.shortfall? = none := by
  rw [shortfall?, hu]

/-- What is missing of a bounded range. -/
theorem Expects.shortfall?_eq (h : w.Expects) (hu : w.isUnbounded = false) :
    w.shortfall? = if (w.received : Int) < w.slot.last - w.slot.resumeStart + 1 then
      some (w.received, w.slot.last - w.slot.resumeStart + 1) else none := by
  rw [shortfall?, hu, h hu]

/-- Flushing brings nothing that is missing. -/
theorem shortfall?_flushed (w : Worker) : w.flushed.shortfall? = w.shortfall? := rfl

/-- Clipping leaves as much of a chunk as the slot has room for. -/
theorem clip_eq (hslot : w.slot.IsSound) (hexpects : w.Expects) {chunk : Bytes}
    (hfit : w.isUnbounded = true → w.received + chunk.length ≤ w.slot.length) :
    w.clip chunk = chunk.take (w.slot.length - w.received) := by
  unfold clip
  cases hu : w.isUnbounded with
  | true =>
    have := hfit hu
    rw [List.take_of_length_le (l := chunk) (by omega)]
  | false =>
    rw [hexpects hu]
    simp only
    have := hslot.length_eq
    congr 1
    omega

/-- A worker takes of its body what the slot has room for. -/
theorem taken_append_take (h : w.Sound p) (chunk : Bytes) :
    w.taken p ++ chunk.take (w.slot.length - w.received) =
      (w.taken p ++ chunk).take w.slot.length := by
  have hlen := h.length_taken
  have hle := h.received_le
  rw [List.take_append, List.take_of_length_le (l := w.taken p) (by omega), hlen]

/-- Receiving takes the rest of the slot, or nothing when the file fails. -/
theorem receive_step (hslot : w.slot.IsSound) (h : w.Sound p) (hexpects : w.Expects)
    {chunk : Bytes} (hfit : w.isUnbounded = true → w.received + chunk.length ≤ w.slot.length)
    (hf : w.receive p chunk = (w', p', fault?)) :
    Step w p (if fault?.isSome then [] else chunk.take (w.slot.length - w.received)) w' p' ∧
      w'.state = (if fault?.isSome then .failed else w.state) ∧ w'.expected? = w.expected? := by
  have hclip := clip_eq hslot hexpects hfit
  have hroom : w.received + (w.clip chunk).length ≤ w.slot.length := by
    have hle := h.received_le
    rw [hclip, List.length_take]
    omega
  unfold receive at hf
  cases hpush : w.push p (w.clip chunk) with
  | mk w₁ result =>
    obtain ⟨p₁, fault₁?⟩ := result
    obtain ⟨hstep, hstate, hexpected⟩ := push_step hslot h hroom hpush
    rw [hpush] at hf
    cases fault₁? with
    | some e =>
      obtain ⟨rfl, rfl, rfl⟩ := hf
      exact ⟨hstep.of_state .failed, rfl, hexpected⟩
    | none =>
      obtain ⟨rfl, rfl, rfl⟩ := hf
      rw [hclip] at hstep
      exact ⟨hstep, hstate, hexpected⟩

/-- Finishing takes nothing. It completes a worker only after everything was
flushed, and a bounded one only if its slot is filled. -/
theorem finish_step (hslot : w.slot.IsSound) (h : w.Sound p) (hexpects : w.Expects)
    (hf : w.finish p = (w', p', fault?)) :
    Step w p [] w' p' ∧ w'.expected? = w.expected? ∧
      ((w'.state = .failed ∧ fault?.isSome) ∨
        (w'.state = .complete ∧ fault? = none ∧ w'.buffer = [] ∧
          (w.isUnbounded = false → w'.received = w.slot.length))) := by
  unfold finish at hf
  cases hflush : w.flush p with
  | mk w₁ result =>
    obtain ⟨p₁, fault₁?⟩ := result
    have hstep := flush_step hslot h hflush
    have hresult := flush_result hflush
    rw [hflush] at hf
    cases fault₁? with
    | some e =>
      obtain rfl : w₁ = w := hresult
      obtain ⟨rfl, rfl, rfl⟩ := hf
      exact ⟨hstep.of_state .failed, rfl, Or.inl ⟨rfl, rfl⟩⟩
    | none =>
      obtain rfl : w₁ = w.flushed := hresult
      simp only at hf
      cases hshort : w.flushed.shortfall? with
      | some short =>
        rw [hshort] at hf
        obtain ⟨rfl, rfl, rfl⟩ := hf
        exact ⟨hstep.of_state .failed, rfl, Or.inl ⟨rfl, rfl⟩⟩
      | none =>
        rw [hshort] at hf
        obtain ⟨rfl, rfl, rfl⟩ := hf
        refine ⟨hstep.of_state .complete, rfl, Or.inr ⟨rfl, rfl, rfl, fun hu => ?_⟩⟩
        have hlength := hslot.length_eq
        have hle := h.received_le
        rw [shortfall?_flushed, hexpects.shortfall?_eq hu] at hshort
        simp only [ite_eq_right_iff, reduceCtorEq, imp_false, not_lt] at hshort
        change w.received = w.slot.length
        omega

end

end Worker

end SegmentedDownload
