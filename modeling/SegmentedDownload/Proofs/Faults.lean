import Mathlib
import SegmentedDownload.Proofs.Streaming

/-!
# SegmentedDownload.Proofs.Faults

Where the errors of a run come from while bodies arrive.

* An operation on a file fails with a cause that is `IoError.OfMedium`.
* A worker fails with such a cause, or because its body ended before its slot was
  filled (`finish_fault`).
* Hence every error of a run is `Transfer.Excused`: the file failed, or some slot
  was not filled (`stream_excused`).

A run is `stopped` only by a stop among its incidents (`stream_stopped`).
-/

namespace SegmentedDownload

/-- The cause is a file operation that failed, and not a body that was too short. -/
def IoError.OfMedium (cause : IoError) : Prop :=
  ∀ index received expected, cause ≠ .segmentEnded index received expected

/-! ## Files -/

namespace OpenFile

/-- A store fails with faults of the medium only. -/
theorem store_fault {f : OpenFile} {pos : Nat} {data : Bytes} {cause : IoError}
    (h : (f.store pos data).2 = some cause) : cause.OfMedium := by
  unfold store at h
  dsimp only at h
  split at h
  · obtain rfl := Option.some.inj h
    exact fun _ _ _ => IoError.noConfusion
  · contradiction

theorem write_fault {f : OpenFile} {pos : Nat} {data : Bytes} {cause : IoError}
    (h : (f.write pos data).2 = some cause) : cause.OfMedium := by
  unfold write at h
  split at h
  · obtain rfl := Option.some.inj h
    exact fun _ _ _ => IoError.noConfusion
  · split at h
    · contradiction
    · split at h
      · obtain rfl := Option.some.inj h
        exact fun _ _ _ => IoError.noConfusion
      · split at h
        · exact store_fault h
        · exact store_fault h
        · obtain rfl := Option.some.inj h
          exact fun _ _ _ => IoError.noConfusion

theorem setLength_fault {f : OpenFile} {n : Nat} {cause : IoError}
    (h : (f.setLength n).2 = some cause) : cause.OfMedium := by
  unfold setLength at h
  split at h
  · obtain rfl := Option.some.inj h
    exact fun _ _ _ => IoError.noConfusion
  · split at h
    · obtain rfl := Option.some.inj h
      exact fun _ _ _ => IoError.noConfusion
    · split at h
      · contradiction
      · contradiction
      · obtain rfl := Option.some.inj h
        exact fun _ _ _ => IoError.noConfusion

end OpenFile

theorem PartialFile.writePayload_fault {p : PartialFile} {position : Nat} {data : Bytes}
    {cause : IoError} (h : (p.writePayload position data).2 = some cause) : cause.OfMedium := by
  unfold writePayload at h
  split at h
  · obtain rfl := Option.some.inj h
    exact fun _ _ _ => IoError.noConfusion
  · exact OpenFile.write_fault h

theorem ResumeHeader.update_fault {f : OpenFile} {segments : List Segment} {cause : IoError}
    (h : (update f segments).2.2 = some cause) : cause.OfMedium := by
  have hwrite : (f.write segmentsOffset (encodeSegments (segments.map Segment.commit))).2 =
    some cause := h
  exact OpenFile.write_fault hwrite

/-! ## Workers -/

namespace Worker

variable {w w' : Worker} {p p' : PartialFile} {cause : IoError}

/-- A worker fails to flush with faults of the medium only. -/
theorem flush_fault (h : w.flush p = (w', p', some cause)) : cause.OfMedium := by
  by_cases hb : w.buffer = []
  · obtain ⟨-, -, hnone⟩ := flush_nil h hb
    contradiction
  · have hwrite := (flush_eq h hb).1
    exact PartialFile.writePayload_fault (congrArg Prod.snd hwrite)

theorem push_fault {data : Bytes} (h : w.push p data = (w', p', some cause)) :
    cause.OfMedium := by
  unfold push at h
  split at h
  · cases hflush : w.flush p with
    | mk w₁ result =>
      obtain ⟨p₁, fault?⟩ := result
      rw [hflush] at h
      cases fault? with
      | some e =>
        obtain ⟨rfl, rfl, rfl⟩ := h
        exact flush_fault hflush
      | none => cases h
  · cases h

theorem receive_fault {chunk : Bytes} (h : w.receive p chunk = (w', p', some cause)) :
    cause.OfMedium := by
  unfold receive at h
  cases hpush : w.push p (w.clip chunk) with
  | mk w₁ result =>
    obtain ⟨p₁, fault?⟩ := result
    rw [hpush] at h
    cases fault? with
    | some e =>
      obtain ⟨rfl, rfl, rfl⟩ := h
      exact push_fault hpush
    | none => cases h

/-- What becomes of a worker at the end of its body: the file fails, its range is
not filled, or it is complete. -/
theorem finish_cases {fault? : Option IoError} (hexpects : w.Expects)
    (h : w.finish p = (w', p', fault?)) :
    (∃ cause, fault? = some cause ∧ cause.OfMedium) ∨
      (w.isUnbounded = false ∧ (w.received : Int) < w.slot.last - w.slot.resumeStart + 1 ∧
        w' = w.flushed.fail ∧ fault? = some (.segmentEnded w.slot.index w.received
          (w.slot.last - w.slot.resumeStart + 1))) ∨
      ((w.isUnbounded = false → w.slot.last - w.slot.resumeStart + 1 ≤ (w.received : Int)) ∧
        w' = { w.flushed with state := .complete } ∧ fault? = none) := by
  unfold finish at h
  cases hflush : w.flush p with
  | mk w₁ result =>
    obtain ⟨p₁, flushFault?⟩ := result
    have hresult := flush_result hflush
    rw [hflush] at h
    cases flushFault? with
    | some e =>
      obtain ⟨rfl, rfl, rfl⟩ := h
      exact Or.inl ⟨e, rfl, flush_fault hflush⟩
    | none =>
      obtain rfl : w₁ = w.flushed := hresult
      right
      cases hu : w.isUnbounded with
      | true =>
        simp only [shortfall?_flushed, shortfall?_of_unbounded hu] at h
        obtain ⟨rfl, rfl, rfl⟩ := h
        exact Or.inr ⟨fun hb => Bool.noConfusion hb, rfl, rfl⟩
      | false =>
        have hshortfall := hexpects.shortfall?_eq hu
        by_cases hlt : (w.received : Int) < w.slot.last - w.slot.resumeStart + 1
        · rw [if_pos hlt] at hshortfall
          simp only [shortfall?_flushed, hshortfall] at h
          obtain ⟨rfl, rfl, rfl⟩ := h
          exact Or.inl ⟨rfl, hlt, rfl, rfl⟩
        · rw [if_neg hlt] at hshortfall
          simp only [shortfall?_flushed, hshortfall] at h
          obtain ⟨rfl, rfl, rfl⟩ := h
          exact Or.inr ⟨fun _ => Int.not_lt.mp hlt, rfl, rfl⟩

/-- The end of a body fails with the file, or because the body was too short. -/
theorem finish_fault (hslot : w.slot.IsSound) (hexpects : w.Expects)
    (h : w.finish p = (w', p', some cause)) :
    cause.OfMedium ∨ (w'.isUnbounded = false ∧ w'.received < w'.slot.length) := by
  rcases finish_cases hexpects h with ⟨e, he, hmedium⟩ | ⟨hu, hlt, rfl, -⟩ | ⟨-, -, hnone⟩
  · obtain rfl := Option.some.inj he
    exact Or.inl hmedium
  · refine Or.inr ⟨hu, ?_⟩
    have hlength := hslot.length_eq
    change w.received < w.slot.length
    omega
  · contradiction

end Worker

/-! ## Runs -/

namespace Transfer

variable {t₀ t t' : Transfer} {done : List (Nat × Incident)}

/-- The error of the run, if any, is one of the file, or some slot was not filled. -/
def Excused (t : Transfer) : Prop :=
  ∀ e, t.fatal? = some e → ∃ cause, e = .io cause ∧ (cause.OfMedium ∨
    ∃ (i : Nat) (w : Worker), t.workers[i]? = some w ∧ w.isUnbounded = false ∧
      w.received < w.slot.length)

/-- The run goes on, or ends for a reason. -/
theorem excused_advance {i : Nat} {w w' : Worker} {p' : PartialFile} {fault? : Option IoError}
    (hw : t.workers[i]? = some w)
    (h : ∀ cause, fault? = some cause →
      cause.OfMedium ∨ (w'.isUnbounded = false ∧ w'.received < w'.slot.length)) :
    (t.advance i (w', p', fault?)).Excused := by
  intro e he
  have hlt := (List.getElem?_eq_some_iff.mp hw).1
  obtain ⟨cause, hcause, rfl⟩ := Option.map_eq_some_iff.mp he
  refine ⟨cause, rfl, (h cause hcause).imp_right fun hshort => ?_⟩
  exact ⟨i, w', List.getElem?_set_self hlt, hshort⟩

/-- Each incident keeps a transfer excused. -/
theorem Follows.excused (hready : t₀.Ready) (h : Follows t₀ done t) (hexcused : t.Excused)
    {now : Nat} {incident : Incident} (hstep : Step t now incident t') : t'.Excused := by
  have hkeep : ∀ u : Transfer, u.fatal? = none → u.Excused := by
    intro u hnone e he
    rw [hnone] at he
    contradiction
  cases hstep with
  | halted _ _ => exact hexcused
  | stopped _ => exact hexcused
  | unheard _ _ _ _ _ => exact hexcused
  | refused i data w w' p' cause _ hstream hreceive =>
    exact excused_advance (streaming?_eq_some.mp hstream).1 fun _ hc =>
      Or.inl (Option.some.inj hc ▸ Worker.receive_fault hreceive)
  | received i data w w' p' _ hstream hreceive => exact hkeep _ rfl
  | ended i w w' p' fault? _ hstream hfinish =>
    obtain ⟨hw, hstate⟩ := streaming?_eq_some.mp hstream
    refine excused_advance hw fun cause hc => ?_
    subst hc
    exact Worker.finish_fault (h.streamed.slot_isSound hready hw)
      ((h.streamed.tracks i w hw).expects hstate) hfinish
  | broken _ _ hrunning _ => exact hkeep _ (isHalted_eq_false.mp hrunning).1

/-- Every error of a run comes from its file, or from a slot that was not filled. -/
theorem stream_excused (hready : t₀.Ready) {incidents : List (Nat × Incident)}
    (hfit : Fits t₀ (t₀.bodies incidents)) : (t₀.stream incidents).Excused := by
  induction incidents using List.reverseRecOn with
  | nil =>
    intro e he
    have hfatal : t₀.fatal? = some e := he
    rw [(isHalted_eq_false.mp hready.running).1] at hfatal
    contradiction
  | append_singleton done x ih =>
    rw [stream_snoc]
    exact (stream_follows hready hfit.front).excused hready (ih hfit.front) (step_deliver _ _ _)

/-! ## Stops -/

/-- Nothing but a stop makes a transfer stopped. -/
theorem Step.stopped_of {now : Nat} {incident : Incident} (hstep : Step t now incident t')
    (h : t'.stopped = true) : t.stopped = true ∨ incident = .stop := by
  cases hstep with
  | stopped _ => exact Or.inr rfl
  | halted _ _ => exact Or.inl h
  | unheard _ _ _ _ _ => exact Or.inl h
  | refused _ _ _ _ _ _ _ _ _ => exact Or.inl h
  | received _ _ _ _ _ _ _ _ => exact Or.inl h
  | ended _ _ _ _ _ _ _ _ => exact Or.inl h
  | broken _ _ _ _ => exact Or.inl h

/-- A run is stopped by a stop among its incidents. -/
theorem stream_stopped {incidents : List (Nat × Incident)}
    (h : (t.stream incidents).stopped = true) :
    t.stopped = true ∨ ∃ x ∈ incidents, x.2 = .stop := by
  induction incidents using List.reverseRecOn with
  | nil => exact Or.inl h
  | append_singleton done x ih =>
    rw [stream_snoc] at h
    rcases (step_deliver _ _ _).stopped_of h with hbefore | hnow
    · exact (ih hbefore).imp_right fun ⟨y, hy, hstop⟩ =>
        ⟨y, List.mem_append_left _ hy, hstop⟩
    · exact Or.inr ⟨x, by simp, hnow⟩

end Transfer

end SegmentedDownload
