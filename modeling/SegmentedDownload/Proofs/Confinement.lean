import Mathlib
import SegmentedDownload.Proofs.Records

/-!
# SegmentedDownload.Proofs.Confinement

What a resumed run leaves alone, whatever the server sends.

* While bodies arrive, the file changes only in the ranges that are asked for
  (`Settled.patched_payload`).
* A checkpoint changes only the segments of the header, and keeps their ranges
  (`patched_update`, `slice_range_update`).

`Confined segments old new` says what this means for the contents of a partial file
with the header of some segments.  In particular every committed byte stays, but
for the last one of an incomplete segment, which is fetched again
(`Confined.committed_eq`).
-/

namespace SegmentedDownload

/-- What the contents of a partial file with these segments keep in a run. -/
structure Confined (segments : List Segment) (old new : Bytes) : Prop where
  length_eq : new.length = old.length
  /-- The signature and the count. -/
  front_eq : new.slice 0 ResumeHeader.segmentsOffset = old.slice 0 ResumeHeader.segmentsOffset
  /-- The first and the last byte of each segment. -/
  range_eq : ∀ i, i < segments.length →
    new.slice (ResumeHeader.segmentsOffset + i * ResumeHeader.segmentSize) (2 * Word.size) =
      old.slice (ResumeHeader.segmentsOffset + i * ResumeHeader.segmentSize) (2 * Word.size)
  /-- The payload outside of what is asked for. -/
  payload_eq : ∀ o : Nat,
    (∀ s ∈ segments, s.isComplete = false →
      ¬ (max s.start (s.start + s.committed - 1) ≤ o ∧ o ≤ s.last)) →
    new[ResumeHeader.size segments + o]? = old[ResumeHeader.size segments + o]?

namespace Confined

variable {size : Int} {segments : List Segment} {old new : Bytes}

theorem refl (segments : List Segment) (contents : Bytes) : Confined segments contents contents :=
  ⟨rfl, rfl, fun _ _ => rfl, fun _ _ => rfl⟩

theorem trans {mid : Bytes} (h : Confined segments old mid) (h' : Confined segments mid new) :
    Confined segments old new :=
  ⟨h'.length_eq.trans h.length_eq, h'.front_eq.trans h.front_eq,
    fun i hi => (h'.range_eq i hi).trans (h.range_eq i hi),
    fun o ho => (h'.payload_eq o ho).trans (h.payload_eq o ho)⟩

/-- Contents that share the header, and the payload outside of what is asked for. -/
theorem of_header_eq (hlength : new.length = old.length)
    (hheader : new.slice 0 (ResumeHeader.size segments) = old.slice 0 (ResumeHeader.size segments))
    (hpayload : ∀ o : Nat, (∀ s ∈ segments, s.isComplete = false →
        ¬ (max s.start (s.start + s.committed - 1) ≤ o ∧ o ≤ s.last)) →
      new[ResumeHeader.size segments + o]? = old[ResumeHeader.size segments + o]?) :
    Confined segments old new := by
  have hpart : ∀ pos len, pos + len ≤ ResumeHeader.size segments →
      new.slice pos len = old.slice pos len := by
    intro pos len hle
    have hboth := congrArg (Bytes.slice · pos len) hheader
    simpa only [Bytes.slice_slice hle, Nat.zero_add] using hboth
  refine ⟨hlength, hpart _ _ ?_, fun i hi => hpart _ _ ?_, hpayload⟩
  · rw [ResumeHeader.size_eq]
    omega
  · have hend := ResumeHeader.segment_end_le (List.getElem?_eq_getElem hi)
    have hfields : 2 * Word.size ≤ ResumeHeader.segmentSize := by decide
    omega

/-- A byte belongs to one segment of a partition only. -/
theorem eq_of_mem (h : Plan.IsPartition size segments) {s t : Segment} (hs : s ∈ segments)
    (ht : t ∈ segments) {o : Int} (hso : s.start ≤ o ∧ o ≤ s.last)
    (hto : t.start ≤ o ∧ o ≤ t.last) : s = t := by
  obtain ⟨i, hi⟩ := List.getElem?_of_mem hs
  obtain ⟨j, hj⟩ := List.getElem?_of_mem ht
  rcases Nat.lt_trichotomy i j with hlt | heq | hgt
  · have := h.disjoint hi hj hlt
    omega
  · subst heq
    exact Option.some.inj (hi.symm.trans hj)
  · have := h.disjoint hj hi hgt
    omega

/-- Committed bytes stay, but for the last one of an incomplete segment. -/
theorem committed_eq (h : Confined segments old new) (hpartition : Plan.IsPartition size segments)
    {s : Segment} (hs : s ∈ segments) {o : Nat} (hstart : s.start ≤ o)
    (ho : o < s.start + s.committed)
    (hlast : s.isComplete = true ∨ (o : Int) + 1 ≠ s.start + s.committed) :
    new[ResumeHeader.size segments + o]? = old[ResumeHeader.size segments + o]? := by
  refine h.payload_eq o fun t ht hincomplete hrange => ?_
  have hcommitted := (hpartition.valid s hs).committed_le
  have hsame : s = t := eq_of_mem hpartition hs ht ⟨hstart, by omega⟩ ⟨by omega, hrange.2⟩
  subst hsame
  rw [hincomplete] at hlast
  have := hlast.resolve_left Bool.false_ne_true
  omega

end Confined

namespace Transfer

/-- While bodies arrive, the file changes only in the ranges that are asked for. -/
theorem Settled.patched_payload {size : Int} {t₀ u : Transfer} {bodies : Nat → Bytes}
    (h : Settled size t₀ bodies u) :
    Bytes.Patched (fun k _ => ∃ s ∈ t₀.table.segments, s.isComplete = false ∧
        ∃ o : Nat, k = t₀.file.payloadOffset + o ∧
          max s.start (s.start + s.committed - 1) ≤ o ∧ o ≤ s.last)
      t₀.file.file.contents u.file.file.contents := by
  refine h.streamed.patched.mono fun k b hsource => ?_
  obtain ⟨i, w, hw, n, hn, rfl, -⟩ := hsource
  have hmem := List.mem_of_getElem? hw
  obtain ⟨j, s, hs, hincomplete, hslot⟩ := h.planned.mem_slot hmem
  have hsound := h.planned.slot_isSound hmem
  have hlength := hsound.length_eq
  have hnonneg := hsound.start_nonneg
  have hle := hsound.start_le
  have hstart : w.slot.resumeStart = max (s.start + s.committed - 1) s.start := by rw [hslot]; rfl
  have hlast : w.slot.last = s.last := by rw [hslot]; rfl
  exact ⟨s, List.mem_of_getElem? hs, hincomplete, w.slot.resumeStart.toNat + n, by omega, by omega,
    by omega⟩

/-- While bodies arrive, the header stays as it is. -/
theorem Settled.header_eq {size : Int} {t₀ u : Transfer} {bodies : Nat → Bytes}
    (h : Settled size t₀ bodies u)
    (hlength : t₀.file.payloadOffset ≤ t₀.file.file.contents.length) :
    u.file.file.contents.slice 0 t₀.file.payloadOffset =
      t₀.file.file.contents.slice 0 t₀.file.payloadOffset := by
  refine h.patched_payload.slice_eq (by omega) fun k b _ hlt hsource => ?_
  obtain ⟨s, -, -, o, rfl, -⟩ := hsource
  omega

/-- Bodies are confined to what was asked for. -/
theorem Settled.confined {size : Int} {t₀ u : Transfer} {bodies : Nat → Bytes}
    (h : Settled size t₀ bodies u) {segments : List Segment}
    (hsegments : t₀.table.segments = segments.map Segment.begin)
    (hoffset : t₀.file.payloadOffset = ResumeHeader.size segments)
    (hlength : ResumeHeader.size segments + size.toNat ≤ t₀.file.file.contents.length) :
    Confined segments t₀.file.file.contents u.file.file.contents := by
  have hpatched := h.patched_payload
  have hlengths : u.file.file.contents.length = t₀.file.file.contents.length := by
    refine hpatched.length_eq fun k b hsource => ?_
    obtain ⟨s, hs, -, o, rfl, -, hlast⟩ := hsource
    have := h.planned.known.partition.last_lt hs
    omega
  have hheader := h.header_eq (by omega)
  rw [hoffset] at hheader
  refine Confined.of_header_eq hlengths hheader fun o houtside => ?_
  by_cases hin : ResumeHeader.size segments + o < t₀.file.file.contents.length
  · refine hpatched.getElem?_eq hin fun b hsource => ?_
    obtain ⟨s', hs', hincomplete, o', ho', hrange⟩ := hsource
    rw [hsegments] at hs'
    obtain ⟨s, hs, rfl⟩ := List.mem_map.mp hs'
    obtain rfl : o' = o := by omega
    exact houtside s hs hincomplete hrange
  · rw [List.getElem?_eq_none (by omega), List.getElem?_eq_none (by omega)]

/-- A checkpoint changes only the segments of the header. -/
theorem patched_checkpoint (u : Transfer) :
    Bytes.Patched (fun k _ => ResumeHeader.segmentsOffset ≤ k ∧
        k < ResumeHeader.size u.table.segments)
      u.file.file.contents u.checkpoint.file.file.contents := by
  unfold checkpoint
  split
  · exact ResumeHeader.patched_update u.file.file u.table.segments
  · exact Bytes.Patched.refl _ _

/-- A checkpoint keeps the ranges of the segments, and the payload. -/
theorem confined_checkpoint {u : Transfer} {segments : List Segment}
    (hcarries : ResumeHeader.Carries u.file.file.contents segments)
    (hlength : u.table.segments.length = segments.length)
    (hranges : ∀ (i : Nat) (s : Segment), segments[i]? = some s →
      ∃ s', u.table.segments[i]? = some s' ∧ s'.start = s.start ∧ s'.last = s.last) :
    Confined segments u.file.file.contents u.checkpoint.file.file.contents := by
  have hsize : ResumeHeader.size u.table.segments = ResumeHeader.size segments := by
    rw [ResumeHeader.size, ResumeHeader.size, hlength]
  have hpatched := patched_checkpoint u
  have hlengths : u.checkpoint.file.file.contents.length = u.file.file.contents.length := by
    refine hpatched.length_eq fun k b hsource => ?_
    have := hcarries.length_le
    omega
  refine ⟨hlengths, ?_, ?_, ?_⟩
  · refine hpatched.slice_eq ?_ fun k b _ hlt hsource => by omega
    have hle := hcarries.length_le
    rw [ResumeHeader.size_eq] at hle
    omega
  · intro i hi
    unfold checkpoint
    split
    · obtain ⟨s', hs', hstart, hlast⟩ := hranges i _ (List.getElem?_eq_getElem hi)
      have hrecord := hcarries.record_eq i _ (List.getElem?_eq_getElem hi)
      exact ResumeHeader.slice_range_update (hsize ▸ hcarries.length_le) hs'
        (hrecord ▸ hstart.symm) (hrecord ▸ hlast.symm)
    · rfl
  · intro o _
    by_cases hin : ResumeHeader.size segments + o < u.file.file.contents.length
    · exact hpatched.getElem?_eq hin fun b hsource => by omega
    · rw [List.getElem?_eq_none (by omega), List.getElem?_eq_none (by omega)]

/-- A resumed run is confined, however it ends. -/
theorem Ends.confined {size : Int} {segments : List Segment} {p : PartialFile}
    {reporter : Reporter} {course : Course} {outcome : Except DownloadError Outcome} {t : Transfer}
    (h : Ends (Table.resumed segments size) p reporter course outcome t)
    (hknown : (Table.resumed segments size).Known size)
    (hcarries : ResumeHeader.Carries p.file.contents segments)
    (hlength : ResumeHeader.size segments + size.toNat ≤ p.file.contents.length) :
    Confined segments p.file.contents t.file.file.contents := by
  cases h with
  | unanswered => exact Confined.refl _ _
  | rejected => exact Confined.refl _ _
  | unprepared replies t₁ _ cause _ haccept hprepare =>
    rcases (accept_table haccept).2 with htable | ⟨hfresh, -⟩
    · rw [prepare_resumed (by rw [htable]; rfl)] at hprepare
      cases hprepare
    · contradiction
  | closed replies t₁ t₀ _ _ _ haccept hprepare hclose =>
    have hsettled := settled_of_accept hknown haccept hprepare course.incidents
    obtain ⟨hsegments, hoffset, hfile⟩ := ready_of_resumed haccept hprepare
    rw [← hfile] at hcarries hlength ⊢
    have hbodies := hsettled.confined hsegments hoffset hlength
    have hheader := hsettled.header_eq (hoffset ▸ hcarries.length_le)
    rw [hoffset] at hheader
    have hcarries' := hcarries.congr hheader
    have hcommit := confined_checkpoint hcarries' ?_ ?_
    · cases close_closes hclose with
      | completed => exact hbodies
      | failed => exact hbodies.trans hcommit
      | interrupted => exact hbodies.trans hcommit
      | incomplete => exact hbodies.trans hcommit
    · rw [hsettled.segments_eq, length_recordAll, hsegments, List.length_map]
    · intro i s hs
      have hbegin : t₀.table.segments[i]? = some s.begin := by
        rw [hsegments, List.getElem?_map, hs]
        rfl
      obtain ⟨s', hs', hstart, hlast, -⟩ := hsettled.bounds hbegin
      exact ⟨s', hs', hstart, hlast⟩

/-- **Writes are confined**, whatever the server does, whenever the run is stopped and
whatever fails. A run that resumes from an adopted header keeps the length of the
file, the signature, the count and the ranges of the segments, and every byte of the
payload outside of what the incomplete segments ask for; so every committed byte
stays, but for the last one of an incomplete segment. -/
theorem run_confined {size : Int} {p : PartialFile} {segments : List Segment}
    (hmax : size ≤ Word.maxInt) (hread : ResumeHeader.read p.file = .ok segments)
    (hcovers : ResumeHeader.covers segments size = true)
    (hlength : ResumeHeader.size segments + size.toNat ≤ p.file.contents.length)
    (workers : Nat) (reporter : Reporter) (course : Course) :
    let new := (run (Table.load p.file size workers) p reporter course).2.file.file.contents
    Confined segments p.file.contents new ∧
      ∀ s ∈ segments, ∀ o : Nat, s.start ≤ o → o < s.start + s.committed →
        (s.isComplete = true ∨ (o : Int) + 1 ≠ s.start + s.committed) →
          new[ResumeHeader.size segments + o]? =
            p.file.contents[ResumeHeader.size segments + o]? := by
  have hknown := Table.known_resumed hmax hread hcovers
  have hcarries := (ResumeHeader.carries_of_read hread).1
  have hends := run_ends (Table.load p.file size workers) p reporter course
  rw [Table.load_eq_resumed hread hcovers] at hends ⊢
  have hconfined := hends.confined hknown hcarries hlength
  exact ⟨hconfined, fun s hs o hstart ho hlast =>
    hconfined.committed_eq hknown.partition hs hstart ho hlast⟩

/-- A partial file of six bytes, the last three of them complete, with one byte behind it. -/
def halfComplete : PartialFile :=
  { file :=
      { contents := ResumeHeader.encode [⟨0, 2, 2, 2⟩, ⟨3, 5, 3, 3⟩] ++ [1, 2, 0, 4, 5, 6, 7] } }

/-- A body that is too long for the first segment does not reach the second. -/
theorem halfComplete_confined :
    let new := (run (Table.load halfComplete.file 6 4) halfComplete (Reporter.new (some 6) 100 {})
      { replies? := some [.answered 206 none]
        incidents := [(0, .chunk 0 [8, 9, 10, 11]), (1, .broken 0)] }).2.file.file.contents
    new.drop 92 = [1, 8, 9, 4, 5, 6, 7] ∧
      Confined [⟨0, 2, 2, 2⟩, ⟨3, 5, 3, 3⟩] halfComplete.file.contents new := by
  refine ⟨by decide +kernel, ?_⟩
  exact (run_confined (by decide) (by decide +kernel) (by decide) (by decide +kernel) 4 _ _).1

end Transfer

end SegmentedDownload
