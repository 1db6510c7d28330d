import Mathlib
import SegmentedDownload.Proofs.HeaderImage

/-!
# SegmentedDownload.Proofs.TornCheckpoint

What is left of a header when a checkpoint breaks off.

However many bytes of a checkpoint reach the medium, the header can be read
afterwards (`update_keeps_header`).  Its segments have the ranges of those in
memory, and none of them claims more than its session progress:

* the signature and the count are out of reach of a checkpoint
  (`carries_update`);
* a torn word lies between nothing and the new one, because it holds low bytes
  of the new number in front of high bytes of a smaller one (`extends_record`,
  from `record_update`).

A checkpoint that is written in full records the session progress of all
segments (`record_update_eq`), and doing it again changes nothing
(`update_again`).
-/

namespace SegmentedDownload.ResumeHeader

variable {f : OpenFile} {segments old : List Segment}

/-- A segment in a header is valid if a later version of it is. -/
theorem Extends.isValid {s found : Segment} (h : Extends s found) (hvalid : s.commit.IsValid) :
    found.IsValid := by
  obtain ⟨h0, hle, hmax, -, hend⟩ := hvalid
  have hbound : s.start + s.session ≤ min (s.last + 1) Word.maxInt := hend
  rw [Segment.IsValid, h.start_eq, h.last_eq]
  exact ⟨h0, hle, hmax, h.committed_nonneg,
    Int.le_trans (Int.add_le_add_left h.committed_le _) hbound⟩

/-- A segment that a checkpoint records as a valid one is made of words. -/
theorem fits_commit {s : Segment} (hvalid : s.commit.IsValid) : s.commit.Fits :=
  hvalid.fits hvalid.fits_committed

/-- A file with a header has room for one of as many segments. -/
theorem Carries.size_le (h : Carries f.contents old) (hlength : segments.length = old.length) :
    size segments ≤ f.contents.length := by
  rw [size_eq, hlength, ← size_eq]
  exact h.length_le

/-! ## What a checkpoint leaves alone -/

/-- A checkpoint does not change how long a file is that begins with its header. -/
theorem length_update (h : size segments ≤ f.contents.length) :
    (update f segments).1.contents.length = f.contents.length :=
  (patched_update f segments).length_eq fun _ _ hsource => Nat.lt_of_lt_of_le hsource.2 h

/-- The bytes in front of the segments are unchanged. -/
theorem slice_update_front (h : size segments ≤ f.contents.length) {pos len : Nat}
    (hend : pos + len ≤ segmentsOffset) :
    (update f segments).1.contents.slice pos len = f.contents.slice pos len := by
  have hoffset : segmentsOffset ≤ size segments := Nat.le_add_right _ _
  exact (patched_update f segments).slice_eq (by omega)
    fun k b _ hk hsource => absurd hsource.1 (by omega)

/-- The bytes behind the header are unchanged. -/
theorem drop_update (h : size segments ≤ f.contents.length) :
    (update f segments).1.contents.drop (size segments) = f.contents.drop (size segments) := by
  have hrest : (update f segments).1.contents.slice (size segments)
      (f.contents.length - size segments) =
      f.contents.slice (size segments) (f.contents.length - size segments) :=
    (patched_update f segments).slice_eq (by omega)
      fun k b hk _ hsource => absurd hsource.2 (by omega)
  unfold Bytes.slice at hrest
  rwa [List.take_of_length_le (by rw [List.length_drop, length_update h]),
    List.take_of_length_le (by rw [List.length_drop])] at hrest

/-- There is still a header of as many segments. -/
theorem carries_update (hcarries : Carries f.contents old)
    (hlength : segments.length = old.length) :
    Carries (update f segments).1.contents
      ((List.range segments.length).map (record (update f segments).1.contents)) := by
  have hle := hcarries.size_le hlength
  have hoffset : signature.length + Word.size = segmentsOffset := rfl
  refine ⟨?_, ?_, ?_, ?_⟩
  · rw [slice_update_front hle (by omega), hcarries.signature_eq]
  · rw [slice_update_front hle (by omega), hcarries.count_eq, List.length_map,
      List.length_range, hlength]
  · rw [length_update hle, size_eq, List.length_map, List.length_range, ← size_eq]
    exact hle
  · intro i s hs
    obtain ⟨j, hj, rfl⟩ : ∃ j, (List.range segments.length)[i]? = some j ∧
        record (update f segments).1.contents j = s := by simpa using hs
    obtain ⟨hi, rfl⟩ := List.getElem?_eq_some_iff.mp hj
    rw [List.getElem_range]

/-! ## A checkpoint that is written in full -/

/-- What is behind the count after a checkpoint without an error. -/
theorem slice_update (h : (update f segments).2.2 = none) :
    (update f segments).1.contents.slice segmentsOffset
        (encodeSegments (segments.map Segment.commit)).length =
      encodeSegments (segments.map Segment.commit) :=
  OpenFile.slice_write h

/-- A checkpoint without an error records the session progress. -/
theorem record_update_eq (h : (update f segments).2.2 = none) {i : Nat} {s : Segment}
    (hs : segments[i]? = some s) (hfits : s.commit.Fits) :
    record (update f segments).1.contents i = s.commit := by
  have hcommit : (segments.map Segment.commit)[i]? = some s.commit := by simp [hs]
  have hend := segment_end_le hcommit
  rw [size_eq, ← length_encodeSegments] at hend
  have hwindow : i * segmentSize + segmentSize ≤
      (encodeSegments (segments.map Segment.commit)).length := by omega
  rw [record, ← Bytes.slice_slice hwindow, slice_update h, slice_encodeSegments hcommit,
    decodeSegment_encodeSegment hfits]

/-- The same checkpoint once more writes what is there already. -/
theorem update_again (h : (update f segments).2.2 = none)
    (hlen : size segments ≤ f.contents.length) :
    (update (update f segments).1 (update f segments).2.1).1.contents =
      (update f segments).1.contents := by
  have hcommit : (segments.map Segment.commit).map Segment.commit =
      segments.map Segment.commit := by
    rw [List.map_map]
    rfl
  have hroom : segmentsOffset + (encodeSegments (segments.map Segment.commit)).length ≤
      (update f segments).1.contents.length := by
    rw [length_update hlen, length_encodeSegments, List.length_map, ← size_eq]
    exact hlen
  obtain ⟨n, hn⟩ := OpenFile.write_torn (f := (update f segments).1)
    (Nat.le_trans (Nat.le_add_right _ _) hroom) (encodeSegments (segments.map Segment.commit))
  rw [← Bytes.splice_take_slice hroom (slice_update h) n, ← hn, update]
  conv_lhs => rw [show (update f segments).2.1 = segments.map Segment.commit from rfl, hcommit]

/-! ## A checkpoint that may break off -/

/-- Wherever the checkpoint breaks off, a record has the range in memory and claims at
most the session progress. -/
theorem extends_record (hcarries : Carries f.contents old)
    (hextends : List.Forall₂ Extends segments old)
    (hvalid : ∀ s ∈ segments, s.commit.IsValid) {i : Nat} {s : Segment}
    (hs : segments[i]? = some s) : Extends s (record (update f segments).1.contents i) := by
  obtain ⟨hlength, hpointwise⟩ := List.forall₂_iff_get.mp hextends
  have hle := hcarries.size_le hlength
  obtain ⟨hi, rfl⟩ := List.getElem?_eq_some_iff.mp hs
  refine record_update hle hs (fits_commit (hvalid _ (List.getElem_mem hi))) ?_
  rw [hcarries.record_eq i old[i] (List.getElem?_eq_getElem (hlength ▸ hi))]
  exact hpointwise i hi (hlength ▸ hi)

/-- What is read after a checkpoint: the records in the file, one for each segment in
memory. -/
theorem read_update (hread : f.readLimit = none) (hold : read f = .ok old)
    (hextends : List.Forall₂ Extends segments old)
    (hvalid : ∀ s ∈ segments, s.commit.IsValid) :
    read (update f segments).1 =
      .ok ((List.range segments.length).map (record (update f segments).1.contents)) := by
  obtain ⟨hcarries, hne, -⟩ := carries_of_read hold
  have hlength := hextends.length_eq
  have hnonempty : segments ≠ [] := by
    rintro rfl
    exact hne (List.length_eq_zero_iff.mp hlength.symm)
  refine read_of_carries ?_ (carries_update hcarries hlength) (by simpa using hnonempty) ?_
  · rw [update, OpenFile.write_readLimit, hread]
  · intro found hfound
    obtain ⟨i, hi, rfl⟩ := List.mem_map.mp hfound
    have hs := List.getElem?_eq_getElem (List.mem_range.mp hi)
    exact (extends_record hcarries hextends hvalid hs).isValid
      (hvalid _ (List.mem_of_getElem? hs))

/-- A checkpoint keeps the header of a file, wherever it breaks off.

The file may refuse any byte of it, by a write limit or by a fault.  The header
that is read afterwards has the ranges of the segments in memory, and claims at
most their session progress; everything outside of the segments is unchanged.
Without an error exactly the session progress is recorded, and the same
checkpoint once more changes nothing. -/
theorem update_keeps_header (hread : f.readLimit = none) (hold : read f = .ok old)
    (hextends : List.Forall₂ Extends segments old)
    (hvalid : ∀ s ∈ segments, s.commit.IsValid) :
    let after := update f segments
    (∃ found, read after.1 = .ok found ∧ List.Forall₂ Extends segments found) ∧
      after.1.contents.take segmentsOffset = f.contents.take segmentsOffset ∧
      after.1.contents.drop (size segments) = f.contents.drop (size segments) ∧
      (after.2.2 = none →
        read after.1 = .ok (segments.map Segment.commit) ∧
          (update after.1 after.2.1).1.contents = after.1.contents) := by
  have hcarries := (carries_of_read hold).1
  have hle := hcarries.size_le hextends.length_eq
  have hafter := read_update hread hold hextends hvalid
  refine ⟨⟨_, hafter, ?_⟩, ?_, drop_update hle, ?_⟩
  · refine List.forall₂_iff_get.mpr ⟨by simp, fun i hi _ => ?_⟩
    simpa using extends_record hcarries hextends hvalid (List.getElem?_eq_getElem hi)
  · simpa [Bytes.slice] using slice_update_front hle (Nat.zero_add segmentsOffset).le
  · intro hfault
    refine ⟨?_, update_again hfault hle⟩
    rw [hafter]
    congr 1
    refine List.ext_getElem (by simp) fun i hi _ => ?_
    have hi' : i < segments.length := by simpa using hi
    simpa using record_update_eq hfault (List.getElem?_eq_getElem hi')
      (fits_commit (hvalid _ (List.getElem_mem hi')))

/-- The medium is full after the low byte of the progress: of 258 and 515 bytes
the header makes 259. -/
theorem update_keeps_header_lowByte :
    let f : OpenFile :=
      { contents := encode [⟨0, 999, 258, 258⟩] ++ [1, 2, 3], writeLimit := some 45 }
    read (update f [⟨0, 999, 258, 515⟩]).1 = .ok [⟨0, 999, 259, 258⟩] ∧
      (∃ found, read (update f [⟨0, 999, 258, 515⟩]).1 = .ok found ∧
        List.Forall₂ Extends [⟨0, 999, 258, 515⟩] found) ∧
      (update f [⟨0, 999, 258, 515⟩]).1.contents.drop 60 = [1, 2, 3] := by
  intro f
  have hold : read f = .ok [⟨0, 999, 258, 258⟩] := by decide +kernel
  have hextends : List.Forall₂ Extends [⟨0, 999, 258, 515⟩] [⟨0, 999, 258, 258⟩] :=
    .cons ⟨rfl, rfl, by decide, by decide⟩ .nil
  have h := update_keeps_header rfl hold hextends (by decide)
  exact ⟨by decide +kernel, h.1, by decide +kernel⟩

end SegmentedDownload.ResumeHeader
