import Mathlib
import SegmentedDownload.Error
import SegmentedDownload.Proofs.Header

/-!
# SegmentedDownload.Proofs.HeaderImage

Which files hold a header.

* `Begins contents segments` spells out the layout of a header.  It says the
  same as `Carries`, which looks at the parts by their positions
  (`begins_iff_carries`).
* On a medium that can be read everywhere, `read` accepts the headers of valid
  segments and nothing else (`read_eq_ok_iff`), and finds whatever else is
  there corrupt (`corrupt_of_ne_ok`).
* A header has one form only: the bytes in front of the payload are those that
  `write` stores for its segments (`Carries.encode_eq`).  So what was written is
  read back (`read_write`), and no part of it passes for a header
  (`ne_ok_of_take`).
-/

namespace SegmentedDownload

namespace OpenFile

/-- A medium without a read limit gives what is in the file. -/
theorem read_eq {f : OpenFile} (h : f.readLimit = none) (pos len : Nat) :
    f.read pos len = .ok (f.contents.slice pos len) := by
  simp [read, refuses, h]

end OpenFile

namespace ResumeHeader

/-! ## The layout of a header -/

/-- The contents begin with a header: the signature, a count, and as many
records as it says, which stand for the segments.  Anything may follow. -/
def Begins (contents : Bytes) (segments : List Segment) : Prop :=
  ∃ (count : Bytes) (records : List Bytes) (payload : Bytes),
    contents = signature ++ count ++ records.flatten ++ payload ∧
      count.length = Word.size ∧ Word.decodeNat count = records.length ∧
      (∀ bs ∈ records, bs.length = segmentSize) ∧ records.map decodeSegment = segments

/-- Contents that begin with a header are cut into its parts by their positions. -/
theorem Carries.begins {contents : Bytes} {segments : List Segment}
    (h : Carries contents segments) : Begins contents segments := by
  have hlength := h.length_le
  rw [size_eq] at hlength
  have hoffset : signature.length + Word.size = segmentsOffset := rfl
  let records := (List.range segments.length).map fun i =>
    contents.slice (segmentsOffset + i * segmentSize) segmentSize
  refine ⟨contents.slice signature.length Word.size, records,
    contents.drop (segmentsOffset + segments.length * segmentSize), ?_, ?_, ?_, ?_, ?_⟩
  · rw [Bytes.flatten_slices]
    have hfront := Bytes.slice_append_slice contents 0 signature.length Word.size
    have hall := Bytes.slice_append_slice contents 0 segmentsOffset
      (segments.length * segmentSize)
    rw [h.signature_eq, Nat.zero_add, hoffset] at hfront
    rw [Nat.zero_add] at hall
    rw [hfront, hall]
    exact (List.take_append_drop _ contents).symm
  · rw [Bytes.length_slice]
    omega
  · rw [h.count_eq, List.length_map, List.length_range]
  · intro bs hbs
    obtain ⟨i, hi, rfl⟩ := List.mem_map.mp hbs
    exact length_slice_record h.length_le
      (List.getElem?_eq_getElem (List.mem_range.mp hi))
  · apply List.ext_getElem?
    intro i
    rw [List.map_map, List.getElem?_map]
    by_cases hi : i < segments.length
    · rw [List.getElem?_range hi, List.getElem?_eq_getElem hi]
      exact congrArg some (h.record_eq i _ (List.getElem?_eq_getElem hi))
    · rw [List.getElem?_eq_none (by simpa using hi), List.getElem?_eq_none (by omega)]
      rfl

theorem begins_iff_carries {contents : Bytes} {segments : List Segment} :
    Begins contents segments ↔ Carries contents segments := by
  constructor
  · rintro ⟨count, records, payload, rfl, hcount, hn, hlen, rfl⟩
    exact carries_append hcount hn hlen
  · exact Carries.begins

/-- A record is what its segment is encoded to. -/
theorem encodeSegment_decodeSegment {bs : Bytes} (h : bs.length = segmentSize) :
    encodeSegment (decodeSegment bs) = bs := by
  have hword {pos : Nat} (hpos : pos ≤ 24) :
      Word.encodeInt (Word.decodeInt (bs.slice pos Word.size)) = bs.slice pos Word.size :=
    Word.encodeInt_decodeInt (length_slice_field h hpos)
  have hsize : segmentSize = 4 * Word.size := rfl
  simp only [encodeSegment, decodeSegment]
  rw [hword (by omega), hword (by omega), hword (by omega), hword (by omega)]
  have h2 := Bytes.slice_append_slice bs 0 8 8
  have h3 := Bytes.slice_append_slice bs 0 16 8
  have h4 := Bytes.slice_append_slice bs 0 24 8
  have hall : bs.slice 0 32 = bs := by
    rw [show 32 = bs.length from h.symm, Bytes.slice_all]
  calc bs.slice 0 8 ++ bs.slice 8 8 ++ bs.slice 16 8 ++ bs.slice 24 8
      = bs.slice 0 16 ++ bs.slice 16 8 ++ bs.slice 24 8 := by rw [← h2]
    _ = bs.slice 0 24 ++ bs.slice 24 8 := by rw [← h3]
    _ = bs.slice 0 32 := h4
    _ = bs := hall

/-- A header has one form only. -/
theorem Carries.encode_eq {contents : Bytes} {segments : List Segment}
    (h : Carries contents segments) : contents.take (size segments) = encode segments := by
  obtain ⟨count, records, payload, rfl, hcount, hn, hlen, rfl⟩ := h.begins
  have hencode : encode (records.map decodeSegment) = signature ++ count ++ records.flatten := by
    have hrecords : records.map (encodeSegment ∘ decodeSegment) = records :=
      (List.map_congr_left fun bs hbs => encodeSegment_decodeSegment (hlen bs hbs)).trans
        (List.map_id _)
    rw [encode, encodeSegments, List.length_map, ← hn, Word.encodeNat_decodeNat hcount,
      List.flatMap_def, List.map_map, hrecords]
  rw [hencode, ← length_encode, hencode, List.take_left]

/-! ## Reading -/

section Reading

variable {f : OpenFile} {segments : List Segment}

/-- A part that lies inside of the file is read. -/
theorem readPart_of_le (hread : f.readLimit = none) {pos len : Nat}
    (h : pos + len ≤ f.contents.length) (part : String) :
    readPart f pos len part = .ok (f.contents.slice pos len) := by
  have hlen : ¬ (f.contents.slice pos len).length < len := by
    rw [Bytes.length_slice]
    omega
  rw [readPart, OpenFile.read_eq hread]
  exact if_neg hlen

/-- Valid segments are read from their records. -/
theorem readSegments_of_records (hread : f.readLimit = none) (index : Nat) {pos : Nat}
    (hlen : pos + segments.length * segmentSize ≤ f.contents.length)
    (hvalid : ∀ s ∈ segments, s.IsValid)
    (hrecord : ∀ i s, segments[i]? = some s →
      decodeSegment (f.contents.slice (pos + i * segmentSize) segmentSize) = s) :
    readSegments f segments.length index pos = .ok segments := by
  induction segments generalizing index pos with
  | nil => rfl
  | cons s rest ih =>
    rw [List.length_cons, Nat.succ_mul] at hlen
    have hfirst : decodeSegment (f.contents.slice pos segmentSize) = s := by
      simpa using hrecord 0 s rfl
    have hrest : readSegments f rest.length (index + 1) (pos + segmentSize) = .ok rest := by
      refine ih (index + 1) (by omega) (fun t ht => hvalid t (List.mem_cons_of_mem _ ht)) ?_
      intro i t ht
      have := hrecord (i + 1) t (by simpa using ht)
      rwa [Nat.succ_mul, Nat.add_comm (i * segmentSize), ← Nat.add_assoc] at this
    rw [List.length_cons, readSegments, readPart_of_le hread (by omega)]
    simp only [bind, Except.bind, hfirst, if_pos (hvalid s List.mem_cons_self), hrest]
    rfl

/-- A header of valid segments is read. -/
theorem read_of_carries (hread : f.readLimit = none) (h : Carries f.contents segments)
    (hne : segments ≠ []) (hvalid : ∀ s ∈ segments, s.IsValid) : read f = .ok segments := by
  have hlength := h.length_le
  rw [size_eq] at hlength
  have hoffset : signature.length + Word.size = segmentsOffset := rfl
  have hcount : segments.length ≠ 0 := mt List.length_eq_zero_iff.mp hne
  have hroom : ¬ (f.size - segmentsOffset) / segmentSize < segments.length := by
    have hpos : 0 < segmentSize := by decide
    rw [Nat.not_lt, Nat.le_div_iff_mul_le hpos, OpenFile.size]
    omega
  rw [read, readPart_of_le hread (by omega), h.signature_eq]
  simp only [bind, Except.bind, ne_eq, not_true_eq_false, if_false]
  rw [readPart_of_le hread (by omega)]
  simp only [h.count_eq, if_neg hcount, if_neg hroom]
  exact readSegments_of_records hread 0 hlength hvalid h.record_eq

theorem read_eq_ok_iff (hread : f.readLimit = none) :
    read f = .ok segments ↔
      Begins f.contents segments ∧ segments ≠ [] ∧ ∀ s ∈ segments, s.IsValid := by
  rw [begins_iff_carries]
  constructor
  · exact carries_of_read
  · rintro ⟨hcarries, hne, hvalid⟩
    exact read_of_carries hread hcarries hne hvalid

/-- Only the bytes of the header count. -/
theorem read_of_take_eq {g : OpenFile} (h : read f = .ok segments) (hread : g.readLimit = none)
    (heq : g.contents.take (size segments) = f.contents.take (size segments)) :
    read g = .ok segments := by
  obtain ⟨hcarries, hne, hvalid⟩ := carries_of_read h
  exact read_of_carries hread (hcarries.congr heq) hne hvalid

end Reading

/-! ## What is no header -/

section Corrupt

variable {f : OpenFile}

/-- A part that cannot be read is cut off. -/
theorem readPart_eq_error (hread : f.readLimit = none) {pos len : Nat} {part : String}
    {e : HeaderError} (h : readPart f pos len part = .error e) : e = .truncated part := by
  rw [readPart, OpenFile.read_eq hread] at h
  dsimp only at h
  split at h
  · exact (Except.error.inj h).symm
  · contradiction

/-- No segment fails to be read because of the medium. -/
theorem readSegments_ne_io (hread : f.readLimit = none) (count index pos : Nat)
    (cause : IoError) : readSegments f count index pos ≠ .error (.io cause) := by
  induction count generalizing index pos with
  | zero => rintro ⟨⟩
  | succ count ih =>
    intro h
    rw [readSegments] at h
    rcases bind_eq_error.mp h with hpart | ⟨bs, -, h⟩
    · cases readPart_eq_error hread hpart
    · dsimp only at h
      split at h
      · rcases bind_eq_error.mp h with hrest | ⟨rest, -, hok⟩
        · exact ih _ _ hrest
        · contradiction
      · cases h

/-- No header fails to be read because of the medium. -/
theorem read_ne_io (hread : f.readLimit = none) (cause : IoError) :
    read f ≠ .error (.io cause) := by
  intro h
  unfold read at h
  rcases bind_eq_error.mp h with hsignature | ⟨found, -, h⟩
  · cases readPart_eq_error hread hsignature
  · split at h
    · cases h
    · rcases bind_eq_error.mp h with hcount | ⟨word, -, h⟩
      · cases readPart_eq_error hread hcount
      · dsimp only at h
        split at h
        · cases h
        · split at h
          · cases h
          · exact readSegments_ne_io hread _ _ _ cause h

/-- A file that holds no header is corrupt. -/
theorem corrupt_of_ne_ok (hread : f.readLimit = none)
    (h : ∀ segments, read f ≠ .ok segments) :
    ∃ cause, read f = .error cause ∧ DownloadError.ofHeader cause = .corruptHeader cause := by
  cases hfound : read f with
  | ok segments => exact absurd hfound (h segments)
  | error cause =>
    refine ⟨cause, rfl, ?_⟩
    cases cause with
    | io cause => exact absurd hfound (read_ne_io hread cause)
    | _ => rfl

end Corrupt

/-! ## Writing -/

section Writing

variable {f : OpenFile} {segments : List Segment}

/-- A reliable medium takes a header to the front of the file. -/
theorem write_of_reliable (h : f.Reliable) (segments : List Segment) :
    (write f segments).2 = none ∧
      (write f segments).1.contents.take (size segments) = encode segments := by
  have hwrite : (write f segments).2 = none := (h.write_eq (Nat.zero_le _) _).1
  refine ⟨hwrite, ?_⟩
  rw [contents_write hwrite, ← length_encode]
  exact Bytes.slice_splice f.contents 0 (encode segments)

/-- Valid segments made of words are a header once they are written. -/
theorem carries_write (h : f.Reliable) (hcount : segments.length < 18446744073709551616)
    (hvalid : ∀ s ∈ segments, s.IsValid ∧ Word.Fits s.session) :
    Carries (write f segments).1.contents segments :=
  carries_encode hcount (fun s hs => (hvalid s hs).1.fits (hvalid s hs).2)
    (write_of_reliable h segments).2

/-- What was written is read back. -/
theorem read_write (h : f.Reliable) (hread : f.readLimit = none) (hne : segments ≠ [])
    (hcount : segments.length < 18446744073709551616)
    (hvalid : ∀ s ∈ segments, s.IsValid ∧ Word.Fits s.session) :
    read (write f segments).1 = .ok segments := by
  refine read_of_carries ?_ (carries_write h hcount hvalid) hne fun s hs => (hvalid s hs).1
  rw [write, OpenFile.write_readLimit, hread]

/-- A part of a header is not one: its count promises more records than are left. -/
theorem ne_ok_of_take {contents : Bytes} (h : Carries contents segments) {k : Nat}
    (hk : k < size segments) (hpart : f.contents = contents.take k) (found : List Segment) :
    read f ≠ .ok found := by
  intro hfound
  have hcarries := (carries_of_read hfound).1
  have hle : size found ≤ k := by
    have hlength := hcarries.length_le
    rw [hpart, List.length_take] at hlength
    omega
  have hoffset : signature.length + Word.size ≤ size found := Nat.le_add_right _ _
  have hcount : found.length = segments.length := by
    rw [← hcarries.count_eq, ← h.count_eq, hpart, Bytes.slice_take (by omega)]
  rw [size_eq, hcount, ← size_eq] at hle
  omega

end Writing

/-! ## Reader and writer together -/

/-- The reader accepts exactly what the writer makes.

A file holds a header just when it begins with the signature, a count that is
not zero, and that many valid records; writing the segments again gives the same
bytes, and those behind them are not looked at.  Anything else is corrupt.  So
segments are read back as they were written, whatever was in the file before,
and a header that ends early is corrupt. -/
theorem read_exact :
    (∀ f : OpenFile, f.readLimit = none →
      (∀ segments, read f = .ok segments ↔
        Begins f.contents segments ∧ segments ≠ [] ∧ ∀ s ∈ segments, s.IsValid) ∧
      ((∀ segments, read f ≠ .ok segments) →
        ∃ cause, read f = .error cause ∧
          DownloadError.ofHeader cause = .corruptHeader cause) ∧
      ∀ segments, read f = .ok segments → ∀ g : OpenFile,
        (g.Reliable → (write g segments).2 = none ∧
          (write g segments).1.contents.take (size segments) =
            f.contents.take (size segments)) ∧
        (g.readLimit = none →
          g.contents.take (size segments) = f.contents.take (size segments) →
          read g = .ok segments)) ∧
    ∀ segments : List Segment, segments ≠ [] → segments.length < 18446744073709551616 →
      (∀ s ∈ segments, s.IsValid ∧ Word.Fits s.session) →
      ∀ f : OpenFile, f.Reliable →
        (write f segments).2 = none ∧
        (f.readLimit = none → read (write f segments).1 = .ok segments) ∧
        ∀ k < size segments, ∀ g : OpenFile, g.readLimit = none →
          g.contents = (write f segments).1.contents.take k →
          ∃ cause, read g = .error cause ∧
            DownloadError.ofHeader cause = .corruptHeader cause := by
  refine ⟨fun f hread => ⟨fun segments => read_eq_ok_iff hread, corrupt_of_ne_ok hread, ?_⟩, ?_⟩
  · intro segments hok g
    have hcarries := (carries_of_read hok).1
    refine ⟨fun hg => ⟨(write_of_reliable hg segments).1, ?_⟩, read_of_take_eq hok⟩
    rw [(write_of_reliable hg segments).2, hcarries.encode_eq]
  · intro segments hne hcount hvalid f hf
    have hcarries := carries_write hf hcount hvalid
    refine ⟨(write_of_reliable hf segments).1,
      fun hread => read_write hf hread hne hcount hvalid, ?_⟩
    intro k hk g hread hpart
    exact corrupt_of_ne_ok hread (ne_ok_of_take hcarries hk hpart)

/-- Two segments and two bytes of payload; the first of the two records alone is
no header. -/
theorem read_exact_halves :
    read { contents := encode [⟨0, 49, 50, 50⟩, ⟨50, 99, 30, 7⟩] ++ [1, 2] } =
        .ok [⟨0, 49, 50, 50⟩, ⟨50, 99, 30, 7⟩] ∧
      ∃ cause,
        read { contents := (encode [⟨0, 49, 50, 50⟩, ⟨50, 99, 30, 7⟩]).take 60 } =
            .error cause ∧
          DownloadError.ofHeader cause = .corruptHeader cause := by
  constructor
  · refine ((read_exact.1 _ rfl).1 _).mpr ⟨?_, by decide, by decide⟩
    exact ⟨Word.encodeNat 2, [encodeSegment ⟨0, 49, 50, 50⟩, encodeSegment ⟨50, 99, 30, 7⟩],
      [1, 2], by decide +kernel, by decide, by decide +kernel, by decide +kernel,
      by decide +kernel⟩
  · exact (read_exact.2 [⟨0, 49, 50, 50⟩, ⟨50, 99, 30, 7⟩] (by decide) (by decide)
      (by decide) {} ⟨rfl, rfl, by decide⟩).2.2 60 (by decide) _ rfl (by decide +kernel)

end ResumeHeader

end SegmentedDownload
