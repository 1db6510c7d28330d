import Mathlib
import SegmentedDownload.Proofs.Medium
import SegmentedDownload.Proofs.Partition

/-!
# SegmentedDownload.Proofs.Header

What the header in front of a partial file says, before and after a checkpoint.

* `Carries contents segments` says that contents begin with a header of the
  given segments.  A header that `read` accepts is carried (`carries_of_read`),
  and so is one that `write` stored (`carries_encode`).
* A checkpoint that stops anywhere leaves a *torn* run of bytes: new ones in
  front of old ones.  A torn word is never above the new one, as long as the old
  one is not (`decodeInt_tear`); hence a torn segment never claims more than its
  session progress (`decodeSegment_tear`).
-/

namespace SegmentedDownload

/-! ## Torn runs of bytes -/

namespace Bytes

/-- The first `n` bytes of `new`, and the bytes of `old` behind them. -/
def tear (new old : Bytes) (n : Nat) : Bytes := new.take n ++ old.drop n

/-- A write that is torn leaves no trace where it changes nothing. -/
theorem tear_self (data : Bytes) (n : Nat) : tear data data n = data :=
  List.take_append_drop n data

/-- A torn write has the new bytes in front and the old ones behind. -/
theorem getElem?_tear {new old : Bytes} (h : new.length = old.length) (n k : Nat) :
    (tear new old n)[k]? = if k < n then new[k]? else old[k]? := by
  unfold tear
  rw [List.getElem?_append, List.length_take]
  by_cases hn : k < n
  · rw [if_pos hn]
    by_cases hk : k < new.length
    · rw [if_pos (by omega), List.getElem?_take_of_lt hn]
    · rw [if_neg (by omega), List.getElem?_drop, List.getElem?_eq_none (by omega),
        List.getElem?_eq_none (by omega)]
  · rw [if_neg hn, if_neg (by omega), List.getElem?_drop]
    by_cases hlen : n ≤ new.length
    · congr 1
      omega
    · rw [List.getElem?_eq_none (by omega), List.getElem?_eq_none (by omega)]

/-- A slice of a torn run is torn itself. -/
theorem slice_tear {new old : Bytes} (h : new.length = old.length) (n pos len : Nat) :
    slice (tear new old n) pos len = tear (slice new pos len) (slice old pos len) (n - pos) := by
  have hslice : (slice new pos len).length = (slice old pos len).length := by
    rw [length_slice, length_slice, h]
  apply List.ext_getElem?
  intro k
  rw [getElem?_tear hslice, getElem?_slice, getElem?_slice, getElem?_slice, getElem?_tear h]
  by_cases hk : k < len
  · simp only [if_pos hk]
    by_cases hn : pos + k < n
    · rw [if_pos hn, if_pos (by omega)]
    · rw [if_neg hn, if_neg (by omega)]
  · simp only [if_neg hk, ite_self]

/-- A write inside of contents that stores `n` bytes leaves a torn run. -/
theorem slice_splice_take {contents data : Bytes} {pos : Nat}
    (h : pos + data.length ≤ contents.length) (n : Nat) :
    slice (splice contents pos (data.take n)) pos data.length =
      tear data (slice contents pos data.length) n := by
  have hlen : data.length = (slice contents pos data.length).length := by
    rw [length_slice]
    omega
  apply List.ext_getElem?
  intro k
  rw [getElem?_slice, getElem?_splice, getElem?_tear hlen, getElem?_slice, List.length_take]
  by_cases hk : k < data.length
  · rw [if_pos hk, if_pos hk, if_neg (by omega)]
    by_cases hn : k < n
    · rw [if_pos hn, if_pos (by omega), Nat.add_sub_cancel_left, List.getElem?_take_of_lt hn]
    · rw [if_neg hn, if_neg (by omega)]
  · rw [if_neg hk, if_neg hk, List.getElem?_eq_none (by omega), ite_self]

end Bytes

namespace Word

/-- A torn number is at most the new one if the old one is. -/
theorem ofDigits_tear {new old : Bytes} (h : new.length = old.length)
    (hle : ofDigits old ≤ ofDigits new) (n : Nat) :
    ofDigits (Bytes.tear new old n) ≤ ofDigits new := by
  induction new generalizing old n with
  | nil =>
    obtain rfl : old = [] := List.length_eq_zero_iff.mp (by simpa using h.symm)
    simp [Bytes.tear]
  | cons b new ih =>
    cases old with
    | nil => simp at h
    | cons c old =>
      cases n with
      | zero => simpa [Bytes.tear] using hle
      | succ n =>
        have hb : b.toNat < 256 := b.toNat_lt
        simp only [ofDigits] at hle
        have := ih (by simpa using h) (by omega) n
        simp only [Bytes.tear, List.take_succ_cons, List.drop_succ_cons, List.cons_append,
          ofDigits] at this ⊢
        omega

/-- The signed word of a small number is the number. -/
theorem toSigned_eq {n : Nat} {m : Int} (h : toSigned n = m) (h0 : 0 ≤ m)
    (hn : n < 18446744073709551616) : n < 9223372036854775808 ∧ (n : Int) = m := by
  unfold toSigned at h
  split at h <;> omega

/-- A torn word holds no more than the new one, and nothing negative, if the old
one does not either. -/
theorem decodeInt_tear {new old : Bytes} (hnew : new.length = size) (hold : old.length = size)
    (h0 : 0 ≤ decodeInt old) (hle : decodeInt old ≤ decodeInt new) (n : Nat) :
    0 ≤ decodeInt (Bytes.tear new old n) ∧
      decodeInt (Bytes.tear new old n) ≤ decodeInt new := by
  have hltNew := ofDigits_lt new
  have hltOld := ofDigits_lt old
  rw [hnew, digitBound_size] at hltNew
  rw [hold, digitBound_size] at hltOld
  have heqOld : (ofDigits old : Int) = decodeInt old := (toSigned_eq rfl h0 hltOld).2
  obtain ⟨hsmall, heqNew⟩ : ofDigits new < 9223372036854775808 ∧
      (ofDigits new : Int) = decodeInt new := toSigned_eq rfl (Int.le_trans h0 hle) hltNew
  have htear := ofDigits_tear (hnew.trans hold.symm) (by omega) n
  have hdecode : decodeInt (Bytes.tear new old n) = (ofDigits (Bytes.tear new old n) : Int) := by
    unfold decodeInt toSigned
    rw [if_pos (by omega)]
  rw [hdecode, ← heqNew]
  omega

end Word

/-! ## Segments in a header -/

namespace Segment

/-- Every field of the segment is a word. -/
structure Fits (s : Segment) : Prop where
  start : Word.Fits s.start
  last : Word.Fits s.last
  committed : Word.Fits s.committed
  session : Word.Fits s.session

/-- The committed progress of a valid segment is a word. -/
theorem IsValid.fits_committed {s : Segment} (h : s.IsValid) : Word.Fits s.committed := by
  obtain ⟨hstart, hle, hlast, hcommitted, hend⟩ := h
  have hmin : Word.minInt ≤ 0 := by decide
  exact ⟨by omega, by omega⟩

/-- A valid segment is made of words if its session progress is one. -/
theorem IsValid.fits {s : Segment} (h : s.IsValid) (hsession : Word.Fits s.session) :
    s.Fits := by
  have hcommitted := h.fits_committed
  obtain ⟨hstart, hle, hlast, -, -⟩ := h
  have hmin : Word.minInt ≤ 0 := by decide
  exact ⟨⟨by omega, by omega⟩, ⟨by omega, hlast⟩, hcommitted, hsession⟩

/-- A checkpoint records a segment in words if it is made of words. -/
theorem Fits.commit {s : Segment} (h : s.Fits) : s.commit.Fits :=
  ⟨h.start, h.last, h.session, h.session⟩

end Segment

namespace ResumeHeader

@[simp] theorem length_encodeSegment (s : Segment) :
    (encodeSegment s).length = segmentSize := by
  simp [encodeSegment, segmentSize, Word.size]

@[simp] theorem length_encodeSegments (segments : List Segment) :
    (encodeSegments segments).length = segments.length * segmentSize := by
  simp [encodeSegments, List.length_flatMap]

@[simp] theorem length_encode (segments : List Segment) :
    (encode segments).length = size segments := by
  simp [encode, size, sizeOf, segmentsOffset, Nat.add_assoc]

/-- The four words of an encoded segment. -/
theorem slice_encodeSegment (s : Segment) :
    (encodeSegment s).slice 0 Word.size = Word.encodeInt s.start ∧
      (encodeSegment s).slice 8 Word.size = Word.encodeInt s.last ∧
      (encodeSegment s).slice 16 Word.size = Word.encodeInt s.committed ∧
      (encodeSegment s).slice 24 Word.size = Word.encodeInt s.session := by
  have h (n : Int) : (Word.encodeInt n).length = 8 := Word.length_encodeInt n
  simp [encodeSegment, Bytes.slice, Word.size, List.drop_append,
    List.drop_eq_nil_of_le, List.take_of_length_le, h]

/-- A segment made of words is read back from its own bytes. -/
theorem decodeSegment_encodeSegment {s : Segment} (h : s.Fits) :
    decodeSegment (encodeSegment s) = s := by
  obtain ⟨h0, h8, h16, h24⟩ := slice_encodeSegment s
  rw [decodeSegment, h0, h8, h16, h24, Word.decodeInt_encodeInt h.start,
    Word.decodeInt_encodeInt h.last, Word.decodeInt_encodeInt h.committed,
    Word.decodeInt_encodeInt h.session]

/-- The bytes of one of some encoded segments. -/
theorem slice_encodeSegments {segments : List Segment} {i : Nat} {s : Segment}
    (h : segments[i]? = some s) :
    (encodeSegments segments).slice (i * segmentSize) segmentSize = encodeSegment s := by
  rw [encodeSegments, List.flatMap_def]
  exact Bytes.slice_flatten (by simp) (by simp [h])

/-! ## Headers in front of contents -/

/-- What the bytes of the `i`-th segment of a header stand for. -/
def record (contents : Bytes) (i : Nat) : Segment :=
  decodeSegment (contents.slice (segmentsOffset + i * segmentSize) segmentSize)

/-- The contents begin with a header of these segments. -/
structure Carries (contents : Bytes) (segments : List Segment) : Prop where
  signature_eq : contents.slice 0 signature.length = signature
  count_eq : Word.decodeNat (contents.slice signature.length Word.size) = segments.length
  length_le : size segments ≤ contents.length
  record_eq : ∀ i s, segments[i]? = some s → record contents i = s

theorem size_eq (segments : List Segment) :
    size segments = segmentsOffset + segments.length * segmentSize := rfl

/-- The bytes of a segment lie between the count and the payload. -/
theorem segment_end_le {segments : List Segment} {i : Nat} {s : Segment}
    (h : segments[i]? = some s) :
    segmentsOffset + i * segmentSize + segmentSize ≤ size segments := by
  have hi := (List.getElem?_eq_some_iff.mp h).1
  have : (i + 1) * segmentSize ≤ segments.length * segmentSize := Nat.mul_le_mul_right _ hi
  rw [size_eq]
  linarith

/-- Only the bytes of the header count. -/
theorem Carries.congr {old new : Bytes} {segments : List Segment} (h : Carries old segments)
    (heq : new.slice 0 (size segments) = old.slice 0 (size segments)) :
    Carries new segments := by
  have hslice : ∀ pos len, pos + len ≤ size segments → new.slice pos len = old.slice pos len := by
    intro pos len hle
    have hpart : ∀ contents : Bytes,
        (contents.slice 0 (size segments)).slice pos len = contents.slice pos len := by
      intro contents
      rw [Bytes.slice_slice hle, Nat.zero_add]
    have hn := hpart new
    have ho := hpart old
    rw [← hn, ← ho, heq]
  have hoffset : segmentsOffset ≤ size segments := Nat.le_add_right _ _
  have hfront : signature.length + Word.size = segmentsOffset := rfl
  refine ⟨?_, ?_, ?_, ?_⟩
  · rw [hslice 0 _ (by omega), h.signature_eq]
  · rw [hslice _ _ (by omega), h.count_eq]
  · have hlen := congrArg List.length heq
    have := h.length_le
    rw [Bytes.length_slice, Bytes.length_slice] at hlen
    omega
  · intro i s hs
    rw [record, hslice _ _ (segment_end_le hs)]
    exact h.record_eq i s hs

/-- A header that is written without an error is at the front of the file. -/
theorem contents_write {f : OpenFile} {segments : List Segment}
    (h : (write f segments).2 = none) :
    (write f segments).1.contents = f.contents.splice 0 (encode segments) := by
  refine OpenFile.contents_write ?_ h
  simp [encode, signature]

/-- The signature, a count, and as many records as it says are a header. -/
theorem carries_append {count payload : Bytes} {records : List Bytes}
    (hcount : count.length = Word.size) (hn : Word.decodeNat count = records.length)
    (hlen : ∀ bs ∈ records, bs.length = segmentSize) :
    Carries (signature ++ count ++ records.flatten ++ payload)
      (records.map decodeSegment) := by
  have hfront : (signature ++ count).length = segmentsOffset := by
    rw [List.length_append, hcount]
    rfl
  have htotal : records.flatten.length = records.length * segmentSize := by
    rw [List.length_flatten, List.map_congr_left hlen]
    simp
  refine ⟨?_, ?_, ?_, ?_⟩
  · rw [List.append_assoc, List.append_assoc, Bytes.slice_append_left (by simp),
      Bytes.slice_all]
  · have hs := Bytes.slice_append_right signature (count ++ (records.flatten ++ payload)) 0
      Word.size
    rw [Nat.add_zero] at hs
    rw [List.append_assoc, List.append_assoc, hs, Bytes.slice_append_left (by omega),
      ← hcount, Bytes.slice_all, hn, List.length_map]
  · rw [size_eq, List.length_map, List.length_append, List.length_append, hfront, htotal]
    omega
  · intro i s hs
    obtain ⟨bs, hbs, rfl⟩ : ∃ bs, records[i]? = some bs ∧ decodeSegment bs = s := by
      simpa using hs
    have hi : i < records.length := (List.getElem?_eq_some_iff.mp hbs).1
    have hroom : i * segmentSize + segmentSize ≤ records.flatten.length := by
      rw [htotal, ← Nat.succ_mul]
      exact Nat.mul_le_mul_right _ hi
    rw [record, List.append_assoc, ← hfront, Bytes.slice_append_right,
      Bytes.slice_append_left hroom, Bytes.slice_flatten hlen hbs]

/-- What `write` stores is a header. -/
theorem carries_encode {contents : Bytes} {segments : List Segment}
    (hcount : segments.length < 18446744073709551616) (hfits : ∀ s ∈ segments, s.Fits)
    (h : contents.slice 0 (size segments) = encode segments) : Carries contents segments := by
  have hrecords : (segments.map encodeSegment).map decodeSegment = segments := by
    rw [List.map_map]
    exact (List.map_congr_left fun s hs => decodeSegment_encodeSegment (hfits s hs)).trans
      (List.map_id _)
  have hself : Carries (encode segments) segments := by
    have happend := @carries_append (Word.encodeNat segments.length) []
      (segments.map encodeSegment) (by simp)
      (by rw [Word.decodeNat_encodeNat hcount, List.length_map]) (by simp)
    rwa [List.append_nil, hrecords, ← List.flatMap_def] at happend
  refine hself.congr ?_
  rw [h, ← length_encode, Bytes.slice_all]

/-- A part of a header that was read is in the file as a whole. -/
theorem readPart_eq_ok {f : OpenFile} {pos len : Nat} {part : String} {bs : Bytes}
    (h : readPart f pos len part = .ok bs) : bs = f.contents.slice pos len ∧ len ≤ bs.length := by
  unfold readPart at h
  split at h
  · contradiction
  · next found hread =>
    split at h
    · contradiction
    · next hlen =>
      obtain rfl : found = bs := Except.ok.inj h
      refine ⟨?_, Nat.le_of_not_lt hlen⟩
      unfold OpenFile.read at hread
      dsimp only at hread
      split at hread
      · contradiction
      · split at hread
        · contradiction
        · exact (Except.ok.inj hread).symm

/-- Segments that were read are all there, valid, and decoded from their bytes. -/
theorem readSegments_eq_ok {f : OpenFile} {count index pos : Nat} {segments : List Segment}
    (h : readSegments f count index pos = .ok segments)
    (hpos : pos ≤ f.contents.length) :
    segments.length = count ∧ pos + count * segmentSize ≤ f.contents.length ∧
      (∀ s ∈ segments, s.IsValid) ∧
      ∀ i s, segments[i]? = some s →
        decodeSegment (f.contents.slice (pos + i * segmentSize) segmentSize) = s := by
  induction count generalizing index pos segments with
  | zero =>
    obtain rfl : [] = segments := Except.ok.inj h
    simpa using hpos
  | succ count ih =>
    rw [readSegments] at h
    obtain ⟨bs, hpart, h⟩ := bind_eq_ok.mp h
    obtain ⟨hbs, hlen⟩ := readPart_eq_ok hpart
    dsimp only at h
    split at h
    · next hvalid =>
      obtain ⟨rest, hrest, hok⟩ := bind_eq_ok.mp h
      obtain rfl : decodeSegment bs :: rest = segments := Except.ok.inj hok
      have hend : pos + segmentSize ≤ f.contents.length := by
        rw [hbs, Bytes.length_slice] at hlen
        have : 0 < segmentSize := by decide
        omega
      obtain ⟨hcount, hle, hall, hrecords⟩ := ih hrest hend
      refine ⟨by rw [List.length_cons, hcount], ?_, ?_, ?_⟩
      · rw [Nat.succ_mul]
        omega
      · intro s hs
        rcases List.mem_cons.mp hs with rfl | hs
        · exact hvalid
        · exact hall s hs
      · intro i s hs
        cases i with
        | zero =>
          obtain rfl : decodeSegment bs = s := by simpa using hs
          rw [hbs, Nat.zero_mul, Nat.add_zero]
        | succ i =>
          have := hrecords i s (by simpa using hs)
          rwa [Nat.succ_mul, Nat.add_comm (i * segmentSize), ← Nat.add_assoc]
    · contradiction

/-- A header that was read is carried by the file, and its segments are valid. -/
theorem carries_of_read {f : OpenFile} {segments : List Segment} (h : read f = .ok segments) :
    Carries f.contents segments ∧ segments ≠ [] ∧ ∀ s ∈ segments, s.IsValid := by
  unfold read at h
  obtain ⟨found, hsignature, h⟩ := bind_eq_ok.mp h
  obtain ⟨hfound, -⟩ := readPart_eq_ok hsignature
  split at h
  · contradiction
  · next heq =>
    obtain ⟨word, hword, h⟩ := bind_eq_ok.mp h
    obtain ⟨hcount, hlen⟩ := readPart_eq_ok hword
    dsimp only at h
    split at h
    · contradiction
    · next hne =>
      split at h
      · contradiction
      · have hoffset : segmentsOffset ≤ f.contents.length := by
          rw [hcount, Bytes.length_slice] at hlen
          have h1 : segmentsOffset = signature.length + Word.size := rfl
          have h2 : 0 < Word.size := by decide
          omega
        obtain ⟨hlength, hle, hvalid, hrecords⟩ := readSegments_eq_ok h hoffset
        refine ⟨⟨?_, ?_, ?_, hrecords⟩, ?_, hvalid⟩
        · rw [← hfound]
          exact Decidable.not_not.mp heq
        · rw [hlength, hcount]
        · rw [size_eq, hlength]
          exact hle
        · rintro rfl
          exact hne hlength.symm

/-! ## Torn checkpoints -/

section Torn

variable {s : Segment} {raw : Bytes}

theorem length_slice_field (hraw : raw.length = segmentSize) {pos : Nat} (hpos : pos ≤ 24) :
    (raw.slice pos Word.size).length = Word.size := by
  have h1 : segmentSize = 32 := rfl
  have h2 : Word.size = 8 := rfl
  rw [Bytes.length_slice]
  omega

/-- A word that both versions agree on is not torn apart. -/
theorem tear_field {new old : Bytes} (h : new = old) (n : Nat) : Bytes.tear new old n = old := by
  rw [h, Bytes.tear_self]

/-- The bytes of a word whose value is known. -/
theorem encodeInt_of_decodeInt {bs : Bytes} {n : Int} (hlen : bs.length = Word.size)
    (h : Word.decodeInt bs = n) : Word.encodeInt n = bs := by
  rw [← h, Word.encodeInt_decodeInt hlen]

/-- A torn segment keeps its range, and claims no more than the new one, as long
as the old one does not. -/
theorem decodeSegment_tear (hraw : raw.length = segmentSize) (hs : s.Fits)
    (hstart : (decodeSegment raw).start = s.start) (hlast : (decodeSegment raw).last = s.last)
    (h0 : 0 ≤ (decodeSegment raw).committed)
    (hle : (decodeSegment raw).committed ≤ s.committed) (n : Nat) :
    (decodeSegment (Bytes.tear (encodeSegment s) raw n)).start = s.start ∧
      (decodeSegment (Bytes.tear (encodeSegment s) raw n)).last = s.last ∧
      0 ≤ (decodeSegment (Bytes.tear (encodeSegment s) raw n)).committed ∧
      (decodeSegment (Bytes.tear (encodeSegment s) raw n)).committed ≤ s.committed := by
  have hlen : (encodeSegment s).length = raw.length := by rw [length_encodeSegment, hraw]
  obtain ⟨e0, e8, e16, -⟩ := slice_encodeSegment s
  have hcommitted := Word.decodeInt_encodeInt hs.committed
  simp only [decodeSegment] at hstart hlast h0 hle ⊢
  rw [Bytes.slice_tear hlen, Bytes.slice_tear hlen, Bytes.slice_tear hlen, e0, e8, e16]
  refine ⟨?_, ?_, ?_⟩
  · rw [tear_field (encodeInt_of_decodeInt (length_slice_field hraw (by omega)) hstart), hstart]
  · rw [tear_field (encodeInt_of_decodeInt (length_slice_field hraw (by omega)) hlast), hlast]
  · have := Word.decodeInt_tear (Word.length_encodeInt s.committed)
      (length_slice_field hraw (by omega)) h0 (by rwa [hcommitted]) (n - 16)
    rwa [hcommitted] at this

/-- The bytes of the range of a segment are the same in both versions. -/
theorem slice_range_tear (hraw : raw.length = segmentSize)
    (hstart : (decodeSegment raw).start = s.start) (hlast : (decodeSegment raw).last = s.last)
    (n : Nat) :
    (Bytes.tear (encodeSegment s) raw n).slice 0 (2 * Word.size) =
      raw.slice 0 (2 * Word.size) := by
  have hlen : (encodeSegment s).length = raw.length := by rw [length_encodeSegment, hraw]
  obtain ⟨e0, e8, -, -⟩ := slice_encodeSegment s
  have hsplit : ∀ bs : Bytes, bs.slice 0 (2 * Word.size) =
      bs.slice 0 Word.size ++ bs.slice 8 Word.size :=
    fun bs => (Bytes.slice_append_slice bs 0 8 8).symm
  rw [Bytes.slice_tear hlen]
  refine tear_field ?_ _
  rw [hsplit, hsplit, e0, e8,
    encodeInt_of_decodeInt (length_slice_field hraw (by omega)) hstart,
    encodeInt_of_decodeInt (length_slice_field hraw (by omega)) hlast]

end Torn

section Update

variable {f : OpenFile} {segments : List Segment}

/-- Wherever a checkpoint stops, it leaves torn segments in the header. -/
theorem update_torn (h : size segments ≤ f.contents.length) :
    ∃ n, ∀ i s, segments[i]? = some s →
      (update f segments).1.contents.slice (segmentsOffset + i * segmentSize) segmentSize =
        Bytes.tear (encodeSegment s.commit)
          (f.contents.slice (segmentsOffset + i * segmentSize) segmentSize)
          (n - i * segmentSize) := by
  have hlen : (encodeSegments (segments.map Segment.commit)).length =
      segments.length * segmentSize := by simp
  have hoffset : segmentsOffset ≤ f.contents.length := by
    rw [size_eq] at h
    omega
  obtain ⟨n, hn⟩ := OpenFile.write_torn hoffset (encodeSegments (segments.map Segment.commit))
  refine ⟨n, fun i s hs => ?_⟩
  have hcommit : (segments.map Segment.commit)[i]? = some s.commit := by simp [hs]
  have hend := segment_end_le hs
  rw [size_eq] at h hend
  -- the segment is a part of the whole run that the checkpoint writes
  have hroom : segmentsOffset + (encodeSegments (segments.map Segment.commit)).length ≤
      f.contents.length := by omega
  have hwhole := Bytes.slice_splice_take hroom n
  rw [← hn] at hwhole
  have hpart := congrArg (Bytes.slice · (i * segmentSize) segmentSize) hwhole
  have hold : (encodeSegments (segments.map Segment.commit)).length =
      (f.contents.slice segmentsOffset
        (encodeSegments (segments.map Segment.commit)).length).length := by
    rw [Bytes.length_slice]
    omega
  rw [Bytes.slice_slice (by omega), Bytes.slice_tear hold, slice_encodeSegments hcommit,
    Bytes.slice_slice (by omega)] at hpart
  exact hpart

/-- A checkpoint writes only to the segments of the header. -/
theorem patched_update (f : OpenFile) (segments : List Segment) :
    Bytes.Patched (fun k _ => segmentsOffset ≤ k ∧ k < size segments) f.contents
      (update f segments).1.contents := by
  refine (OpenFile.patched_write f segmentsOffset
    (encodeSegments (segments.map Segment.commit))).mono fun k b hb => ⟨hb.1, ?_⟩
  have := hb.lt
  rw [length_encodeSegments, List.length_map] at this
  rwa [size_eq]

/-- A segment in memory is a later version of one in a header. -/
structure Extends (s old : Segment) : Prop where
  start_eq : old.start = s.start
  last_eq : old.last = s.last
  committed_nonneg : 0 ≤ old.committed
  committed_le : old.committed ≤ s.session

/-- A file with a header has all bytes of each record. -/
theorem length_slice_record {contents : Bytes} {i : Nat} {s : Segment}
    (h : size segments ≤ contents.length) (hs : segments[i]? = some s) :
    (contents.slice (segmentsOffset + i * segmentSize) segmentSize).length = segmentSize := by
  have hend := segment_end_le hs
  rw [Bytes.length_slice]
  omega

/-- However far a checkpoint gets, no segment in the header claims more than its
session progress. -/
theorem record_update (h : size segments ≤ f.contents.length) {i : Nat} {s : Segment}
    (hs : segments[i]? = some s) (hfits : s.commit.Fits)
    (hold : Extends s (record f.contents i)) :
    Extends s (record (update f segments).1.contents i) := by
  obtain ⟨n, hn⟩ := update_torn h
  obtain ⟨hstart, hlast, h0, hle⟩ := decodeSegment_tear (length_slice_record h hs) hfits
    hold.start_eq hold.last_eq hold.committed_nonneg hold.committed_le (n - i * segmentSize)
  rw [← hn i s hs] at hstart hlast h0 hle
  exact ⟨hstart, hlast, h0, hle⟩

/-- However far a checkpoint gets, the bytes of all ranges stay as they are. -/
theorem slice_range_update (h : size segments ≤ f.contents.length) {i : Nat} {s : Segment}
    (hs : segments[i]? = some s) (hstart : (record f.contents i).start = s.start)
    (hlast : (record f.contents i).last = s.last) :
    (update f segments).1.contents.slice (segmentsOffset + i * segmentSize) (2 * Word.size) =
      f.contents.slice (segmentsOffset + i * segmentSize) (2 * Word.size) := by
  obtain ⟨n, hn⟩ := update_torn h
  have htear := slice_range_tear (s := s.commit) (length_slice_record h hs) hstart hlast
    (n - i * segmentSize)
  have hsize : 0 + 2 * Word.size ≤ segmentSize := by decide
  rw [← hn i s hs, Bytes.slice_slice hsize, Bytes.slice_slice hsize] at htear
  exact htear

end Update

end ResumeHeader

end SegmentedDownload
