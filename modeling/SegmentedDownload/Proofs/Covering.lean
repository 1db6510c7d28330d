import Mathlib
import SegmentedDownload.Proofs.WordArithmetic

/-!
# SegmentedDownload.Proofs.Covering

Segments cover a file exactly if they are its bytes, in order.

`ResumeHeader.covers` compares the ends of neighbours only.  For segments that are not empty this
says everything: one after the other, their positions are those of the file
(`coversFrom_iff_positions`), and so no byte is in two of them, and their lengths and their
progress add up to what they should (`Tiles`).

The position behind a segment is a word as long as the segment does not end at the last one
(`coversFromInWords_eq`).
-/

namespace SegmentedDownload

/-- The positions of the bytes in the range, in order. -/
def Segment.positions (s : Segment) : List Int := Int.range s.start (s.last + 1)

/-! ## Ranges of positions -/

section Ranges

variable {a b c : Int}

theorem length_intRange (a b : Int) : (Int.range a b).length = (b - a).toNat := by
  rw [Int.range, List.length_map, List.length_range]

theorem intRange_eq_nil (h : b ≤ a) : Int.range a b = [] := by
  refine List.eq_nil_of_length_eq_zero ?_
  rw [length_intRange]
  omega

/-- Ranges that meet are one range. -/
theorem intRange_append (hab : a ≤ b) (hbc : b ≤ c) :
    Int.range a b ++ Int.range b c = Int.range a c := by
  have hcount : (c - a).toNat = (b - a).toNat + (c - b).toNat := by omega
  have hstart : a + ((b - a).toNat : Int) = b := by omega
  simp only [Int.range, hcount, List.range_add, List.map_append, List.map_map]
  refine congrArg _ (List.map_congr_left fun n _ => ?_)
  simp only [Function.comp_apply, Nat.cast_add]
  omega

theorem head?_intRange (h : a < b) : (Int.range a b).head? = some a := by
  have hcount : (b - a).toNat = (b - a - 1).toNat + 1 := by omega
  rw [Int.range, hcount, List.range_succ_eq_map, List.map_cons, List.head?_cons, Nat.cast_zero,
    add_zero]

end Ranges

namespace ResumeHeader

variable {next size : Int} {segments : List Segment}

/-- Neighbours that meet leave no position out and have none in common. -/
theorem positions_of_coversFrom (h : coversFrom next size segments = true)
    (hle : ∀ s ∈ segments, s.start ≤ s.last) :
    segments.flatMap Segment.positions = Int.range next size := by
  induction segments generalizing next with
  | nil =>
    have hnext : next = size := by simpa [coversFrom] using h
    exact (intRange_eq_nil hnext.ge).symm
  | cons s rest ih =>
    obtain ⟨hs, hrest⟩ := List.forall_mem_cons.mp hle
    obtain ⟨rfl, hcovers⟩ := coversFrom_cons.mp h
    have hsize := (bounds_of_coversFrom hcovers hrest).1
    rw [List.flatMap_cons, ih hcovers hrest, Segment.positions]
    exact intRange_append (by omega) hsize

/-- The first position tells where the first segment begins, and the number of positions that it
does not end behind the file.  What follows it are the other segments. -/
theorem coversFrom_of_positions
    (h : segments.flatMap Segment.positions = Int.range next size) (hsize : next ≤ size)
    (hle : ∀ s ∈ segments, s.start ≤ s.last) : coversFrom next size segments = true := by
  induction segments generalizing next with
  | nil =>
    have hempty := congrArg List.length h
    rw [List.flatMap_nil, List.length_nil, length_intRange] at hempty
    simp only [coversFrom, beq_iff_eq]
    omega
  | cons s rest ih =>
    obtain ⟨hs, hrest⟩ := List.forall_mem_cons.mp hle
    rw [List.flatMap_cons, Segment.positions] at h
    have hlength := congrArg List.length h
    rw [List.length_append, length_intRange, length_intRange] at hlength
    have hstart : s.start = next := by
      have hhead := congrArg List.head? h
      rw [List.head?_append, head?_intRange (by omega), head?_intRange (by omega)] at hhead
      exact Option.some.inj hhead
    subst hstart
    have hend : s.last + 1 ≤ size := by omega
    rw [← intRange_append (by omega) hend] at h
    exact coversFrom_cons.mpr ⟨rfl, ih (List.append_cancel_left h) hend hrest⟩

/-- To compare neighbours is to compare all positions. -/
theorem coversFrom_iff_positions (hsize : next ≤ size) (hle : ∀ s ∈ segments, s.start ≤ s.last) :
    coversFrom next size segments = true ↔
      segments.flatMap Segment.positions = Int.range next size :=
  ⟨fun h => positions_of_coversFrom h hle, fun h => coversFrom_of_positions h hsize hle⟩

/-! ## Words -/

/-- Whether the segments describe a file from `next` to `size`, computed in words. -/
def coversFromInWords (next size : Int) : List Segment → Option Bool
  | [] => some (next == size)
  | s :: rest =>
    if s.start == next then do coversFromInWords (← Word.check (s.last + 1)) size rest
    else some false

/-- Whether the segments describe a file of `size` bytes, computed in words. -/
def coversInWords (segments : List Segment) (size : Int) : Option Bool :=
  coversFromInWords 0 size segments

/-- The comparison stays in words, unless a segment ends at the last one. -/
theorem coversFromInWords_eq (h : ∀ s ∈ segments, 0 ≤ s.last ∧ s.last < Word.maxInt) :
    coversFromInWords next size segments = some (coversFrom next size segments) := by
  induction segments generalizing next with
  | nil => rfl
  | cons s rest ih =>
    obtain ⟨⟨h0, hmax⟩, hrest⟩ := List.forall_mem_cons.mp h
    rw [coversFromInWords, coversFrom, Word.check_of_le (by omega) (by omega)]
    split
    · next hstart =>
      rw [hstart, Bool.true_and]
      exact ih hrest
    · next hstart =>
      rw [Bool.eq_false_iff.mpr hstart, Bool.false_and]

/-! ## Covering -/

/-- What follows for segments that cover a file of `size` bytes. -/
structure Tiles (size : Int) (segments : List Segment) : Prop where
  lengths : ∃ lengths, segments.mapM Segment.length? = some lengths ∧ lengths.sum = size
  disjoint : segments.Pairwise fun s t => s.positions.Disjoint t.positions
  /-- Progress that stays in the segments is the size only when each of them is full. -/
  progress : (∀ s ∈ segments, s.session ≤ s.last - s.start + 1) → ∀ t : Table,
    t.segments = segments → (t.sessionTotal = size ↔ ∀ s ∈ segments, s.IsFull)
  words : (∀ s ∈ segments, 0 ≤ s.session ∧ s.session ≤ s.last - s.start + 1) → ∀ t : Table,
    t.segments = segments → t.sessionTotalInWords = some t.sessionTotal

/-- All that follows for segments that cover a file. -/
theorem tiles_of_covers (h : covers segments size = true)
    (hwords : ∀ s ∈ segments, 0 ≤ s.start ∧ s.start ≤ s.last ∧ s.last < Word.maxInt) :
    Tiles size segments := by
  have hle : ∀ s ∈ segments, s.start ≤ s.last := fun s hs => (hwords s hs).2.1
  have hmax : size ≤ Word.maxInt :=
    size_le_of_coversFrom h (by decide) fun s hs => (hwords s hs).2.2
  refine ⟨⟨segments.map fun s => s.last - s.start + 1, ?_, ?_⟩, ?_, ?_, ?_⟩
  · exact Plan.mapM_eq_some fun s hs => Segment.length?_of_bounded (hwords s hs).2.2
  · rw [sum_length_of_coversFrom h, Int.sub_zero]
  · refine (pairwise_of_coversFrom h hle).imp fun {s t} hst k hs ht => ?_
    have hs := Int.mem_range_iff.mp hs
    have ht := Int.mem_range_iff.mp ht
    omega
  · rintro hsession t rfl
    have hiff := (sum_session_of_coversFrom h hsession).2
    rwa [Int.sub_zero] at hiff
  · rintro hsession t rfl
    rw [Table.sessionTotal, ← Reporter.sum_session]
    exact sum_session_inWords h hmax hsession

/-- **Segments cover a file if and only if they are its bytes.**  The positions of the segments, one
after the other, are those from the first byte of the file to the last one.  This holds of any
segments that are not empty, and words are enough to find it out.

Segments that cover a file are disjoint, their lengths add up to its size, and their progress does
only when each of them is full. -/
theorem covers_iff_positions
    (hwords : ∀ s ∈ segments, 0 ≤ s.start ∧ s.start ≤ s.last ∧ s.last < Word.maxInt)
    (hsize : 0 ≤ size) :
    coversInWords segments size = some (covers segments size) ∧
      (covers segments size = true ↔
        segments.flatMap Segment.positions = Int.range 0 size) ∧
      (covers segments size = true → Tiles size segments) := by
  refine ⟨coversFromInWords_eq fun s hs => ?_,
    coversFrom_iff_positions hsize fun s hs => (hwords s hs).2.1,
    fun h => tiles_of_covers h hwords⟩
  obtain ⟨h0, hle, hmax⟩ := hwords s hs
  exact ⟨h0.trans hle, hmax⟩

/-- A full first byte and a full rest of the largest file that a header can be about. -/
def byteAndRest : List Segment :=
  [⟨0, 0, 1, 1⟩, ⟨1, 9223372036854775806, 7, 9223372036854775806⟩]

theorem byteAndRest_positions :
    (∀ s ∈ byteAndRest, 0 ≤ s.start ∧ s.start ≤ s.last ∧ s.last < Word.maxInt) ∧
      coversInWords byteAndRest Word.maxInt = some true ∧
      byteAndRest.flatMap Segment.positions = Int.range 0 Word.maxInt ∧
      Tiles Word.maxInt byteAndRest ∧
      (Table.resumed byteAndRest Word.maxInt).sessionTotalInWords = some Word.maxInt := by
  have hwords : ∀ s ∈ byteAndRest, 0 ≤ s.start ∧ s.start ≤ s.last ∧ s.last < Word.maxInt := by
    decide
  have hsize : 0 ≤ Word.maxInt := by decide
  have hcovers : covers byteAndRest Word.maxInt = true := by decide
  obtain ⟨hinWords, hpositions, htiles⟩ := covers_iff_positions hwords hsize
  have htotal := (htiles hcovers).words (by decide) (Table.resumed byteAndRest Word.maxInt) rfl
  have hfull := (htiles hcovers).progress (by decide) (Table.resumed byteAndRest Word.maxInt) rfl
  refine ⟨hwords, hcovers ▸ hinWords, hpositions.mp hcovers, htiles hcovers, ?_⟩
  rw [htotal, hfull.mpr (by decide)]

/-- A segment that ends before it begins leads back: the last five bytes are covered twice. -/
example : covers [⟨0, 9, 0, 0⟩, ⟨10, 4, 0, 0⟩, ⟨5, 9, 0, 0⟩] 10 = true := by decide

end ResumeHeader

end SegmentedDownload
