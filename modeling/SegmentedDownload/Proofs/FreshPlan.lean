import Mathlib
import SegmentedDownload.Proofs.Partition

/-!
# SegmentedDownload.Proofs.FreshPlan

How even a fresh plan is, and that words are enough to compute it.

* All segments have the length `size / n`, but for the last one, which takes the remainder
  (`segment_length`, `segment_length_last`).
* The segments of a partition follow each other from the first byte to the last one
  (`isChain_of_coversFrom`), so each byte lies in exactly one (`IsPartition.existsUnique`).
* `Plan.inWords` is the plan computed in signed words: every sum, difference, product and quotient
  is checked, and one that is no word ends the computation.  None does (`inWords_eq`), as every
  position is at most `n * (size / n)`, which is at most the size.

`Plan.EvenCut` puts this together.
-/

namespace SegmentedDownload

/-- The result of an operation on signed words.  There is none if it is no word. -/
def Word.check (n : Int) : Option Int := if Word.Fits n then some n else none

theorem Word.check_of_fits {n : Int} (h : Word.Fits n) : Word.check n = some n := if_pos h

/-- What is between 0 and a size is a word. -/
theorem Word.fits_of_le {n size : Int} (h0 : 0 ≤ n) (h : n ≤ size) (hmax : size ≤ Word.maxInt) :
    Word.Fits n := by
  unfold Word.Fits Word.minInt
  omega

namespace ResumeHeader

variable {next size : Int} {segments : List Segment}

/-- Covering segments follow each other. -/
theorem isChain_of_coversFrom (h : coversFrom next size segments = true) :
    segments.IsChain fun s t => t.start = s.last + 1 := by
  induction segments generalizing next with
  | nil => exact List.isChain_nil
  | cons s rest ih =>
    obtain ⟨-, hrest⟩ := coversFrom_cons.mp h
    cases rest with
    | nil => exact List.isChain_singleton s
    | cons t rest => exact List.isChain_cons_cons.mpr ⟨(coversFrom_cons.mp hrest).1, ih hrest⟩

end ResumeHeader

namespace Plan

/-- Each byte of a file lies in exactly one segment of a partition. -/
theorem IsPartition.existsUnique {size : Int} {segments : List Segment}
    (h : IsPartition size segments) {k : Int} (h0 : 0 ≤ k) (hk : k < size) :
    ∃! i : Nat, ∃ s : Segment, segments[i]? = some s ∧ s.start ≤ k ∧ k ≤ s.last := by
  obtain ⟨s, hs, hstart, hlast⟩ := h.exists_mem h0 hk
  obtain ⟨i, hi⟩ := List.getElem?_of_mem hs
  refine ⟨i, ⟨s, hi, hstart, hlast⟩, ?_⟩
  rintro j ⟨t, hj, hstart', hlast'⟩
  rcases Nat.lt_trichotomy j i with hlt | heq | hgt
  · have := h.disjoint hj hi hlt
    omega
  · exact heq
  · have := h.disjoint hi hj hgt
    omega

/-! ## Lengths -/

section Lengths

variable {size n i : Nat}

/-- The segments in front of the last one have the same length. -/
theorem segment_length (hi : i + 1 ≠ n) :
    (segment size n i).last - (segment size n i).start + 1 = ((size / n : Nat) : Int) := by
  have hstep : ((i : Int) + 1) * ((size / n : Nat) : Int) =
      i * ((size / n : Nat) : Int) + ((size / n : Nat) : Int) := by ring
  simp only [segment, if_neg hi, ← Int.natCast_ediv]
  omega

/-- The last segment has the remainder on top. -/
theorem segment_length_last (hi : i + 1 = n) :
    (segment size n i).last - (segment size n i).start + 1 =
      ((size / n + size % n : Nat) : Int) := by
  have hdivide : n * (size / n) + size % n = size := Nat.div_add_mod size n
  have hstep : n * (size / n) = i * (size / n) + size / n := by
    rw [← hi, Nat.add_mul, Nat.one_mul, hi]
  have hstart : (i : Int) * ((size / n : Nat) : Int) = ((i * (size / n) : Nat) : Int) := rfl
  simp only [segment, if_pos hi, ← Int.natCast_ediv, hstart]
  omega

end Lengths

/-! ## Words -/

/-- The `i`-th of `n` segments of `per` bytes, computed in words. -/
def segmentInWords (size n per i : Int) : Option Segment := do
  let start ← Word.check (i * per)
  let final ← Word.check (n - 1)
  let last ←
    if i = final then Word.check (size - 1)
    else do
      let next ← Word.check (i + 1)
      let behind ← Word.check (next * per)
      Word.check (behind - 1)
  return { start, last }

/-- The segments of a file of positive size, computed in words. -/
def inWords (size : Int) (workers : Nat) : Option (List Segment) := do
  let asked ← Word.check (max workers 1 : Nat)
  let n := min asked size
  let per ← Word.check (size.tdiv n)
  (List.range n.toNat).mapM fun i : Nat => segmentInWords size n per i

/-- No position in a plan is greater than the size. -/
theorem segmentInWords_eq {size n i : Nat} (hn : n ≤ size) (hi : i < n)
    (hmax : (size : Int) ≤ Word.maxInt) :
    segmentInWords size n ((size / n : Nat) : Int) i = some (segment size n i) := by
  have hfits : ∀ m : Nat, m ≤ size → Word.check m = some (m : Int) := fun m hm =>
    Word.check_of_fits (Word.fits_of_le (Int.natCast_nonneg m) (Int.ofNat_le.mpr hm) hmax)
  have hper : 1 ≤ size / n := (Nat.one_le_div_iff (by omega)).mpr hn
  have hbehind : (i + 1) * (size / n) ≤ size :=
    (Nat.mul_le_mul_right _ hi).trans (Nat.mul_div_le size n)
  have hstep : (i + 1) * (size / n) = i * (size / n) + size / n := by ring
  have hstart : Word.check ((i : Int) * ((size / n : Nat) : Int)) =
      some ((i : Int) * ((size / n : Nat) : Int)) := by
    exact_mod_cast hfits (i * (size / n)) (by omega)
  have hfinal : Word.check ((n : Int) - 1) = some ((n - 1 : Nat) : Int) := by
    rw [show (n : Int) - 1 = ((n - 1 : Nat) : Int) by omega]
    exact hfits _ (by omega)
  unfold segmentInWords
  rw [hstart, hfinal]
  by_cases hlast : i + 1 = n
  · have hsize : Word.check ((size : Int) - 1) = some ((size : Int) - 1) := by
      rw [show (size : Int) - 1 = ((size - 1 : Nat) : Int) by omega]
      exact hfits _ (by omega)
    have hi' : (i : Int) = ((n - 1 : Nat) : Int) := by omega
    simp [segment, hlast, hi', hsize]
  · have hnext : Word.check ((i : Int) + 1) = some ((i + 1 : Nat) : Int) := hfits (i + 1) (by omega)
    have hproduct : Word.check (((i + 1 : Nat) : Int) * ((size / n : Nat) : Int)) =
        some (((i + 1) * (size / n) : Nat) : Int) := by
      exact_mod_cast hfits ((i + 1) * (size / n)) hbehind
    have hend : Word.check ((((i + 1) * (size / n) : Nat) : Int) - 1) =
        some ((((i + 1) * (size / n) : Nat) : Int) - 1) := by
      rw [show (((i + 1) * (size / n) : Nat) : Int) - 1 =
        (((i + 1) * (size / n) - 1 : Nat) : Int) by omega]
      exact hfits _ (by omega)
    have hi' : (i : Int) ≠ ((n - 1 : Nat) : Int) := by omega
    simp only [Option.bind_eq_bind, Option.bind_some, if_neg hi', hnext, hproduct, hend]
    simp [segment, hlast]

/-- A computation on each member of a list has a result if each of them has one. -/
theorem mapM_eq_some {α β : Type} {f : α → Option β} {g : α → β} {l : List α}
    (h : ∀ a ∈ l, f a = some (g a)) : l.mapM f = some (l.map g) := by
  induction l with
  | nil => rfl
  | cons a l ih =>
    obtain ⟨ha, hl⟩ := List.forall_mem_cons.mp h
    rw [List.mapM_cons, ha, ih hl]
    rfl

/-- Words are enough to compute the plan of a file whose size is a word. -/
theorem inWords_eq {size : Int} {workers : Nat} (hpos : 0 < size) (hmax : size ≤ Word.maxInt)
    (hworkers : workers ≤ 4294967295) :
    inWords size workers = some (fresh (some size) workers) := by
  obtain ⟨m, rfl⟩ := Int.eq_ofNat_of_zero_le (le_of_lt hpos)
  have hm : 0 < m := by omega
  have hasked : Word.check ((max workers 1 : Nat) : Int) = some ((max workers 1 : Nat) : Int) := by
    refine Word.check_of_fits ?_
    unfold Word.Fits Word.minInt Word.maxInt
    omega
  have hmin : min ((max workers 1 : Nat) : Int) (m : Int) = (count m workers : Int) := by
    unfold count
    omega
  have hdiv : (m : Int).tdiv (count m workers) = ((m / count m workers : Nat) : Int) := rfl
  have hper : Word.check ((m / count m workers : Nat) : Int) =
      some ((m / count m workers : Nat) : Int) :=
    Word.check_of_fits (Word.fits_of_le (Int.natCast_nonneg _)
      (Int.ofNat_le.mpr (Nat.div_le_self _ _)) hmax)
  have hsegments := mapM_eq_some fun i (hi : i ∈ List.range (count m workers)) =>
    segmentInWords_eq (count_le m workers) (List.mem_range.mp hi) hmax
  rw [fresh_eq hm, inWords, hasked]
  simp only [Option.bind_eq_bind, Option.bind_some, hmin, hdiv, hper, Int.toNat_natCast]
  exact hsegments

/-! ## The plan -/

/-- Segments that cut a file of `size` bytes evenly for some connections. -/
structure EvenCut (size : Int) (workers : Nat) (segments : List Segment) : Prop where
  /-- One for each connection, and at least one, but not more than bytes. -/
  length_eq : (segments.length : Int) = min (max (workers : Int) 1) size
  nonempty : ∀ s ∈ segments, s.start ≤ s.last
  bounded : ∀ s ∈ segments, s.last ≠ Segment.unboundedLast
  valid : ∀ s ∈ segments, s.IsValid
  untouched : ∀ s ∈ segments, s.committed = 0 ∧ s.session = 0
  /-- They stand in order, without a gap and without a byte in common. -/
  ordered : segments.IsChain fun s t => t.start = s.last + 1
  inside : ∀ s ∈ segments, 0 ≤ s.start ∧ s.last < size
  /-- Each byte of the file lies in exactly one of them. -/
  once : ∀ k, 0 ≤ k → k < size →
    ∃! i : Nat, ∃ s : Segment, segments[i]? = some s ∧ s.start ≤ k ∧ k ≤ s.last
  covers_iff : ∀ other, ResumeHeader.covers segments other = true ↔ other = size
  /-- All but the last have the same length. -/
  even : ∀ (i : Nat) (s : Segment), segments[i]? = some s → i + 1 < segments.length →
    s.last - s.start + 1 = size / segments.length
  /-- The last one has less than one byte for each segment on top. -/
  remainder : ∀ s, segments.getLast? = some s → size / segments.length ≤ s.last - s.start + 1 ∧
    s.last - s.start + 1 < size / segments.length + segments.length
  /-- Nothing that comes up in its computation is greater than a word. -/
  words : inWords size workers = some segments

/-- A fresh plan cuts its file evenly. -/
theorem fresh_evenCut {size : Int} {workers : Nat} (hpos : 0 < size) (hmax : size ≤ Word.maxInt)
    (hworkers : workers ≤ 4294967295) : EvenCut size workers (fresh (some size) workers) := by
  have hpartition : IsPartition size (fresh (some size) workers) :=
    isPartition_fresh hpos hmax workers
  have hwords := inWords_eq hpos hmax hworkers
  obtain ⟨m, rfl⟩ := Int.eq_ofNat_of_zero_le (le_of_lt hpos)
  have hm : 0 < m := by omega
  have hcount := count_pos hm workers
  have hlength : (fresh (some (m : Int)) workers).length = count m workers := by
    simp [fresh_eq hm]
  have hquotient : (m : Int) / (count m workers : Int) = ((m / count m workers : Nat) : Int) := rfl
  refine ⟨?_, hpartition.start_le_last, fun s hs => ne_of_lt (hpartition.bounded hs),
    hpartition.valid, fun s hs => progress_fresh hs,
    ResumeHeader.isChain_of_coversFrom hpartition.covers,
    (ResumeHeader.bounds_of_coversFrom hpartition.covers hpartition.start_le_last).2,
    fun k h0 hk => hpartition.existsUnique h0 hk, fun other => ⟨fun hother => ?_, ?_⟩, ?_, ?_,
    hwords⟩
  · rw [hlength]
    unfold count
    omega
  · exact ResumeHeader.coversFrom_unique hother hpartition.covers
  · rintro rfl
    exact hpartition.covers
  · intro i s hs hi
    rw [hlength] at hi ⊢
    rw [fresh_eq hm, List.getElem?_map, List.getElem?_range (by omega)] at hs
    obtain rfl := Option.some.inj hs
    rw [segment_length (by omega), hquotient]
  · intro s hs
    have hlast : count m workers - 1 + 1 = count m workers := by omega
    rw [fresh_eq hm, List.getLast?_map, List.getLast?_range, if_neg (by omega)] at hs
    obtain rfl := Option.some.inj hs
    have hmod : m % count m workers < count m workers := Nat.mod_lt m hcount
    rw [hlength, segment_length_last hlast, hquotient]
    omega

/-- Three connections for the largest file there is. -/
theorem fresh_evenCut_largest :
    EvenCut 9223372036854775807 3 (fresh (some 9223372036854775807) 3) ∧
      fresh (some 9223372036854775807) 3 =
        [⟨0, 3074457345618258601, 0, 0⟩, ⟨3074457345618258602, 6148914691236517203, 0, 0⟩,
          ⟨6148914691236517204, 9223372036854775806, 0, 0⟩] :=
  ⟨fresh_evenCut (by decide) (by decide) (by decide), by decide⟩

end Plan

end SegmentedDownload
