import Mathlib
import SegmentedDownload.Plan
import SegmentedDownload.ResumeHeader

/-!
# SegmentedDownload.Proofs.Partition

Segments as a partition of a file.

* `Plan.IsPartition size segments` is what every table of known size holds:
  valid segments, in order and without a gap.  Segments of a partition are
  disjoint, they contain every byte, and their progress adds up to the size
  exactly when each of them is full (`sum_session_eq_iff`).
* `Plan.fresh` makes a partition with nothing committed.
* `Plan.resume` lists the incomplete segments of a partition; the ranges that
  it asks for are disjoint again.
-/

namespace SegmentedDownload

namespace Segment

/-- Every byte of the range is on disk. -/
def IsFull (s : Segment) : Prop := s.session = s.last - s.start + 1

instance (s : Segment) : Decidable s.IsFull := inferInstanceAs (Decidable (_ = _))

end Segment

namespace ResumeHeader

/-! ## Covering -/

variable {next size : Int} {segments : List Segment}

/-- The first segment begins where the file does, and the others cover the rest. -/
theorem coversFrom_cons {s : Segment} {rest : List Segment} :
    coversFrom next size (s :: rest) = true ↔
      s.start = next ∧ coversFrom (s.last + 1) size rest = true := by
  simp [coversFrom]

/-- Segments cover a file of one size only. -/
theorem coversFrom_unique {size' : Int} (h : coversFrom next size segments = true)
    (h' : coversFrom next size' segments = true) : size = size' := by
  induction segments generalizing next with
  | nil =>
    simp only [coversFrom, beq_iff_eq] at h h'
    omega
  | cons s segments ih => exact ih (coversFrom_cons.mp h).2 (coversFrom_cons.mp h').2

/-- Covering segments lie between the position before them and the size. -/
theorem bounds_of_coversFrom (h : coversFrom next size segments = true)
    (hv : ∀ s ∈ segments, s.start ≤ s.last) :
    next ≤ size ∧ ∀ s ∈ segments, next ≤ s.start ∧ s.last < size := by
  induction segments generalizing next with
  | nil =>
    have hnext : next = size := by simpa [coversFrom] using h
    exact ⟨hnext ▸ le_refl _, by simp⟩
  | cons s rest ih =>
    obtain ⟨hstart, hrest⟩ := coversFrom_cons.mp h
    have hs := hv s List.mem_cons_self
    obtain ⟨hle, hall⟩ := ih hrest fun t ht => hv t (List.mem_cons_of_mem s ht)
    refine ⟨by omega, fun t ht => ?_⟩
    rcases List.mem_cons.mp ht with rfl | ht
    · omega
    · have := hall t ht
      omega

/-- Bounded segments cover a file whose size is bounded. -/
theorem size_le_of_coversFrom {bound : Int} (h : coversFrom next size segments = true)
    (hnext : next ≤ bound) (hlast : ∀ s ∈ segments, s.last < bound) : size ≤ bound := by
  induction segments generalizing next with
  | nil =>
    have heq : next = size := by simpa [coversFrom] using h
    exact heq ▸ hnext
  | cons s rest ih =>
    obtain ⟨hs, hrest⟩ := List.forall_mem_cons.mp hlast
    exact ih (coversFrom_cons.mp h).2 (Int.add_one_le_of_lt hs) hrest

/-- Of two covering segments, one ends before the other begins. -/
theorem pairwise_of_coversFrom (h : coversFrom next size segments = true)
    (hv : ∀ s ∈ segments, s.start ≤ s.last) :
    segments.Pairwise fun s t => s.last < t.start := by
  induction segments generalizing next with
  | nil => exact List.Pairwise.nil
  | cons s rest ih =>
    obtain ⟨-, hrest⟩ := coversFrom_cons.mp h
    have hv' : ∀ t ∈ rest, t.start ≤ t.last := fun t ht => hv t (List.mem_cons_of_mem s ht)
    refine List.Pairwise.cons (fun t ht => ?_) (ih hrest hv')
    have := ((bounds_of_coversFrom hrest hv').2 t ht).1
    omega

/-- There are no more covering segments than bytes. -/
theorem length_of_coversFrom (h : coversFrom next size segments = true)
    (hv : ∀ s ∈ segments, s.start ≤ s.last) : (segments.length : Int) ≤ size - next := by
  induction segments generalizing next with
  | nil =>
    have : next = size := by simpa [coversFrom] using h
    simp [this]
  | cons s rest ih =>
    obtain ⟨hstart, hrest⟩ := coversFrom_cons.mp h
    have hs := hv s List.mem_cons_self
    have hlength := ih hrest fun t ht => hv t (List.mem_cons_of_mem s ht)
    rw [List.length_cons]
    omega

/-- Covering segments leave no byte out. -/
theorem exists_of_coversFrom (h : coversFrom next size segments = true) {k : Int}
    (hnext : next ≤ k) (hsize : k < size) : ∃ s ∈ segments, s.start ≤ k ∧ k ≤ s.last := by
  induction segments generalizing next with
  | nil =>
    have : next = size := by simpa [coversFrom] using h
    omega
  | cons s rest ih =>
    obtain ⟨hstart, hrest⟩ := coversFrom_cons.mp h
    by_cases hk : k ≤ s.last
    · exact ⟨s, List.mem_cons_self, by omega, hk⟩
    · obtain ⟨t, ht, hrange⟩ := ih hrest (by omega)
      exact ⟨t, List.mem_cons_of_mem s ht, hrange⟩

/-- The lengths of covering segments add up to the length of what they cover. -/
theorem sum_length_of_coversFrom (h : coversFrom next size segments = true) :
    (segments.map fun s => s.last - s.start + 1).sum = size - next := by
  induction segments generalizing next with
  | nil =>
    have : next = size := by simpa [coversFrom] using h
    simp [this]
  | cons s rest ih =>
    obtain ⟨hstart, hrest⟩ := coversFrom_cons.mp h
    rw [List.map_cons, List.sum_cons, ih hrest]
    omega

/-- The progress of covering segments adds up to at most the length of what they
cover, and to exactly that if and only if each of them is full. -/
theorem sum_session_of_coversFrom (h : coversFrom next size segments = true)
    (hs : ∀ s ∈ segments, s.session ≤ s.last - s.start + 1) :
    segments.foldr (fun s n => s.session + n) 0 ≤ size - next ∧
      (segments.foldr (fun s n => s.session + n) 0 = size - next ↔
        ∀ s ∈ segments, s.IsFull) := by
  induction segments generalizing next with
  | nil =>
    have : next = size := by simpa [coversFrom] using h
    simp [this]
  | cons s rest ih =>
    obtain ⟨hstart, hrest⟩ := coversFrom_cons.mp h
    have hle := hs s List.mem_cons_self
    obtain ⟨hsum, hiff⟩ := ih hrest fun t ht => hs t (List.mem_cons_of_mem s ht)
    rw [List.foldr_cons, List.forall_mem_cons, ← hiff]
    unfold Segment.IsFull
    constructor
    · omega
    · constructor <;> intro <;> omega

end ResumeHeader

namespace Plan

/-! ## Partitions -/

/-- The segments partition a file of `size` bytes, and the size is a word. -/
structure IsPartition (size : Int) (segments : List Segment) : Prop where
  valid : ∀ s ∈ segments, s.IsValid
  covers : ResumeHeader.covers segments size = true
  size_le : size ≤ Word.maxInt

namespace IsPartition

variable {size : Int} {segments : List Segment}

theorem start_le_last (h : IsPartition size segments) : ∀ s ∈ segments, s.start ≤ s.last :=
  fun s hs => (h.valid s hs).2.1

theorem last_lt (h : IsPartition size segments) {s : Segment} (hs : s ∈ segments) :
    s.last < size :=
  ((ResumeHeader.bounds_of_coversFrom h.covers h.start_le_last).2 s hs).2

/-- A file has no more segments than bytes. -/
theorem length_le (h : IsPartition size segments) : (segments.length : Int) ≤ size := by
  have hlength := ResumeHeader.length_of_coversFrom h.covers h.start_le_last
  rwa [Int.sub_zero] at hlength

/-- No segment of a partition is unbounded. -/
theorem bounded (h : IsPartition size segments) {s : Segment} (hs : s ∈ segments) :
    s.last < Segment.unboundedLast :=
  lt_of_lt_of_le (h.last_lt hs) h.size_le

/-- Every segment ends before the next ones begin. -/
theorem pairwise (h : IsPartition size segments) :
    segments.Pairwise fun s t => s.last < t.start :=
  ResumeHeader.pairwise_of_coversFrom h.covers h.start_le_last

/-- Every byte is in a segment. -/
theorem exists_mem (h : IsPartition size segments) {k : Int} (h0 : 0 ≤ k) (hk : k < size) :
    ∃ s ∈ segments, s.start ≤ k ∧ k ≤ s.last :=
  ResumeHeader.exists_of_coversFrom h.covers h0 hk

/-- The progress of all segments is the size if and only if every segment is full. -/
theorem sum_session_eq_iff (h : IsPartition size segments)
    (hs : ∀ s ∈ segments, s.session ≤ s.last - s.start + 1) :
    segments.foldr (fun s n => s.session + n) 0 = size ↔ ∀ s ∈ segments, s.IsFull := by
  have := (ResumeHeader.sum_session_of_coversFrom h.covers hs).2
  rwa [Int.sub_zero] at this

/-- Two segments at different positions of a partition have no byte in common. -/
theorem disjoint (h : IsPartition size segments) {i j : Nat} {s t : Segment}
    (hs : segments[i]? = some s) (ht : segments[j]? = some t) (hij : i < j) :
    s.last < t.start := by
  obtain ⟨hi, rfl⟩ := List.getElem?_eq_some_iff.mp hs
  obtain ⟨hj, rfl⟩ := List.getElem?_eq_some_iff.mp ht
  exact List.pairwise_iff_getElem.mp h.pairwise i j hi hj hij

end IsPartition

/-- Segments that differ only in their session progress partition the same file. -/
theorem IsPartition.congr {size : Int} {segments segments' : List Segment}
    (h : IsPartition size segments)
    (heq : segments'.map Segment.begin = segments.map Segment.begin) :
    IsPartition size segments' := by
  have hcovers : ∀ next (segments : List Segment),
      ResumeHeader.coversFrom next size (segments.map Segment.begin) =
        ResumeHeader.coversFrom next size segments := by
    intro next segments
    induction segments generalizing next with
    | nil => rfl
    | cons s rest ih => exact congrArg (s.start == next && ·) (ih _)
  refine ⟨fun s' hs' => ?_, ?_, h.size_le⟩
  · have hmem : s'.begin ∈ segments.map Segment.begin := heq ▸ List.mem_map_of_mem hs'
    obtain ⟨s, hs, hbegin⟩ := List.mem_map.mp hmem
    have hvalid : s.begin.IsValid := h.valid s hs
    rw [hbegin] at hvalid
    exact hvalid
  · rw [ResumeHeader.covers, ← hcovers, heq, hcovers]
    exact h.covers

/-- The beginning of a run does not change what the segments are. -/
theorem map_begin_begin (segments : List Segment) :
    (segments.map Segment.begin).map Segment.begin = segments.map Segment.begin := by
  simp [Segment.begin]

/-- One segment partitions the whole file. -/
theorem isPartition_whole {size : Int} (hpos : 0 < size) (hmax : size ≤ Word.maxInt) :
    IsPartition size [{ start := 0, last := size - 1 }] := by
  refine ⟨?_, ?_, hmax⟩
  · intro s hs
    rw [List.mem_singleton.mp hs]
    simp only [Segment.IsValid, Word.maxInt] at hmax ⊢
    omega
  · simp [ResumeHeader.covers, ResumeHeader.coversFrom]

/-! ## Fresh plans -/

section Fresh

variable {size n i : Nat}

/-- Every segment of a fresh plan is valid. -/
theorem segment_valid (hn : n ≤ size) (hi : i < n) (hmax : (size : Int) ≤ Word.maxInt) :
    (segment size n i).IsValid := by
  have hper : 1 ≤ size / n := (Nat.one_le_div_iff (by omega)).mpr hn
  have hmul : n * (size / n) ≤ size := Nat.mul_div_le size n
  have hstep : (i + 1) * (size / n) = i * (size / n) + size / n := by ring
  have hle : (i + 1) * (size / n) ≤ n * (size / n) := Nat.mul_le_mul_right _ (by omega)
  have hstart : (segment size n i).start = ((i * (size / n) : Nat) : Int) := by
    simp [segment]
  have hlast : (segment size n i).last =
      if i + 1 = n then (size : Int) - 1 else (((i + 1) * (size / n) : Nat) : Int) - 1 := by
    simp [segment]
  have hcommitted : (segment size n i).committed = 0 := rfl
  unfold Segment.IsValid
  rw [hstart, hlast, hcommitted]
  simp only [Word.maxInt] at hmax ⊢
  split <;> omega

/-- The segments of a fresh plan from the `i`-th on cover the rest of the file. -/
theorem coversFrom_segments (hi : i + m = n) :
    ResumeHeader.coversFrom (if i = n then (size : Int) else i * (size / n)) size
      ((List.range' i m).map (segment size n)) = true := by
  induction m generalizing i with
  | zero =>
    rw [if_pos (by omega)]
    simp [ResumeHeader.coversFrom]
  | succ m ih =>
    rw [List.range'_succ, List.map_cons, ResumeHeader.coversFrom_cons, if_neg (by omega)]
    refine ⟨rfl, ?_⟩
    have hrest := ih (i := i + 1) (by omega)
    have hlast : (segment size n i).last + 1 =
        if i + 1 = n then (size : Int) else ((i + 1 : Nat) : Int) * (size / n) := by
      unfold segment
      dsimp only
      split
      · omega
      · push_cast
        omega
    rwa [hlast]

end Fresh

theorem count_le (size workers : Nat) : count size workers ≤ size := Nat.min_le_right _ _

theorem count_pos {size : Nat} (hpos : 0 < size) (workers : Nat) : 0 < count size workers := by
  unfold count
  omega

/-- The segments of a fresh plan, one by one. -/
theorem fresh_eq {size : Nat} (hpos : 0 < size) (workers : Nat) :
    fresh (some (size : Int)) workers =
      (List.range (count size workers)).map (segment size (count size workers)) := by
  have hpos' : 0 < (size : Int) := by omega
  simp only [fresh, if_pos hpos', Int.toNat_natCast]

/-- A fresh plan partitions the file. -/
theorem isPartition_fresh {size : Int} (hpos : 0 < size) (hmax : size ≤ Word.maxInt)
    (workers : Nat) : IsPartition size (fresh (some size) workers) := by
  obtain ⟨n, rfl⟩ := Int.eq_ofNat_of_zero_le (le_of_lt hpos)
  have hn : 0 < n := by omega
  have hcount : count n workers ≤ n := count_le n workers
  have hcount' : 0 < count n workers := count_pos hn workers
  rw [fresh_eq hn]
  refine ⟨?_, ?_, hmax⟩
  · intro s hs
    obtain ⟨i, hi, rfl⟩ := List.mem_map.mp hs
    exact segment_valid hcount (List.mem_range.mp hi) hmax
  · have h : ResumeHeader.coversFrom (if 0 = count n workers then (n : Int)
        else (0 : Nat) * (n / count n workers)) n
        ((List.range' 0 (count n workers)).map (segment n (count n workers))) = true :=
      coversFrom_segments (Nat.zero_add _)
    rw [if_neg (by omega)] at h
    rw [List.range_eq_range', ResumeHeader.covers]
    simpa using h

/-- Nothing of a fresh plan is committed yet. -/
theorem progress_fresh {size? : Option Int} {workers : Nat} {s : Segment}
    (hs : s ∈ fresh size? workers) : s.committed = 0 ∧ s.session = 0 := by
  unfold fresh at hs
  split at hs
  · split at hs
    · obtain ⟨i, -, rfl⟩ := List.mem_map.mp hs
      exact ⟨rfl, rfl⟩
    · rw [List.mem_singleton.mp hs]
      exact ⟨rfl, rfl⟩
  · rw [List.mem_singleton.mp hs]
    exact ⟨rfl, rfl⟩

/-! ## Resuming -/

/-- The slots of a plan stand for its incomplete segments, at their positions. -/
theorem mem_resumeFrom {index : Nat} {segments : List Segment} {slot : Slot} :
    slot ∈ resumeFrom index segments ↔
      ∃ i s, segments[i]? = some s ∧ s.isComplete = false ∧ slot = Plan.slot (index + i) s := by
  induction segments generalizing index with
  | nil => simp [resumeFrom]
  | cons s rest ih =>
    have hrest : slot ∈ resumeFrom (index + 1) rest ↔ ∃ i t, (s :: rest)[i + 1]? = some t ∧
        t.isComplete = false ∧ slot = Plan.slot (index + (i + 1)) t := by
      simp only [ih, List.getElem?_cons_succ, Nat.add_assoc, Nat.add_comm 1]
    unfold resumeFrom
    constructor
    · intro h
      split at h
      · obtain ⟨i, t, ht⟩ := hrest.mp h
        exact ⟨i + 1, t, ht⟩
      · next hs =>
        rcases List.mem_cons.mp h with rfl | h
        · exact ⟨0, s, rfl, by simpa using hs, rfl⟩
        · obtain ⟨i, t, ht⟩ := hrest.mp h
          exact ⟨i + 1, t, ht⟩
    · rintro ⟨i, t, ht, hc, rfl⟩
      cases i with
      | zero =>
        obtain rfl : s = t := by simpa using ht
        simp [hc]
      | succ i =>
        have h := hrest.mpr ⟨i, t, ht, hc, rfl⟩
        split
        · exact h
        · exact List.mem_cons_of_mem _ h

/-- A slot is that of a segment which is not complete. -/
theorem mem_resume {segments : List Segment} {slot : Slot} :
    slot ∈ resume segments ↔
      ∃ i s, segments[i]? = some s ∧ s.isComplete = false ∧ slot = Plan.slot i s := by
  rw [resume, mem_resumeFrom]
  simp only [Nat.zero_add]

/-- There is nothing to ask for just if all segments are complete. -/
theorem resume_eq_nil_iff {segments : List Segment} :
    resume segments = [] ↔ ∀ s ∈ segments, s.isComplete = true := by
  constructor
  · intro hnil s hs
    obtain ⟨i, hi⟩ := List.mem_iff_getElem?.mp hs
    by_contra hincomplete
    have hslot : slot i s ∈ resume segments :=
      mem_resume.mpr ⟨i, s, hi, Bool.eq_false_iff.mpr hincomplete, rfl⟩
    rw [hnil] at hslot
    contradiction
  · intro hcomplete
    refine List.eq_nil_iff_forall_not_mem.mpr fun slot hslot => ?_
    obtain ⟨i, s, hs, hincomplete, -⟩ := mem_resume.mp hslot
    rw [hcomplete s (List.mem_of_getElem? hs)] at hincomplete
    contradiction

/-- Slots come in the order of their segments. -/
theorem pairwise_resumeFrom {index : Nat} {segments : List Segment} :
    (resumeFrom index segments).Pairwise fun a b => a.index < b.index := by
  induction segments generalizing index with
  | nil => exact List.Pairwise.nil
  | cons s rest ih =>
    unfold resumeFrom
    split
    · exact ih
    · refine List.Pairwise.cons (fun slot h => ?_) ih
      obtain ⟨i, t, -, -, rfl⟩ := mem_resumeFrom.mp h
      simp only [slot]
      omega

theorem pairwise_resume {segments : List Segment} :
    (resume segments).Pairwise fun a b => a.index < b.index :=
  pairwise_resumeFrom

end Plan

/-- A slot whose request lies in its segment, all of it made of words. -/
structure Slot.IsSound (slot : Slot) : Prop where
  start_nonneg : 0 ≤ slot.start
  start_le : slot.start ≤ slot.resumeStart
  resumeStart_le : slot.resumeStart ≤ slot.last
  last_le : slot.last ≤ Word.maxInt

theorem Slot.IsSound.resumeStart_nonneg {slot : Slot} (h : slot.IsSound) : 0 ≤ slot.resumeStart :=
  h.start_nonneg.trans h.start_le

namespace Plan

/-- The slot of a valid segment is sound. -/
theorem slot_isSound {s : Segment} (h : s.IsValid) (index : Nat) : (slot index s).IsSound := by
  obtain ⟨h0, hle, hmax, hc, hreach⟩ := h
  refine ⟨h0, ?_, ?_, hmax⟩
  · simp only [slot, resumeStart]
    omega
  · simp only [slot, resumeStart]
    omega

/-- The request of a segment begins at its last committed byte, or where its
committed bytes end when there are none. -/
theorem resumeStart_bounds {s : Segment} (h : 0 ≤ s.committed) :
    s.start + s.committed - 1 ≤ resumeStart s ∧ resumeStart s ≤ s.start + s.committed := by
  unfold resumeStart
  omega

/-- What two slots of a partition ask for has no byte in common. -/
theorem pairwise_ranges {size : Int} {segments : List Segment}
    (h : IsPartition size segments) :
    (resume segments).Pairwise fun a b => a.last < b.resumeStart := by
  refine pairwise_resume.imp_of_mem ?_
  intro a b ha hb hab
  obtain ⟨i, s, hs, -, rfl⟩ := mem_resume.mp ha
  obtain ⟨j, t, ht, -, rfl⟩ := mem_resume.mp hb
  have hdisjoint : s.last < t.start := h.disjoint hs ht hab
  have hsound := (slot_isSound (h.valid t (List.mem_of_getElem? ht)) j).start_le
  exact lt_of_lt_of_le hdisjoint hsound

end Plan

end SegmentedDownload
