import Mathlib
import SegmentedDownload.Proofs.OnDisk

/-!
# SegmentedDownload.Proofs.Requests

A resumed run asks for what is missing, and for one byte more in each segment that has begun.

* The slots of a plan are its incomplete segments, in order (`resumeFrom_eq`).
* What a slot asks for and what its segment has committed meet in the last committed byte, if there
  is one, and leave no byte of the segment out (`slot_asks_and_holds`, `slot_asks_or_holds`).
* The bytes that are asked for add up to what is missing and the bytes that are fetched again
  (`requested_of_coversFrom`).

`Plan.Resumes` puts this together for a plan.  A run of a table that was not planned for it keeps
its slots to its end (`run_slots`), so it sends one request for each of them (`run_resumed`).
-/

namespace SegmentedDownload

namespace Segment

variable {s : Segment}

/-- Some byte of the range is not committed yet. -/
def IsIncomplete (s : Segment) : Prop := s.committed < s.last - s.start + 1

instance (s : Segment) : Decidable s.IsIncomplete := inferInstanceAs (Decidable (_ < _))

/-- The byte is committed. -/
def Holds (s : Segment) (k : Int) : Prop := s.start ≤ k ∧ k < s.start + s.committed

/-- A segment is not complete while bytes of it are missing. -/
theorem not_isComplete_iff (hvalid : s.IsValid) (hbounded : s.last < unboundedLast) :
    s.isComplete = false ↔ s.IsIncomplete := by
  rw [← Bool.not_eq_true, isComplete_iff hbounded, IsIncomplete]
  have := hvalid.committed_le
  omega

end Segment

/-- The byte is asked for. -/
def Slot.Asks (slot : Slot) (k : Int) : Prop := slot.resumeStart ≤ k ∧ k ≤ slot.last

namespace Plan

/-! ## Slots -/

/-- The slots of a plan stand for its incomplete segments, in their order. -/
theorem resumeFrom_eq {segments : List Segment} (hvalid : ∀ s ∈ segments, s.IsValid)
    (hbounded : ∀ s ∈ segments, s.last < Segment.unboundedLast) (index : Nat) :
    resumeFrom index segments =
      ((segments.zipIdx index).filter fun e => e.1.IsIncomplete).map fun e => slot e.2 e.1 := by
  induction segments generalizing index with
  | nil => rfl
  | cons s rest ih =>
    obtain ⟨hs, hrest⟩ := List.forall_mem_cons.mp hvalid
    obtain ⟨hs', hrest'⟩ := List.forall_mem_cons.mp hbounded
    have hiff := Segment.not_isComplete_iff hs hs'
    rw [resumeFrom, ih hrest hrest', List.zipIdx_cons, List.filter_cons]
    by_cases hincomplete : s.IsIncomplete
    · simp [hiff.mpr hincomplete, hincomplete]
    · have hcomplete : s.isComplete = true := by
        rw [← Bool.not_eq_false, hiff]
        exact hincomplete
      simp [hcomplete, hincomplete]

/-- Where a plan is continued depends on the committed progress only. -/
theorem resumeFrom_map_begin (index : Nat) (segments : List Segment) :
    resumeFrom index (segments.map Segment.begin) = resumeFrom index segments := by
  induction segments generalizing index with
  | nil => rfl
  | cons s rest ih =>
    rw [List.map_cons, resumeFrom, resumeFrom, ih]
    rfl

/-- Beginning a session does not change what is asked for. -/
theorem resume_map_begin (segments : List Segment) :
    resume (segments.map Segment.begin) = resume segments :=
  resumeFrom_map_begin 0 segments

/-! ## Bytes -/

section Bytes

variable {s : Segment} {index : Nat} {k : Int}

/-- A slot asks for a byte of its segment. -/
theorem slot_asks (hvalid : s.IsValid) : (slot index s).Asks (slot index s).last := by
  have hle := (slot_isSound hvalid index).resumeStart_le
  exact ⟨hle, le_refl _⟩

/-- What a slot asks for and what is committed meet in the last committed byte. -/
theorem slot_asks_and_holds (hvalid : s.IsValid) :
    (slot index s).Asks k ∧ s.Holds k ↔ 1 ≤ s.committed ∧ k = s.start + s.committed - 1 := by
  have hcommitted := hvalid.committed_le
  obtain ⟨-, hle, -, hnonneg, -⟩ := hvalid
  simp only [Slot.Asks, Segment.Holds, slot, resumeStart]
  omega

/-- What is not committed is asked for. -/
theorem slot_asks_or_holds (hvalid : s.IsValid) (hstart : s.start ≤ k) (hlast : k ≤ s.last) :
    s.Holds k ∨ (slot index s).Asks k := by
  obtain ⟨-, -, -, hnonneg, -⟩ := hvalid
  simp only [Slot.Asks, Segment.Holds, slot, resumeStart]
  omega

end Bytes

/-! ## Amounts -/

/-- How many bytes are asked for. -/
def requested (slots : List Slot) : Int :=
  (slots.map fun slot => slot.last - slot.resumeStart + 1).sum

/-- How many bytes are committed. -/
def committed (segments : List Segment) : Int := (segments.map (·.committed)).sum

/-- How many segments have begun, and are incomplete. -/
def begun (segments : List Segment) : Nat :=
  segments.countP fun s => 1 ≤ s.committed ∧ s.IsIncomplete

/-- Each segment that has begun asks for one byte again. -/
theorem requested_of_coversFrom {next size : Int} {segments : List Segment}
    (hcovers : ResumeHeader.coversFrom next size segments = true)
    (hvalid : ∀ s ∈ segments, s.IsValid)
    (hbounded : ∀ s ∈ segments, s.last < Segment.unboundedLast) (index : Nat) :
    requested (resumeFrom index segments) =
      size - next - committed segments + begun segments := by
  induction segments generalizing next index with
  | nil =>
    have hnext : next = size := by simpa [ResumeHeader.coversFrom] using hcovers
    simp [resumeFrom, requested, committed, begun, hnext]
  | cons s rest ih =>
    obtain ⟨hstart, hcovers⟩ := ResumeHeader.coversFrom_cons.mp hcovers
    obtain ⟨hs, hrest⟩ := List.forall_mem_cons.mp hvalid
    obtain ⟨hs', hrest'⟩ := List.forall_mem_cons.mp hbounded
    have hsum := ih hcovers hrest hrest' (index + 1)
    have hiff := Segment.not_isComplete_iff hs hs'
    have hcommitted := hs.committed_le
    obtain ⟨-, hle, -, hnonneg, -⟩ := hs
    have hall : committed (s :: rest) = s.committed + committed rest := by
      simp [committed]
    have hcount : begun (s :: rest) =
        begun rest + if 1 ≤ s.committed ∧ s.IsIncomplete then 1 else 0 := by
      simp [begun, List.countP_cons]
    rw [hall, hcount, resumeFrom]
    by_cases hincomplete : s.IsIncomplete
    · rw [if_neg (by rw [hiff.mpr hincomplete]; exact Bool.false_ne_true)]
      have hslot : requested (slot index s :: resumeFrom (index + 1) rest) =
          s.last - resumeStart s + 1 + requested (resumeFrom (index + 1) rest) := rfl
      rw [hslot, hsum, resumeStart]
      unfold Segment.IsIncomplete at hincomplete ⊢
      split <;> omega
    · have hcomplete : s.isComplete = true := by
        rw [← Bool.not_eq_false, hiff]
        exact hincomplete
      rw [if_pos hcomplete, hsum]
      unfold Segment.IsIncomplete at hincomplete ⊢
      rw [if_neg (by omega)]
      omega

/-! ## Plans -/

/-- Bounded segments cover a file whose size is a word. -/
theorem isPartition_of_bounded {size : Int} {segments : List Segment}
    (hvalid : ∀ s ∈ segments, s.IsValid) (hbounded : ∀ s ∈ segments, s.last ≠ Segment.unboundedLast)
    (hcovers : ResumeHeader.covers segments size = true) : IsPartition size segments := by
  refine ⟨hvalid, hcovers, ?_⟩
  refine ResumeHeader.size_le_of_coversFrom hcovers (by decide) fun s hs => ?_
  have hmax := (hvalid s hs).2.2.1
  have hne : s.last ≠ Word.maxInt := hbounded s hs
  omega

/-- Slots that ask for what is missing of some segments, and for one byte more in each that has
begun. -/
structure Resumes (size : Int) (segments : List Segment) (slots : List Slot) : Prop where
  /-- There is one for each incomplete segment, in order. -/
  slots_eq : slots =
    (segments.zipIdx.filter fun e => e.1.IsIncomplete).map fun e => slot e.2 e.1
  /-- Each asks for something, inside of its own segment. -/
  inside : ∀ slot ∈ slots, ∃ s, segments[slot.index]? = some s ∧ (∃ k, slot.Asks k) ∧
    ∀ k, slot.Asks k → s.start ≤ k ∧ k ≤ s.last
  disjoint : slots.Pairwise fun a b => ∀ k, ¬ (a.Asks k ∧ b.Asks k)
  /-- Each byte of the file is committed or asked for. -/
  complete : ∀ k, 0 ≤ k → k < size → (∃ s ∈ segments, s.Holds k) ∨ ∃ slot ∈ slots, slot.Asks k
  /-- A slot asks for one byte that its segment has, if it has any. -/
  overlap : ∀ slot ∈ slots, ∀ s, segments[slot.index]? = some s → ∀ k,
    slot.Asks k ∧ s.Holds k ↔ 1 ≤ s.committed ∧ k = s.start + s.committed - 1
  requested_eq : requested slots = size - committed segments + begun segments

/-- A plan is continued with what is missing of it. -/
theorem resume_resumes {size : Int} {segments : List Segment} (h : IsPartition size segments) :
    Resumes size segments (resume segments) := by
  have hbounded : ∀ s ∈ segments, s.last < Segment.unboundedLast := fun s hs => h.bounded hs
  have hrequested := requested_of_coversFrom h.covers h.valid hbounded 0
  rw [Int.sub_zero] at hrequested
  refine ⟨resumeFrom_eq h.valid hbounded 0, ?_, ?_, ?_, ?_, hrequested⟩
  · intro slot hslot
    obtain ⟨i, s, hs, -, rfl⟩ := mem_resume.mp hslot
    have hvalid := h.valid s (List.mem_of_getElem? hs)
    have hsound := slot_isSound hvalid i
    refine ⟨s, hs, ⟨_, slot_asks hvalid⟩, ?_⟩
    rintro k ⟨hfirst, hlast⟩
    exact ⟨hsound.start_le.trans hfirst, hlast⟩
  · refine (pairwise_ranges h).imp ?_
    rintro a b hab k ⟨⟨-, hlast⟩, ⟨hfirst, -⟩⟩
    omega
  · intro k h0 hk
    obtain ⟨s, hs, hstart, hlast⟩ := h.exists_mem h0 hk
    obtain ⟨i, hi⟩ := List.getElem?_of_mem hs
    have hvalid := h.valid s hs
    by_cases hheld : s.Holds k
    · exact Or.inl ⟨s, hs, hheld⟩
    · have hincomplete : s.IsIncomplete := by
        obtain ⟨-, -, -, hnonneg, -⟩ := hvalid
        simp only [Segment.Holds, Segment.IsIncomplete] at hheld ⊢
        omega
      refine Or.inr ⟨slot i s, mem_resume.mpr ⟨i, s, hi, ?_, rfl⟩, ?_⟩
      · exact (Segment.not_isComplete_iff hvalid (h.bounded hs)).mpr hincomplete
      · exact (slot_asks_or_holds hvalid hstart hlast).resolve_left hheld
  · intro slot hslot s hs k
    obtain ⟨i, s', hs', -, rfl⟩ := mem_resume.mp hslot
    obtain rfl : s' = s := Option.some.inj (hs'.symm.trans hs)
    exact slot_asks_and_holds (h.valid s' (List.mem_of_getElem? hs'))

end Plan

namespace Transfer

variable {table : Table} {p : PartialFile} {reporter : Reporter} {course : Course}

/-! ## Runs -/

/-- There is a worker for each slot of the plan. -/
theorem begin_slots (table : Table) (p : PartialFile) (reporter : Reporter) :
    (begin table p reporter).workers.map (·.slot) = Plan.resume table.begin.segments := by
  simp [Transfer.begin, request, Function.comp_def]

/-- A table that was not planned for the run keeps its slots to the end. -/
theorem run_slots (hfresh : table.isFresh = false) :
    (run table p reporter course).2.workers.map (·.slot) = Plan.resume table.begin.segments := by
  have hbegin := begin_slots table p reporter
  have haccepted : ∀ {replies t₁}, (begin table p reporter).accept replies = .ok t₁ →
      t₁.workers.map (·.slot) = Plan.resume table.begin.segments := by
    intro replies t₁ haccept
    cases accept_accepts haccept with
    | whole _ _ _ _ hfresh' _ _ =>
      have hfresh' : table.isFresh = true := hfresh'
      rw [hfresh] at hfresh'
      contradiction
    | each workers hall => exact (acceptAll_slots hall).trans hbegin
  have hends := run_ends table p reporter course
  generalize (run table p reporter course).1 = outcome at hends
  generalize (run table p reporter course).2 = t at hends ⊢
  cases hends with
  | unanswered _ => exact hbegin
  | rejected _ _ _ _ => exact hbegin
  | unprepared _ t₁ _ _ _ haccept hprepare =>
    rw [(prepare_eq hprepare).2.1]
    exact haccepted haccept
  | closed _ t₁ t₀ _ _ _ haccept hprepare hclose =>
    have hready : t₀.workers.map (·.slot) = Plan.resume table.begin.segments := by
      rw [(prepare_eq hprepare).2.1]
      exact haccepted haccept
    have hslots := ((onDisk_ready haccept hprepare).stream course.incidents).flushAll.slots_eq
    rw [hready] at hslots
    cases close_closes hclose with
    | completed _ _ => exact hslots
    | failed _ _ | interrupted _ _ | incomplete _ _ _ =>
      rw [checkpoint_workers]
      exact hslots

/-- The request of a segment, which ends where the segment does. -/
theorem range_slot {s : Segment} (hbounded : s.last < Segment.unboundedLast) (index : Nat) :
    (request (Plan.slot index s)).range? =
      some s!"bytes={max s.start (s.start + s.committed - 1)}-{s.last}" := by
  have hunbounded : (request (Plan.slot index s)).isUnbounded = false :=
    beq_eq_false_iff_ne.mpr (ne_of_lt hbounded)
  rw [Worker.range?, if_neg (by rw [hunbounded]; exact Bool.false_ne_true), max_comm]
  rfl

/-- What is asked for is the rest of each incomplete segment. -/
theorem ranges_of_slots {size : Int} {segments : List Segment}
    (hpartition : Plan.IsPartition size segments) {t : Transfer}
    (hslots : t.workers.map (·.slot) = Plan.resume segments) :
    t.ranges = (segments.filter (·.IsIncomplete)).map fun s =>
      some s!"bytes={max s.start (s.start + s.committed - 1)}-{s.last}" := by
  rw [ranges_eq, hslots, (Plan.resume_resumes hpartition).slots_eq, List.map_map]
  conv_rhs => rw [← List.zipIdx_map_fst 0 segments, List.filter_map, List.map_map]
  refine List.map_congr_left fun e he => ?_
  have hmem : e.1 ∈ segments :=
    List.mem_of_getElem? (List.mem_zipIdx_iff_getElem?.mp (List.mem_filter.mp he).1)
  exact range_slot (hpartition.bounded hmem) e.2

/-- A resumed run that gets its replies asked for the rest of each incomplete segment, from its last
committed byte on, and for nothing else: it begins with these requests and makes no others. -/
theorem run_resumed {size : Int} {segments : List Segment} (hvalid : ∀ s ∈ segments, s.IsValid)
    (hbounded : ∀ s ∈ segments, s.last ≠ Segment.unboundedLast)
    (hcovers : ResumeHeader.covers segments size = true)
    (p : PartialFile) (reporter : Reporter) (replies : List Reply)
    (incidents : List (Nat × Incident)) (closing : Nat) :
    Plan.Resumes size segments (Plan.resume segments) ∧
      (begin (Table.resumed segments size) p reporter).ranges =
        ((segments.filter (·.IsIncomplete)).map fun s =>
          some s!"bytes={max s.start (s.start + s.committed - 1)}-{s.last}") ∧
      (run (Table.resumed segments size) p reporter
          { replies? := some replies, incidents, closing }).2.ranges =
        (segments.filter (·.IsIncomplete)).map fun s =>
          some s!"bytes={max s.start (s.start + s.committed - 1)}-{s.last}" := by
  have hpartition := Plan.isPartition_of_bounded hvalid hbounded hcovers
  refine ⟨Plan.resume_resumes hpartition, ranges_of_slots hpartition ?_,
    ranges_of_slots hpartition ?_⟩
  · rw [begin_slots]
    exact Plan.resume_map_begin segments
  · exact (run_slots rfl).trans (Plan.resume_map_begin segments)

/-- Segments at every stage: nothing committed, one byte, all but one, all, and a segment of one
byte. -/
theorem run_resumed_stages :
    Plan.Resumes 41 [⟨0, 9, 0, 0⟩, ⟨10, 19, 1, 1⟩, ⟨20, 29, 9, 9⟩, ⟨30, 39, 10, 10⟩, ⟨40, 40, 0, 0⟩]
        [⟨0, 0, 0, 9⟩, ⟨1, 10, 10, 19⟩, ⟨2, 20, 28, 29⟩, ⟨4, 40, 40, 40⟩] ∧
      (run (Table.resumed
          [⟨0, 9, 0, 0⟩, ⟨10, 19, 1, 1⟩, ⟨20, 29, 9, 9⟩, ⟨30, 39, 10, 10⟩, ⟨40, 40, 0, 0⟩] 41)
        {} { throttle := { interval := 0 } } { replies? := some [.lost] }).2.ranges =
        [some "bytes=0-9", some "bytes=10-19", some "bytes=28-29", some "bytes=40-40"] :=
  have h := run_resumed (by decide) (by decide) (by decide) {} { throttle := { interval := 0 } }
    [.lost] [] 0
  ⟨h.1, h.2.2⟩

end Transfer

end SegmentedDownload
