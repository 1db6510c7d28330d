import Mathlib
import SegmentedDownload.Proofs.Header
import SegmentedDownload.Proofs.Faults

/-!
# SegmentedDownload.Proofs.Setup

From a table to the workers that are about to stream.

* `Transfer.Ends` is the inversion of `run`: the four ways in which a run ends,
  one constructor for each stage that it can end in.
* `Transfer.Accepts` is the inversion of `accept`: one worker gets the whole file, or
  each worker goes its own way.
* `Table.Known size` is what a table of known size satisfies: its segments
  partition the file, and nothing of a fresh plan is committed.
* `Transfer.Planned size` is what the replies leave of such a table: one worker for
  each incomplete segment.  It holds at the beginning, and is kept by accepting the
  replies, be it with the plan or with one segment in its place.
-/

namespace SegmentedDownload

/-! ## Tables of known size -/

namespace Table

/-- A table for a file whose size is known. -/
structure Known (size : Int) (table : Table) : Prop where
  size_eq : table.size? = some size
  pos : 0 < size
  partition : Plan.IsPartition size table.segments
  uncommitted : table.isFresh = true → ∀ s ∈ table.segments, s.committed = 0

variable {size : Int} {table : Table}

/-- A fresh table of a known size is a partition of that size. -/
theorem known_fresh {size' : Int} {workers : Nat} {persist : Bool} (hmax : size ≤ Word.maxInt)
    (h : (fresh (some size') workers persist).size? = some size) :
    (fresh (some size') workers persist).Known size := by
  have hfilter : (some size').filter (0 < ·) = some size := h
  obtain ⟨hsize, hpos⟩ := Option.filter_eq_some_iff.mp hfilter
  obtain rfl := Option.some.inj hsize
  have hpos := of_decide_eq_true hpos
  refine ⟨h, hpos, Plan.isPartition_fresh hpos hmax workers, fun _ s hs => ?_⟩
  have hs : s ∈ Plan.fresh (some size') workers := hs
  exact (Plan.progress_fresh hs).1

/-- A fresh table knows its size. -/
theorem size_fresh (hpos : 0 < size) (workers : Nat) (persist : Bool) :
    (fresh (some size) workers persist).size? = some size := by
  have hfilter : (some size).filter (0 < ·) = some size :=
    Option.filter_eq_some_iff.mpr ⟨rfl, decide_eq_true hpos⟩
  exact hfilter

/-- A fresh table of a file that is not empty is a partition. -/
theorem known_fresh_of_pos (hpos : 0 < size) (hmax : size ≤ Word.maxInt) (workers : Nat)
    (persist : Bool) : (fresh (some size) workers persist).Known size :=
  known_fresh hmax (size_fresh hpos workers persist)

/-- A header that covers the file makes a partition. -/
theorem known_resumed {f : OpenFile} {segments : List Segment} (hmax : size ≤ Word.maxInt)
    (hread : ResumeHeader.read f = .ok segments)
    (hcovers : ResumeHeader.covers segments size = true) : (resumed segments size).Known size := by
  obtain ⟨-, hne, hvalid⟩ := ResumeHeader.carries_of_read hread
  have hpartition : Plan.IsPartition size segments := ⟨hvalid, hcovers, hmax⟩
  refine ⟨rfl, ?_, hpartition, fun hfresh => Bool.noConfusion hfresh⟩
  obtain ⟨s, hs⟩ := List.exists_mem_of_ne_nil segments hne
  have h0 := (hvalid s hs).1
  have hle := hpartition.start_le_last s hs
  have hlt := hpartition.last_lt hs
  omega

/-- A header of valid segments that cover the file is adopted. -/
theorem load_eq_resumed {f : OpenFile} {segments : List Segment} {workers : Nat}
    (hread : ResumeHeader.read f = .ok segments)
    (hcovers : ResumeHeader.covers segments size = true) :
    load f size workers = resumed segments size := by
  unfold load
  rw [hread]
  exact if_pos hcovers

/-- A header is adopted, or the download is planned from scratch. -/
theorem load_cases (f : OpenFile) (size : Int) (workers : Nat) :
    (∃ segments, ResumeHeader.read f = .ok segments ∧
        ResumeHeader.covers segments size = true ∧ load f size workers = resumed segments size) ∨
      load f size workers = fresh (some size) workers true := by
  unfold load
  cases ResumeHeader.read f with
  | error e => exact Or.inr rfl
  | ok segments =>
    by_cases hcovers : ResumeHeader.covers segments size = true
    · exact Or.inl ⟨segments, rfl, hcovers, if_pos hcovers⟩
    · exact Or.inr (if_neg hcovers)

/-- The plan of a partial file for a known size is known. -/
theorem size_load {f : OpenFile} {workers : Nat} (hpos : 0 < size) :
    (load f size workers).size? = some size := by
  rcases load_cases f size workers with ⟨segments, -, -, h⟩ | h
  · rw [h]
    rfl
  · rw [h, size_fresh hpos]

/-- The table that a run begins with is a partition, resumed or fresh. -/
theorem known_load {f : OpenFile} {workers : Nat} (hmax : size ≤ Word.maxInt)
    (h : (load f size workers).size? = some size) : (load f size workers).Known size := by
  rcases load_cases f size workers with ⟨segments, hread, hcovers, hload⟩ | hload
  · rw [hload]
    exact known_resumed hmax hread hcovers
  · rw [hload] at h ⊢
    exact known_fresh hmax h

namespace Known

/-- A run begins with the segments of its table. -/
theorem begin (h : table.Known size) : table.begin.Known size := by
  refine ⟨h.size_eq, h.pos, h.partition.congr (Plan.map_begin_begin table.segments), ?_⟩
  intro hfresh s' hs'
  obtain ⟨s, hs, rfl⟩ := List.mem_map.mp hs'
  exact h.uncommitted hfresh s hs

/-- One segment in place of all has the whole file. -/
theorem whole_eq (h : table.Known size) : table.whole = { start := 0, last := size - 1 } := by
  rw [whole, h.size_eq]

/-- One segment for the whole file is a plan again. -/
theorem collapse (h : table.Known size) : table.collapse.Known size := by
  have hsegments : table.collapse.segments = [{ start := 0, last := size - 1 }] := by
    rw [Table.collapse, h.whole_eq]
  refine ⟨h.size_eq, h.pos, ?_, fun _ s hs => ?_⟩
  · rw [hsegments]
    exact Plan.isPartition_whole h.pos h.partition.size_le
  · rw [hsegments] at hs
    rw [List.mem_singleton.mp hs]

end Known

/-- A fresh plan for a known size can have a header. -/
theorem Known.persists_fresh {size? : Option Int} {workers : Nat} {persist : Bool}
    (h : (fresh size? workers persist).Known size) :
    (fresh size? workers persist).persists = persist := by
  have hall : (Plan.fresh size? workers).all (!·.isUnbounded) = true := by
    refine List.all_eq_true.mpr fun s hs => ?_
    have hlast := h.partition.bounded hs
    simpa [Segment.isUnbounded] using ne_of_lt hlast
  rw [fresh, hall, Bool.and_true]

/-- A partial file for a known size has a header. -/
theorem persists_load {f : OpenFile} {workers : Nat} (h : (load f size workers).Known size) :
    (load f size workers).persists = true := by
  rcases load_cases f size workers with ⟨segments, -, -, hload⟩ | hload
  · rw [hload]
    rfl
  · rw [hload] at h ⊢
    exact h.persists_fresh

theorem begin_session {s : Segment} (hs : s ∈ table.begin.segments) : s.session = s.committed := by
  obtain ⟨s, -, rfl⟩ := List.mem_map.mp hs
  rfl

end Table

namespace Transfer

/-! ## The ways in which a run ends -/

/-- How a run ends, and in which stage. -/
inductive Ends (table : Table) (p : PartialFile) (reporter : Reporter) (course : Course) :
    Except DownloadError Outcome → Transfer → Prop
  /-- A stop was noticed before all replies were there. -/
  | unanswered (hreplies : course.replies? = none) :
    Ends table p reporter course (.ok .interrupted) (begin table p reporter)
  /-- A reply carried the whole file in place of a range. -/
  | rejected (replies : List Reply) (index : Nat) (hreplies : course.replies? = some replies)
      (haccept : (begin table p reporter).accept replies = .error (.rangeUnsupported index)) :
    Ends table p reporter course (.error (.rangeUnsupported index)) (begin table p reporter)
  /-- The file could not be prepared. -/
  | unprepared (replies : List Reply) (t₁ t : Transfer) (cause : IoError)
      (hreplies : course.replies? = some replies)
      (haccept : (begin table p reporter).accept replies = .ok t₁)
      (hprepare : t₁.prepare = (t, some cause)) :
    Ends table p reporter course (.error (.io cause)) t
  /-- The bodies arrived, and the run was closed. -/
  | closed (replies : List Reply) (t₁ t₀ t : Transfer) (outcome : Except DownloadError Outcome)
      (hreplies : course.replies? = some replies)
      (haccept : (begin table p reporter).accept replies = .ok t₁)
      (hprepare : t₁.prepare = (t₀, none))
      (hclose : (t₀.stream course.incidents).close course.closing = (outcome, t)) :
    Ends table p reporter course outcome t

/-- Only a whole file in place of a range keeps a worker from being accepted. -/
theorem acceptOne_eq_error {w : Worker} {reply : Reply} {e : DownloadError}
    (h : acceptOne w reply = .error e) : e = .rangeUnsupported w.slot.index := by
  cases reply with
  | lost => contradiction
  | answered status length? =>
    unfold acceptOne at h
    dsimp only at h
    split at h
    · contradiction
    · exact (Except.error.inj h).symm
    · contradiction

/-- The setup fails for nothing but a range that is not supported. -/
theorem acceptAll_eq_error {workers : List Worker} {replies : List Reply} {e : DownloadError}
    (h : acceptAll workers replies = .error e) : ∃ index, e = .rangeUnsupported index := by
  induction workers generalizing replies with
  | nil => contradiction
  | cons w workers ih =>
    rw [acceptAll] at h
    rcases bind_eq_error.mp h with hone | ⟨w', -, h⟩
    · exact ⟨_, acceptOne_eq_error hone⟩
    · rcases bind_eq_error.mp h with hall | ⟨workers', -, hok⟩
      · exact ih hall
      · contradiction

theorem accept_eq_error {t : Transfer} {replies : List Reply} {e : DownloadError}
    (h : t.accept replies = .error e) : ∃ index, e = .rangeUnsupported index := by
  unfold accept at h
  split at h
  · contradiction
  · cases hall : acceptAll t.workers replies with
    | error e' =>
      rw [hall] at h
      obtain rfl : e' = e := Except.error.inj h
      exact acceptAll_eq_error hall
    | ok workers' =>
      rw [hall] at h
      contradiction

/-- Every run ends in one of these ways. -/
theorem run_ends (table : Table) (p : PartialFile) (reporter : Reporter) (course : Course) :
    Ends table p reporter course (run table p reporter course).1
      (run table p reporter course).2 := by
  unfold run
  dsimp only
  split
  · next hreplies => exact .unanswered hreplies
  · next replies hreplies =>
    unfold proceed
    split
    · next e haccept =>
      obtain ⟨index, rfl⟩ := accept_eq_error haccept
      exact .rejected replies index hreplies haccept
    · next t₁ haccept =>
      split
      · next t cause hprepare =>
        exact .unprepared replies t₁ t cause hreplies haccept hprepare
      · next t₀ hprepare => exact .closed replies t₁ t₀ _ _ hreplies haccept hprepare rfl

/-! ## Replies -/

/-- The workers that replies leave, each after its own. -/
theorem acceptAll_eq_ok {workers workers' : List Worker} {replies : List Reply}
    (h : acceptAll workers replies = .ok workers') :
    workers'.length = workers.length ∧ ∀ (i : Nat) (w' : Worker), workers'[i]? = some w' →
      ∃ w, workers[i]? = some w ∧ acceptOne w (replies[i]?.getD .lost) = .ok w' := by
  induction workers generalizing replies workers' with
  | nil =>
    obtain rfl : [] = workers' := Except.ok.inj h
    exact ⟨rfl, fun i w' hw' => by simp at hw'⟩
  | cons w workers ih =>
    rw [acceptAll] at h
    obtain ⟨w₁, hone, h⟩ := bind_eq_ok.mp h
    obtain ⟨rest, hall, hok⟩ := bind_eq_ok.mp h
    obtain rfl : w₁ :: rest = workers' := Except.ok.inj hok
    obtain ⟨hlength, heach⟩ := ih hall
    refine ⟨congrArg (· + 1) hlength, fun i w' hw' => ?_⟩
    cases i with
    | zero =>
      obtain rfl : w₁ = w' := by simpa using hw'
      refine ⟨w, rfl, ?_⟩
      cases replies with
      | nil => exact hone
      | cons reply replies => exact hone
    | succ i =>
      obtain ⟨v, hv, hreply⟩ := heach i w' hw'
      refine ⟨v, hv, ?_⟩
      cases replies with
      | nil => exact hreply
      | cons reply replies => exact hreply

/-- A worker that is accepted has failed, or streams the body that it asked for. -/
theorem acceptOne_eq_ok {w w' : Worker} {reply : Reply} (h : acceptOne w reply = .ok w') :
    w' = w.fail ∨ ∃ status length?, reply = .answered status length? ∧
      w.classify status = .accepted ∧ w' = w.begin length? := by
  cases reply with
  | lost => exact Or.inl (Except.ok.inj h).symm
  | answered status length? =>
    unfold acceptOne at h
    dsimp only at h
    split at h
    · next hclassify =>
      exact Or.inr ⟨status, length?, rfl, hclassify, (Except.ok.inj h).symm⟩
    · contradiction
    · exact Or.inl (Except.ok.inj h).symm

/-- Replies do not change what the workers stand for. -/
theorem acceptAll_slots {workers workers' : List Worker} {replies : List Reply}
    (h : acceptAll workers replies = .ok workers') :
    workers'.map (·.slot) = workers.map (·.slot) := by
  obtain ⟨hlength, heach⟩ := acceptAll_eq_ok h
  apply List.ext_getElem?
  intro i
  rw [List.getElem?_map, List.getElem?_map]
  cases hw' : workers'[i]? with
  | none =>
    rw [List.getElem?_eq_none_iff, hlength] at hw'
    rw [List.getElem?_eq_none hw']
  | some w' =>
    obtain ⟨w, hw, hreply⟩ := heach i w' hw'
    rw [hw]
    rcases acceptOne_eq_ok hreply with rfl | ⟨_, _, _, _, rfl⟩ <;> rfl

/-- A worker with a range accepts only a part of the file. -/
theorem classify_accepted {w : Worker} {status : Nat} (hrange : w.isUnbounded = false)
    (h : w.classify status = .accepted) : status = 206 := by
  unfold Worker.classify at h
  split at h
  · assumption
  · split at h
    · rw [Worker.range?, if_neg (by rw [hrange]; exact Bool.false_ne_true)] at h
      contradiction
    · contradiction

/-- A server that ignores a range sends the whole file. -/
theorem classify_rangeIgnored {w : Worker} {status : Nat} (h : w.classify status = .rangeIgnored) :
    status = 200 := by
  unfold Worker.classify at h
  split at h
  · contradiction
  · split at h
    · assumption
    · contradiction

/-- What the replies make of a run: one worker for the whole file, or each worker goes its
own way. -/
inductive Accepts (t : Transfer) (replies : List Reply) : Transfer → Prop
  | whole (w : Worker) (others : List Worker) (length? : Option Nat) (rest : List Reply)
      (hfresh : t.table.isFresh = true) (hworkers : t.workers = w :: others)
      (hreplies : replies = .answered 200 length? :: rest) :
    Accepts t replies (t.collapse length?)
  | each (workers : List Worker) (hall : acceptAll t.workers replies = .ok workers) :
    Accepts t replies { t with workers }

/-- Whatever the setup accepts is one of the cases of `Accepts`. -/
theorem accept_accepts {t t' : Transfer} {replies : List Reply} (h : t.accept replies = .ok t') :
    Accepts t replies t' := by
  unfold Transfer.accept at h
  split at h
  · next length? hwhole =>
    obtain rfl := Except.ok.inj h
    unfold wholeFile? at hwhole
    split at hwhole
    · next w others status length?' rest hfresh hworkers =>
      split at hwhole
      · next hignored =>
        obtain rfl := Option.some.inj hwhole
        obtain rfl := classify_rangeIgnored hignored.2
        exact .whole w others length?' rest hfresh hworkers rfl
      · contradiction
    · contradiction
  · cases hall : acceptAll t.workers replies with
    | error e =>
      rw [hall] at h
      contradiction
    | ok workers =>
      rw [hall] at h
      obtain rfl := Except.ok.inj h
      exact .each workers hall

/-- A worker that begins to stream knows what to expect. -/
theorem begin_expects (w : Worker) (length? : Option Nat) : (w.begin length?).Expects := by
  intro hbounded
  have hbounded : w.isUnbounded = false := hbounded
  simp only [Worker.begin, hbounded]
  rfl

/-- What the replies leave of a table of known size. -/
structure Planned (size : Int) (t : Transfer) : Prop where
  known : t.table.Known size
  begun : ∀ s ∈ t.table.segments, s.session = s.committed
  slots_eq : t.workers.map (·.slot) = Plan.resume t.table.segments
  idle : ∀ w ∈ t.workers, w.buffer = [] ∧ w.written = 0 ∧ w.received = 0
  expects : ∀ w ∈ t.workers, w.state = .streaming → w.Expects
  incomplete : ∀ w ∈ t.workers, w.state ≠ .complete
  running : t.fatal? = none ∧ t.stopped = false

section Planned

variable {size : Int} {table : Table} {p : PartialFile} {reporter : Reporter} {t t' : Transfer}

/-- A run of a known table begins as planned. -/
theorem planned_begin (h : table.Known size) : Planned size (Transfer.begin table p reporter) := by
  refine ⟨h.begin, fun s hs => Table.begin_session hs, ?_, ?_, ?_, ?_, rfl, rfl⟩
  · simp [Transfer.begin, request, Function.comp_def]
  all_goals
    intro w hw
    obtain ⟨slot, -, rfl⟩ := List.mem_map.mp hw
  · exact ⟨rfl, rfl, rfl⟩
  · exact fun hstate => WorkerState.noConfusion hstate
  · exact WorkerState.noConfusion

/-- The workers of a plan stand for incomplete segments of it. -/
theorem Planned.getElem?_slot (h : Planned size t) {i : Nat} {w : Worker}
    (hw : t.workers[i]? = some w) : (Plan.resume t.table.segments)[i]? = some w.slot := by
  rw [← h.slots_eq, List.getElem?_map, hw]
  rfl

theorem Planned.mem_slot (h : Planned size t) {w : Worker} (hw : w ∈ t.workers) :
    ∃ i s, t.table.segments[i]? = some s ∧ s.isComplete = false ∧ w.slot = Plan.slot i s := by
  have hmem : w.slot ∈ t.workers.map (·.slot) := List.mem_map_of_mem hw
  rw [h.slots_eq] at hmem
  exact Plan.mem_resume.mp hmem

/-- No worker of a plan is unbounded. -/
theorem Planned.bounded (h : Planned size t) {w : Worker} (hw : w ∈ t.workers) :
    w.isUnbounded = false := by
  obtain ⟨i, s, hs, -, hslot⟩ := h.mem_slot hw
  have hlast := h.known.partition.bounded (List.mem_of_getElem? hs)
  rw [Worker.isUnbounded, hslot]
  exact beq_eq_false_iff_ne.mpr (ne_of_lt hlast)

/-- All workers have sound slots. -/
theorem Planned.slot_isSound (h : Planned size t) {w : Worker} (hw : w ∈ t.workers) :
    w.slot.IsSound := by
  obtain ⟨i, s, hs, -, hslot⟩ := h.mem_slot hw
  rw [hslot]
  exact Plan.slot_isSound (h.known.partition.valid s (List.mem_of_getElem? hs)) i

/-- A planned run is ready to stream. -/
theorem Planned.ready (h : Planned size t) : t.Ready := by
  refine ⟨fun w hw => h.slot_isSound hw, ?_, h.idle, h.expects, h.incomplete, ?_⟩
  · have hranges := Plan.pairwise_ranges h.known.partition
    rw [← h.slots_eq] at hranges
    exact List.pairwise_map.mp hranges
  · exact isHalted_eq_false.mpr h.running

/-- Bounded workers take what they asked for, however long their bodies are. -/
theorem Planned.fits (h : Planned size t) (bodies : Nat → Bytes) : t.Fits bodies := by
  intro i w hw hunbounded
  rw [h.bounded (List.mem_of_getElem? hw)] at hunbounded
  contradiction

/-- Only the table, the workers and the marks of an end matter for a plan. -/
theorem Planned.congr (h : Planned size t) (htable : t'.table = t.table)
    (hworkers : t'.workers = t.workers) (hfatal : t'.fatal? = t.fatal?)
    (hstopped : t'.stopped = t.stopped) : Planned size t' := by
  obtain ⟨hknown, hbegun, hslots, hidle, hexpects, hincomplete, hrunning⟩ := h
  constructor <;> simp only [htable, hworkers, hfatal, hstopped] <;> assumption

/-- The slot that stands for the whole file. -/
theorem resume_whole (hpos : 0 < size) (hmax : size ≤ Word.maxInt) :
    Plan.resume [{ start := 0, last := size - 1 }] =
      [{ index := 0, start := 0, resumeStart := 0, last := size - 1 }] := by
  have hincomplete : ({ start := 0, last := size - 1 } : Segment).isComplete = false := by
    have hbounded : size - 1 < Segment.unboundedLast := by
      unfold Segment.unboundedLast
      omega
    rw [← Bool.not_eq_true, Segment.isComplete_iff hbounded]
    simp only
    omega
  simp [Plan.resume, Plan.resumeFrom, hincomplete, Plan.slot, Plan.resumeStart]

/-- One segment in place of a plan is planned. -/
theorem Planned.collapse (h : Planned size t) (length? : Option Nat) :
    Planned size (t.collapse length?) := by
  have hwhole := h.known.whole_eq
  have hsegments : (t.collapse length?).table.segments = [{ start := 0, last := size - 1 }] := by
    simp only [Transfer.collapse, Table.collapse, hwhole]
  refine ⟨h.known.collapse, ?_, ?_, ?_, ?_, ?_, h.running⟩
  · intro s hs
    rw [hsegments] at hs
    rw [List.mem_singleton.mp hs]
  · rw [hsegments, resume_whole h.known.pos h.known.partition.size_le]
    simp only [Transfer.collapse, hwhole]
    rfl
  all_goals
    intro w hw
    obtain rfl := List.mem_singleton.mp hw
  · exact ⟨rfl, rfl, rfl⟩
  · exact fun _ => begin_expects _ _
  · exact WorkerState.noConfusion

/-- Accepting the replies leaves the file alone, and keeps the table, but for a fresh
one that collapses. -/
theorem accept_table {replies : List Reply} (haccept : t.accept replies = .ok t') :
    t'.file = t.file ∧
      (t'.table = t.table ∨ (t.table.isFresh = true ∧ t'.table = t.table.collapse)) := by
  cases accept_accepts haccept with
  | whole _ _ _ _ hfresh _ _ => exact ⟨rfl, Or.inr ⟨hfresh, rfl⟩⟩
  | each _ _ => exact ⟨rfl, Or.inl rfl⟩

/-- A worker streams the part that its slot asked for, or the whole file, which only
a single worker does. -/
theorem accept_streaming (h : table.Known size) {replies : List Reply}
    (haccept : (Transfer.begin table p reporter).accept replies = .ok t') {i : Nat} {w : Worker}
    (hw : t'.streaming? i = some w) :
    ∃ slot status length?, (Plan.resume table.begin.segments)[i]? = some slot ∧
      replies[i]? = some (.answered status length?) ∧
      ((status = 206 ∧ w.slot = slot) ∨
        (status = 200 ∧
          w.slot = { index := 0, start := 0, resumeStart := 0, last := size - 1 })) := by
  obtain ⟨hw, hstate⟩ := streaming?_eq_some.mp hw
  have hplanned : Planned size (Transfer.begin table p reporter) := planned_begin h
  cases accept_accepts haccept with
  | whole v others length? rest _ hworkers hreplies =>
    have hslot : (Plan.resume table.begin.segments)[0]? = some v.slot :=
      hplanned.getElem?_slot (by rw [hworkers]; rfl)
    obtain ⟨hi, rfl⟩ := List.getElem?_eq_some_iff.mp hw
    obtain rfl : i = 0 := by simpa [Transfer.collapse] using hi
    have hlast : (Transfer.begin table p reporter).table.whole = _ := h.begin.whole_eq
    refine ⟨v.slot, 200, length?, hslot, by rw [hreplies]; rfl, Or.inr ⟨rfl, ?_⟩⟩
    simp only [Transfer.collapse, List.getElem_cons_zero, Worker.begin, request, hlast]
  | each workers hall =>
    obtain ⟨v, hv, hreply⟩ := (acceptAll_eq_ok hall).2 i w hw
    rcases acceptOne_eq_ok hreply with rfl | ⟨status, length?, hanswer, hclassify, rfl⟩
    · contradiction
    · have hstatus := classify_accepted (hplanned.bounded (List.mem_of_getElem? hv)) hclassify
      refine ⟨v.slot, status, length?, hplanned.getElem?_slot hv, ?_, Or.inl ⟨hstatus, rfl⟩⟩
      cases hreply' : replies[i]? with
      | none =>
        rw [hreply'] at hanswer
        contradiction
      | some reply =>
        rw [hreply'] at hanswer
        exact congrArg some hanswer

/-- Accepting the replies leaves a plan. -/
theorem Planned.accept (h : Planned size t) {replies : List Reply}
    (haccept : t.accept replies = .ok t') : Planned size t' := by
  cases accept_accepts haccept with
  | whole _ _ length? _ _ _ _ => exact h.collapse length?
  | each workers hall =>
    obtain ⟨-, heach⟩ := acceptAll_eq_ok hall
    have hone : ∀ w' ∈ workers, ∃ w ∈ t.workers, w' = w.fail ∨ ∃ length?, w' = w.begin length? := by
      intro w' hw'
      obtain ⟨i, hw'⟩ := List.getElem?_of_mem hw'
      obtain ⟨w, hw, hreply⟩ := heach i w' hw'
      refine ⟨w, List.mem_of_getElem? hw, ?_⟩
      exact (acceptOne_eq_ok hreply).imp_right fun ⟨_, length?, _, _, heq⟩ => ⟨length?, heq⟩
    refine ⟨h.known, h.begun, ?_, ?_, ?_, ?_, h.running⟩
    · rw [← h.slots_eq]
      exact acceptAll_slots hall
    all_goals
      intro w' hw'
      obtain ⟨w, hw, rfl | ⟨length?, rfl⟩⟩ := hone w' hw'
    · exact h.idle w hw
    · exact h.idle w hw
    · exact fun hstate => WorkerState.noConfusion hstate
    · exact fun _ => begin_expects w length?
    · exact WorkerState.noConfusion
    · exact WorkerState.noConfusion

end Planned

end Transfer

end SegmentedDownload
