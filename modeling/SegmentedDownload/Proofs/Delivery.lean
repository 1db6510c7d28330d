import SegmentedDownload.Proofs.Arrival

/-!
# SegmentedDownload.Proofs.Delivery

A run on a reliable file, against a server that delivers, is completed, and its payload
is the body.

* `Served` lists the ways to deliver: the ranges one by one, the whole file in place of
  the first range of a fresh plan, or the whole file when its size is not known.
* `Completes` is what a run has reached when it is completed.
* `run_known_completes` and `run_unsized_completes` are the runs with and without a
  known size.
-/

namespace SegmentedDownload

/-- The ways in which a server delivers a body to a run. -/
inductive Served (body : Bytes) (table : Table) (course : Course) : Prop
  /-- Every range that is asked for is answered with its part of the body. -/
  | parts (replies : List Reply) (hreplies : course.replies? = some replies)
      (hparts : ∀ (i : Nat) (slot : Slot), (Plan.resume table.begin.segments)[i]? = some slot →
        (∃ length?, replies[i]? = some (.answered 206 length?)) ∧
          Delivers course.incidents i (body.slice slot.resumeStart.toNat slot.length))
  /-- The first range of a fresh plan is answered with the whole body. -/
  | whole (length? : Option Nat) (replies : List Reply) (hfresh : table.isFresh = true)
      (hreplies : course.replies? = some (.answered 200 length? :: replies))
      (hbody : Delivers course.incidents 0 body)

/-- The bytes that a table counts as committed are those of a body. -/
def Table.Held (table : Table) (body contents : Bytes) : Prop :=
  ∀ s ∈ table.segments, ∀ o : Nat, s.start ≤ o → o < s.start + s.committed →
    Holds body contents table.headerSize o

/-- A fresh table counts nothing as committed. -/
theorem Table.Known.held_of_fresh {size : Int} {table : Table} (h : table.Known size)
    (hfresh : table.isFresh = true) (body contents : Bytes) : table.Held body contents := by
  intro s hs o hstart ho
  have := h.uncommitted hfresh s hs
  omega

/-- What a table adopts from a consistent file is committed rightly. -/
theorem Consistent.held {body : Bytes} {f : OpenFile} (h : Consistent body f) {workers : Nat}
    (hknown : (Table.load f body.length workers).Known body.length) :
    (Table.load f body.length workers).Held body f.contents := by
  rcases Table.load_cases f body.length workers with ⟨segments, hread, hcovers, hload⟩ | hload
  · rw [hload]
    exact h segments hread hcovers
  · exact hknown.held_of_fresh (by rw [hload]; rfl) body f.contents

theorem Table.headerSize_begin (table : Table) : table.begin.headerSize = table.headerSize := by
  simp [headerSize, begin, ResumeHeader.size]

/-- One segment has the smallest header. -/
theorem Table.Known.headerSize_collapse {size : Int} {table : Table} (h : table.Known size) :
    table.collapse.headerSize ≤ table.headerSize := by
  have hlength : 1 ≤ table.segments.length := by
    obtain ⟨s, hs, -⟩ := h.partition.exists_mem (Int.le_refl 0) h.pos
    exact List.length_pos_of_mem hs
  have hmul := Nat.mul_le_mul_right ResumeHeader.segmentSize hlength
  change (if table.persists then ResumeHeader.sizeOf 1 else 0) ≤
    if table.persists then ResumeHeader.sizeOf table.segments.length else 0
  cases table.persists with
  | true => simpa [ResumeHeader.sizeOf] using hmul
  | false => exact Nat.le_refl 0

namespace Transfer

/-- A run is completed, with a body as its payload. -/
structure Completes (body : Bytes) (result : Except DownloadError Outcome × Transfer) : Prop where
  outcome_eq : result.1 = .ok (.completed body.length)
  snapshot_eq : result.2.reporter.snapshot =
    { total := body.length, transferred := body.length }
  payload_eq : result.2.file.file.contents.slice result.2.table.headerSize body.length = body
  reliable : result.2.file.file.Reliable
  room : result.2.table.headerSize + body.length ≤ OpenFile.maxPosition

variable {body : Bytes} {table : Table} {p : PartialFile} {reporter : Reporter} {course : Course}
  {replies : List Reply} {t t₁ t₀ : Transfer} {incidents : List (Nat × Incident)}
  {parts : Nat → Bytes}

/-! ## Closing -/

/-- A run that was set up streams its bodies and closes. -/
theorem run_eq (hreplies : course.replies? = some replies)
    (haccept : (begin table p reporter).accept replies = .ok t₁)
    (hprepare : t₁.prepare = (t₀, none)) :
    run table p reporter course = (t₀.stream course.incidents).close course.closing := by
  simp [run, hreplies, proceed, haccept, hprepare]

theorem announce_snapshot (u : Transfer) (now : Nat) :
    (u.announce now).reporter.snapshot =
      { total := u.payloadLength, transferred := u.payloadLength } := by
  simp only [announce, Reporter.finish, Reporter.emit]
  split <;> rfl

/-- A run in which everything has arrived is completed, if the payload is in place. -/
theorem close_completes (hready : t₀.Ready) (hfed : Fed t₀ incidents parts) (now : Nat)
    (hlength : (t₀.stream incidents).flushAll.payloadLength = body.length)
    (hpayload : (t₀.stream incidents).flushAll.file.file.contents.slice
      (t₀.stream incidents).flushAll.table.headerSize body.length = body)
    (hroom : (t₀.stream incidents).flushAll.table.headerSize + body.length ≤
      OpenFile.maxPosition) :
    Completes body ((t₀.stream incidents).close now) := by
  have hmax : (body.length : Int) ≤ Word.maxInt := by
    rw [← OpenFile.maxPosition_eq]
    omega
  rw [close_arrived hready hfed]
  refine ⟨?_, ?_, hpayload, (stream_arrived hready hfed).reliable, hroom⟩
  · rw [hlength, Word.toUnsigned_of_nonneg (Int.natCast_nonneg _) hmax, Int.toNat_natCast]
  · rw [announce_snapshot, hlength]

/-! ## Runs of known size -/

/-- The bytes that a worker of a plan is sent lie in the body. -/
theorem Planned.slot_le {size : Int} (h : Planned size t) {w : Worker} (hw : w ∈ t.workers) :
    w.slot.resumeStart.toNat + w.slot.length ≤ size.toNat := by
  obtain ⟨i, s, hs, -, hslot⟩ := h.mem_slot hw
  have hlast := h.known.partition.last_lt (List.mem_of_getElem? hs)
  have hsound := h.slot_isSound hw
  have hlength := hsound.length_eq
  have hnonneg := hsound.start_nonneg
  have hle := hsound.start_le
  have hwlast : w.slot.last = s.last := by rw [hslot]; rfl
  omega

/-- A plan whose workers all get their parts is completed. -/
theorem Planned.completes (h : Planned body.length t₀)
    (hoffset : t₀.file.payloadOffset = t₀.table.headerSize)
    (hheld : t₀.table.Held body t₀.file.file.contents) (hreliable : t₀.file.file.Reliable)
    (hroom : t₀.table.headerSize + body.length ≤ OpenFile.maxPosition)
    (hnonstop : ∀ x ∈ incidents, x.2 ≠ .stop)
    (hparts : ∀ (i : Nat) (w : Worker), t₀.workers[i]? = some w → w.state = .streaming ∧
      Delivers incidents i (body.slice w.slot.resumeStart.toNat w.slot.length)) (now : Nat) :
    Completes body ((t₀.stream incidents).close now) := by
  have hfed : Fed t₀ incidents (bodyOf incidents) := by
    refine ⟨hreliable, hnonstop, fun i w hw => ?_⟩
    obtain ⟨hstate, hdelivers⟩ := hparts i w hw
    have hle := h.slot_le (List.mem_of_getElem? hw)
    have hlength : (bodyOf incidents i).length = w.slot.length := by
      rw [hdelivers.bodyOf_eq, Bytes.length_slice]
      omega
    refine ⟨hstate, ?_, by omega, fun _ => hlength, by omega⟩
    rw [hdelivers.bodyOf_eq]
    exact hdelivers
  have hsource : ∀ k b, t₀.Arrived (t₀.bodies incidents) k b →
      ∃ o, k = t₀.file.payloadOffset + o ∧ body[o]? = some b := by
    rintro k b ⟨i, w, hw, n, hn, rfl, hb⟩
    rw [hfed.bodies_eq hw, (hparts i w hw).2.bodyOf_eq, Bytes.getElem?_slice, if_pos hn] at hb
    exact ⟨_, Nat.add_assoc _ _ _, hb⟩
  have hsettled := h.settled incidents
  have hheader : (t₀.stream incidents).flushAll.table.headerSize = t₀.file.payloadOffset := by
    rw [← hsettled.offset_eq hoffset, hsettled.streamed.offset_eq]
  have hcomplete := (stream_arrived h.ready hfed).isComplete
  refine close_completes h.ready hfed now ?_ ?_ ?_
  · rw [payloadLength, hsettled.size_eq]
    rfl
  · rw [hheader]
    refine hsettled.payload_eq hcomplete fun s hs o hstart ho => ?_
    refine hsettled.holds hsource (fun s hs o h0 h1 => ?_) hs hstart ho
    rw [hoffset]
    exact hheld s hs o h0 h1
  · rw [hheader, hoffset]
    exact hroom

/-- Workers whose ranges are all answered stream. -/
theorem acceptAll_parts {workers : List Worker}
    (h : ∀ (i : Nat) (w : Worker), workers[i]? = some w →
      ∃ length?, replies[i]? = some (.answered 206 length?)) :
    ∃ workers', acceptAll workers replies = .ok workers' ∧
      ∀ w ∈ workers', w.state = .streaming := by
  induction workers generalizing replies with
  | nil => exact ⟨[], rfl, fun w hw => absurd hw List.not_mem_nil⟩
  | cons w workers ih =>
    obtain ⟨length?, hreply⟩ := h 0 w rfl
    rw [← List.head?_eq_getElem?] at hreply
    obtain ⟨replies, rfl⟩ := List.head?_eq_some_iff.mp hreply
    have htail : ∀ (i : Nat) (v : Worker), workers[i]? = some v →
        ∃ length?, replies[i]? = some (.answered 206 length?) := fun i v hv => h (i + 1) v hv
    obtain ⟨workers', hall, hstreams⟩ := ih htail
    have hone : acceptOne w (.answered 206 length?) = .ok (w.begin length?) := by
      simp [acceptOne, Worker.classify]
    refine ⟨w.begin length? :: workers', ?_, ?_⟩
    · rw [acceptAll, List.headD_cons, hone, List.tail_cons, hall]
      rfl
    · intro v hv
      rcases List.mem_cons.mp hv with rfl | hv
      · rfl
      · exact hstreams v hv

/-- If all ranges are answered, all workers stream. -/
theorem accept_parts
    (h : ∀ (i : Nat) (w : Worker), t.workers[i]? = some w →
      ∃ length?, replies[i]? = some (.answered 206 length?)) :
    ∃ t₁, t.accept replies = .ok t₁ ∧ t₁.table = t.table ∧
      ∀ w ∈ t₁.workers, w.state = .streaming := by
  have hwhole : t.wholeFile? replies = none := by
    unfold wholeFile?
    split
    · next w workers status length? replies' _ hworkers =>
      obtain ⟨length?', hreply⟩ := h 0 w (by rw [hworkers]; rfl)
      obtain ⟨rfl, -⟩ := Reply.answered.inj (Option.some.inj hreply)
      simp [Worker.classify]
    · rfl
  obtain ⟨workers, hall, hstreams⟩ := acceptAll_parts h
  refine ⟨{ t with workers }, ?_, rfl, hstreams⟩
  rw [accept, hwhole, hall]
  rfl

/-- The whole file in place of the first range of a fresh plan collapses the plan. -/
theorem accept_whole {size : Int} (hknown : table.Known size) (hfresh : table.isFresh = true)
    (length? : Option Nat) :
    (begin table p reporter).accept (.answered 200 length? :: replies) =
      .ok ((begin table p reporter).collapse length?) := by
  have hplanned : Planned size (begin table p reporter) := planned_begin hknown
  cases hsegments : table.begin.segments with
  | nil =>
    obtain ⟨s, hs, -⟩ := hknown.begin.partition.exists_mem (Int.le_refl 0) hknown.pos
    rw [hsegments] at hs
    contradiction
  | cons s rest =>
    have hs : s ∈ table.begin.segments := by simp [hsegments]
    have hincomplete : s.isComplete = false := by
      have hstart := hknown.begin.partition.start_le_last s hs
      have hzero := hknown.begin.uncommitted hfresh s hs
      have hiff := Segment.isComplete_iff (hknown.begin.partition.bounded hs)
      rw [Bool.eq_false_iff]
      intro hc
      have := hiff.mp hc
      omega
    have hworkers : (begin table p reporter).workers =
        request (Plan.slot 0 s) :: (Plan.resumeFrom 1 rest).map request := by
      simp [begin, Plan.resume, hsegments, Plan.resumeFrom, hincomplete]
    have hbounded : (request (Plan.slot 0 s)).isUnbounded = false :=
      hplanned.bounded (by simp [hworkers])
    have hignored : (request (Plan.slot 0 s)).classify 200 = .rangeIgnored := by
      simp [Worker.classify, Worker.range?, hbounded]
    have hwhole : (begin table p reporter).wholeFile? (.answered 200 length? :: replies) =
        some length? := by
      have htable : (begin table p reporter).table.isFresh = true := hfresh
      simp only [wholeFile?, htable, hworkers]
      rw [if_pos ⟨rfl, hignored⟩]
    rw [accept, hwhole]

/-- What the preparation of a file keeps of the committed bytes. -/
theorem held_prepared (hknown : table.Known body.length) (hheld : table.Held body p.file.contents)
    (haccept : (begin table p reporter).accept replies = .ok t₁)
    (hprepare : t₁.prepare = (t₀, none)) : t₀.table.Held body t₀.file.file.contents := by
  have hplanned := ((planned_begin hknown).accept haccept).prepare hprepare
  have htable := (prepare_eq hprepare).1
  cases hfresh : t₁.table.isFresh with
  | true =>
    rw [← htable] at hfresh
    exact hplanned.known.held_of_fresh hfresh _ _
  | false =>
    obtain ⟨hfile, hsame | ⟨hfresh', hcollapse⟩⟩ := accept_table haccept
    · rw [prepare_resumed hfresh] at hprepare
      obtain ⟨rfl, -⟩ := Prod.mk.inj hprepare
      intro s hs o hstart ho
      change s ∈ t₁.table.segments at hs
      rw [hsame] at hs
      obtain ⟨s', hs', rfl⟩ := List.mem_map.mp hs
      change Holds body t₁.file.file.contents t₁.table.headerSize o
      rw [hfile, hsame]
      change Holds body p.file.contents table.begin.headerSize o
      rw [Table.headerSize_begin]
      exact hheld s' hs' o hstart ho
    · rw [hcollapse] at hfresh
      exact absurd hfresh' (by rw [show (begin table p reporter).table.isFresh = false from hfresh]
                               exact Bool.false_ne_true)

/-- Each way of delivery leaves workers that all stream the part for their slot. -/
theorem accept_served (p : PartialFile) (reporter : Reporter) (hknown : table.Known body.length)
    (hserved : Served body table course) :
    ∃ replies t₁, course.replies? = some replies ∧
      (begin table p reporter).accept replies = .ok t₁ ∧
      t₁.table.headerSize ≤ table.headerSize ∧
      ∀ (i : Nat) (w : Worker), t₁.workers[i]? = some w → w.state = .streaming ∧
        Delivers course.incidents i (body.slice w.slot.resumeStart.toNat w.slot.length) := by
  have hplanned : Planned body.length (begin table p reporter) := planned_begin hknown
  cases hserved with
  | parts replies hreplies hparts =>
    obtain ⟨t₁, haccept, htable, hstreams⟩ := accept_parts (t := begin table p reporter)
      fun i w hw => (hparts i w.slot (hplanned.getElem?_slot hw)).1
    refine ⟨replies, t₁, hreplies, haccept, ?_, fun i w hw => ?_⟩
    · rw [htable]
      exact Nat.le_of_eq table.headerSize_begin
    · refine ⟨hstreams w (List.mem_of_getElem? hw), ?_⟩
      have hslot := (hplanned.accept haccept).getElem?_slot hw
      rw [htable] at hslot
      exact (hparts i w.slot hslot).2
  | whole length? replies hfresh hreplies hbody =>
    refine ⟨_, _, hreplies, accept_whole hknown hfresh length?, ?_, fun i w hw => ?_⟩
    · rw [← table.headerSize_begin]
      exact hknown.begin.headerSize_collapse
    · cases i with
      | succ i => contradiction
      | zero =>
        obtain rfl := Option.some.inj hw
        have hlength : ((begin table p reporter).table.whole.last - 0 + 1).toNat =
            body.length := by
          rw [show (begin table p reporter).table.whole = _ from hknown.begin.whole_eq]
          simp
        refine ⟨rfl, ?_⟩
        change Delivers course.incidents 0 (body.slice 0
          ((begin table p reporter).table.whole.last - 0 + 1).toNat)
        rw [hlength, Bytes.slice_all]
        exact hbody

/-- A run of known size is completed, if the server delivers. -/
theorem run_known_completes (hknown : table.Known body.length)
    (hheld : table.Held body p.file.contents) (hreliable : p.file.Reliable)
    (hroom : table.headerSize + body.length ≤ OpenFile.maxPosition)
    (hnonstop : ∀ x ∈ course.incidents, x.2 ≠ .stop) (hserved : Served body table course) :
    Completes body (run table p reporter course) := by
  obtain ⟨replies, t₁, hreplies, haccept, hheader, hparts⟩ :=
    accept_served p reporter hknown hserved
  have hplanned₁ := (planned_begin hknown).accept haccept
  obtain ⟨t₀, hprepare, hreliable₀⟩ : ∃ t₀, t₁.prepare = (t₀, none) ∧ t₀.file.file.Reliable := by
    refine prepare_reliable ?_ ?_
    · rw [(accept_table haccept).1]
      exact hreliable
    · rw [hplanned₁.known.size_eq, Option.getD_some, Int.toNat_natCast]
      omega
  obtain ⟨htable, hworkers, -⟩ := prepare_eq hprepare
  rw [run_eq hreplies haccept hprepare]
  refine (hplanned₁.prepare hprepare).completes (prepare_offset hprepare)
    (held_prepared hknown hheld haccept hprepare) hreliable₀ ?_ hnonstop ?_ course.closing
  · rw [htable]
    omega
  · rw [hworkers]
    exact hparts

/-! ## Runs of unknown size -/

/-- The slot of a file whose size is not known. -/
def openSlot : Slot := { index := 0, start := 0, resumeStart := 0, last := Segment.unboundedLast }

/-- A run of unknown size that streams. -/
def unsized (workers : Nat) (p : PartialFile) (reporter : Reporter) (length? : Option Nat) :
    Transfer :=
  { begin (Table.fresh none workers false) p reporter with
    workers := [(request openSlot).begin length?]
    file := { p with payloadOffset := 0 } }

section Unsized

variable {workers : Nat} {length? : Option Nat}

theorem unsized_ready : (unsized workers p reporter length?).Ready := by
  constructor
  · intro w hw
    obtain rfl := List.mem_singleton.mp hw
    have hlast : 0 ≤ Segment.unboundedLast := by decide
    exact ⟨Int.le_refl 0, Int.le_refl 0, hlast, Int.le_refl _⟩
  · exact List.pairwise_singleton _ _
  · intro w hw
    obtain rfl := List.mem_singleton.mp hw
    exact ⟨rfl, rfl, rfl⟩
  · intro w hw _
    obtain rfl := List.mem_singleton.mp hw
    exact begin_expects _ _
  · intro w hw
    obtain rfl := List.mem_singleton.mp hw
    exact WorkerState.noConfusion
  · rfl

/-- The only worker of a file of unknown size is fed with the whole body. -/
theorem unsized_fed (hreliable : p.file.Reliable) (hroom : body.length ≤ OpenFile.maxPosition)
    (hnonstop : ∀ x ∈ incidents, x.2 ≠ .stop) (hbody : Delivers incidents 0 body) :
    Fed (unsized workers p reporter length?) incidents fun _ => body := by
  refine ⟨hreliable, hnonstop, fun i w hw => ?_⟩
  cases i with
  | succ i => contradiction
  | zero =>
    obtain rfl := Option.some.inj hw
    refine ⟨rfl, hbody, ?_, fun hbounded => ?_, ?_⟩
    · exact Nat.le_succ_of_le hroom
    · contradiction
    · simpa [unsized, openSlot, request, Worker.begin] using hroom

/-- A run of unknown size is completed, if the server delivers. -/
theorem run_unsized_completes (hreliable : p.file.Reliable)
    (hroom : body.length ≤ OpenFile.maxPosition)
    (hnonstop : ∀ x ∈ course.incidents, x.2 ≠ .stop) {status : Nat}
    (hstatus : status = 200 ∨ status = 206)
    (hreplies : course.replies? = some (.answered status length? :: replies))
    (hbody : Delivers course.incidents 0 body) :
    Completes body (run (Table.fresh none workers false) p reporter course) := by
  have haccept : (begin (Table.fresh none workers false) p reporter).accept
      (.answered status length? :: replies) =
      .ok { unsized workers p reporter length? with file := p } := by
    rcases hstatus with rfl | rfl <;> rfl
  have hready : (unsized workers p reporter length?).Ready := unsized_ready
  have hfed : Fed (unsized workers p reporter length?) course.incidents fun _ => body :=
    unsized_fed hreliable hroom hnonstop hbody
  have hfollows := stream_follows hready hfed.fits
  obtain ⟨hstreamed, hflushed⟩ := flushAll_spec hready hfollows.streamed
  have harrived := stream_arrived hready hfed
  have hone : ∃ w, ((unsized workers p reporter length?).stream course.incidents).flushAll.workers =
      [w] ∧ w.slot = openSlot := by
    have hslots := hstreamed.slots_eq
    rw [show (unsized workers p reporter length?).workers.map (·.slot) = [openSlot] from rfl]
      at hslots
    exact List.map_eq_singleton_iff.mp hslots
  obtain ⟨w, hworkers, hslot⟩ := hone
  obtain ⟨hwritten, hstored⟩ := harrived.stored 0 w (by rw [hworkers]; rfl)
  have htable := hflushed.table_eq
  rw [hfollows.table_eq, hworkers, ← hflushed.length_eq, hworkers] at htable
  have hheader : ((unsized workers p reporter length?).stream
      course.incidents).flushAll.table.headerSize = 0 := by
    rw [htable]
    rfl
  rw [run_eq hreplies haccept rfl]
  refine close_completes hready hfed course.closing ?_ ?_ ?_
  · rw [payloadLength, htable]
    simp [unsized, begin, Table.fresh, Table.begin, Plan.fresh, recordAll, recordProgress,
      Table.sessionTotal, Segment.unbounded, Segment.begin, Worker.flushedProgress, hslot,
      openSlot, hwritten]
  · have hoffset : _ = 0 := hstreamed.offset_eq
    rw [Worker.stored, hwritten, hslot, PartialFile.payload, hoffset] at hstored
    rw [hheader]
    exact hstored
  · rw [hheader, Nat.zero_add]
    exact hroom

end Unsized

end Transfer

end SegmentedDownload
