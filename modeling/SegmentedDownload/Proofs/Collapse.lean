import Mathlib
import SegmentedDownload.Proofs.Accounting
import SegmentedDownload.Proofs.DirectWriting
import SegmentedDownload.Proofs.OnDisk
import SegmentedDownload.Proofs.SetupDecision
import SegmentedDownload.Proofs.ShortBody

/-!
# SegmentedDownload.Proofs.Collapse

A plan that collapses is as good as a plan for one connection.

When the first reply carries the whole file, nothing is left of the plan: the run goes on as
`alone`, whose one worker streams the whole file, however many segments were planned
(`accept_ignored`).  From there on

* `Alone` says what the worker made of the data that it took, in whatever chunks this came: it is a
  `Writer` that is `Behind`, and the reporter tells of that data (`Alone.stream`, `Alone.stream_ends`);
* flushed, two such runs are `Alike` in everything that decides how a run is closed (`Alone.alike`,
  `Alike.close`).

So two runs that get the same body come to the same, and only their requests differ
(`run_collapsed`).
-/

namespace SegmentedDownload

/-! ## Progress of a single segment -/

namespace Reporter

/-- What a reporter tells of a single segment of `size` bytes when some data is there.  It may learn
the total from the segment. -/
structure Tells (r : Reporter) (total size : Int) (data : Bytes) : Prop where
  segments_eq : r.segments = [(data.length : Int)]
  transferred_eq : r.snapshot.transferred = data.length
  total_eq : r.snapshot.total = total ∨ total = 0 ∧ r.snapshot.total = size
  learns : data ≠ [] → r.snapshot.total ≠ 0

variable {r r' : Reporter} {total size : Int} {data : Bytes}

theorem tells_reset (r : Reporter) (size : Int) :
    (r.reset [0]).Tells r.snapshot.total size [] :=
  ⟨rfl, rfl, Or.inl rfl, absurd rfl⟩

/-- An update about more bytes of the only segment goes on telling their number. -/
theorem Tells.update (h : r.Tells total size data) (hsize : 0 < size) (data' : Bytes) (now : Nat) :
    (r.update 0 data'.length (some size) now).1.Tells total size data' := by
  have hsegments : r.segments.set 0 (data'.length : Int) = [(data'.length : Int)] := by
    rw [h.segments_eq]
    rfl
  unfold Reporter.update
  dsimp only
  rw [hsegments]
  refine ⟨emit_segments _ now, ?_, ?_, fun _ => ?_⟩
  · rw [emit_snapshot]
    simp [sum]
  · rw [emit_snapshot]
    dsimp only
    split
    · next hzero =>
      refine Or.inr ⟨?_, rfl⟩
      rcases h.total_eq with htotal | ⟨htotal, -⟩
      · rw [← htotal, hzero.2]
      · exact htotal
    · exact h.total_eq
  · rw [emit_snapshot]
    dsimp only
    split
    · exact hsize.ne'
    · next hne => simpa using hne

/-- What two reporters tell in the end is the same, unless nobody knows the total. -/
theorem Tells.snapshot_eq (h : r.Tells total size data) (h' : r'.Tells total size data)
    (hknown : total ≠ 0 ∨ data ≠ []) : r.snapshot = r'.snapshot := by
  have htotal : r.snapshot.total = r'.snapshot.total := by
    have h₁ := h.total_eq
    have h₂ := h'.total_eq
    have hlearns := h.learns
    have hlearns' := h'.learns
    rcases hknown with hne | hdata
    · omega
    · have := hlearns hdata
      have := hlearns' hdata
      omega
  have htransferred : r.snapshot.transferred = r'.snapshot.transferred :=
    h.transferred_eq.trans h'.transferred_eq.symm
  cases hr : r.snapshot
  cases hr' : r'.snapshot
  simp_all

end Reporter

/-! ## Courses -/

namespace Course

/-- The first request is answered with the whole file.  A server that ignores ranges answers all of
them so. -/
def IgnoresRanges (course : Course) : Prop :=
  ∃ length? rest, course.replies? = some (.answered 200 length? :: rest)

/-- Nothing is stopped, and the first worker gets a body, in any chunks and with anything in
between, that ends or breaks off. -/
def Sends (course : Course) (body : Bytes) (broken : Bool) : Prop :=
  (∀ x ∈ course.incidents, x.2 ≠ .stop) ∧ ∃ front now rest,
    course.incidents = front ++ (now, if broken then .broken 0 else .ended 0) :: rest ∧
      Open front 0 ∧ bodyOf front 0 = body

end Course

/-! ## Reliable files -/

/-- A write in reach of the file puts its data there. -/
theorem OpenFile.Reliable.write_contents {f : OpenFile} (h : f.Reliable) {pos : Nat}
    (hpos : pos ≤ maxPosition) (data : Bytes) :
    (f.write pos data).1.contents = f.contents.put (pos, data) := by
  by_cases hdata : data = []
  · rw [hdata, write_nil, Bytes.put_nil]
  · rw [contents_write hdata (h.write_eq hpos data).1, Bytes.put_of_ne hdata]

/-- A file that could be given a length has its end in reach. -/
theorem OpenFile.setLength_room {f : OpenFile} {n : Nat} (h : (f.setLength n).2 = none) :
    n ≤ maxPosition := by
  by_contra hlong
  rw [setLength, if_pos (by omega)] at h
  contradiction

/-- Committing progress to a reliable file succeeds. -/
theorem ResumeHeader.update_reliable {f : OpenFile} (h : f.Reliable) (segments : List Segment) :
    (update f segments).2.2 = none ∧ (update f segments).1.Reliable ∧
      (update f segments).1.contents =
        f.contents.put (segmentsOffset, encodeSegments (segments.map Segment.commit)) := by
  have hpos : segmentsOffset ≤ OpenFile.maxPosition := by decide
  obtain ⟨hnone, hreliable⟩ := h.write_eq hpos (encodeSegments (segments.map Segment.commit))
  exact ⟨hnone, hreliable, h.write_contents hpos _⟩

/-! ## One worker -/

/-- The slot of the whole file. -/
def Slot.whole (size : Int) : Slot := { index := 0, start := 0, resumeStart := 0, last := size - 1 }

/-- A writer that takes no more than its slot asks for has sound counters. -/
theorem Writer.Behind.sound {slot : Slot} {start : PartialFile} {s : Writer}
    (h : s.Behind slot start) (hle : s.accepted.length ≤ slot.length) : s.worker.Sound s.file := by
  have hslot := h.slot_eq
  have hwritten := h.written_le
  refine ⟨?_, h.received_eq.trans h.length_buffer.symm, ?_⟩
  · rw [Worker.stored, hslot, h.refines.stored, List.length_take, Nat.min_eq_left hwritten]
  · rw [h.received_eq, hslot]
    exact hle

/-- The end of a body whose worker could be flushed. -/
theorem Worker.finish_of_flush {w : Worker} {p p' : PartialFile} (hbounded : w.isUnbounded = false)
    (hexpects : w.Expects) (hflush : w.flush p = (w.flushed, p', none)) :
    w.finish p =
      if (w.received : Int) < w.slot.last - w.slot.resumeStart + 1 then
        (w.flushed.fail, p', some (.segmentEnded w.slot.index w.received
          (w.slot.last - w.slot.resumeStart + 1)))
      else ({ w.flushed with state := .complete }, p', none) := by
  have hshortfall := hexpects.shortfall?_eq hbounded
  rw [finish, hflush]
  by_cases hlt : (w.received : Int) < w.slot.last - w.slot.resumeStart + 1
  · rw [if_pos hlt] at hshortfall
    simp only [shortfall?_flushed, hshortfall, if_pos hlt]
    rfl
  · rw [if_neg hlt] at hshortfall
    simp only [shortfall?_flushed, hshortfall, if_neg hlt]

namespace Transfer

/-- A run whose only worker has taken some data of the body for the whole file. -/
structure Alone (size : Int) (t₀ : Transfer) (data : Bytes) (w : Worker) (t : Transfer) : Prop where
  workers_eq : t.workers = [w]
  expects : w.Expects
  behind : ({ worker := w, file := t.file, accepted := data } : Writer).Behind (Slot.whole size)
    t₀.file
  length_le : data.length ≤ size.toNat
  table_eq : t.table = t₀.table
  reliable : t.file.file.Reliable
  tells : t.reporter.Tells t₀.reporter.snapshot.total size data
  stopped_eq : t.stopped = false

/-- There is room for the whole file. -/
structure Roomy (size : Int) (p : PartialFile) : Prop where
  pos : 0 < size
  size_le : size ≤ Word.maxInt
  room : p.payloadOffset + size.toNat ≤ OpenFile.maxPosition

/-- The state of a worker whose body ended, or broke off, behind some data. -/
def endState (size : Int) (data : Bytes) (broken : Bool) : WorkerState :=
  if broken ∨ (data.length : Int) < size then .failed else .complete

/-- The error of a run whose only body ended, or broke off, behind some data. -/
def endError? (size : Int) (data : Bytes) (broken : Bool) : Option DownloadError :=
  if ¬ broken ∧ (data.length : Int) < size then some (.io (.segmentEnded 0 data.length size))
  else none

variable {size : Int} {t₀ t t' u v : Transfer} {data body : Bytes} {w w' : Worker}
  {p' : PartialFile} {fault? : Option IoError} {i : Nat}

theorem isUnbounded_whole (hmax : size ≤ Word.maxInt) (hslot : w.slot = Slot.whole size) :
    w.isUnbounded = false := by
  rw [Worker.isUnbounded, hslot]
  refine beq_eq_false_iff_ne.mpr ?_
  dsimp only [Slot.whole, Segment.unboundedLast]
  omega

/-- The slot of the whole file is sound. -/
theorem slot_whole_isSound (hroomy : Roomy size t₀.file) : (Slot.whole size).IsSound := by
  obtain ⟨hpos, hmax, -⟩ := hroomy
  refine ⟨le_refl _, le_refl _, ?_, ?_⟩ <;> dsimp only [Slot.whole] <;> omega

namespace Alone

theorem slot_eq (h : Alone size t₀ data w t) : w.slot = Slot.whole size := h.behind.slot_eq

theorem received_eq (h : Alone size t₀ data w t) : w.received = data.length := h.behind.received_eq

theorem bounded (hroomy : Roomy size t₀.file) (h : Alone size t₀ data w t) :
    w.isUnbounded = false :=
  isUnbounded_whole hroomy.size_le h.slot_eq

/-- The file has room for the rest of the body. -/
theorem hasRoom (hroomy : Roomy size t₀.file) (h : Alone size t₀ data w t) : w.HasRoom t.file := by
  have hoffset : t.file.payloadOffset = t₀.file.payloadOffset := h.behind.offset_eq
  have hle := h.length_le
  have hroom := hroomy.room
  rw [Worker.HasRoom, h.slot_eq, hoffset, h.received_eq]
  change _ + 0 + _ ≤ _
  omega

/-- The only worker is where its counters say. -/
theorem sound (hroomy : Roomy size t₀.file) (h : Alone size t₀ data w t) :
    w.slot.IsSound ∧ w.Sound t.file := by
  refine ⟨?_, h.behind.sound ?_⟩
  · rw [h.slot_eq]
    exact slot_whole_isSound hroomy
  · simp only [Slot.length, Slot.whole]
    have := h.length_le
    omega

/-- All positions of the only worker are words. -/
theorem fits (hroomy : Roomy size t₀.file) (h : Alone size t₀ data w t) :
    Word.Fits (Slot.whole size).resumeStart ∧ (data.length : Int) ≤ Word.maxInt := by
  have hmax := hroomy.size_le
  have hle := h.length_le
  have hzero : Word.Fits 0 := by decide
  refine ⟨hzero, ?_⟩
  unfold Word.maxInt at *
  omega

/-- Nobody else streams. -/
theorem only (h : Alone size t₀ data w t) {v : Worker} (hstream : t.streaming? i = some v) :
    i = 0 ∧ v = w := by
  obtain ⟨hv, -⟩ := streaming?_eq_some.mp hstream
  rw [h.workers_eq] at hv
  cases i with
  | zero => exact ⟨rfl, (Option.some.inj hv).symm⟩
  | succ i => contradiction

/-! ## Chunks -/

/-- The worker takes what is left of its range of a chunk. -/
theorem clip_eq (hroomy : Roomy size t₀.file) (h : Alone size t₀ data w t) (chunk : Bytes) :
    w.clip chunk = chunk.take (size.toNat - data.length) := by
  have hbounded := h.bounded hroomy
  simp only [Worker.clip, hbounded, h.expects hbounded, h.slot_eq, h.received_eq, Slot.whole]
  congr 1
  omega

/-- The only worker takes what fits of a chunk, and cannot fail. -/
theorem receive (hroomy : Roomy size t₀.file) (h : Alone size t₀ data w t) {chunk : Bytes}
    (hreceive : w.receive t.file chunk = (w', p', fault?)) (now : Nat) :
    fault? = none ∧ w'.state = w.state ∧
      Alone size t₀ (data ++ chunk.take (size.toNat - data.length)) w'
        ((t.advance 0 (w', p', none)).report w' now) := by
  obtain ⟨hslot, hsound⟩ := h.sound hroomy
  obtain ⟨hfits, hlength⟩ := h.fits hroomy
  unfold Worker.receive at hreceive
  rw [h.clip_eq hroomy] at hreceive
  cases hpush : w.push t.file (chunk.take (size.toNat - data.length)) with
  | mk w₁ result =>
    obtain ⟨p₁, fault₁?⟩ := result
    obtain ⟨rfl, hreliable, hstate⟩ :=
      Worker.push_reliable hslot hsound h.reliable (h.hasRoom hroomy) hpush
    rw [hpush] at hreceive
    obtain ⟨rfl, rfl, rfl⟩ := hreceive
    obtain ⟨hslot', -, hexpected, -⟩ := Worker.push_counts hpush
    -- as a writer, the worker has made a request that succeeded
    have hbehind := h.behind.call hfits hlength (.push (chunk.take (size.toNat - data.length)))
    simp only [Writer.call, Worker.answer, hpush, Worker.Request.data] at hbehind
    have hwhole : w'.slot = Slot.whole size := hbehind.slot_eq
    have hreceived : w'.received = (data ++ chunk.take (size.toNat - data.length)).length :=
      hbehind.received_eq
    have hunbounded : w'.isUnbounded = false := isUnbounded_whole hroomy.size_le hwhole
    refine ⟨rfl, hstate, ?_, ?_, hbehind, ?_, h.table_eq, hreliable, ?_, h.stopped_eq⟩
    · simp [report, advance, h.workers_eq]
    · intro _
      rw [hexpected, hslot']
      exact h.expects (h.bounded hroomy)
    · have hle := h.length_le
      rw [List.length_append, List.length_take]
      omega
    · have hprogress : w'.progress =
          ((data ++ chunk.take (size.toNat - data.length)).length : Int) := by
        rw [Worker.progress, hreceived, hwhole]
        exact Int.zero_add _
      have hsegment : w'.segmentLength? = some size := by
        rw [Worker.segmentLength?, hunbounded, hwhole]
        simp [Slot.whole]
      have htells := h.tells.update hroomy.pos (data ++ chunk.take (size.toNat - data.length)) now
      simp only [report, advance, hprogress, hsegment, hwhole]
      exact htells

/-- An incident that does not end the body brings some more of it. -/
theorem step (hroomy : Roomy size t₀.file) (h : Alone size t₀ (body.take size.toNat) w t)
    (hstate : w.state = .streaming) (hfatal : t.fatal? = none) {now : Nat} {incident : Incident}
    (hstep : Step t now incident t') (hstop : incident ≠ .stop)
    (hopen : incident ≠ .ended 0 ∧ incident ≠ .broken 0) :
    ∃ w', Alone size t₀ ((body ++ incident.data 0).take size.toNat) w' t' ∧
      w'.state = .streaming ∧ t'.fatal? = none := by
  have hstreams : t.streaming? 0 = some w :=
    streaming?_eq_some.mpr ⟨by rw [h.workers_eq]; rfl, hstate⟩
  cases hstep with
  | halted _ hhalted =>
    rw [isHalted_eq_false.mpr ⟨hfatal, h.stopped_eq⟩] at hhalted
    contradiction
  | stopped _ => exact absurd rfl hstop
  | unheard _ j _ habout hnone =>
    have hother : incident.worker? ≠ some 0 := by
      rw [habout]
      rintro hj
      obtain rfl := Option.some.inj hj
      rw [hstreams] at hnone
      contradiction
    rw [Incident.data_of_ne hother, List.append_nil]
    exact ⟨w, h, hstate, hfatal⟩
  | refused j chunk v w' p' cause _ hstream hreceive =>
    obtain ⟨rfl, rfl⟩ := h.only hstream
    exact absurd (h.receive hroomy hreceive now).1 nofun
  | received j chunk v w' p' _ hstream hreceive =>
    obtain ⟨rfl, rfl⟩ := h.only hstream
    obtain ⟨-, hstate', halone⟩ := h.receive hroomy hreceive now
    refine ⟨w', ?_, hstate'.trans hstate, rfl⟩
    have hdata : (body ++ (Incident.chunk 0 chunk).data 0).take size.toNat =
        body.take size.toNat ++ chunk.take (size.toNat - (body.take size.toNat).length) := by
      rw [List.take_append, List.length_take]
      congr 2
      omega
    rw [hdata]
    exact halone
  | ended j v _ _ _ _ hstream _ =>
    obtain ⟨rfl, -⟩ := h.only hstream
    exact absurd rfl hopen.1
  | broken j v _ hstream =>
    obtain ⟨rfl, -⟩ := h.only hstream
    exact absurd rfl hopen.2

/-- While its body is open, the worker takes all of it that belongs to its range. -/
theorem stream (hroomy : Roomy size t₀.file) (h : Alone size t₀ [] w t₀)
    (hstate : w.state = .streaming) (hfatal : t₀.fatal? = none) {front : List (Nat × Incident)}
    (hstop : ∀ x ∈ front, x.2 ≠ .stop) (hopen : Open front 0) :
    ∃ w', Alone size t₀ ((bodyOf front 0).take size.toNat) w' (t₀.stream front) ∧
      w'.state = .streaming ∧ (t₀.stream front).fatal? = none := by
  induction front using List.reverseRecOn with
  | nil =>
    rw [show bodyOf [] 0 = [] from rfl, List.take_nil]
    exact ⟨w, h, hstate, hfatal⟩
  | append_singleton front x ih =>
    obtain ⟨hfront, hlast⟩ := open_snoc.mp hopen
    obtain ⟨hfrontStop, hlastStop⟩ := List.forall_mem_append.mp hstop
    obtain ⟨w', halone, hstate', hfatal'⟩ := ih hfrontStop hfront
    rw [stream_snoc, bodyOf_snoc]
    exact halone.step hroomy hstate' hfatal' (step_deliver _ _ _) (hlastStop x (by simp)) hlast

/-! ## Ends -/

/-- The worker can be flushed, and then all that it took is in the file. -/
theorem flush (hroomy : Roomy size t₀.file) (h : Alone size t₀ data w t) :
    ∃ p', w.flush t.file = (w.flushed, p', none) ∧ p'.file.Reliable ∧
      ({ worker := w.flushed, file := p', accepted := data } : Writer).Behind (Slot.whole size)
        t₀.file := by
  obtain ⟨hslot, hsound⟩ := h.sound hroomy
  obtain ⟨hfits, hlength⟩ := h.fits hroomy
  cases hflush : w.flush t.file with
  | mk w₁ result =>
    obtain ⟨p', fault?⟩ := result
    obtain ⟨rfl, hreliable⟩ :=
      Worker.flush_reliable hslot hsound h.reliable (h.hasRoom hroomy) hflush
    obtain rfl : w₁ = w.flushed := Worker.flush_result hflush
    exact ⟨p', rfl, hreliable, h.behind.flush hfits hlength hflush⟩

/-- The body breaks off. -/
theorem broken (h : Alone size t₀ data w t) :
    Alone size t₀ data w.fail { t with workers := t.workers.set 0 w.fail } := by
  obtain ⟨hslot, hoffset, hreceived, hwritten, hbuffer, hcapacity, hstart, hfront⟩ := h.behind
  refine ⟨by simp [h.workers_eq], h.expects, ?_, h.length_le, h.table_eq, h.reliable, h.tells,
    h.stopped_eq⟩
  exact ⟨hslot, hoffset, hreceived, hwritten, hbuffer, hcapacity, hstart, hfront⟩

/-- The body ends. -/
theorem ended (hroomy : Roomy size t₀.file) (h : Alone size t₀ data w t)
    (hfinish : w.finish t.file = (w', p', fault?)) :
    Alone size t₀ data w' (t.advance 0 (w', p', fault?)) ∧ w'.state = endState size data false ∧
      fault?.map DownloadError.io = endError? size data false := by
  obtain ⟨p₁, hflush, hreliable, hbehind⟩ := h.flush hroomy
  have hbounded := h.bounded hroomy
  obtain ⟨hslot, hoffset, hreceived, hwritten, hbuffer, hcapacity, hstart, hfront⟩ := hbehind
  rw [Worker.finish_of_flush hbounded h.expects hflush, h.slot_eq, h.received_eq] at hfinish
  have hrange : (Slot.whole size).last - (Slot.whole size).resumeStart + 1 = size := by
    simp [Slot.whole]
  rw [hrange] at hfinish
  unfold endState endError?
  by_cases hshort : (data.length : Int) < size
  · rw [if_pos hshort] at hfinish
    obtain ⟨rfl, rfl, rfl⟩ := hfinish
    refine ⟨⟨by simp [advance, h.workers_eq], h.expects, ?_, h.length_le, h.table_eq, hreliable,
      h.tells, h.stopped_eq⟩, ?_, ?_⟩
    · exact ⟨hslot, hoffset, hreceived, hwritten, hbuffer, hcapacity, hstart, hfront⟩
    · simp [hshort, Worker.fail]
    · simp [hshort, Slot.whole]
  · rw [if_neg hshort] at hfinish
    obtain ⟨rfl, rfl, rfl⟩ := hfinish
    refine ⟨⟨by simp [advance, h.workers_eq], h.expects, ?_, h.length_le, h.table_eq, hreliable,
      h.tells, h.stopped_eq⟩, ?_, ?_⟩
    · exact ⟨hslot, hoffset, hreceived, hwritten, hbuffer, hcapacity, hstart, hfront⟩
    · simp [hshort]
    · simp [hshort]

end Alone

/-- When nobody streams any more, only a stop matters. -/
theorem stream_over (hidle : ∀ w ∈ t.workers, w.state ≠ .streaming)
    {incidents : List (Nat × Incident)} (hstop : ∀ x ∈ incidents, x.2 ≠ .stop) :
    t.stream incidents = t := by
  induction incidents using List.reverseRecOn with
  | nil => rfl
  | append_singleton front x ih =>
    obtain ⟨hfront, hlast⟩ := List.forall_mem_append.mp hstop
    rw [stream_snoc, ih hfront]
    have hnobody : ∀ {i w}, t.streaming? i = some w → False := fun hstream => by
      obtain ⟨hw, hstate⟩ := streaming?_eq_some.mp hstream
      exact hidle _ (List.mem_of_getElem? hw) hstate
    have hstep := step_deliver t x.1 x.2
    have hne : x.2 ≠ .stop := hlast x (by simp)
    generalize x.2 = incident at hstep hne ⊢
    generalize t.deliver x.1 incident = t' at hstep ⊢
    cases hstep with
    | halted _ _ | unheard _ _ _ _ _ => rfl
    | stopped _ => exact absurd rfl hne
    | refused _ _ _ _ _ _ _ hstream _ | received _ _ _ _ _ _ hstream _
    | ended _ _ _ _ _ _ hstream _ | broken _ _ _ hstream => exact (hnobody hstream).elim

/-! ## Closing -/

/-- Flushed, the worker has all that it took in the file, and its segment says so. -/
theorem Alone.flushAll (hroomy : Roomy size t₀.file) (h : Alone size t₀ data w t) :
    ∃ p', p'.payloadOffset = t₀.file.payloadOffset ∧
      p'.file.contents = t₀.file.file.contents.put (t₀.file.payloadOffset, data) ∧
      p'.file.Reliable ∧
      t.flushAll = { t with
        workers := [w.flushed]
        file := p'
        table := { t₀.table with
          segments := t₀.table.segments.modify 0 fun s =>
            { s with session := max s.committed data.length } } } := by
  obtain ⟨p', hflush, hreliable, hbehind⟩ := h.flush hroomy
  have hwritten : w.flushed.written = data.length := by
    have hlength := hbehind.length_buffer
    exact hlength
  refine ⟨p', hbehind.offset_eq, ?_, hreliable, ?_⟩
  · have hfront := hbehind.front
    simp only [hwritten] at hfront
    exact hfront.eq_put
  · have hone : t.flushAll = t.flushOne 0 w := by
      rw [Transfer.flushAll, h.workers_eq]
      rfl
    have hprogress : w.flushed.flushedProgress = data.length := by
      rw [Worker.flushedProgress, hwritten, show w.flushed.slot = Slot.whole size from h.slot_eq]
      exact Int.zero_add _
    have hindex : w.flushed.slot.index = 0 := by
      rw [show w.flushed.slot = Slot.whole size from h.slot_eq]
      rfl
    rw [hone, flushOne_eq hflush]
    simp [h.workers_eq, h.table_eq, recordProgress, hprogress, hindex]

/-- Two runs that are the same in everything that decides how they are closed. -/
structure Alike (u v : Transfer) : Prop where
  states_eq : u.workers.map (·.state) = v.workers.map (·.state)
  table_eq : u.table = v.table
  offset_eq : u.file.payloadOffset = v.file.payloadOffset
  contents_eq : u.file.file.contents = v.file.file.contents
  reliable : u.file.file.Reliable ∧ v.file.file.Reliable
  fatal_eq : u.fatal? = v.fatal?
  stopped_eq : u.stopped = v.stopped
  snapshot_eq : u.reporter.snapshot = v.reporter.snapshot

/-- It does not matter in which chunks the data came. -/
theorem Alone.alike (hroomy : Roomy size t₀.file) (h : Alone size t₀ data w t)
    (h' : Alone size t₀ data w' t') (hstate : w.state = w'.state) (hfatal : t.fatal? = t'.fatal?)
    (hknown : t₀.reporter.snapshot.total ≠ 0 ∨ data ≠ []) : Alike t.flushAll t'.flushAll := by
  obtain ⟨p, hoffset, hcontents, hreliable, hflushed⟩ := h.flushAll hroomy
  obtain ⟨p', hoffset', hcontents', hreliable', hflushed'⟩ := h'.flushAll hroomy
  rw [hflushed, hflushed']
  refine ⟨?_, rfl, hoffset.trans hoffset'.symm, hcontents.trans hcontents'.symm,
    ⟨hreliable, hreliable'⟩, hfatal, h.stopped_eq.trans h'.stopped_eq.symm,
    h.tells.snapshot_eq h'.tells hknown⟩
  simpa [Worker.flushed] using hstate

/-- What two runs have in common. -/
structure Agrees (r r' : Except DownloadError Outcome × Transfer) : Prop where
  outcome_eq : r.1 = r'.1
  table_eq : r.2.table = r'.2.table
  offset_eq : r.2.file.payloadOffset = r'.2.file.payloadOffset
  contents_eq : r.2.file.file.contents = r'.2.file.file.contents
  snapshot_eq : r.2.reporter.snapshot = r'.2.reporter.snapshot

theorem Agrees.refl (r : Except DownloadError Outcome × Transfer) : Agrees r r :=
  ⟨rfl, rfl, rfl, rfl, rfl⟩

namespace Alike

theorem isHalted_eq (h : Alike u v) : u.isHalted = v.isHalted := by
  rw [isHalted, isHalted, h.fatal_eq, h.stopped_eq]

theorem isComplete_eq (h : Alike u v) : u.isComplete = v.isComplete := by
  have hall : ∀ t : Transfer, t.workers.all (·.state == .complete) =
      (t.workers.map (·.state)).all (· == .complete) := fun t => by
    rw [List.all_map]
    rfl
  rw [Transfer.isComplete, Transfer.isComplete, hall, hall, h.states_eq, h.table_eq]

theorem failures_eq (h : Alike u v) : u.failures = v.failures := by
  have hcount : ∀ t : Transfer, t.failures =
      (t.workers.map (·.state)).countP (· != .complete) := fun t => by
    rw [List.countP_map]
    rfl
  rw [hcount, hcount, h.states_eq]

theorem payloadLength_eq (h : Alike u v) : u.payloadLength = v.payloadLength := by
  rw [payloadLength, payloadLength, h.table_eq]

/-- The same progress is committed. -/
theorem checkpoint (h : Alike u v) : Alike u.checkpoint v.checkpoint := by
  obtain ⟨hnone, hreliable, hcontents⟩ := ResumeHeader.update_reliable h.reliable.1 u.table.segments
  obtain ⟨hnone', hreliable', hcontents'⟩ :=
    ResumeHeader.update_reliable h.reliable.2 u.table.segments
  unfold Transfer.checkpoint
  rw [← h.table_eq]
  split
  · refine ⟨h.states_eq, rfl, h.offset_eq, ?_, ⟨hreliable, hreliable'⟩, ?_, h.stopped_eq,
      h.snapshot_eq⟩
    · dsimp only
      rw [hcontents, hcontents', h.contents_eq]
    · dsimp only
      rw [hnone, hnone', h.fatal_eq]
  · exact h

/-- Runs that are alike once they are flushed come to the same. -/
theorem close (h : Alike t.flushAll t'.flushAll) (now now' : Nat) :
    Agrees (t.close now) (t'.close now') := by
  unfold Transfer.close
  dsimp only
  rw [← h.isHalted_eq, ← h.isComplete_eq]
  split
  · refine ⟨?_, h.table_eq, h.offset_eq, h.contents_eq, ?_⟩
    · rw [h.payloadLength_eq]
    · rw [announce_snapshot, announce_snapshot, h.payloadLength_eq]
  · have hcheckpoint := h.checkpoint
    rw [← hcheckpoint.fatal_eq, ← hcheckpoint.stopped_eq, ← hcheckpoint.failures_eq]
    split
    · exact ⟨rfl, hcheckpoint.table_eq, hcheckpoint.offset_eq, hcheckpoint.contents_eq,
        hcheckpoint.snapshot_eq⟩
    · exact ⟨rfl, hcheckpoint.table_eq, hcheckpoint.offset_eq, hcheckpoint.contents_eq,
        hcheckpoint.snapshot_eq⟩

end Alike

/-! ## Runs -/

/-- The run of one worker that streams the whole file. -/
def alone (size : Int) (persist : Bool) (p : PartialFile) (reporter : Reporter) : Transfer :=
  { table :=
      { segments := [{ start := 0, last := size - 1 }], isFresh := true, persists := persist
        size? := some size }
    file := p
    reporter := reporter.reset [0]
    workers := [{ slot := .whole size, state := .streaming, expected? := some size }] }

variable {persist : Bool} {p : PartialFile} {reporter : Reporter} {workers : Nat}
  {course : Course}

/-- Nothing of a plan is left when it collapses. -/
theorem accept_ignored (hpos : 0 < size) (hmax : size ≤ Word.maxInt) (length? : Option Nat)
    (rest : List Reply) :
    (begin (Table.fresh (some size) workers persist) p reporter).accept
        (.answered 200 length? :: rest) = .ok (alone size persist p reporter) := by
  have hknown := Table.known_fresh_of_pos hpos hmax workers persist
  have hwhole : (Table.fresh (some size) workers persist).begin.whole =
      { start := 0, last := size - 1 } := hknown.begin.whole_eq
  rw [accept_whole hknown rfl]
  have htable : (begin (Table.fresh (some size) workers persist) p reporter).table.collapse =
      (alone size persist p reporter).table := by
    simp only [alone, begin, Table.collapse, hwhole]
    simp only [Table.begin, hknown.size_eq, hknown.persists_fresh]
    rfl
  have hworker : (request (.whole size)).begin length? =
      { slot := .whole size, state := .streaming, expected? := some size } := by
    have hbounded : (request (.whole size)).isUnbounded = false := isUnbounded_whole hmax rfl
    rw [Worker.begin, hbounded]
    simp [request, Slot.whole]
  refine congrArg Except.ok ?_
  rw [collapse, htable]
  simp only [begin, hwhole]
  -- the reporter is reset twice, which is the same as once
  change ({ alone size persist p (reporter.reset _) with
    workers := [(request (.whole size)).begin length?] } : Transfer) = _
  rw [hworker]
  rfl

/-- The file of a fresh plan cannot be prepared if it has no room. -/
theorem room_of_prepare (hfresh : t.table.isFresh = true) (hsize : t.table.size? = some size)
    (h : t.prepare = (t', none)) : t.table.headerSize + size.toNat ≤ OpenFile.maxPosition := by
  have htable : t.writeHeader.1.table = t.table := by
    unfold writeHeader
    split <;> rfl
  unfold prepare at h
  split at h
  · exact absurd (Prod.mk.inj h).2 (Option.some_ne_none _)
  · next u hu =>
    rw [hu] at htable
    have htable : u.setPayloadOffset.table = t.table := htable
    unfold reserve at h
    rw [htable, hfresh, hsize] at h
    exact OpenFile.setLength_room (congrArg Prod.snd h)

/-- A worker that is about to stream the whole file. -/
theorem alone_ready (hpos : 0 < size) (hmax : size ≤ Word.maxInt) (hreliable : p.file.Reliable)
    (hprepare : (alone size persist p reporter).prepare = (t₀, none)) :
    Roomy size t₀.file ∧ t₀.fatal? = none ∧
      t₀.reporter.snapshot.total = reporter.snapshot.total ∧
      ∃ w, w.state = .streaming ∧ Alone size t₀ [] w t₀ := by
  have hroom : (alone size persist p reporter).table.headerSize + size.toNat ≤
      OpenFile.maxPosition := room_of_prepare rfl rfl hprepare
  have hreliable₀ : t₀.file.file.Reliable := by
    obtain ⟨t', hprepare', hreliable'⟩ :=
      prepare_reliable (t := alone size persist p reporter) hreliable hroom
    obtain rfl := (Prod.mk.inj (hprepare.symm.trans hprepare')).1
    exact hreliable'
  have hoffset := prepare_offset hprepare
  have hfile := prepare_file hprepare
  obtain ⟨htable, hworkers, hfatal, -⟩ := prepare_eq hprepare
  have hreporter : t₀.reporter = reporter.reset [0] := by
    rw [hfile]
    rfl
  refine ⟨⟨hpos, hmax, ?_⟩, hfatal, ?_, _, rfl, hworkers, ?_, ?_, Nat.zero_le _, rfl, hreliable₀,
    ?_, ?_⟩
  · rw [hoffset, htable]
    exact hroom
  · rw [hreporter]
    rfl
  · intro _
    simp [Slot.whole]
  · exact ⟨rfl, rfl, rfl, Nat.le_refl _, rfl, Nat.zero_le _, absurd rfl, Or.inl ⟨rfl, rfl⟩⟩
  · rw [hreporter]
    exact reporter.tells_reset size
  · rw [hfile]
    rfl

/-- The body for a worker that is alone ends, or breaks off. -/
theorem Alone.stream_ends (hroomy : Roomy size t₀.file) (h : Alone size t₀ [] w t₀)
    (hstate : w.state = .streaming) (hfatal : t₀.fatal? = none) {broken : Bool}
    (hsends : course.Sends body broken) :
    ∃ w', Alone size t₀ (body.take size.toNat) w' (t₀.stream course.incidents) ∧
      w'.state = endState size (body.take size.toNat) broken ∧
      (t₀.stream course.incidents).fatal? = endError? size (body.take size.toNat) broken := by
  obtain ⟨hstop, front, now, rest, hincidents, hopen, rfl⟩ := hsends
  rw [hincidents] at hstop ⊢
  obtain ⟨hfront, hrest⟩ := List.forall_mem_append.mp hstop
  obtain ⟨-, hrest⟩ := List.forall_mem_cons.mp hrest
  obtain ⟨w₁, halone, hstate₁, hfatal₁⟩ := h.stream hroomy hstate hfatal hfront hopen
  have hstream : ∀ e : Incident, t₀.stream (front ++ (now, e) :: rest) =
      ((t₀.stream front).deliver now e).stream rest := fun e => by
    simp [Transfer.stream]
  have hrunning : (t₀.stream front).isHalted = false :=
    isHalted_eq_false.mpr ⟨hfatal₁, halone.stopped_eq⟩
  have hstreams : (t₀.stream front).streaming? 0 = some w₁ :=
    streaming?_eq_some.mpr ⟨by rw [halone.workers_eq]; rfl, hstate₁⟩
  -- behind its end, nothing arrives for the worker any more
  have hover : ∀ {t : Transfer} {w' : Worker},
      Alone size t₀ ((bodyOf front 0).take size.toNat) w' t →
      w'.state = endState size ((bodyOf front 0).take size.toNat) broken → t.stream rest = t := by
    intro t w' halone' hstate'
    refine stream_over (fun v hv => ?_) hrest
    rw [halone'.workers_eq] at hv
    rw [List.mem_singleton.mp hv, hstate', endState]
    split <;> exact WorkerState.noConfusion
  rw [hstream]
  cases broken with
  | true =>
    have hdeliver : (t₀.stream front).deliver now (.broken 0) =
        { t₀.stream front with workers := (t₀.stream front).workers.set 0 w₁.fail } := by
      simp [deliver, hrunning, hstreams]
    have hstate' : w₁.fail.state =
        endState size ((bodyOf front 0).take size.toNat) true := by
      simp [endState, Worker.fail]
    rw [if_pos rfl, hdeliver, hover halone.broken hstate']
    refine ⟨w₁.fail, halone.broken, hstate', hfatal₁.trans ?_⟩
    simp [endError?]
  | false =>
    have hdeliver : (t₀.stream front).deliver now (.ended 0) =
        (t₀.stream front).advance 0 (w₁.finish (t₀.stream front).file) := by
      simp [deliver, hrunning, hstreams]
    cases hfinish : w₁.finish (t₀.stream front).file with
    | mk w' result =>
      obtain ⟨p', fault?⟩ := result
      obtain ⟨halone', hstate', hfault⟩ := halone.ended hroomy hfinish
      rw [if_neg Bool.false_ne_true, hdeliver, hfinish, hover halone' hstate']
      exact ⟨w', halone', hstate', hfault⟩

/-- Runs of one worker that get the same body come to the same. -/
theorem carryOn_agrees (hpos : 0 < size) (hmax : size ≤ Word.maxInt) {course' : Course}
    {broken : Bool} (hreliable : p.file.Reliable) (hsends : course.Sends body broken)
    (hsends' : course'.Sends body broken) (hknown : reporter.snapshot.total ≠ 0 ∨ body ≠ []) :
    Agrees ((alone size persist p reporter).carryOn course)
      ((alone size persist p reporter).carryOn course') := by
  unfold carryOn
  cases hprepare : (alone size persist p reporter).prepare with
  | mk t₀ fault? =>
    cases fault? with
    | some fault => exact Agrees.refl _
    | none =>
      obtain ⟨hroomy, hfatal, htotal, w, hstate, halone⟩ :=
        alone_ready hpos hmax hreliable hprepare
      obtain ⟨w₁, halone₁, hstate₁, hfatal₁⟩ := halone.stream_ends hroomy hstate hfatal hsends
      obtain ⟨w₂, halone₂, hstate₂, hfatal₂⟩ := halone.stream_ends hroomy hstate hfatal hsends'
      refine Alike.close (halone₁.alike hroomy halone₂ (hstate₁.trans hstate₂.symm)
        (hfatal₁.trans hfatal₂.symm) ?_) _ _
      rw [htotal]
      refine hknown.imp_right fun hbody htake => ?_
      rcases List.take_eq_nil_iff.mp htake with hzero | hnil
      · omega
      · exact hbody hnil

/-- The range of each segment. -/
def extents (segments : List Segment) : List (Int × Int) := segments.map fun s => (s.start, s.last)

/-- Recording progress moves no segment. -/
theorem extents_recordAll (workers : List Worker) (segments : List Segment) :
    extents (recordAll workers segments) = extents segments := by
  have hbegin : ∀ segments : List Segment,
      extents segments = (segments.map Segment.begin).map fun s => (s.start, s.last) := by
    intro segments
    rw [List.map_map]
    rfl
  rw [hbegin, hbegin segments, map_begin_recordAll]

/-- Behind the replies no segment moves. -/
theorem extents_carryOn (t : Transfer) (course : Course) :
    extents (t.carryOn course).2.table.segments = extents t.table.segments := by
  unfold carryOn
  cases hprepare : t.prepare with
  | mk t₀ fault? =>
    have htable := (prepare_eq hprepare).1
    cases fault? with
    | some fault =>
      dsimp only
      rw [htable]
    | none =>
      have hflushed : extents (t₀.stream course.incidents).flushAll.table.segments =
          extents t.table.segments := by
        rw [(flushAll_flushed _).table_eq, extents_recordAll, stream_table, htable]
      dsimp only
      cases hclose : (t₀.stream course.incidents).close course.closing with
      | mk outcome t' =>
        cases close_closes hclose with
        | completed _ _ => exact hflushed
        | failed _ _ | interrupted _ _ | incomplete _ _ _ =>
          rw [← hflushed, checkpoint_segments]
          split
          · simp [extents, Segment.commit, Function.comp_def]
          · rfl

/-- A run whose table has one segment, for the whole file. -/
def IsWhole (size : Int) (t : Transfer) : Prop :=
  ∃ s, t.table.segments = [s] ∧ s.start = 0 ∧ s.last = size - 1

/-- A run with one segment ends with one segment. -/
theorem isWhole_carryOn (course : Course) :
    IsWhole size ((alone size persist p reporter).carryOn course).2 := by
  have hextents := extents_carryOn (alone size persist p reporter) course
  obtain ⟨s, hs, heq⟩ := List.map_eq_singleton_iff.mp hextents
  obtain ⟨hstart, hlast⟩ := Prod.mk.inj heq
  exact ⟨s, hs, hstart, hlast⟩

/-- When the server ignores ranges, it does not matter how many segments were planned.  In the same
course two plans come to exactly the same; if the file is reliable, the same body is enough, in
whatever chunks it comes and whenever.  The reporter has to know the total, as the one of a job
does, or learn it from the body. -/
theorem run_collapsed (hpos : 0 < size) (hmax : size ≤ Word.maxInt) (persist : Bool)
    (p : PartialFile) (reporter : Reporter) (workers₁ workers₂ : Nat) {course₁ course₂ : Course}
    (hignores₁ : course₁.IgnoresRanges) (hignores₂ : course₂.IgnoresRanges) :
    IsWhole size (run (.fresh (some size) workers₁ persist) p reporter course₁).2 ∧
      IsWhole size (run (.fresh (some size) workers₂ persist) p reporter course₂).2 ∧
      (course₁.incidents = course₂.incidents → course₁.closing = course₂.closing →
        run (.fresh (some size) workers₁ persist) p reporter course₁ =
          run (.fresh (some size) workers₂ persist) p reporter course₂) ∧
      ∀ body broken, course₁.Sends body broken → course₂.Sends body broken → p.file.Reliable →
        (reporter.snapshot.total ≠ 0 ∨ body ≠ []) →
        Agrees (run (.fresh (some size) workers₁ persist) p reporter course₁)
          (run (.fresh (some size) workers₂ persist) p reporter course₂) := by
  have hrun : ∀ {workers course}, Course.IgnoresRanges course →
      run (.fresh (some size) workers persist) p reporter course =
        (alone size persist p reporter).carryOn course := by
    rintro workers course ⟨length?, rest, hreplies⟩
    exact run_of_accepted hreplies (accept_ignored hpos hmax length? rest)
  rw [hrun hignores₁, hrun hignores₂]
  refine ⟨isWhole_carryOn _, isWhole_carryOn _, fun hincidents hclosing => ?_, ?_⟩
  · rw [carryOn, carryOn, hincidents, hclosing]
  · intro body broken hsends₁ hsends₂ hreliable hknown
    exact carryOn_agrees hpos hmax hreliable hsends₁ hsends₂ hknown

/-- One connection gets three of five bytes at once. -/
def atOnce : Course :=
  { replies? := some [.answered 200 none]
    incidents := [(0, .chunk 0 [1, 2, 3]), (1, .broken 0)] }

/-- The first of three connections gets them one after the other. -/
def oneByOne : Course :=
  { replies? := some (.replicate 3 (.answered 200 (some 3)))
    incidents := [(0, .chunk 0 [1]), (4, .chunk 2 [7]), (5, .chunk 0 [2]), (9, .chunk 0 [3]),
      (9, .broken 0), (9, .ended 1)]
    closing := 10 }

/-- One and three connections for five bytes, of which three arrive. -/
theorem run_collapsed_short :
    run (.fresh (some 5) 1 true) {} (.new (some 5) 0 {})
          { atOnce with replies? := oneByOne.replies? } =
        run (.fresh (some 5) 3 true) {} (.new (some 5) 0 {}) atOnce ∧
      Agrees (run (.fresh (some 5) 1 true) {} (.new (some 5) 0 {}) atOnce)
        (run (.fresh (some 5) 3 true) {} (.new (some 5) 0 {}) oneByOne) ∧
      (run (.fresh (some 5) 3 true) {} (.new (some 5) 0 {}) oneByOne).1 = .ok (.incomplete 1) := by
  have hatOnce : atOnce.Sends [1, 2, 3] true :=
    ⟨by decide, [(0, .chunk 0 [1, 2, 3])], 1, [], rfl, by simp [Open], rfl⟩
  have honeByOne : oneByOne.Sends [1, 2, 3] true :=
    ⟨by decide, [(0, .chunk 0 [1]), (4, .chunk 2 [7]), (5, .chunk 0 [2]), (9, .chunk 0 [3])], 9,
      [(9, .ended 1)], rfl, by simp [Open], rfl⟩
  have hreliable : ({} : PartialFile).file.Reliable := ⟨rfl, rfl, by decide⟩
  refine ⟨?_, ?_, by decide +kernel⟩
  · exact (run_collapsed (by decide) (by decide) true {} (.new (some 5) 0 {}) 1 3
      ⟨some 3, _, rfl⟩ ⟨none, [], rfl⟩).2.2.1 rfl rfl
  · exact (run_collapsed (by decide) (by decide) true {} (.new (some 5) 0 {}) 1 3
      ⟨none, [], rfl⟩ ⟨some 3, _, rfl⟩).2.2.2 _ _ hatOnce honeByOne hreliable
        (Or.inl (by decide))

end Transfer

end SegmentedDownload
