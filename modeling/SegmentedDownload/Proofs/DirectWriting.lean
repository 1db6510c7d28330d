import Mathlib
import SegmentedDownload.Worker
import SegmentedDownload.Proofs.WriteOrder

/-!
# SegmentedDownload.Proofs.DirectWriting

Writing through the buffer of a worker comes to the same as writing directly, also on a file
that fails now and then.

A `Writer` is a worker and its file, together with the data that the worker has accepted: all
that came with requests that succeeded.

* A write of a buffer stores a front part of it (`PartialFile.writePayload_cases`).  The write
  that follows begins at the same place, since `written` is only counted after a success, so it
  goes over that front part (`Bytes.splice_onward`).
* `Writer.Behind` is the invariant: the file is the old one with a front part of the accepted
  data in its place, at least the `written` bytes, and the buffer is what is behind these.
  Each request keeps it (`Writer.Behind.call`).
* `Writer.play_refines` says what that means for a caller.
-/

namespace SegmentedDownload

/-! ## Front parts -/

namespace Bytes

variable {old new data : Bytes} {pos n : Nat}

/-- Storing data from a place inside of a front part of it that is stored already. -/
theorem splice_onward (contents : Bytes) (pos : Nat) {k : Nat} (m : Nat) (hn : n ≤ k)
    (hdata : n ≤ data.length) :
    (contents.splice pos (data.take k)).splice (pos + n) ((data.drop n).take m) =
      contents.splice pos (data.take (max k (n + m))) := by
  apply List.ext_getElem?
  intro i
  simp only [getElem?_splice, List.length_take, List.length_drop, List.getElem?_take,
    List.getElem?_drop]
  grind

/-- Contents with at least the first `n` bytes of some data in their place, and perhaps some more
of it. -/
def Front (old : Bytes) (pos : Nat) (data : Bytes) (n : Nat) (new : Bytes) : Prop :=
  n = 0 ∧ new = old ∨
    data ≠ [] ∧ ∃ k, n ≤ k ∧ k ≤ data.length ∧ new = old.splice pos (data.take k)

/-- Contents that were not changed outside of a range, except that a gap between the old end and
the range was filled with zeros. -/
def SameOutside (old : Bytes) (pos len : Nat) (new : Bytes) : Prop :=
  ∀ k, k < pos ∨ pos + len ≤ k →
    new[k]? = old[k]? ∨ old.length ≤ k ∧ k < pos ∧ new[k]? = some 0

namespace Front

/-- Storing a piece of the data that begins at the first byte that is not counted. -/
theorem onward (h : old.Front pos data n new) (hn : n ≤ data.length) (hdata : data ≠ []) {m : Nat}
    (hm : n + m ≤ data.length) (k : Nat) (hk : m ≤ k) :
    old.Front pos data (n + m) (new.splice (pos + n) ((data.drop n).take k)) := by
  have hpiece : (data.drop n).take k = (data.drop n).take (min k (data.length - n)) := by
    rw [← List.length_drop, ← List.take_eq_take_min]
  refine Or.inr ⟨hdata, ?_⟩
  rw [hpiece]
  rcases h with ⟨rfl, rfl⟩ | ⟨-, j, hnj, hj, rfl⟩
  · exact ⟨min k data.length, by omega, by omega, rfl⟩
  · exact ⟨max j (n + min k (data.length - n)), by omega, by omega, splice_onward _ _ _ hnj hn⟩

/-- A front part of some data is one of any longer data. -/
theorem append (h : old.Front pos data n new) (more : Bytes) :
    old.Front pos (data ++ more) n new := by
  rcases h with h | ⟨hdata, k, hnk, hk, rfl⟩
  · exact Or.inl h
  · refine Or.inr ⟨by simp [hdata], k, hnk, ?_, ?_⟩
    · rw [List.length_append]
      omega
    · rw [List.take_append_of_le_length hk]

/-- The counted bytes are read back. -/
theorem slice_eq (h : old.Front pos data n new) : new.slice pos n = data.take n := by
  rcases h with ⟨rfl, rfl⟩ | ⟨-, k, hnk, hk, rfl⟩
  · rw [slice_zero, List.take_zero]
  · have hslice := slice_splice old pos (data.take k)
    have hfront : (data.take k).length = k := by rw [List.length_take, Nat.min_eq_left hk]
    rw [hfront] at hslice
    calc (old.splice pos (data.take k)).slice pos n
        = ((old.splice pos (data.take k)).slice pos k).take n := by
          rw [slice, slice, List.take_take, Nat.min_eq_left hnk]
      _ = data.take n := by rw [hslice, List.take_take, Nat.min_eq_left hnk]

/-- When all data is counted, it is in its place. -/
theorem eq_put (h : old.Front pos data data.length new) : new = old.put (pos, data) := by
  rcases h with ⟨hlength, rfl⟩ | ⟨hdata, k, hnk, -, rfl⟩
  · rw [List.length_eq_zero_iff.mp hlength, put_nil]
  · rw [put_of_ne hdata, List.take_of_length_le hnk]

/-- Outside of the range of the data nothing is changed. -/
theorem sameOutside (h : old.Front pos data n new) : old.SameOutside pos data.length new := by
  intro i hi
  rcases h with ⟨-, rfl⟩ | ⟨-, k, -, hk, rfl⟩
  · exact Or.inl rfl
  · rw [getElem?_splice, List.length_take, Nat.min_eq_left hk]
    by_cases hpos : i < pos
    · rw [if_pos hpos]
      by_cases hold : i < old.length
      · rw [List.getElem?_eq_getElem hold]
        exact Or.inl rfl
      · rw [List.getElem?_eq_none (by omega)]
        exact Or.inr ⟨by omega, hpos, rfl⟩
    · rw [if_neg hpos, if_neg (by omega)]
      exact Or.inl rfl

end Front

end Bytes

/-! ## Writes that may fail -/

/-- A write either fails and changes nothing, or it stores a front part of its data at a position
that a file has, and all of it unless it fails. -/
theorem OpenFile.write_cases (f : OpenFile) (pos : Nat) {data : Bytes} (hdata : data ≠ []) :
    (f.write pos data).2 ≠ none ∧ (f.write pos data).1.contents = f.contents ∨
      pos ≤ maxPosition ∧ ∃ n, ((f.write pos data).2 = none → data.length ≤ n) ∧
        (f.write pos data).1.contents = f.contents.splice pos (data.take n) := by
  have hstore : ∀ g : OpenFile, (g.store pos data).2 = none →
      data.length ≤ g.room pos data.length := by
    intro g h
    unfold store at h
    simpa using h
  unfold write
  split
  · exact Or.inl ⟨nofun, rfl⟩
  · next hpos =>
    rw [if_neg (by simpa using hdata)]
    split
    · exact Or.inl ⟨nofun, rfl⟩
    · split
      · exact Or.inr ⟨by omega, _, hstore _, rfl⟩
      · exact Or.inr ⟨by omega, _, hstore _, rfl⟩
      · next k _ _ =>
        dsimp only
        split
        · exact Or.inl ⟨nofun, rfl⟩
        · exact Or.inr ⟨by omega, k, nofun, rfl⟩

/-- A write of a payload that fails may have written any front of its data. -/
theorem PartialFile.writePayload_cases {p p' : PartialFile} {position : Nat} {data : Bytes}
    {fault? : Option IoError} (hdata : data ≠ [])
    (h : p.writePayload position data = (p', fault?)) :
    fault? ≠ none ∧ p'.file.contents = p.file.contents ∨
      p.payloadOffset + position ≤ OpenFile.maxPosition ∧
        ∃ n, (fault? = none → data.length ≤ n) ∧ p'.file.contents =
          p.file.contents.splice (p.payloadOffset + position) (data.take n) := by
  unfold writePayload at h
  split at h
  · obtain ⟨rfl, rfl⟩ := Prod.mk.inj h
    exact Or.inl ⟨nofun, rfl⟩
  · obtain ⟨rfl, rfl⟩ := Prod.mk.inj h
    exact p.file.write_cases _ hdata

/-! ## Requests -/

namespace Worker

/-- The ways in which a worker answers a request. -/
inductive Answers (w : Worker) (p : PartialFile) :
    Request → Worker → PartialFile → Option IoError → Prop
  | refused (request : Request) (p' : PartialFile) (e : IoError)
      (hflush : w.flush p = (w, p', some e)) : Answers w p request w p' (some e)
  | flushed (p' : PartialFile) (hflush : w.flush p = (w.flushed, p', none)) :
    Answers w p .flush w.flushed p' none
  | kept (data : Bytes) (hroom : w.buffer.length + data.length ≤ w.capacity) :
    Answers w p (.push data) (w.append data) p none
  | emptied (data : Bytes) (p' : PartialFile) (hflush : w.flush p = (w.flushed, p', none)) :
    Answers w p (.push data) ((w.flushed.enlarge data.length).append data) p' none

/-- What a worker does with a request is one of the cases of `Answers`. -/
theorem answer_answers (w : Worker) (p : PartialFile) (request : Request) :
    w.Answers p request (w.answer p request).1 (w.answer p request).2.1
      (w.answer p request).2.2 := by
  cases hflush : w.flush p with
  | mk w' result =>
    obtain ⟨p', fault?⟩ := result
    have hw' := flush_result hflush
    cases request with
    | flush =>
      rw [answer, hflush]
      cases fault? with
      | some e =>
        obtain rfl : w' = w := hw'
        exact .refused _ p' e hflush
      | none =>
        obtain rfl : w' = w.flushed := hw'
        exact .flushed p' hflush
    | push data =>
      rw [answer, push, hflush]
      split
      · cases fault? with
        | some e =>
          obtain rfl : w' = w := hw'
          exact .refused _ p' e hflush
        | none =>
          obtain rfl : w' = w.flushed := hw'
          exact .emptied data p' hflush
      · exact .kept data (by omega)

theorem enlarge_buffer (w : Worker) (n : Nat) : (w.flushed.enlarge n).buffer = [] := by
  unfold enlarge
  split <;> rfl

/-- An enlarged buffer has room for what it was enlarged for, and never less than before. -/
theorem enlarge_capacity (w : Worker) (n : Nat) :
    n ≤ (w.enlarge n).capacity ∧ w.capacity ≤ (w.enlarge n).capacity := by
  unfold enlarge
  split
  · exact ⟨Nat.le_add_right _ _, by dsimp only; omega⟩
  · exact ⟨by omega, Nat.le_refl _⟩

end Worker

/-- A worker, its file, and the data that it has accepted. -/
structure Writer where
  worker : Worker
  file : PartialFile
  accepted : Bytes := []
deriving Repr, DecidableEq

namespace Writer

/-- A worker that has not taken anything yet. -/
def new (slot : Slot) (capacity : Nat) (file : PartialFile) : Writer :=
  { worker := { slot, capacity }, file }

/-- One request.  Its data is accepted if it succeeds. -/
def call (s : Writer) (request : Worker.Request) : Writer × Option IoError :=
  match s.worker.answer s.file request with
  | (worker, file, some e) => ({ s with worker, file }, some e)
  | (worker, file, none) => ({ worker, file, accepted := s.accepted ++ request.data }, none)

/-- Some requests, one after the other.  After an error the caller may go on, or try again. -/
def play (s : Writer) (requests : List Worker.Request) : Writer :=
  requests.foldl (fun s request => (s.call request).1) s

/-- Where a worker is after some requests: a front part of the accepted data is in the file, and
what is behind the `written` bytes of it is in the buffer. -/
structure Behind (slot : Slot) (start : PartialFile) (s : Writer) : Prop where
  slot_eq : s.worker.slot = slot
  offset_eq : s.file.payloadOffset = start.payloadOffset
  received_eq : s.worker.received = s.accepted.length
  written_le : s.worker.written ≤ s.accepted.length
  buffer_eq : s.worker.buffer = s.accepted.drop s.worker.written
  buffer_le : s.worker.buffer.length ≤ s.worker.capacity
  start_nonneg : s.worker.written ≠ 0 → 0 ≤ slot.resumeStart
  front : start.file.contents.Front (start.payloadOffset + slot.resumeStart.toNat) s.accepted
    s.worker.written s.file.file.contents

/-- A new writer is behind nothing. -/
theorem behind_new (slot : Slot) (capacity : Nat) (start : PartialFile) :
    (new slot capacity start).Behind slot start :=
  ⟨rfl, rfl, rfl, Nat.le_refl _, rfl, Nat.zero_le _, absurd rfl, Or.inl ⟨rfl, rfl⟩⟩

namespace Behind

variable {slot : Slot} {start : PartialFile} {s : Writer}

/-- What was accepted is written or buffered. -/
theorem length_buffer (h : s.Behind slot start) :
    s.worker.written + s.worker.buffer.length = s.accepted.length := by
  have := h.written_le
  rw [h.buffer_eq, List.length_drop]
  omega

/-- If a write of the buffer stores anything, it is at the place of the buffer. -/
theorem position_eq (h : s.Behind slot start) (hfits : Word.Fits slot.resumeStart)
    (hlength : (s.accepted.length : Int) ≤ Word.maxInt)
    (hpos : Word.toUnsigned (slot.resumeStart + s.worker.written) ≤ OpenFile.maxPosition) :
    0 ≤ slot.resumeStart ∧ Word.toUnsigned (slot.resumeStart + s.worker.written) =
      slot.resumeStart.toNat + s.worker.written := by
  have hwritten := h.written_le
  refine Slot.position_eq hfits ?_ hpos h.start_nonneg
  -- a sum past the largest word is not a position
  by_contra hmax
  have := hfits.2
  unfold Word.toUnsigned OpenFile.maxPosition at hpos
  unfold Word.maxInt at *
  omega

/-- Writing the buffer keeps a front part of the accepted data in the file. -/
theorem flush (h : s.Behind slot start) (hfits : Word.Fits slot.resumeStart)
    (hlength : (s.accepted.length : Int) ≤ Word.maxInt) {w : Worker} {p : PartialFile}
    {fault? : Option IoError} (hflush : s.worker.flush s.file = (w, p, fault?)) :
    { s with worker := w, file := p }.Behind slot start := by
  by_cases hbuffer : s.worker.buffer = []
  · obtain ⟨rfl, rfl, -⟩ := Worker.flush_nil hflush hbuffer
    exact h
  obtain ⟨hwrite, rfl⟩ := Worker.flush_eq hflush hbuffer
  have hoffset := PartialFile.writePayload_offset s.file
    (Word.toUnsigned (s.worker.slot.resumeStart + s.worker.written)) s.worker.buffer
  rw [hwrite, h.offset_eq] at hoffset
  have haccepted : s.accepted ≠ [] := by
    rintro hnil
    rw [h.buffer_eq, hnil, List.drop_nil] at hbuffer
    exact hbuffer rfl
  have hlen := h.length_buffer
  have hcases := PartialFile.writePayload_cases hbuffer hwrite
  rw [h.slot_eq, h.offset_eq] at hcases
  rcases hcases with ⟨hfault, hsame⟩ | ⟨hpos, n, hn, hcontents⟩
  · obtain ⟨e, rfl⟩ := Option.ne_none_iff_exists'.mp hfault
    exact ⟨h.slot_eq, hoffset, h.received_eq, h.written_le, h.buffer_eq, h.buffer_le,
      h.start_nonneg, hsame ▸ h.front⟩
  · obtain ⟨hnonneg, hposition⟩ := h.position_eq hfits hlength (by omega)
    rw [hposition, ← Nat.add_assoc, h.buffer_eq] at hcontents
    cases fault? with
    | some e =>
      refine ⟨h.slot_eq, hoffset, h.received_eq, h.written_le, h.buffer_eq, h.buffer_le,
        h.start_nonneg, ?_⟩
      rw [hcontents]
      exact h.front.onward (m := 0) h.written_le haccepted h.written_le n (Nat.zero_le n)
    | none =>
      have hfront := h.front.onward (m := s.worker.buffer.length) h.written_le haccepted
        (by omega) n (hn rfl)
      rw [← hcontents] at hfront
      refine ⟨h.slot_eq, hoffset, h.received_eq, ?_, ?_, Nat.zero_le _, fun _ => hnonneg, hfront⟩
      · exact Nat.le_of_eq hlen
      · exact (List.drop_of_length_le (Nat.le_of_eq hlen.symm)).symm

/-- Accepting data that there is room for. -/
theorem append (h : s.Behind slot start) {data : Bytes}
    (hroom : s.worker.buffer.length + data.length ≤ s.worker.capacity) :
    { s with worker := s.worker.append data, accepted := s.accepted ++ data }.Behind slot start := by
  refine ⟨h.slot_eq, h.offset_eq, ?_, ?_, ?_, ?_, h.start_nonneg, h.front.append data⟩
  · simp [Worker.append, h.received_eq]
  · exact Nat.le_trans h.written_le (by simp)
  · simp [Worker.append, h.buffer_eq, List.drop_append_of_le_length h.written_le]
  · simpa [Worker.append] using hroom

theorem enlarge (h : s.Behind slot start) (hbuffer : s.worker.buffer = []) (n : Nat) :
    { s with worker := s.worker.enlarge n }.Behind slot start := by
  unfold Worker.enlarge
  split
  · exact ⟨h.slot_eq, h.offset_eq, h.received_eq, h.written_le, hbuffer ▸ h.buffer_eq,
      Nat.zero_le _, h.start_nonneg, h.front⟩
  · exact h

end Behind

/-! ## Whole sequences of requests -/

variable {slot : Slot} {start : PartialFile} {s : Writer} {requests : List Worker.Request}

/-- A call of the writer answers as its worker does, and accepts the data unless it fails. -/
theorem call_answers (s : Writer) (request : Worker.Request) :
    s.worker.Answers s.file request (s.call request).1.worker (s.call request).1.file
        (s.call request).2 ∧
      (s.call request).1.accepted =
        if (s.call request).2 = none then s.accepted ++ request.data else s.accepted := by
  have hanswers := s.worker.answer_answers s.file request
  unfold call
  generalize s.worker.answer s.file request = result at hanswers ⊢
  obtain ⟨w, p, _ | e⟩ := result
  · exact ⟨hanswers, rfl⟩
  · exact ⟨hanswers, rfl⟩

/-- What was accepted stays accepted. -/
theorem accepted_front (s : Writer) (request : Worker.Request) :
    s.accepted <+: (s.call request).1.accepted := by
  rw [(s.call_answers request).2]
  split
  · exact List.prefix_append _ _
  · exact List.prefix_rfl

/-- Each request keeps the invariant, whatever becomes of it. -/
theorem Behind.call (h : s.Behind slot start) (hfits : Word.Fits slot.resumeStart)
    (hlength : (s.accepted.length : Int) ≤ Word.maxInt) (request : Worker.Request) :
    (s.call request).1.Behind slot start := by
  obtain ⟨hanswers, haccepted⟩ := s.call_answers request
  generalize s.call request = result at hanswers haccepted ⊢
  obtain ⟨⟨w, p, accepted⟩, fault?⟩ := result
  dsimp only at hanswers haccepted ⊢
  rw [haccepted]
  cases hanswers with
  | refused _ _ e hflush => exact h.flush hfits hlength hflush
  | flushed _ hflush =>
    simpa [Worker.Request.data] using h.flush hfits hlength hflush
  | kept data hroom => exact h.append hroom
  | emptied data _ hflush =>
    have hflushed := h.flush hfits hlength hflush
    refine (hflushed.enlarge rfl data.length).append ?_
    rw [Worker.enlarge_buffer, List.length_nil, Nat.zero_add]
    exact (Worker.enlarge_capacity _ _).1

theorem play_snoc (s : Writer) (requests : List Worker.Request) (request : Worker.Request) :
    s.play (requests ++ [request]) = ((s.play requests).call request).1 := by
  simp [play]

/-- The writer stays behind what it has accepted, whatever is asked of it. -/
theorem play_behind (hstart : s.Behind slot start) (hfits : Word.Fits slot.resumeStart)
    (hlength : ((s.play requests).accepted.length : Int) ≤ Word.maxInt) :
    (s.play requests).Behind slot start := by
  induction requests using List.reverseRecOn with
  | nil => exact hstart
  | append_singleton requests request ih =>
    rw [play_snoc] at hlength ⊢
    have hle := ((s.play requests).accepted_front request).length_le
    exact (ih (by omega)).call hfits (by omega) request

/-- What a caller can see of a writer: the accepted data is in the file up to the bytes in the
buffer, and the file is the old one elsewhere. -/
structure Refines (slot : Slot) (start : PartialFile) (s : Writer) : Prop where
  offset_eq : s.file.payloadOffset = start.payloadOffset
  received_eq : s.worker.received = s.worker.written + s.worker.buffer.length
  accepted_eq : s.worker.received = s.accepted.length
  buffer_le : s.worker.buffer.length ≤ s.worker.capacity
  stored : s.file.payload slot.resumeStart.toNat s.worker.written =
    s.accepted.take s.worker.written
  held : s.worker.buffer = s.accepted.drop s.worker.written
  elsewhere : start.file.contents.SameOutside (start.payloadOffset + slot.resumeStart.toNat)
    s.accepted.length s.file.file.contents

/-- What a caller can rely on when it makes a request: a request that fails takes nothing, and a
flush that succeeds leaves what writing all of the accepted data at once would leave. -/
structure Responds (slot : Slot) (start : PartialFile) (s : Writer) (request : Worker.Request) :
    Prop where
  capacity_le : s.worker.capacity ≤ (s.call request).1.worker.capacity
  fails : (s.call request).2 ≠ none →
    (s.call request).1.worker = s.worker ∧ (s.call request).1.accepted = s.accepted
  accepts : (s.call request).2 = none → (s.call request).1.accepted = s.accepted ++ request.data
  flushes : request = .flush → (s.call request).2 = none →
    (s.call request).1.file.payload slot.resumeStart.toNat s.accepted.length = s.accepted ∧
      (s.call request).1.worker.flushedProgress = (s.call request).1.worker.progress ∧
      (s.call request).1.file.file.contents =
        start.file.contents.put (start.payloadOffset + slot.resumeStart.toNat, s.accepted)

/-- A writer that is behind what it has accepted refines direct writing. -/
theorem Behind.refines (h : s.Behind slot start) : s.Refines slot start where
  offset_eq := h.offset_eq
  received_eq := h.received_eq.trans h.length_buffer.symm
  accepted_eq := h.received_eq
  buffer_le := h.buffer_le
  stored := by
    rw [PartialFile.payload, h.offset_eq]
    exact h.front.slice_eq
  held := h.buffer_eq
  elsewhere := h.front.sameOutside

/-- The capacity of the buffer never goes down. -/
theorem call_capacity (s : Writer) (request : Worker.Request) :
    s.worker.capacity ≤ (s.call request).1.worker.capacity := by
  have hanswers := (s.call_answers request).1
  generalize s.call request = result at hanswers ⊢
  obtain ⟨⟨w, p, accepted⟩, fault?⟩ := result
  cases hanswers with
  | refused | flushed | kept => exact Nat.le_refl _
  | emptied data => exact (s.worker.flushed.enlarge_capacity data.length).2

/-- A call that fails leaves the worker as it was and accepts nothing. -/
theorem call_fails {request : Worker.Request} (hfault : (s.call request).2 ≠ none) :
    (s.call request).1.worker = s.worker ∧ (s.call request).1.accepted = s.accepted := by
  obtain ⟨hanswers, haccepted⟩ := s.call_answers request
  rw [if_neg hfault] at haccepted
  refine ⟨?_, haccepted⟩
  generalize s.call request = result at hanswers hfault ⊢
  obtain ⟨⟨w, p, accepted⟩, fault?⟩ := result
  cases hanswers with
  | refused => rfl
  | flushed | kept | emptied => exact absurd rfl hfault

/-- After a flush nothing is left in the buffer. -/
theorem buffer_of_flush (hfault : (s.call .flush).2 = none) :
    (s.call .flush).1.worker.buffer = [] := by
  have hanswers := (s.call_answers .flush).1
  generalize s.call .flush = result at hanswers hfault ⊢
  obtain ⟨⟨w, p, accepted⟩, fault?⟩ := result
  cases hanswers with
  | refused => contradiction
  | flushed => rfl

/-- Every request to a writer that is behind is answered as `Responds` says. -/
theorem Behind.responds (h : s.Behind slot start) (hfits : Word.Fits slot.resumeStart)
    (hlength : (s.accepted.length : Int) ≤ Word.maxInt) (request : Worker.Request) :
    s.Responds slot start request where
  capacity_le := s.call_capacity request
  fails := call_fails
  accepts hfault := (s.call_answers request).2.trans (if_pos hfault)
  flushes := by
    rintro rfl hfault
    have h' := h.call hfits hlength .flush
    have haccepted : (s.call .flush).1.accepted = s.accepted := by
      rw [(s.call_answers .flush).2, if_pos hfault]
      exact List.append_nil _
    have hlen := h'.length_buffer
    rw [buffer_of_flush hfault, haccepted, List.length_nil, Nat.add_zero] at hlen
    have hfront := h'.front
    rw [haccepted, hlen] at hfront
    refine ⟨?_, ?_, hfront.eq_put⟩
    · rw [PartialFile.payload, h'.offset_eq, hfront.slice_eq, List.take_length]
    · rw [Worker.flushedProgress, Worker.progress, h'.received_eq, haccepted, hlen]

/-- Whatever a worker is asked, in whatever pieces, and whichever of its writes fail after however
many bytes: writing through its buffer refines writing directly. -/
theorem play_refines (slot : Slot) (capacity : Nat) (start : PartialFile)
    (requests : List Worker.Request) (hfits : Word.Fits slot.resumeStart)
    (hlength : (((new slot capacity start).play requests).accepted.length : Int) ≤ Word.maxInt) :
    ((new slot capacity start).play requests).Refines slot start ∧
      ∀ request, ((new slot capacity start).play requests).Responds slot start request := by
  have h := play_behind (behind_new slot capacity start) hfits hlength
  exact ⟨h.refines, h.responds hfits hlength⟩

/-- A worker with a buffer of four bytes, behind a header of three bytes.  The first two writes
break off. -/
def torn : Writer :=
  new ⟨0, 2, 4, 20⟩ 4
    { file := { contents := [9, 9, 9, 9, 9], faults := [some 2, some 0] }, payloadOffset := 3 }

/-- The third attempt to write the buffer succeeds.  It begins where the first one began, and the
gap behind the old end is filled. -/
theorem play_refines_torn :
    (torn.call (.push [1, 2, 3])).2 = none ∧
      ((torn.play [.push [1, 2, 3]]).call (.push [4, 5])).2 = some .noSpace ∧
      (torn.play [.push [1, 2, 3], .push [4, 5]]).file.file.contents = [9, 9, 9, 9, 9, 0, 0, 1, 2] ∧
      (torn.play [.push [1, 2, 3], .push [4, 5], .flush]).worker.buffer = [1, 2, 3] ∧
      ((torn.play [.push [1, 2, 3], .push [4, 5], .flush]).call .flush).2 = none ∧
      ((torn.play [.push [1, 2, 3], .push [4, 5], .flush]).call .flush).1.file.file.contents =
        [9, 9, 9, 9, 9, 0, 0, 1, 2, 3] := by
  have hfits : Word.Fits 4 := by decide
  have hstate := play_refines ⟨0, 2, 4, 20⟩ 4 torn.file
    [.push [1, 2, 3], .push [4, 5], .flush] hfits (by decide +kernel)
  have hlast : ((torn.play [.push [1, 2, 3], .push [4, 5], .flush]).call .flush).2 = none := by
    decide +kernel
  have hcontents := ((hstate.2 .flush).flushes rfl hlast).2.2
  refine ⟨by decide +kernel, by decide +kernel, by decide +kernel, ?_, hlast, ?_⟩
  · exact hstate.1.held.trans (by decide +kernel)
  · exact hcontents.trans (by decide +kernel)

end Writer

end SegmentedDownload
