import Mathlib
import SegmentedDownload.Proofs.Accounting
import SegmentedDownload.Proofs.FreshPlan
import SegmentedDownload.Proofs.Requests

/-!
# SegmentedDownload.Proofs.WordArithmetic

Words are enough to continue with any header.

The numbers of a header come from a file that may hold anything, and what is computed with them
later is not checked.  So each function that computes with them has a twin here that checks
everything: a sum or a difference that is no word, a negative number that is taken for an unsigned
one, and a write that ends behind the file leave no result.  The twins always have one, and it is
that of the function itself,

* for valid segments, as their reach was checked when they were read (`Plan.ResumedInWords`);
* for workers that have taken no more than their range has room for, as is so at any time of a run
  (`Worker.InRange`, `Planned.inRange`).

Asking for a range computes nothing, so that it has no twin.
-/

namespace SegmentedDownload

/-! ## Words -/

namespace Word

/-- A signed word that is taken for an unsigned one.  There is no result if it is negative. -/
def cast (n : Int) : Option Nat := if 0 ≤ n then some n.toNat else none

/-- A count that is kept in a signed word. -/
def count (n : Nat) : Option Nat := if (n : Int) ≤ maxInt then some n else none

/-- The number of positions from `first` to `last`. -/
def extent (first last : Int) : Option Int := do
  let distance ← check (last - first)
  check (distance + 1)

/-- Some words are added to a total, one after the other. -/
def sumFrom (total : Int) : List Int → Option Int
  | [] => some total
  | n :: ns => do sumFrom (← check (total + n)) ns

def sum (ns : List Int) : Option Int := sumFrom 0 ns

variable {n total first last : Int} {ns : List Int}

theorem check_of_le (h0 : 0 ≤ n) (h : n ≤ maxInt) : check n = some n :=
  check_of_fits (fits_of_le h0 h (Int.le_refl maxInt))

theorem cast_of_nonneg (h : 0 ≤ n) : cast n = some n.toNat := if_pos h

theorem count_of_le {n : Nat} (h : (n : Int) ≤ maxInt) : count n = some n := if_pos h

/-- The length of a range that does not end at the last word is a word. -/
theorem extent_eq (h0 : 0 ≤ first) (h : first ≤ last) (hlast : last < maxInt) :
    extent first last = some (last - first + 1) := by
  rw [extent, check_of_le (by omega) (by omega), Option.bind_eq_bind, Option.bind_some,
    check_of_le (by omega) (by omega)]

/-- From the first position to the last word there is one position more than a word holds. -/
example : extent 0 maxInt = none := by decide

/-- A sum of words is a word if all of it is. -/
theorem sumFrom_eq (htotal : 0 ≤ total) (h0 : ∀ n ∈ ns, 0 ≤ n) (h : total + ns.sum ≤ maxInt) :
    sumFrom total ns = some (total + ns.sum) := by
  induction ns generalizing total with
  | nil => simp [sumFrom]
  | cons n ns ih =>
    obtain ⟨hn, hns⟩ := List.forall_mem_cons.mp h0
    have hsum := List.sum_nonneg hns
    rw [List.sum_cons] at h ⊢
    have hnext : check (total + n) = some (total + n) := check_of_le (by omega) (by omega)
    rw [sumFrom, hnext, Option.bind_eq_bind, Option.bind_some, ih (by omega) hns (by omega)]
    congr 1
    omega

/-- No part of a sum of numbers that are not negative is greater than the whole. -/
theorem sum_eq (h0 : ∀ n ∈ ns, 0 ≤ n) (h : ns.sum ≤ maxInt) : sum ns = some ns.sum := by
  have hfrom := sumFrom_eq (Int.le_refl 0) h0 (by rwa [Int.zero_add])
  rwa [Int.zero_add] at hfrom

end Word

/-! ## Segments -/

namespace Segment

def lengthInWords (s : Segment) : Option (Option Int) :=
  if s.isUnbounded then some none else (Word.extent s.start s.last).map some

/-- Whether the whole range is committed, computed in words. -/
def isCompleteInWords (s : Segment) : Option Bool := do
  return (← s.lengthInWords) == some s.committed

variable {s : Segment}

/-- The length of a valid segment is found in words. -/
theorem IsValid.lengthInWords_eq (h : s.IsValid) : s.lengthInWords = some s.length? := by
  obtain ⟨h0, hle, hmax, -⟩ := h
  unfold lengthInWords length?
  split
  · rfl
  · rename_i hbounded
    have hlast : s.last ≠ Word.maxInt := by simpa [isUnbounded, unboundedLast] using hbounded
    rw [Word.extent_eq h0 hle (by omega)]
    rfl

theorem IsValid.isCompleteInWords_eq (h : s.IsValid) : s.isCompleteInWords = some s.isComplete := by
  rw [isCompleteInWords, h.lengthInWords_eq]
  rfl

end Segment

/-- Progress inside of covering segments adds up to a word if the size is one. -/
theorem ResumeHeader.sum_session_inWords {size : Int} {segments : List Segment}
    (h : covers segments size = true) (hmax : size ≤ Word.maxInt)
    (hs : ∀ s ∈ segments, 0 ≤ s.session ∧ s.session ≤ s.last - s.start + 1) :
    Word.sum (segments.map Segment.session) = some (Reporter.sum (segments.map Segment.session)) := by
  have hle := (sum_session_of_coversFrom h fun s hmem => (hs s hmem).2).1
  rw [← Reporter.sum_session, Int.sub_zero] at hle
  refine Word.sum_eq (fun n hn => ?_) (hle.trans hmax)
  obtain ⟨s, hmem, rfl⟩ := List.mem_map.mp hn
  exact (hs s hmem).1

namespace Plan

def slotInWords (index : Nat) (s : Segment) : Option Slot := do
  let reached ← Word.check (s.start + s.committed)
  let before ← Word.check (reached - 1)
  return { index, start := s.start, resumeStart := max before s.start, last := s.last }

/-- The incomplete segments of a plan whose first segment is number `index`, computed in words. -/
def resumeFromInWords (index : Nat) : List Segment → Option (List Slot)
  | [] => some []
  | s :: rest => do
    if ← s.isCompleteInWords then resumeFromInWords (index + 1) rest
    else
      let first ← slotInWords index s
      return first :: (← resumeFromInWords (index + 1) rest)

theorem slotInWords_eq {s : Segment} (h : s.IsValid) (index : Nat) :
    slotInWords index s = some (slot index s) := by
  obtain ⟨h0, hle, hmax, hc, hreach⟩ := h
  have hbefore : Word.Fits (s.start + s.committed - 1) := by
    unfold Word.Fits Word.minInt
    omega
  rw [slotInWords, Word.check_of_le (by omega) (by omega), Option.bind_eq_bind, Option.bind_some,
    Word.check_of_fits hbefore]
  rfl

theorem resumeFromInWords_eq {segments : List Segment} (h : ∀ s ∈ segments, s.IsValid)
    (index : Nat) : resumeFromInWords index segments = some (resumeFrom index segments) := by
  induction segments generalizing index with
  | nil => rfl
  | cons s rest ih =>
    obtain ⟨hs, hrest⟩ := List.forall_mem_cons.mp h
    rw [resumeFromInWords, resumeFrom, hs.isCompleteInWords_eq, Option.bind_eq_bind,
      Option.bind_some]
    split
    · exact ih hrest (index + 1)
    · rw [slotInWords_eq hs, ih hrest]
      rfl

/-- The incomplete segments of a plan, computed in words. -/
def resumeInWords (segments : List Segment) : Option (List Slot) := resumeFromInWords 0 segments

variable {size : Int} {segments : List Segment}

/-- Progress inside of the segments of a partition adds up to a word. -/
theorem IsPartition.sum_session_inWords (h : IsPartition size segments)
    (hs : ∀ s ∈ segments, 0 ≤ s.session ∧ s.session ≤ s.last - s.start + 1) :
    Word.sum (segments.map Segment.session) = some (Reporter.sum (segments.map Segment.session)) :=
  ResumeHeader.sum_session_inWords h.covers h.size_le hs

/-- Words are enough to find out what is left of some segments. -/
structure ResumedInWords (segments : List Segment) : Prop where
  length : ∀ s ∈ segments, s.lengthInWords = some s.length?
  isComplete : ∀ s ∈ segments, s.isCompleteInWords = some s.isComplete
  committed : Word.sum (segments.map (·.committed)) = some (committed segments)
  resume : resumeInWords segments = some (resume segments)

/-- All that a resumed plan computes are words. -/
theorem IsPartition.resumedInWords (h : IsPartition size segments) : ResumedInWords segments := by
  refine ⟨fun s hs => (h.valid s hs).lengthInWords_eq,
    fun s hs => (h.valid s hs).isCompleteInWords_eq, ?_, resumeFromInWords_eq h.valid 0⟩
  have hbegun : IsPartition size (segments.map Segment.begin) := h.congr (map_begin_begin segments)
  have hsum := hbegun.sum_session_inWords fun s' hs' => by
    obtain ⟨s, hs, rfl⟩ := List.mem_map.mp hs'
    have hvalid := h.valid s hs
    exact ⟨hvalid.committed_nonneg, hvalid.committed_le⟩
  rw [List.map_map] at hsum
  exact hsum

end Plan

namespace Reporter

def resetInWords (r : Reporter) (initial : List Int) : Option Reporter := do
  let transferred ← Word.sum initial
  return { r with segments := initial, snapshot := { r.snapshot with transferred } }

end Reporter

def Table.sessionTotalInWords (t : Table) : Option Int := Word.sum (t.segments.map Segment.session)

/-! ## Workers -/

namespace Worker

/-- Progress of a worker that has got `n` bytes, computed in words. -/
def progressFromInWords (w : Worker) (n : Int) : Option Int := do
  let before ← Word.check (w.slot.resumeStart - w.slot.start)
  Word.check (before + n)

/-- Progress with the bytes in the buffer, computed in words. -/
def progressInWords (w : Worker) : Option Int := w.progressFromInWords w.received

def flushedProgressInWords (w : Worker) : Option Int := w.progressFromInWords w.written

def segmentLengthInWords (w : Worker) : Option (Option Int) :=
  if w.isUnbounded then
    match w.expected? with
    | none => some none
    | some expected => (w.progressFromInWords expected).map some
  else (Word.extent w.slot.start w.slot.last).map some

/-- Begin to stream, with the expected length computed in words. -/
def beginInWords (w : Worker) (length? : Option Nat) : Option Worker := do
  let expected? ←
    if w.isUnbounded then some (length?.map Word.toSigned)
    else (Word.extent w.slot.resumeStart w.slot.last).map some
  return { w with state := .streaming, expected? }

/-- The part of a chunk that belongs to the segment, with what remains computed in words. -/
def clipInWords (w : Worker) (chunk : Bytes) : Option Bytes :=
  match w.isUnbounded, w.expected? with
  | false, some expected => do
    let missing ← Word.check (expected - w.received)
    let remaining ← Word.cast (max missing 0)
    return chunk.take remaining
  | _, _ => some chunk

/-- Write the buffered bytes to their place, computed in words.  There is no result if they end
behind `limit`. -/
def flushInWords (limit : Nat) (w : Worker) (p : PartialFile) :
    Option (Worker × PartialFile × Option IoError) :=
  if w.buffer.isEmpty then some (w, p, none)
  else do
    let position ← Word.cast (← Word.check (w.slot.resumeStart + w.written))
    if limit < p.payloadOffset + position + w.buffer.length then none
    else
      match p.writePayload position w.buffer with
      | (p, some e) => return (w, p, some e)
      | (p, none) =>
        let written ← Word.count (w.written + w.buffer.length)
        return ({ w with written, buffer := [] }, p, none)

def appendInWords (w : Worker) (data : Bytes) : Option Worker := do
  let received ← Word.count (w.received + data.length)
  return { w with buffer := w.buffer ++ data, received }

def pushInWords (limit : Nat) (w : Worker) (p : PartialFile) (data : Bytes) :
    Option (Worker × PartialFile × Option IoError) := do
  if w.capacity < w.buffer.length + data.length then
    match ← w.flushInWords limit p with
    | (w, p, some e) => return (w, p, some e)
    | (w, p, none) => return (← (w.enlarge data.length).appendInWords data, p, none)
  else return (← w.appendInWords data, p, none)

def receiveInWords (limit : Nat) (w : Worker) (p : PartialFile) (chunk : Bytes) :
    Option (Worker × PartialFile × Option IoError) := do
  match ← w.pushInWords limit p (← w.clipInWords chunk) with
  | (w, p, some e) => return (w.fail, p, some e)
  | (w, p, none) => return (w, p, none)

def finishInWords (limit : Nat) (w : Worker) (p : PartialFile) :
    Option (Worker × PartialFile × Option IoError) := do
  match ← w.flushInWords limit p with
  | (w, p, some e) => return (w.fail, p, some e)
  | (w, p, none) =>
    match w.shortfall? with
    | some (received, expected) =>
      return (w.fail, p, some (.segmentEnded w.slot.index received expected))
    | none => return ({ w with state := .complete }, p, none)

/-- A bounded worker that has taken no more than its range has room for. -/
structure InRange (w : Worker) : Prop where
  slot : w.slot.IsSound
  bounded : w.isUnbounded = false
  received_eq : w.received = w.written + w.buffer.length
  received_le : w.received ≤ w.slot.length

namespace InRange

variable {w : Worker} {p : PartialFile} {limit : Nat}

theorem last_lt (h : w.InRange) : w.slot.last < Word.maxInt := by
  have hlast := h.slot.last_le
  have hne : w.slot.last ≠ Word.maxInt := by
    simpa [isUnbounded, Segment.unboundedLast] using h.bounded
  omega

/-- The bytes that a worker takes lie in front of the last word. -/
theorem reach_le (h : w.InRange) : w.slot.resumeStart + w.slot.length ≤ Word.maxInt := by
  have hlength := h.slot.length_eq
  have hlast := h.last_lt
  omega

/-- The progress of a worker is a word. -/
theorem progressFromInWords_eq (h : w.InRange) {n : Nat} (hn : n ≤ w.received) :
    w.progressFromInWords n = some (w.slot.resumeStart - w.slot.start + n) := by
  have h0 := h.slot.start_nonneg
  have hstart := h.slot.start_le
  have hle := h.received_le
  have hreach := h.reach_le
  rw [progressFromInWords, Word.check_of_le (by omega) (by omega), Option.bind_eq_bind,
    Option.bind_some, Word.check_of_le (by omega) (by omega)]

theorem segmentLengthInWords_eq (h : w.InRange) :
    w.segmentLengthInWords = some w.segmentLength? := by
  have hle := h.slot.start_le.trans h.slot.resumeStart_le
  rw [segmentLengthInWords, segmentLength?, h.bounded, if_neg Bool.false_ne_true,
    if_neg Bool.false_ne_true, Word.extent_eq h.slot.start_nonneg hle h.last_lt]
  rfl

theorem beginInWords_eq (h : w.InRange) (length? : Option Nat) :
    w.beginInWords length? = some (w.begin length?) := by
  have h0 := h.slot.resumeStart_nonneg
  rw [beginInWords, begin, h.bounded, if_neg Bool.false_ne_true, if_neg Bool.false_ne_true,
    Word.extent_eq h0 h.slot.resumeStart_le h.last_lt]
  rfl

theorem clipInWords_eq (h : w.InRange) (hexpects : w.Expects) (chunk : Bytes) :
    w.clipInWords chunk = some (w.clip chunk) := by
  have h0 := h.slot.start_nonneg
  have hstart := h.slot.start_le
  have hlength := h.slot.length_eq
  have hle := h.received_le
  have hreach := h.reach_le
  rw [clipInWords, clip, h.bounded, hexpects h.bounded]
  dsimp only
  rw [Word.check_of_le (by omega) (by omega), Option.bind_eq_bind, Option.bind_some,
    Word.cast_of_nonneg (le_max_right _ _), max_eq_left (by omega)]
  rfl

/-- A worker writes to its range only. -/
theorem flushInWords_eq (h : w.InRange)
    (hlimit : p.payloadOffset + (w.slot.resumeStart.toNat + w.slot.length) ≤ limit) :
    w.flushInWords limit p = some (w.flush p) := by
  have h0 := h.slot.resumeStart_nonneg
  have heq := h.received_eq
  have hle := h.received_le
  have hreach := h.reach_le
  have hposition : Word.toUnsigned (w.slot.resumeStart + w.written) =
      (w.slot.resumeStart + w.written).toNat :=
    Word.toUnsigned_of_nonneg (by omega) (by omega)
  have hinside : ¬ limit < p.payloadOffset + (w.slot.resumeStart + w.written).toNat +
      w.buffer.length := by omega
  unfold flushInWords flush
  rw [Word.check_of_le (by omega) (by omega), hposition]
  split
  · rfl
  · simp only [Option.bind_eq_bind, Option.bind_some, if_neg hinside,
      Word.cast_of_nonneg (show 0 ≤ w.slot.resumeStart + w.written by omega),
      Word.count_of_le (show ((w.written + w.buffer.length : Nat) : Int) ≤ Word.maxInt by omega)]
    cases p.writePayload (w.slot.resumeStart + w.written).toNat w.buffer with
    | mk p' fault? => cases fault? <;> rfl

theorem appendInWords_eq (h : w.InRange) {data : Bytes}
    (hroom : w.received + data.length ≤ w.slot.length) :
    w.appendInWords data = some (w.append data) := by
  have h0 := h.slot.resumeStart_nonneg
  have hreach := h.reach_le
  rw [appendInWords, Word.count_of_le (by omega)]
  rfl

theorem flushed (h : w.InRange) : w.flushed.InRange :=
  ⟨h.slot, h.bounded, h.received_eq, h.received_le⟩

theorem enlarge (h : w.InRange) (hb : w.buffer = []) (n : Nat) : (w.enlarge n).InRange := by
  unfold Worker.enlarge
  split
  · exact ⟨h.slot, h.bounded, by rw [h.received_eq, hb], h.received_le⟩
  · exact h

/-- A push inside of the slot stays in words and below the limit of the file. -/
theorem pushInWords_eq (h : w.InRange)
    (hlimit : p.payloadOffset + (w.slot.resumeStart.toNat + w.slot.length) ≤ limit) {data : Bytes}
    (hroom : w.received + data.length ≤ w.slot.length) :
    w.pushInWords limit p data = some (w.push p data) := by
  unfold pushInWords push
  split
  · rw [h.flushInWords_eq hlimit, Option.bind_eq_bind, Option.bind_some]
    cases hflush : w.flush p with
    | mk w' result =>
      obtain ⟨p', fault?⟩ := result
      have hresult := flush_result hflush
      cases fault? with
      | some e => rfl
      | none =>
        obtain rfl : w' = w.flushed := hresult
        have hrange := h.flushed.enlarge rfl data.length
        have hroom' : (w.flushed.enlarge data.length).received + data.length ≤
            (w.flushed.enlarge data.length).slot.length := by
          unfold Worker.enlarge
          split <;> exact hroom
        dsimp only
        rw [hrange.appendInWords_eq hroom']
        rfl
  · rw [h.appendInWords_eq hroom]
    rfl

/-- A worker takes what its range has room for, and fails with the file. -/
theorem receiveInWords_eq (h : w.InRange) (hexpects : w.Expects)
    (hlimit : p.payloadOffset + (w.slot.resumeStart.toNat + w.slot.length) ≤ limit)
    (chunk : Bytes) : w.receiveInWords limit p chunk = some (w.receive p chunk) := by
  have hroom : w.received + (w.clip chunk).length ≤ w.slot.length := by
    have hle := h.received_le
    have hclip : w.clip chunk = chunk.take (w.slot.length - w.received) :=
      clip_eq h.slot hexpects fun hu => by
        rw [h.bounded] at hu
        contradiction
    rw [hclip, List.length_take]
    omega
  simp only [receiveInWords, receive, h.clipInWords_eq hexpects, h.pushInWords_eq hlimit hroom,
    Option.bind_eq_bind, Option.bind_some]
  cases w.push p (w.clip chunk) with
  | mk w' result =>
    obtain ⟨p', fault?⟩ := result
    cases fault? <;> rfl

theorem finishInWords_eq (h : w.InRange)
    (hlimit : p.payloadOffset + (w.slot.resumeStart.toNat + w.slot.length) ≤ limit) :
    w.finishInWords limit p = some (w.finish p) := by
  rw [finishInWords, finish, h.flushInWords_eq hlimit, Option.bind_eq_bind, Option.bind_some]
  cases w.flush p with
  | mk w' result =>
    obtain ⟨p', fault?⟩ := result
    cases fault? with
    | some e => rfl
    | none =>
      dsimp only
      cases w'.shortfall? <;> rfl

end InRange

/-- Words are enough for all that a worker does, and it writes nothing behind `limit`. -/
structure InWords (limit : Nat) (w : Worker) (p : PartialFile) : Prop where
  progress : w.progressInWords = some w.progress
  flushedProgress : w.flushedProgressInWords = some w.flushedProgress
  segmentLength : w.segmentLengthInWords = some w.segmentLength?
  begin : ∀ length?, w.beginInWords length? = some (w.begin length?)
  flush : w.flushInWords limit p = some (w.flush p)
  receive : w.state = .streaming →
    ∀ chunk, w.receiveInWords limit p chunk = some (w.receive p chunk)
  finish : w.finishInWords limit p = some (w.finish p)

/-- A worker in range computes in words whatever happens to it next. -/
theorem InRange.inWords {w : Worker} {p : PartialFile} {limit : Nat} (h : w.InRange)
    (hexpects : w.state = .streaming → w.Expects)
    (hlimit : p.payloadOffset + (w.slot.resumeStart.toNat + w.slot.length) ≤ limit) :
    InWords limit w p where
  progress := h.progressFromInWords_eq le_rfl
  flushedProgress := h.progressFromInWords_eq (h.received_eq ▸ Nat.le_add_right _ _)
  segmentLength := h.segmentLengthInWords_eq
  begin := h.beginInWords_eq
  flush := h.flushInWords_eq hlimit
  receive hstate := h.receiveInWords_eq (hexpects hstate) hlimit
  finish := h.finishInWords_eq hlimit

end Worker

/-! ## Runs -/

namespace Transfer

/-- Words are enough for what the workers of a run do next, whatever the file does to it, and they
write nothing behind a header and `size` bytes. -/
structure InWords (headerSize size : Nat) (t : Transfer) : Prop where
  workers : ∀ w ∈ t.workers, ∀ p : PartialFile, p.payloadOffset = headerSize →
    w.InWords (headerSize + size) p
  sessionTotal : t.table.sessionTotalInWords = some t.table.sessionTotal

/-- Words are enough for a run that is about to stream, whatever arrives. -/
structure StreamsInWords (headerSize size : Nat) (t₀ : Transfer) : Prop where
  /-- The payload stays behind the header. -/
  offset_eq : ∀ incidents, (t₀.stream incidents).file.payloadOffset = headerSize
  arriving : ∀ incidents, (t₀.stream incidents).InWords headerSize size
  closing : ∀ incidents, (t₀.stream incidents).flushAll.InWords headerSize size

variable {size : Int} {t₀ t : Transfer} {bodies : Nat → Bytes} {headerSize : Nat}

/-- Workers have taken no more than there is room for, whatever arrived. -/
theorem Planned.inRange (h : Planned size t₀) (hstreamed : Streamed t₀ bodies t) {w : Worker}
    (hw : w ∈ t.workers) : w.InRange ∧ (w.state = .streaming → w.Expects) ∧
      w.slot.resumeStart.toNat + w.slot.length ≤ size.toNat := by
  obtain ⟨i, hi⟩ := List.getElem?_of_mem hw
  obtain ⟨w₀, hw₀, hslot⟩ := hstreamed.slot_eq hi
  have htracks := hstreamed.tracks i w hi
  refine ⟨⟨hstreamed.slot_isSound h.ready hi, h.bounded_streamed hstreamed hi,
    htracks.sound.received_eq, htracks.sound.received_le⟩, htracks.expects, ?_⟩
  rw [← hslot]
  exact h.slot_le (List.mem_of_getElem? hw₀)

/-- At any time of a run all workers compute in words. -/
theorem Planned.workers_inWords (h : Planned size t₀) (hstreamed : Streamed t₀ bodies t) :
    ∀ w ∈ t.workers, ∀ p : PartialFile, p.payloadOffset = headerSize →
      w.InWords (headerSize + size.toNat) p := by
  rintro w hw p rfl
  obtain ⟨hrange, hexpects, hinside⟩ := h.inRange hstreamed hw
  exact hrange.inWords hexpects (Nat.add_le_add_left hinside _)

/-- Words are enough before a run closes: the segments have the progress with which it began. -/
theorem Planned.inWords (h : Planned size t₀) (hstreamed : Streamed t₀ bodies t)
    (htable : t.table = t₀.table) : t.InWords headerSize size.toNat := by
  refine ⟨h.workers_inWords hstreamed, ?_⟩
  rw [htable, Table.sessionTotal, ← Reporter.sum_session]
  refine h.known.partition.sum_session_inWords fun s hs => ?_
  have hvalid := h.known.partition.valid s hs
  rw [h.begun s hs]
  exact ⟨hvalid.committed_nonneg, hvalid.committed_le⟩

/-- Words are enough to record the progress in the end. -/
theorem Settled.inWords (h : Settled size t₀ bodies t) : t.InWords headerSize size.toNat := by
  refine ⟨h.planned.workers_inWords h.streamed, ?_⟩
  rw [Table.sessionTotal, ← Reporter.sum_session]
  refine h.partition.sum_session_inWords fun s' hs' => ?_
  obtain ⟨i, hi⟩ := List.getElem?_of_mem hs'
  obtain ⟨s, hs, hstart, hlast, -, hcommitted, hle⟩ := h.origin hi
  obtain ⟨-, -, hvalid⟩ := h.begun hs
  rw [hstart, hlast]
  exact ⟨hvalid.committed_nonneg.trans hcommitted, hle⟩

theorem Planned.streamsInWords (h : Planned size t₀) (hoffset : t₀.file.payloadOffset = headerSize) :
    t₀.StreamsInWords headerSize size.toNat where
  offset_eq incidents := (h.follows incidents).streamed.offset_eq.trans hoffset
  arriving incidents := h.inWords (h.follows incidents).streamed (h.follows incidents).table_eq
  closing incidents := (h.settled incidents).inWords

variable {f : OpenFile} {segments : List Segment}

/-- A header that is read and covers the file is continued in words, whatever else it says: from
the plan of what is left to the last flush, for all bodies in any order, nothing that is computed
leaves the words, and nothing is written behind the file. -/
theorem load_inWords (hread : ResumeHeader.read f = .ok segments)
    (hbounded : ∀ s ∈ segments, s.last ≠ Segment.unboundedLast)
    (hcovers : ResumeHeader.covers segments size = true) (connections : Nat) (p : PartialFile)
    (reporter : Reporter) :
    Plan.ResumedInWords segments ∧
      reporter.resetInWords
          ((Table.load f size connections).begin.segments.map Segment.session) =
        some (begin (Table.load f size connections) p reporter).reporter ∧
      (begin (Table.load f size connections) p reporter).InWords
        (ResumeHeader.size segments) size.toNat ∧
      ∀ replies t₁, (begin (Table.load f size connections) p reporter).accept replies = .ok t₁ →
        ∃ t₀, t₁.prepare = (t₀, none) ∧
          t₀.StreamsInWords (ResumeHeader.size segments) size.toNat := by
  obtain ⟨-, -, hvalid⟩ := ResumeHeader.carries_of_read hread
  have hpartition := Plan.isPartition_of_bounded hvalid hbounded hcovers
  have hknown : (Table.resumed segments size).Known size :=
    Table.known_resumed hpartition.size_le hread hcovers
  have hplanned : Planned size (begin (Table.resumed segments size) p reporter) :=
    planned_begin hknown
  have hbegun : (begin (Table.resumed segments size) p reporter).InWords
      (ResumeHeader.size segments) size.toNat :=
    hplanned.inWords (hplanned.ready.streamed fun _ => []) rfl
  rw [Table.load_eq_resumed hread hcovers]
  refine ⟨hpartition.resumedInWords, ?_, hbegun, fun replies t₁ haccept => ?_⟩
  · have hsum : Word.sum ((Table.resumed segments size).begin.segments.map Segment.session) = _ :=
      hbegun.sessionTotal
    rw [Reporter.resetInWords, hsum, Table.sessionTotal, ← Reporter.sum_session]
    rfl
  · have htable : t₁.table = (Table.resumed segments size).begin := by
      rcases (accept_table haccept).2 with hsame | ⟨hfresh, -⟩
      · exact hsame
      · exact absurd hfresh Bool.false_ne_true
    have hprepare := prepare_resumed (t := t₁) (by rw [htable]; rfl)
    have hready := (hplanned.accept haccept).prepare hprepare
    have hoffset : t₁.setPayloadOffset.file.payloadOffset = ResumeHeader.size segments := by
      rw [prepare_offset hprepare, (prepare_eq hprepare).1, htable, Table.headerSize_begin]
      rfl
    exact ⟨_, hprepare, hready.streamsInWords hoffset⟩

/-- The largest file there is, up to its last byte, with session progress that makes no sense. -/
def brim : List Segment :=
  [⟨0, 4611686018427387903, 4611686018427387904, -1⟩,
    ⟨4611686018427387904, 9223372036854775806, 4611686018427387902, 9223372036854775807⟩]

/-- It is continued with its last two bytes. -/
theorem brim_inWords :
    let f : OpenFile := { contents := ResumeHeader.encode brim }
    let t := begin (Table.load f 9223372036854775807 4) {} (.new none 0 {})
    t.ranges = [some "bytes=9223372036854775805-9223372036854775806"] ∧
      ∃ t₁ t₀, t.accept [.answered 206 none] = .ok t₁ ∧ t₁.prepare = (t₀, none) ∧
        t₀.StreamsInWords 92 9223372036854775807 := by
  intro f t
  have hread : ResumeHeader.read f = .ok brim := by decide +kernel
  have hcovers : ResumeHeader.covers brim 9223372036854775807 = true := by decide
  have ht : t = begin (Table.resumed brim 9223372036854775807) {} (.new none 0 {}) := by
    rw [← Table.load_eq_resumed hread hcovers]
  obtain ⟨t₁, haccept⟩ : ∃ t₁, t.accept [.answered 206 none] = .ok t₁ := by
    rw [ht]
    exact ⟨_, rfl⟩
  obtain ⟨-, -, -, hruns⟩ := load_inWords hread (by decide) hcovers 4 {} (.new none 0 {})
  obtain ⟨t₀, hprepare, hwords⟩ := hruns _ t₁ haccept
  refine ⟨?_, t₁, t₀, haccept, hprepare, hwords⟩
  rw [ht]
  decide +kernel

end Transfer

end SegmentedDownload
