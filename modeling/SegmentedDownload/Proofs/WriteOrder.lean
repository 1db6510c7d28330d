import Mathlib
import SegmentedDownload.Worker
import SegmentedDownload.Proofs.Buffering

/-!
# SegmentedDownload.Proofs.WriteOrder

Workers that share a file may be called in any order.

When a worker flushes depends on how its data is cut and on the size of its buffer, so two
orders of the calls lead to different writes at different times, some of them past the end of
the file.  What is left in the file is the same.

* `Bytes.put` stores a piece of data at its place.  Pieces that stand one behind the other are
  one piece (`put_append`), and pieces that do not meet can be stored in either order
  (`put_comm`).
* `Family.At` says where a family of workers is after some calls: each worker has stored a
  front part of what it was sent and holds the rest in its buffer, and the file is the old one
  with these front parts stored one after the other.  Each call keeps it (`At.call`): what a
  flush adds to one of the pieces goes past all pieces behind it (`putAll_extend`).
* In the end nothing is in a buffer, and the pieces are the whole data (`Family.run_ends`).
-/

namespace SegmentedDownload

/-! ## Pieces of a file -/

namespace Bytes

/-- Contents with a piece of data at its place.  Nothing is stored for an empty piece, so that
it does not extend the contents. -/
def put (contents : Bytes) (piece : Nat × Bytes) : Bytes :=
  if piece.2 = [] then contents else contents.splice piece.1 piece.2

/-- Contents with some pieces, one after the other. -/
def putAll (contents : Bytes) (pieces : List (Nat × Bytes)) : Bytes := pieces.foldl put contents

/-- Two pieces have no byte in common. -/
def Apart (x y : Nat × Bytes) : Prop :=
  x.2 = [] ∨ y.2 = [] ∨ x.1 + x.2.length ≤ y.1 ∨ y.1 + y.2.length ≤ x.1

variable {contents : Bytes} {x y : Nat × Bytes} {pieces : List (Nat × Bytes)}

theorem Apart.symm (h : Apart x y) : Apart y x := by
  rcases h with h | h | h | h
  · exact Or.inr (Or.inl h)
  · exact Or.inl h
  · exact Or.inr (Or.inr (Or.inr h))
  · exact Or.inr (Or.inr (Or.inl h))

theorem put_nil (contents : Bytes) (pos : Nat) : contents.put (pos, []) = contents := if_pos rfl

theorem put_of_ne {pos : Nat} {data : Bytes} (h : data ≠ []) :
    contents.put (pos, data) = contents.splice pos data := if_neg h

/-- Pieces that stand one behind the other are one piece. -/
theorem put_append (contents : Bytes) (pos : Nat) (a b : Bytes) :
    (contents.put (pos, a)).put (pos + a.length, b) = contents.put (pos, a ++ b) := by
  by_cases ha : a = []
  · rw [ha, put_nil, List.length_nil, Nat.add_zero, List.nil_append]
  by_cases hb : b = []
  · rw [hb, put_nil, List.append_nil]
  rw [put_of_ne ha, put_of_ne hb, put_of_ne (by simp [ha])]
  apply List.ext_getElem?
  intro k
  simp only [getElem?_splice, List.length_append]
  by_cases hfront : k < pos
  · rw [if_pos (by omega), if_pos hfront, if_pos hfront]
    rfl
  · by_cases hleft : k < pos + a.length
    · rw [if_pos hleft, if_neg hfront, if_pos hleft, if_neg hfront, if_pos (by omega),
        List.getElem?_append_left (by omega), List.getElem?_eq_getElem (by omega)]
      rfl
    · rw [if_neg hleft, if_neg hfront, if_neg hleft, if_neg hfront]
      by_cases hright : k < pos + a.length + b.length
      · rw [if_pos hright, if_pos (by omega), List.getElem?_append_right (by omega)]
        congr 1
        omega
      · rw [if_neg hright, if_neg (by omega)]

/-- Pieces that do not meet can be stored in either order. -/
theorem put_comm (contents : Bytes) (h : Apart x y) :
    (contents.put x).put y = (contents.put y).put x := by
  have hbehind : ∀ {pos pos' : Nat} {a b : Bytes}, a ≠ [] → b ≠ [] → pos + a.length ≤ pos' →
      (contents.put (pos, a)).put (pos', b) = (contents.put (pos', b)).put (pos, a) := by
    intro pos pos' a b ha hb hle
    have hpos := List.length_pos_iff.mpr hb
    rw [put_of_ne ha, put_of_ne hb, put_of_ne hb, put_of_ne ha]
    apply List.ext_getElem?
    intro k
    simp only [getElem?_splice]
    grind
  obtain ⟨pos, a⟩ := x
  obtain ⟨pos', b⟩ := y
  by_cases ha : a = []
  · rw [ha, put_nil, put_nil]
  by_cases hb : b = []
  · rw [hb, put_nil, put_nil]
  rcases h with h | h | h | h
  · exact absurd h ha
  · exact absurd h hb
  · exact hbehind ha hb h
  · exact (hbehind hb ha h).symm

/-- Empty pieces leave nothing. -/
theorem putAll_nil (contents : Bytes) (h : ∀ x ∈ pieces, x.2 = []) :
    contents.putAll pieces = contents := by
  induction pieces with
  | nil => rfl
  | cons x pieces ih =>
    have hx : contents.put x = contents := if_pos (h x List.mem_cons_self)
    have hrest := ih fun y hy => h y (List.mem_cons_of_mem x hy)
    exact (congrArg (putAll · pieces) hx).trans hrest

/-- A piece that is apart from others may be put first or last. -/
theorem putAll_put (contents : Bytes) (h : ∀ y ∈ pieces, Apart x y) :
    (contents.put x).putAll pieces = (contents.putAll pieces).put x := by
  induction pieces generalizing contents with
  | nil => rfl
  | cons y pieces ih =>
    calc ((contents.put x).put y).putAll pieces
        = ((contents.put y).put x).putAll pieces := by rw [put_comm _ (h y List.mem_cons_self)]
      _ = ((contents.put y).putAll pieces).put x := ih _ fun z hz => h z (List.mem_cons_of_mem y hz)

/-- What one of the pieces is extended by can be stored last. -/
theorem putAll_extend (contents : Bytes) {i pos : Nat} {data more : Bytes}
    (hi : pieces[i]? = some (pos, data))
    (hapart : ∀ j x, i < j → pieces[j]? = some x → Apart (pos + data.length, more) x) :
    contents.putAll (pieces.set i (pos, data ++ more)) =
      (contents.putAll pieces).put (pos + data.length, more) := by
  induction pieces generalizing contents i with
  | nil => contradiction
  | cons y pieces ih =>
    cases i with
    | zero =>
      obtain rfl := Option.some.inj hi
      have hrest : ∀ x ∈ pieces, Apart (pos + data.length, more) x := fun x hx => by
        obtain ⟨j, hj⟩ := List.getElem?_of_mem hx
        exact hapart (j + 1) x (Nat.succ_pos j) hj
      calc (contents.put (pos, data ++ more)).putAll pieces
          = ((contents.put (pos, data)).put (pos + data.length, more)).putAll pieces := by
            rw [put_append]
        _ = ((contents.put (pos, data)).putAll pieces).put (pos + data.length, more) :=
            putAll_put _ hrest
    | succ i => exact ih _ hi fun j x hlt hx => hapart (j + 1) x (Nat.succ_lt_succ hlt) hx

/-- Pieces that do not meet can be stored in any order. -/
theorem putAll_perm (contents : Bytes) {pieces' : List (Nat × Bytes)} (hperm : pieces'.Perm pieces)
    (hapart : pieces.Pairwise Apart) : contents.putAll pieces' = contents.putAll pieces := by
  have : Std.Symm Apart := ⟨fun _ _ => Apart.symm⟩
  refine hperm.foldl_eq' (fun x hx y hy z => ?_) contents
  by_cases hxy : x = y
  · rw [hxy]
  · exact put_comm z (hapart.forall (hperm.mem_iff.mp hx) (hperm.mem_iff.mp hy) hxy)

end Bytes

/-! ## One worker -/

/-- A file with a piece of data at its place. -/
structure PartialFile.Stores (p : PartialFile) (piece : Nat × Bytes) (p' : PartialFile) : Prop where
  offset_eq : p'.payloadOffset = p.payloadOffset
  contents_eq : p'.file.contents = p.file.contents.put piece

/-- A write that succeeds has stored its data, at a position that a file has. -/
theorem PartialFile.writePayload_stores {p p' : PartialFile} {position : Nat} {data : Bytes}
    (hdata : data ≠ []) (h : p.writePayload position data = (p', none)) :
    p.Stores (p.payloadOffset + position, data) p' ∧
      p.payloadOffset + position ≤ OpenFile.maxPosition := by
  have hoffset := writePayload_offset p position data
  rw [h] at hoffset
  unfold writePayload at h
  split at h
  · simp at h
  · change ({ p with file := (p.file.write (p.payloadOffset + position) data).1 },
      (p.file.write (p.payloadOffset + position) data).2) = (p', none) at h
    obtain ⟨rfl, hfault⟩ := Prod.mk.inj h
    refine ⟨⟨hoffset, ?_⟩, ?_⟩
    · rw [Bytes.put_of_ne hdata]
      exact OpenFile.contents_write hdata hfault
    · by_contra hpos
      unfold OpenFile.write at hfault
      rw [if_pos (by omega)] at hfault
      contradiction

theorem PartialFile.writePayload_nil (p : PartialFile) (position : Nat) :
    (p.writePayload position []).1.file = p.file := by
  unfold writePayload
  split
  · rfl
  · exact OpenFile.write_nil _ _

/-- Data that fits into the range of a slot. -/
structure Slot.Takes (slot : Slot) (data : Bytes) : Prop where
  resumeStart_fits : Word.Fits slot.resumeStart
  last_fits : Word.Fits slot.last
  room : slot.resumeStart + data.length ≤ slot.last + 1

theorem Slot.Takes.front {slot : Slot} {data data' : Bytes} (h : slot.Takes data')
    (hle : data <+: data') : slot.Takes data := by
  have := hle.length_le
  have := h.room
  exact ⟨h.resumeStart_fits, h.last_fits, by omega⟩

/-- Data behind some other data of a slot, if there is any, stands in its range. -/
def Slot.Inside (slot : Slot) (n : Nat) (data : Bytes) : Prop :=
  data ≠ [] → 0 ≤ slot.resumeStart ∧ slot.resumeStart + n + data.length ≤ slot.last + 1

/-- A position behind the stored part of a slot is not negative if a file has it. -/
theorem Slot.position_eq {slot : Slot} {n : Nat} (hfits : Word.Fits slot.resumeStart)
    (hmax : slot.resumeStart + n ≤ Word.maxInt)
    (hpos : Word.toUnsigned (slot.resumeStart + n) ≤ OpenFile.maxPosition)
    (hstart : n ≠ 0 → 0 ≤ slot.resumeStart) :
    0 ≤ slot.resumeStart ∧
      Word.toUnsigned (slot.resumeStart + n) = slot.resumeStart.toNat + n := by
  have hmin := hfits.1
  unfold Word.toUnsigned OpenFile.maxPosition at hpos
  unfold Word.maxInt at hmax
  unfold Word.minInt at hmin
  have hnonneg : 0 ≤ slot.resumeStart := by
    by_cases hn : n = 0
    · subst hn
      omega
    · exact hstart hn
  refine ⟨hnonneg, ?_⟩
  rw [Word.toUnsigned_of_nonneg (by omega) hmax]
  omega

namespace Worker

/-- What is asked of a worker. -/
inductive Request
  | push (data : Bytes)
  | flush
deriving Repr, DecidableEq

namespace Request

/-- The data that comes with a request. -/
def data : Request → Bytes
  | push data => data
  | flush => []

/-- All data that comes with some requests. -/
def allData (requests : List Request) : Bytes := requests.flatMap data

end Request

/-- The worker and the file after a request. -/
def answer (w : Worker) (p : PartialFile) : Request → Worker × PartialFile × Option IoError
  | .push data => w.push p data
  | .flush => w.flush p

/-- Of what a worker was sent, it has stored a front part and holds the rest in its buffer. -/
structure Holds (w : Worker) (slot : Slot) (sent stored : Bytes) : Prop where
  slot_eq : w.slot = slot
  written_eq : w.written = stored.length
  sent_eq : sent = stored ++ w.buffer
  start_nonneg : stored ≠ [] → 0 ≤ slot.resumeStart

variable {w w' : Worker} {p p' : PartialFile} {slot : Slot} {sent stored : Bytes}

/-- What was stored last stands in the range of the slot. -/
theorem Holds.inside (stored : Bytes) {more : Bytes} (h : w.Holds slot sent (stored ++ more))
    (hroom : slot.Takes sent) : slot.Inside stored.length more := by
  intro hmore
  have hlength := congrArg List.length h.sent_eq
  have hend := hroom.room
  rw [List.length_append, List.length_append] at hlength
  exact ⟨h.start_nonneg (by simp [hmore]), by omega⟩

/-- A flush that succeeds stores the buffer behind the front part. -/
theorem Holds.flush (h : w.Holds slot sent stored) (hroom : slot.Takes sent)
    (hflush : w.flush p = (w', p', none)) :
    w'.Holds slot sent (stored ++ w.buffer) ∧ w'.buffer = [] ∧
      p.Stores (p.payloadOffset + slot.resumeStart.toNat + stored.length, w.buffer) p' := by
  by_cases hbuffer : w.buffer = []
  · obtain ⟨rfl, rfl, -⟩ := flush_nil hflush hbuffer
    rw [hbuffer, List.append_nil]
    exact ⟨h, rfl, rfl, (Bytes.put_nil _ _).symm⟩
  · obtain ⟨hwrite, rfl⟩ := flush_eq hflush hbuffer
    obtain ⟨hstores, hpos⟩ := PartialFile.writePayload_stores hbuffer hwrite
    have hlength := congrArg List.length h.sent_eq
    have hnonempty := List.length_pos_iff.mpr hbuffer
    have hend := hroom.room
    have hlast := hroom.last_fits.2
    rw [List.length_append] at hlength
    rw [h.slot_eq, h.written_eq] at hstores hpos
    obtain ⟨hnonneg, hposition⟩ := Slot.position_eq (n := stored.length)
      hroom.resumeStart_fits (by omega) (by omega) fun hn => h.start_nonneg (by simpa using hn)
    rw [hposition, ← Nat.add_assoc] at hstores
    refine ⟨⟨h.slot_eq, ?_, ?_, fun _ => hnonneg⟩, rfl, hstores⟩
    · simp [flushed, h.written_eq]
    · simp [flushed, h.sent_eq]

/-- A worker holds what is added to its buffer. -/
theorem Holds.append (h : w.Holds slot sent stored) (data : Bytes) :
    (w.append data).Holds slot (sent ++ data) stored := by
  refine ⟨h.slot_eq, h.written_eq, ?_, h.start_nonneg⟩
  rw [h.sent_eq, List.append_assoc]
  rfl

/-- A larger buffer, while it is empty, holds the same. -/
theorem Holds.enlarge (h : w.Holds slot sent stored) (hbuffer : w.buffer = []) (n : Nat) :
    (w.enlarge n).Holds slot sent stored := by
  unfold Worker.enlarge
  split
  · exact ⟨h.slot_eq, h.written_eq, hbuffer ▸ h.sent_eq, h.start_nonneg⟩
  · exact h

/-- A request that succeeds extends the front part. -/
theorem Holds.answer {request : Request} (h : w.Holds slot sent stored)
    (hroom : slot.Takes (sent ++ request.data))
    (hanswer : w.answer p request = (w', p', none)) :
    ∃ more, w'.Holds slot (sent ++ request.data) (stored ++ more) ∧
      (request = .flush → w'.buffer = []) ∧
      p.Stores (p.payloadOffset + slot.resumeStart.toNat + stored.length, more) p' := by
  have hroom' := hroom.front (List.prefix_append sent request.data)
  cases request with
  | flush =>
    obtain ⟨hholds, hbuffer, hstores⟩ := h.flush hroom' hanswer
    refine ⟨w.buffer, ?_, fun _ => hbuffer, hstores⟩
    rw [Request.data, List.append_nil]
    exact hholds
  | push data =>
    change w.push p data = (w', p', none) at hanswer
    unfold push at hanswer
    split at hanswer
    · cases hflush : w.flush p with
      | mk w₁ result =>
        obtain ⟨p₁, fault?⟩ := result
        rw [hflush] at hanswer
        cases fault? with
        | some e => simp at hanswer
        | none =>
          obtain ⟨rfl, rfl, -⟩ := hanswer
          obtain ⟨hholds, hbuffer, hstores⟩ := h.flush hroom' hflush
          exact ⟨w.buffer, (hholds.enlarge hbuffer data.length).append data, nofun, hstores⟩
    · obtain ⟨rfl, rfl, -⟩ := hanswer
      refine ⟨[], ?_, nofun, rfl, (Bytes.put_nil _ _).symm⟩
      rw [List.append_nil]
      exact h.append data

end Worker

/-! ## Families of workers -/

/-- Workers that share a partial file. -/
structure Family where
  workers : List Worker
  file : PartialFile
deriving Repr, DecidableEq

namespace Family

/-- One request to the worker at a position. -/
def call (s : Family) (x : Nat × Worker.Request) : Except IoError Family :=
  match s.workers[x.1]? with
  | none => .ok s
  | some w =>
    match w.answer s.file x.2 with
    | (_, _, some e) => .error e
    | (w, file, none) => .ok { workers := s.workers.set x.1 w, file }

/-- Requests to any workers, one after the other, up to the first error. -/
def run (s : Family) (calls : List (Nat × Worker.Request)) : Except IoError Family :=
  calls.foldlM call s

/-- The requests to one of the workers. -/
def requestsTo (i : Nat) (calls : List (Nat × Worker.Request)) : List Worker.Request :=
  calls.filterMap fun x => if x.1 = i then some x.2 else none

/-- The data that one of the workers is sent. -/
def sentTo (i : Nat) (calls : List (Nat × Worker.Request)) : Bytes :=
  Worker.Request.allData (requestsTo i calls)

/-- The requests bring data to the worker at each position, in any pieces, and at last it is
flushed.  How the requests to different workers follow each other is left open. -/
def Interleaves (calls : List (Nat × Worker.Request)) (bodies : List Bytes) : Prop :=
  ∀ i body, bodies[i]? = some body →
    sentTo i calls = body ∧ (requestsTo i calls).getLast? = some .flush

/-- Workers that have not taken anything yet, with ranges that do not meet, and data for each of
them that fits into its range. -/
structure Ready (s : Family) (bodies : List Bytes) : Prop where
  length_eq : bodies.length = s.workers.length
  unwritten : ∀ w ∈ s.workers, w.written = 0 ∧ w.buffer = []
  disjoint : s.workers.Pairwise fun v w => Disjoint
    (Set.Icc v.slot.resumeStart v.slot.last) (Set.Icc w.slot.resumeStart w.slot.last)
  takes : ∀ (i : Nat) (w : Worker) (body : Bytes), s.workers[i]? = some w →
    bodies[i]? = some body → w.slot.Takes body

/-- The data of each worker, at its place in the file. -/
def pieces (s : Family) (stored : List Bytes) : List (Nat × Bytes) :=
  List.zipWith (fun w data => (s.file.payloadOffset + w.slot.resumeStart.toNat, data))
    s.workers stored

/-- Where a family is after some calls. -/
structure At (s : Family) (calls : List (Nat × Worker.Request)) (stored : List Bytes)
    (u : Family) : Prop where
  width_eq : u.workers.length = s.workers.length
  length_eq : stored.length = s.workers.length
  file : u.file.payloadOffset = s.file.payloadOffset ∧
    u.file.file.contents = s.file.file.contents.putAll (s.pieces stored)
  each : ∀ (i : Nat) (w : Worker) (data : Bytes), s.workers[i]? = some w →
    stored[i]? = some data → ∃ w' : Worker, u.workers[i]? = some w' ∧
      w'.Holds w.slot (sentTo i calls) data ∧
      ((requestsTo i calls).getLast? = some .flush → w'.buffer = [])

variable {s u u' : Family} {calls calls' : List (Nat × Worker.Request)} {bodies stored : List Bytes}

/-- A call that succeeds is for no worker, or one worker answers it. -/
inductive Answers (u : Family) (i : Nat) (request : Worker.Request) : Family → Prop
  | nobody (hnone : u.workers[i]? = none) : Answers u i request u
  | worker (v v' : Worker) (p' : PartialFile) (hv : u.workers[i]? = some v)
      (hanswer : v.answer u.file request = (v', p', none)) :
    Answers u i request { workers := u.workers.set i v', file := p' }

/-- A call of the family answers as the worker does that it is for. -/
theorem call_answers {i : Nat} {request : Worker.Request} (h : u.call (i, request) = .ok u') :
    Answers u i request u' := by
  unfold call at h
  cases hv : u.workers[i]? with
  | none =>
    rw [hv] at h
    obtain rfl := Except.ok.inj h
    exact .nobody hv
  | some v =>
    cases hanswer : v.answer u.file request with
    | mk v' result =>
      obtain ⟨p', fault?⟩ := result
      simp only [hv, hanswer] at h
      cases fault? with
      | some e => contradiction
      | none =>
        obtain rfl := Except.ok.inj h
        exact .worker v v' p' hv hanswer

theorem requestsTo_snoc (j : Nat) (x : Nat × Worker.Request) :
    requestsTo j (calls ++ [x]) =
      if x.1 = j then requestsTo j calls ++ [x.2] else requestsTo j calls := by
  unfold requestsTo
  rw [List.filterMap_append]
  by_cases hj : x.1 = j <;> simp [hj]

theorem sentTo_snoc (j : Nat) (x : Nat × Worker.Request) :
    sentTo j (calls ++ [x]) =
      if x.1 = j then sentTo j calls ++ x.2.data else sentTo j calls := by
  unfold sentTo
  rw [requestsTo_snoc]
  split <;> simp [Worker.Request.allData]

/-- More data of one worker changes the piece of that worker. -/
theorem pieces_set {i : Nat} {w : Worker} (hw : s.workers[i]? = some w) (data : Bytes) :
    s.pieces (stored.set i data) =
      (s.pieces stored).set i (s.file.payloadOffset + w.slot.resumeStart.toNat, data) := by
  unfold pieces
  apply List.ext_getElem?
  intro j
  by_cases hj : i = j
  · subst hj
    rw [List.getElem?_set_self', List.getElem?_zipWith, List.getElem?_zipWith,
      List.getElem?_set_self', hw]
    cases stored[i]? <;> rfl
  · rw [List.getElem?_set_ne hj, List.getElem?_zipWith, List.getElem?_zipWith,
      List.getElem?_set_ne hj]

/-- Data of different workers stands apart. -/
theorem Ready.apart (h : s.Ready bodies) {i j n : Nat} {v w : Worker} {a b : Bytes} (hij : i ≠ j)
    (hv : s.workers[i]? = some v) (hw : s.workers[j]? = some w) (ha : v.slot.Inside n a)
    (hb : w.slot.Inside 0 b) (offset : Nat) :
    Bytes.Apart (offset + v.slot.resumeStart.toNat + n, a)
      (offset + w.slot.resumeStart.toNat, b) := by
  by_cases hanil : a = []
  · exact Or.inl hanil
  by_cases hbnil : b = []
  · exact Or.inr (Or.inl hbnil)
  obtain ⟨hv0, hvlast⟩ := ha hanil
  obtain ⟨hw0, hwlast⟩ := hb hbnil
  have hdisjoint : Disjoint (Set.Icc v.slot.resumeStart v.slot.last)
      (Set.Icc w.slot.resumeStart w.slot.last) := by
    obtain ⟨hi, rfl⟩ := List.getElem?_eq_some_iff.mp hv
    obtain ⟨hj, rfl⟩ := List.getElem?_eq_some_iff.mp hw
    rcases Nat.lt_or_gt_of_ne hij with hlt | hgt
    · exact List.pairwise_iff_getElem.mp h.disjoint i j hi hj hlt
    · exact (List.pairwise_iff_getElem.mp h.disjoint j i hj hi hgt).symm
  have hapos := List.length_pos_iff.mpr hanil
  have hbpos := List.length_pos_iff.mpr hbnil
  have hranges : v.slot.last < w.slot.resumeStart ∨ w.slot.last < v.slot.resumeStart := by
    by_contra hmeet
    -- both ranges hold the greater one of their first bytes
    have hleft : max v.slot.resumeStart w.slot.resumeStart ∈
        Set.Icc v.slot.resumeStart v.slot.last := ⟨by omega, by omega⟩
    exact Set.disjoint_left.mp hdisjoint hleft ⟨by omega, by omega⟩
  unfold Bytes.Apart
  dsimp only
  omega

/-- No worker is sent more than its data. -/
def Within (calls : List (Nat × Worker.Request)) (bodies : List Bytes) : Prop :=
  ∀ i body, bodies[i]? = some body → sentTo i calls <+: body

/-- What a worker is sent fits into its range. -/
theorem Ready.takes_sent (h : s.Ready bodies) (hwithin : Within calls bodies) {i : Nat} {w : Worker}
    (hw : s.workers[i]? = some w) : w.slot.Takes (sentTo i calls) := by
  have hi : i < bodies.length := by
    rw [h.length_eq]
    exact (List.getElem?_eq_some_iff.mp hw).1
  have hbody := List.getElem?_eq_getElem hi
  exact (h.takes i w _ hw hbody).front (hwithin i _ hbody)

/-- Nothing is stored before the first call. -/
theorem Ready.at (h : s.Ready bodies) : At s [] (bodies.map fun _ => []) s := by
  refine ⟨rfl, by rw [List.length_map, h.length_eq], ⟨rfl, ?_⟩, ?_⟩
  · refine (Bytes.putAll_nil _ fun x hx => ?_).symm
    obtain ⟨i, hi⟩ := List.getElem?_of_mem hx
    obtain ⟨_, data, -, hdata, rfl⟩ := List.getElem?_zipWith_eq_some.mp hi
    obtain ⟨_, -, rfl⟩ := List.mem_map.mp (List.mem_of_getElem? hdata)
    rfl
  · intro i w data hw hdata
    obtain ⟨hwritten, hbuffer⟩ := h.unwritten w (List.mem_of_getElem? hw)
    obtain ⟨_, -, rfl⟩ := List.mem_map.mp (List.mem_of_getElem? hdata)
    exact ⟨w, hw, ⟨rfl, hwritten, hbuffer.symm, fun hne => absurd rfl hne⟩, fun _ => hbuffer⟩

/-- What a worker stores next stands apart from what the workers behind it have stored. -/
theorem At.apart (h : At s calls stored u) (hready : s.Ready bodies) (hwithin : Within calls bodies)
    {i n : Nat} {w : Worker} (hw : s.workers[i]? = some w) {more : Bytes}
    (hmore : w.slot.Inside n more) {j : Nat} {x : Nat × Bytes} (hij : i < j)
    (hx : (s.pieces stored)[j]? = some x) :
    Bytes.Apart (s.file.payloadOffset + w.slot.resumeStart.toNat + n, more) x := by
  obtain ⟨v, data, hv, hdata, rfl⟩ := List.getElem?_zipWith_eq_some.mp hx
  obtain ⟨_, -, hholds, -⟩ := h.each j v data hv hdata
  have hinside : v.slot.Inside 0 data :=
    Worker.Holds.inside [] hholds (hready.takes_sent hwithin hv)
  exact hready.apart (Nat.ne_of_lt hij) hw hv hmore hinside _

theorem Within.front {x : Nat × Worker.Request} (h : Within (calls ++ [x]) bodies) :
    Within calls bodies := by
  intro j body hbody
  refine List.IsPrefix.trans ?_ (h j body hbody)
  rw [sentTo_snoc]
  split
  · exact List.prefix_append _ _
  · exact List.prefix_rfl

variable {i : Nat} {request : Worker.Request} {w v' : Worker} {data more : Bytes} {p' : PartialFile}

/-- A call for no worker changes nothing. -/
theorem At.nobody (h : At s calls stored u) (hnone : u.workers[i]? = none) :
    At s (calls ++ [(i, request)]) stored u := by
  refine ⟨h.width_eq, h.length_eq, h.file, fun j w data hw hdata => ?_⟩
  obtain ⟨w', hw', hholds⟩ := h.each j w data hw hdata
  have hij : i ≠ j := by
    rintro rfl
    rw [hnone] at hw'
    contradiction
  rw [sentTo_snoc, requestsTo_snoc, if_neg hij, if_neg hij]
  exact ⟨w', hw', hholds⟩

/-- One worker has stored some more, apart from what the workers behind it have stored. -/
theorem At.set (h : At s calls stored u) (hw : s.workers[i]? = some w)
    (hdata : stored[i]? = some data)
    (hholds : v'.Holds w.slot (sentTo i calls ++ request.data) (data ++ more))
    (hflushed : request = .flush → v'.buffer = [])
    (hstores : u.file.Stores
      (u.file.payloadOffset + w.slot.resumeStart.toNat + data.length, more) p')
    (hapart : ∀ j x, i < j → (s.pieces stored)[j]? = some x →
      Bytes.Apart (s.file.payloadOffset + w.slot.resumeStart.toNat + data.length, more) x) :
    At s (calls ++ [(i, request)]) (stored.set i (data ++ more))
      { workers := u.workers.set i v', file := p' } where
  width_eq := (List.length_set).trans h.width_eq
  length_eq := (List.length_set).trans h.length_eq
  file := by
    have hpiece : (s.pieces stored)[i]? =
        some (s.file.payloadOffset + w.slot.resumeStart.toNat, data) :=
      List.getElem?_zipWith_eq_some.mpr ⟨w, data, hw, hdata, rfl⟩
    refine ⟨hstores.offset_eq.trans h.file.1, ?_⟩
    rw [hstores.contents_eq, h.file.2, h.file.1, pieces_set hw]
    exact (Bytes.putAll_extend _ hpiece hapart).symm
  each j w₁ data₁ hw₁ hdata₁ := by
    rw [sentTo_snoc, requestsTo_snoc]
    by_cases hij : i = j
    · subst hij
      obtain rfl := Option.some.inj (hw.symm.trans hw₁)
      rw [List.getElem?_set_self (List.getElem?_eq_some_iff.mp hdata).1] at hdata₁
      obtain rfl := Option.some.inj hdata₁
      rw [if_pos rfl, if_pos rfl, List.getLast?_concat]
      have hi : i < u.workers.length := by
        rw [h.width_eq]
        exact (List.getElem?_eq_some_iff.mp hw).1
      exact ⟨v', List.getElem?_set_self hi, hholds, fun hlast => hflushed (Option.some.inj hlast)⟩
    · rw [List.getElem?_set_ne hij] at hdata₁
      rw [if_neg hij, if_neg hij]
      obtain ⟨w', hw', hrest⟩ := h.each j w₁ data₁ hw₁ hdata₁
      exact ⟨w', (List.getElem?_set_ne hij).trans hw', hrest⟩

/-- One more call that succeeds. -/
theorem At.call (h : At s calls stored u) (hready : s.Ready bodies) {x : Nat × Worker.Request}
    (hwithin : Within (calls ++ [x]) bodies) (hcall : u.call x = .ok u') :
    ∃ stored', At s (calls ++ [x]) stored' u' := by
  obtain ⟨i, request⟩ := x
  cases call_answers hcall with
  | nobody hnone => exact ⟨stored, h.nobody hnone⟩
  | worker v v' p' hu hanswer =>
    have hi : i < s.workers.length := h.width_eq ▸ (List.getElem?_eq_some_iff.mp hu).1
    obtain ⟨w, hw⟩ : ∃ w, s.workers[i]? = some w := ⟨_, List.getElem?_eq_getElem hi⟩
    obtain ⟨data, hdata⟩ : ∃ data, stored[i]? = some data :=
      ⟨_, List.getElem?_eq_getElem (h.length_eq.symm ▸ hi)⟩
    obtain ⟨_, hv, hholds, -⟩ := h.each i w data hw hdata
    obtain rfl := Option.some.inj (hu.symm.trans hv)
    have hroom := hready.takes_sent hwithin hw
    rw [sentTo_snoc, if_pos rfl] at hroom
    obtain ⟨more, hholds', hflushed, hstores⟩ := hholds.answer hroom hanswer
    exact ⟨_, h.set hw hdata hholds' hflushed hstores fun j x =>
      h.apart hready hwithin.front hw (hholds'.inside data hroom)⟩

/-! ## Whole runs -/

theorem run_snoc (s : Family) (calls : List (Nat × Worker.Request)) (x : Nat × Worker.Request) :
    s.run (calls ++ [x]) = s.run calls >>= fun u => u.call x := by
  unfold run
  rw [List.foldlM_append]
  simp only [List.foldlM_cons, List.foldlM_nil, bind_pure]

/-- Any calls that succeed leave the family somewhere. -/
theorem run_at (hready : s.Ready bodies) (hwithin : Within calls bodies)
    (hrun : s.run calls = .ok u) : ∃ stored, At s calls stored u := by
  induction calls using List.reverseRecOn generalizing u with
  | nil =>
    obtain rfl := Except.ok.inj hrun
    exact ⟨_, hready.at⟩
  | append_singleton calls x ih =>
    rw [run_snoc] at hrun
    obtain ⟨v, hrun, hcall⟩ := bind_eq_ok.mp hrun
    obtain ⟨stored, hat⟩ := ih hwithin.front hrun
    exact hat.call hready hwithin hcall

/-- Calls that interleave all bodies are within them. -/
theorem Interleaves.within (h : Interleaves calls bodies) : Within calls bodies :=
  fun i body hbody => (h i body hbody).1 ▸ List.prefix_rfl

/-- When each worker was sent its data and flushed, all data is stored. -/
theorem run_ends (hready : s.Ready bodies) (hcalls : Interleaves calls bodies)
    (hrun : s.run calls = .ok u) : At s calls bodies u := by
  obtain ⟨stored, hat⟩ := run_at hready hcalls.within hrun
  have hstored : stored = bodies := by
    apply List.ext_getElem (hat.length_eq.trans hready.length_eq.symm)
    intro i hi hi'
    obtain ⟨hsent, hlast⟩ := hcalls i _ (List.getElem?_eq_getElem hi')
    have hw := List.getElem?_eq_getElem (hat.length_eq ▸ hi)
    obtain ⟨w', -, hholds, hflushed⟩ := hat.each i _ _ hw (List.getElem?_eq_getElem hi)
    rw [← hsent, hholds.sent_eq, hflushed hlast, List.append_nil]
  exact hstored ▸ hat

/-- The progress of workers that have stored their data. -/
def wholeProgress (s : Family) (bodies : List Bytes) : List Int :=
  List.zipWith (fun w body => w.slot.resumeStart - w.slot.start + body.length) s.workers bodies

/-- In the end every worker has flushed its whole body. -/
theorem At.progress_eq (h : At s calls bodies u) :
    u.workers.map Worker.flushedProgress = s.wholeProgress bodies := by
  unfold wholeProgress
  apply List.ext_getElem
  · rw [List.length_map, List.length_zipWith, h.width_eq, h.length_eq, Nat.min_self]
  · intro i hi hi'
    rw [List.length_map] at hi
    have hw := List.getElem?_eq_getElem (h.width_eq ▸ hi)
    have hbody := List.getElem?_eq_getElem (h.length_eq.trans h.width_eq.symm ▸ hi)
    obtain ⟨w', hw', hholds, -⟩ := h.each i _ _ hw hbody
    obtain rfl := Option.some.inj ((List.getElem?_eq_getElem hi).symm.trans hw')
    rw [List.getElem_map, List.getElem_zipWith, Worker.flushedProgress, hholds.slot_eq,
      hholds.written_eq]

/-- What the workers have stored in the end stands apart. -/
theorem At.pairwise_apart (h : At s calls bodies u) (hready : s.Ready bodies)
    (hwithin : Within calls bodies) : (s.pieces bodies).Pairwise Bytes.Apart := by
  rw [List.pairwise_iff_getElem]
  intro i j hi hj hij
  obtain ⟨w, body, hw, hbody, hx⟩ :=
    List.getElem?_zipWith_eq_some.mp (List.getElem?_eq_getElem hi)
  obtain ⟨_, -, hholds, -⟩ := h.each i w body hw hbody
  have hinside : w.slot.Inside 0 body :=
    Worker.Holds.inside [] hholds (hready.takes_sent hwithin hw)
  have hapart := h.apart hready hwithin hw hinside hij (List.getElem?_eq_getElem hj)
  exact hx ▸ hapart

end Family

/-! ## One worker after the other -/

namespace PartialFile

/-- Write the data of a worker where its range begins. -/
def writeWhole (p : PartialFile) (x : Worker × Bytes) : Except IoError PartialFile :=
  match p.writePayload (Word.toUnsigned x.1.slot.resumeStart) x.2 with
  | (_, some e) => .error e
  | (p, none) => .ok p

/-- Write the data of some workers, one worker after the other. -/
def writeEach (p : PartialFile) (whole : List (Worker × Bytes)) : Except IoError PartialFile :=
  whole.foldlM writeWhole p

/-- A body that is written at once is stored as one piece. -/
theorem writeWhole_stores {p p' : PartialFile} {x : Worker × Bytes} (hroom : x.1.slot.Takes x.2)
    (h : p.writeWhole x = .ok p') :
    p.Stores (p.payloadOffset + x.1.slot.resumeStart.toNat, x.2) p' := by
  obtain ⟨w, data⟩ := x
  have hwrite : p.writePayload (Word.toUnsigned w.slot.resumeStart) data = (p', none) := by
    unfold writeWhole at h
    split at h
    · contradiction
    · next hwrite => exact Except.ok.inj h ▸ hwrite
  by_cases hdata : data = []
  · subst hdata
    have hoffset := writePayload_offset p (Word.toUnsigned w.slot.resumeStart) []
    have hcontents := writePayload_nil p (Word.toUnsigned w.slot.resumeStart)
    rw [hwrite] at hoffset hcontents
    exact ⟨hoffset, (congrArg OpenFile.contents hcontents).trans (Bytes.put_nil _ _).symm⟩
  · obtain ⟨hstores, hpos⟩ := writePayload_stores hdata hwrite
    have hnonempty := List.length_pos_iff.mpr hdata
    have hend : w.slot.resumeStart + data.length ≤ w.slot.last + 1 := hroom.room
    have hlast : w.slot.last ≤ Word.maxInt := hroom.last_fits.2
    have hposition := (@Slot.position_eq w.slot 0 hroom.resumeStart_fits (by omega)
      (by rw [Nat.cast_zero, Int.add_zero]; omega) (absurd rfl)).2
    rw [Nat.cast_zero, Int.add_zero, Nat.add_zero] at hposition
    exact hposition ▸ hstores

/-- Bodies that are written one after the other are put one after the other. -/
theorem writeEach_contents {p q : PartialFile} {whole : List (Worker × Bytes)}
    (hroom : ∀ x ∈ whole, x.1.slot.Takes x.2) (h : p.writeEach whole = .ok q) :
    q.file.contents = p.file.contents.putAll
      (whole.map fun x => (p.payloadOffset + x.1.slot.resumeStart.toNat, x.2)) := by
  induction whole generalizing p with
  | nil =>
    obtain rfl := Except.ok.inj h
    rfl
  | cons x whole ih =>
    obtain ⟨p₁, hone, hrest⟩ := bind_eq_ok.mp h
    have hstores := writeWhole_stores (hroom x List.mem_cons_self) hone
    have hafter := ih (fun y hy => hroom y (List.mem_cons_of_mem x hy)) hrest
    rw [hafter, hstores.contents_eq, hstores.offset_eq]
    rfl

end PartialFile

/-! ## Order -/

namespace Family

variable {s u u' : Family} {calls calls' : List (Nat × Worker.Request)} {bodies : List Bytes}

/-- In whatever order, and in whatever pieces, the workers of a family are sent their data, the
file and the progress are the same in the end.  They are what is left when all data of each worker
is written at once, one worker after the other. -/
theorem run_order (hready : s.Ready bodies) (hcalls : Interleaves calls bodies)
    (hcalls' : Interleaves calls' bodies) (hrun : s.run calls = .ok u)
    (hrun' : s.run calls' = .ok u') :
    u.file.file.contents = u'.file.file.contents ∧
      u.workers.map Worker.flushedProgress = u'.workers.map Worker.flushedProgress ∧
      u.workers.map Worker.flushedProgress = s.wholeProgress bodies ∧
      ∀ order q, order.Perm (s.workers.zip bodies) → s.file.writeEach order = .ok q →
        u.file.file.contents = q.file.contents := by
  have hat := run_ends hready hcalls hrun
  have hat' := run_ends hready hcalls' hrun'
  refine ⟨hat.file.2.trans hat'.file.2.symm, hat.progress_eq.trans hat'.progress_eq.symm,
    hat.progress_eq, fun order q horder hwrites => ?_⟩
  have hroom : ∀ x ∈ order, x.1.slot.Takes x.2 := fun x hx => by
    obtain ⟨i, hi⟩ := List.getElem?_of_mem (horder.mem_iff.mp hx)
    obtain ⟨hw, hbody⟩ := List.getElem?_zip_eq_some.mp hi
    exact hready.takes i x.1 x.2 hw hbody
  have hpieces : (order.map fun x =>
      (s.file.payloadOffset + x.1.slot.resumeStart.toNat, x.2)).Perm (s.pieces bodies) := by
    have hmap := horder.map fun x => (s.file.payloadOffset + x.1.slot.resumeStart.toNat, x.2)
    rwa [List.map_zip_eq_zipWith] at hmap
  rw [hat.file.2, PartialFile.writeEach_contents hroom hwrites]
  exact (Bytes.putAll_perm _ hpieces (hat.pairwise_apart hready hcalls.within)).symm

/-- Two workers with the halves of a file, with small buffers. -/
def halves : Family :=
  { workers := [{ slot := ⟨0, 0, 0, 3⟩, capacity := 2 }, { slot := ⟨1, 4, 4, 7⟩, capacity := 2 }]
    file := { payloadOffset := 1 } }

/-- The same workers when each has stored three bytes. -/
def halvesStored (capacity : Nat) : Family :=
  { workers := [{ slot := ⟨0, 0, 0, 3⟩, capacity, written := 3, received := 3 },
      { slot := ⟨1, 4, 4, 7⟩, capacity := 2, written := 3, received := 3 }]
    file := { file := { contents := [0, 1, 2, 3, 0, 5, 6, 7] }, payloadOffset := 1 } }

/-- The second worker is sent its data behind the end of the file, or after the first one. -/
theorem run_order_halves :
    halves.run [(1, .push [5, 6]), (1, .push [7]), (0, .push [1]), (1, .flush), (0, .push [2, 3]),
        (0, .flush)] = .ok (halvesStored 2) ∧
      halves.run [(0, .push [1, 2, 3]), (0, .flush), (1, .push [5]), (1, .push [6, 7]),
        (1, .flush)] = .ok (halvesStored 4) ∧
      (halvesStored 2).file.file.contents = (halvesStored 4).file.file.contents ∧
      ∃ q, halves.file.writeEach (halves.workers.zip [[1, 2, 3], [5, 6, 7]]) = .ok q ∧
        (halvesStored 2).file.file.contents = q.file.contents := by
  have hready : halves.Ready [[1, 2, 3], [5, 6, 7]] := by
    refine ⟨rfl, by decide, ?_, ?_⟩
    · simp only [halves, List.pairwise_pair, Set.disjoint_left, Set.mem_Icc]
      omega
    · intro i w body hw hbody
      match i, hw, hbody with
      | 0, rfl, rfl => exact ⟨by decide, by decide, by decide⟩
      | 1, rfl, rfl => exact ⟨by decide, by decide, by decide⟩
  have hfeeds : ∀ {calls}, sentTo 0 calls = [1, 2, 3] → sentTo 1 calls = [5, 6, 7] →
      (requestsTo 0 calls).getLast? = some .flush → (requestsTo 1 calls).getLast? = some .flush →
      Interleaves calls [[1, 2, 3], [5, 6, 7]] := by
    intro calls h0 h1 hlast0 hlast1 i body hbody
    match i, hbody with
    | 0, rfl => exact ⟨h0, hlast0⟩
    | 1, rfl => exact ⟨h1, hlast1⟩
  have hrun : halves.run [(1, .push [5, 6]), (1, .push [7]), (0, .push [1]), (1, .flush),
      (0, .push [2, 3]), (0, .flush)] = .ok (halvesStored 2) := by decide +kernel
  have hrun' : halves.run [(0, .push [1, 2, 3]), (0, .flush), (1, .push [5]), (1, .push [6, 7]),
      (1, .flush)] = .ok (halvesStored 4) := by decide +kernel
  have hwrites : halves.file.writeEach (halves.workers.zip [[1, 2, 3], [5, 6, 7]]) =
      .ok (halvesStored 2).file := by decide +kernel
  obtain ⟨hsame, -, -, hone⟩ := run_order hready (hfeeds rfl rfl rfl rfl)
    (hfeeds rfl rfl rfl rfl) hrun hrun'
  exact ⟨hrun, hrun', hsame, _, hwrites, hone _ _ .rfl hwrites⟩

end Family

end SegmentedDownload
