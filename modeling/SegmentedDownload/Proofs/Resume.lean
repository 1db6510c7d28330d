import Mathlib
import SegmentedDownload.Proofs.Confinement

/-!
# SegmentedDownload.Proofs.Resume

A partial file never claims a byte that it does not have.

`Consistent body f` says that the header of a partial file, if a run for this body
adopts it, claims only bytes of the body that are at their place.  Every run keeps
it (`run_consistent`), however it ends, if the server sends bytes of the body and
nothing else:

* what arrives puts bytes of the body to their places (`arrived_holds`), so a byte
  that is right stays right, and what a worker stored is right (`Settled.holds`);
* the header in the file never claims more than the records in memory, before and
  after a checkpoint, whether that succeeds or not (`Describes`).
-/

namespace SegmentedDownload

/-- The byte of the body at an offset is at its place in the payload. -/
def Holds (body contents : Bytes) (payloadOffset o : Nat) : Prop :=
  ∃ b, contents[payloadOffset + o]? = some b ∧ body[o]? = some b

/-- A header that would be adopted claims only bytes that are there. -/
def Consistent (body : Bytes) (f : OpenFile) : Prop :=
  ∀ segments, ResumeHeader.read f = .ok segments →
    ResumeHeader.covers segments body.length = true →
    ∀ s ∈ segments, ∀ o : Nat, s.start ≤ o → o < s.start + s.committed →
      Holds body f.contents (ResumeHeader.size segments) o

/-- What a server sends for a part of the body: a front of it, or all of it and more. -/
def Faithful (part sent : Bytes) : Prop := sent <+: part ∨ part <+: sent

/-- The server sends the part that a slot asks for, or the whole body where it
ignores the range. -/
def Serves (body : Bytes) (slots : List Slot) (course : Course) : Prop :=
  ∀ replies, course.replies? = some replies → ∀ (i : Nat) (slot : Slot) status length?,
    slots[i]? = some slot → replies[i]? = some (.answered status length?) →
      (status = 206 →
        Faithful (body.slice slot.resumeStart.toNat slot.length) (bodyOf course.incidents i)) ∧
      (status = 200 → Faithful body (bodyOf course.incidents i))

/-- As many bytes as were asked for are right. -/
theorem Faithful.getElem? {body sent : Bytes} {pos len n : Nat} {b : UInt8}
    (h : Faithful (body.slice pos len) sent) (hlen : pos + len ≤ body.length) (hn : n < len)
    (hb : sent[n]? = some b) : body[pos + n]? = some b := by
  have hslice : (body.slice pos len)[n]? = body[pos + n]? := by
    rw [Bytes.getElem?_slice, if_pos hn]
  rw [← hslice]
  rcases h with ⟨rest, hrest⟩ | ⟨rest, rfl⟩
  · have hlt := (List.getElem?_eq_some_iff.mp hb).1
    rw [← hrest, List.getElem?_append_left hlt, hb]
  · have hlt : n < (body.slice pos len).length := by
      rw [Bytes.length_slice]
      omega
    rwa [List.getElem?_append_left hlt] at hb

/-- A byte that is right stays right under writes of right bytes. -/
theorem Holds.of_patched {body old new : Bytes} {payloadOffset o : Nat}
    {source : Nat → UInt8 → Prop} (h : Holds body old payloadOffset o)
    (hpatched : Bytes.Patched source old new)
    (hsource : ∀ k b, source k b → ∃ o, k = payloadOffset + o ∧ body[o]? = some b) :
    Holds body new payloadOffset o := by
  obtain ⟨b, hb, hbody⟩ := h
  obtain ⟨b', hb', hsame | hnew⟩ := hpatched.getElem? _ b hb
  · exact ⟨b', hb', hsame ▸ hbody⟩
  · obtain ⟨o', ho', hbody'⟩ := hsource _ b' hnew
    obtain rfl : o' = o := by omega
    exact ⟨b', hb', hbody'⟩

/-! ## Headers -/

namespace ResumeHeader

/-- Contents begin with an earlier header of these segments, which claims no more
than their session progress. -/
structure Describes (contents : Bytes) (segments : List Segment) : Prop where
  count_eq : Word.decodeNat (contents.slice signature.length Word.size) = segments.length
  length_le : size segments ≤ contents.length
  extends_record : ∀ (i : Nat) (s : Segment), segments[i]? = some s →
    Extends s (record contents i)

/-- A header that claims no more than what is there is consistent. -/
theorem Describes.consistent {body : Bytes} {f : OpenFile} {segments : List Segment}
    (h : Describes f.contents segments)
    (hholds : ∀ s ∈ segments, ∀ o : Nat, s.start ≤ o → o < s.start + s.session →
      Holds body f.contents (size segments) o) : Consistent body f := by
  intro found hread _ s' hs' o hstart ho
  obtain ⟨hcarries, -, -⟩ := carries_of_read hread
  have hlength : found.length = segments.length := hcarries.count_eq.symm.trans h.count_eq
  obtain ⟨i, hi⟩ := List.getElem?_of_mem hs'
  have hlt : i < segments.length := hlength ▸ (List.getElem?_eq_some_iff.mp hi).1
  have hextends := h.extends_record i _ (List.getElem?_eq_getElem hlt)
  rw [hcarries.record_eq i s' hi] at hextends
  have hstart' := hextends.start_eq
  have hclaim := hextends.committed_le
  rw [show size found = size segments by rw [size, size, hlength]]
  exact hholds _ (List.getElem_mem hlt) o (by omega) (by omega)

/-- Only what can be read of a file matters for reading its header. -/
theorem read_congr {f f' : OpenFile} (hcontents : f'.contents = f.contents)
    (hlimit : f'.readLimit = f.readLimit) : read f' = read f := by
  obtain ⟨contents, writable, writeLimit, readLimit, faults⟩ := f
  obtain ⟨contents', writable', writeLimit', readLimit', faults'⟩ := f'
  obtain rfl : contents' = contents := hcontents
  obtain rfl : readLimit' = readLimit := hlimit
  have hpart : readPart ⟨contents', writable', writeLimit', readLimit', faults'⟩ =
      readPart ⟨contents', writable, writeLimit, readLimit', faults⟩ := rfl
  have hsegments : ∀ count index pos,
      readSegments ⟨contents', writable', writeLimit', readLimit', faults'⟩ count index pos =
        readSegments ⟨contents', writable, writeLimit, readLimit', faults⟩ count index pos := by
    intro count
    induction count with
    | zero => exact fun _ _ => rfl
    | succ count ih =>
      intro index pos
      simp only [readSegments, hpart, ih]
  simp only [read, OpenFile.size, hpart, hsegments]
  rfl

end ResumeHeader

theorem Consistent.congr {body : Bytes} {f f' : OpenFile} (h : Consistent body f)
    (hcontents : f'.contents = f.contents) (hlimit : f'.readLimit = f.readLimit) :
    Consistent body f' := by
  intro segments hread hcovers s hs o hstart ho
  rw [hcontents]
  rw [ResumeHeader.read_congr hcontents hlimit] at hread
  exact h segments hread hcovers s hs o hstart ho

namespace Transfer

section Bodies

variable {body : Bytes} {table : Table} {p : PartialFile} {reporter : Reporter} {course : Course}
  {replies : List Reply} {t₁ t₀ u : Transfer}

/-- What arrives are bytes of the body, at their places. -/
theorem arrived_holds (hknown : table.Known body.length) (hreplies : course.replies? = some replies)
    (hserves : Serves body (Plan.resume table.begin.segments) course)
    (haccept : (begin table p reporter).accept replies = .ok t₁)
    (hprepare : t₁.prepare = (t₀, none)) (k : Nat) (b : UInt8)
    (h : t₀.Arrived (t₀.bodies course.incidents) k b) :
    ∃ o, k = t₀.file.payloadOffset + o ∧ body[o]? = some b := by
  obtain ⟨i, w, hw, n, hn, rfl, hb⟩ := h
  have hplanned := ((planned_begin hknown).accept haccept).prepare hprepare
  have hworkers := (prepare_eq hprepare).2.1
  -- a byte of a body was sent to a worker that streams
  have hstream : (t₀.streaming? i).isSome := by
    unfold bodies at hb
    split at hb
    · assumption
    · contradiction
  obtain ⟨v, hv⟩ := Option.isSome_iff_exists.mp hstream
  obtain rfl : w = v := Option.some.inj (hw.symm.trans (streaming?_eq_some.mp hv).1)
  have hsent := getElem?_bodies hb
  have hv₁ : t₁.streaming? i = some w := by
    unfold streaming? at hv ⊢
    rwa [hworkers] at hv
  obtain ⟨slot, status, length?, hslot, hreply, hcase⟩ := accept_streaming hknown haccept hv₁
  obtain ⟨hpart, hwhole⟩ := hserves replies hreplies i slot status length? hslot hreply
  have hsound := hplanned.slot_isSound (List.mem_of_getElem? hw)
  have hlength := hsound.length_eq
  have hnonneg := hsound.start_nonneg
  have hle := hsound.start_le
  refine ⟨w.slot.resumeStart.toNat + n, by omega, ?_⟩
  obtain ⟨j, s, hs, -, hslotEq⟩ := hplanned.mem_slot (List.mem_of_getElem? hw)
  have hlast := hplanned.known.partition.last_lt (List.mem_of_getElem? hs)
  have hwlast : w.slot.last = s.last := by rw [hslotEq]; rfl
  rcases hcase with ⟨rfl, rfl⟩ | ⟨rfl, hw'⟩
  · exact (hpart rfl).getElem? (by omega) hn hsent
  · have hfaithful := hwhole rfl
    rw [← Bytes.slice_all body] at hfaithful
    have hstart : w.slot.resumeStart.toNat = 0 := by rw [hw']; rfl
    rw [hstart]
    exact hfaithful.getElem? (by omega) (by omega) hsent

end Bodies

/-- Every byte that a record claims is right, if the committed ones were before. -/
theorem Settled.holds {size : Int} {body : Bytes} {t₀ u : Transfer} {bodies : Nat → Bytes}
    (h : Settled size t₀ bodies u)
    (hsource : ∀ k b, t₀.Arrived bodies k b →
      ∃ o, k = t₀.file.payloadOffset + o ∧ body[o]? = some b)
    (hold : ∀ s ∈ t₀.table.segments, ∀ o : Nat, s.start ≤ o → o < s.start + s.committed →
      Holds body t₀.file.file.contents t₀.file.payloadOffset o)
    {s' : Segment} (hs' : s' ∈ u.table.segments) {o : Nat} (hstart : s'.start ≤ o)
    (ho : o < s'.start + s'.session) :
    Holds body u.file.file.contents t₀.file.payloadOffset o := by
  obtain ⟨i, hi⟩ := List.getElem?_of_mem hs'
  obtain ⟨s, hs, -⟩ := h.origin hi
  have hmem := List.mem_of_getElem? hs
  have hcommitted : s.start ≤ o → o < s.start + s.committed →
      Holds body u.file.file.contents t₀.file.payloadOffset o := fun h0 h1 =>
    (hold s hmem o h0 h1).of_patched h.streamed.patched hsource
  obtain ⟨hbegun, -, hvalid⟩ := h.begun hs
  rcases h.record_cases hs with ⟨-, hsame⟩ | ⟨-, w, hw, hslot, hrecord⟩
  · obtain rfl : s' = s := Option.some.inj (hi.symm.trans hsame)
    exact hcommitted hstart (by omega)
  · obtain rfl := Option.some.inj (hi.symm.trans hrecord)
    dsimp only at hstart ho
    by_cases hbefore : o < s.start + s.committed
    · exact hcommitted hstart hbefore
    · obtain ⟨j, hj⟩ := List.getElem?_of_mem hw
      obtain ⟨hsound, haccount⟩ := h.sound hw
      have hwstart : w.slot.start = s.start := by rw [hslot]; rfl
      have hreach : w.slot.resumeStart ≤ s.start + s.committed := by
        rw [hslot]
        exact (Plan.resumeStart_bounds hvalid.committed_nonneg).2
      have hflushed : w.flushedProgress = w.slot.resumeStart - w.slot.start + w.written := rfl
      have hnonneg := hsound.start_nonneg
      have hle := hsound.start_le
      have hreceived := haccount.received_eq
      have hroom := haccount.received_le
      have hn : (o - w.slot.resumeStart).toNat < w.written := by omega
      obtain ⟨b, hbody, hbyte⟩ := h.stored_byte hj hn
      obtain ⟨w₀, hw₀, hslot₀⟩ := h.streamed.slot_eq hj
      obtain ⟨o', ho', hb⟩ := hsource _ b ⟨j, w₀, hw₀, (o - w.slot.resumeStart).toNat,
        by rw [hslot₀]; omega, rfl, hbody⟩
      rw [hslot₀] at ho'
      obtain rfl : o' = o := by omega
      rw [h.streamed.offset_eq] at hbyte
      exact ⟨b, by rw [← hbyte]; congr 1; omega, hb⟩

/-! ## The header of a run -/

/-- The payload of a complete run is the body, if the progress of its segments is. -/
theorem Settled.payload_eq {body : Bytes} {t₀ u : Transfer} {bodies : Nat → Bytes}
    (h : Settled body.length t₀ bodies u) (hcomplete : u.isComplete = true) {payloadOffset : Nat}
    (hholds : ∀ s ∈ u.table.segments, ∀ o : Nat, s.start ≤ o → o < s.start + s.session →
      Holds body u.file.file.contents payloadOffset o) :
    u.file.file.contents.slice payloadOffset body.length = body := by
  have hfull := h.isComplete_iff.mp hcomplete
  apply List.ext_getElem?
  intro k
  rw [Bytes.getElem?_slice]
  by_cases hk : k < body.length
  · obtain ⟨s, hs, hstart, hlast⟩ :=
      h.partition.exists_mem (Int.natCast_nonneg k) (Int.ofNat_lt.mpr hk)
    have hsession : s.session = s.last - s.start + 1 := hfull s hs
    obtain ⟨b, hb, hbody⟩ := hholds s hs k hstart (by omega)
    rw [if_pos hk, hbody]
    exact hb
  · rw [if_neg hk, List.getElem?_eq_none (Nat.le_of_not_lt hk)]

/-- A record of a run is made of words. -/
theorem Settled.fits_segment {size : Int} {t₀ u : Transfer} {bodies : Nat → Bytes}
    (h : Settled size t₀ bodies u) {s' : Segment} (hs' : s' ∈ u.table.segments) : s'.Fits := by
  obtain ⟨i, hi⟩ := List.getElem?_of_mem hs'
  obtain ⟨s, hs, -, hlast', -, hcommitted', hsession⟩ := h.origin hi
  have hvalid := h.partition.valid s' hs'
  have hlast := h.partition.last_lt hs'
  have hsize := h.partition.size_le
  have hstart := (h.begun hs).2.2.1
  have hbefore := (h.begun hs).2.2.committed_nonneg
  have hmin : Word.minInt ≤ 0 := by decide
  exact hvalid.fits ⟨by omega, by omega⟩

/-- While bodies arrive, the header describes the records. -/
theorem Settled.describes {size : Int} {t₀ u : Transfer} {bodies : Nat → Bytes}
    (h : Settled size t₀ bodies u)
    (hoffset : t₀.file.payloadOffset = ResumeHeader.size t₀.table.segments)
    (hdescribes : ResumeHeader.Describes t₀.file.file.contents t₀.table.segments) :
    ResumeHeader.Describes u.file.file.contents u.table.segments := by
  have hlength : u.table.segments.length = t₀.table.segments.length := by
    rw [h.segments_eq, length_recordAll]
  have hsize : ResumeHeader.size u.table.segments = ResumeHeader.size t₀.table.segments := by
    rw [ResumeHeader.size, ResumeHeader.size, hlength]
  have hheader := h.header_eq (hoffset ▸ hdescribes.length_le)
  rw [hoffset] at hheader
  have hpart : ∀ pos len, pos + len ≤ ResumeHeader.size t₀.table.segments →
      u.file.file.contents.slice pos len = t₀.file.file.contents.slice pos len := by
    intro pos len hle
    have hboth := congrArg (Bytes.slice · pos len) hheader
    simpa only [Bytes.slice_slice hle, Nat.zero_add] using hboth
  refine ⟨?_, ?_, ?_⟩
  · rw [hpart, hdescribes.count_eq, hlength]
    rw [ResumeHeader.size_eq, ResumeHeader.segmentsOffset]
    omega
  · rw [hsize]
    exact Nat.le_trans hdescribes.length_le h.streamed.patched.length_le
  · intro i s' hs'
    obtain ⟨s, hs, hstart, hlast, -, hcommitted, -⟩ := h.origin hs'
    have hrecord : ResumeHeader.record u.file.file.contents i =
        ResumeHeader.record t₀.file.file.contents i := by
      rw [ResumeHeader.record, ResumeHeader.record, hpart _ _ (ResumeHeader.segment_end_le hs)]
    obtain ⟨hold, hold', hnonneg, hclaim⟩ := hdescribes.extends_record i s hs
    have hbegun := (h.begun hs).1
    rw [hrecord]
    exact ⟨hold.trans hstart.symm, hold'.trans hlast.symm, hnonneg, by omega⟩

/-- After a checkpoint, whatever became of it, the header describes the same records. -/
theorem describes_checkpoint {u : Transfer} (hfits : ∀ s ∈ u.table.segments, s.Fits)
    (h : ResumeHeader.Describes u.file.file.contents u.table.segments) :
    ResumeHeader.Describes u.checkpoint.file.file.contents u.table.segments := by
  have hpatched := patched_checkpoint u
  refine ⟨?_, Nat.le_trans h.length_le hpatched.length_le, ?_⟩
  · rw [hpatched.slice_eq, h.count_eq]
    · have hle := h.length_le
      rw [ResumeHeader.size_eq, ResumeHeader.segmentsOffset] at hle
      omega
    · intro k b _ hlt hsource
      have := hsource.1
      rw [ResumeHeader.segmentsOffset] at this
      omega
  · intro i s hs
    unfold checkpoint
    split
    · exact ResumeHeader.record_update h.length_le hs (hfits s (List.mem_of_getElem? hs)).commit
        (h.extends_record i s hs)
    · exact h.extends_record i s hs

/-- What was written for a plan is its header. -/
theorem Planned.carries {size : Int} {t : Transfer} (h : Planned size t) {contents : Bytes}
    (hheader : contents.slice 0 (ResumeHeader.size t.table.segments) =
      ResumeHeader.encode t.table.segments) :
    ResumeHeader.Carries contents t.table.segments := by
  have hcount := h.known.partition.length_le
  have hsize := h.known.partition.size_le
  unfold Word.maxInt at hsize
  refine ResumeHeader.carries_encode (by omega) (fun s hs => ?_) hheader
  have hvalid := h.known.partition.valid s hs
  refine hvalid.fits ?_
  rw [h.begun s hs]
  exact hvalid.fits_committed

/-- Contents that begin with the header of a plan describe it. -/
theorem Planned.describes {size : Int} {t : Transfer} (h : Planned size t) {contents : Bytes}
    (hheader : contents.slice 0 (ResumeHeader.size t.table.segments) =
      ResumeHeader.encode t.table.segments) :
    ResumeHeader.Describes contents t.table.segments := by
  have hcarries := h.carries hheader
  refine ⟨hcarries.count_eq, hcarries.length_le, fun i s hs => ?_⟩
  rw [hcarries.record_eq i s hs]
  have hmem := List.mem_of_getElem? hs
  exact ⟨rfl, rfl, (h.known.partition.valid s hmem).committed_nonneg, (h.begun s hmem).ge⟩

/-! ## Runs -/

/-- A run that is about to stream, with a header that claims only right bytes. -/
structure Resumable (body : Bytes) (t : Transfer) : Prop where
  offset_eq : t.file.payloadOffset = ResumeHeader.size t.table.segments
  describes : ResumeHeader.Describes t.file.file.contents t.table.segments
  holds : ∀ s ∈ t.table.segments, ∀ o : Nat, s.start ≤ o → o < s.start + s.committed →
    Holds body t.file.file.contents t.file.payloadOffset o

section Load

variable {body : Bytes} {p : PartialFile} {workers : Nat} {reporter : Reporter} {course : Course}
  {replies : List Reply} {t₁ t₀ : Transfer} {outcome : Except DownloadError Outcome} {t : Transfer}

/-- The plan for a body that is not empty. -/
theorem known_load_body {f : OpenFile} (hmax : (body.length : Int) ≤ Word.maxInt)
    (hpos : body ≠ []) : (Table.load f body.length workers).Known body.length := by
  have hlength : (0 : Int) < body.length := Int.natCast_pos.mpr (List.length_pos_iff.mpr hpos)
  exact Table.known_load hmax (Table.size_load hlength)

/-- Nothing of a fresh plan is claimed. -/
theorem Planned.holds_fresh {size : Int} (h : Planned size t) (hfresh : t.table.isFresh = true)
    {s : Segment} (hs : s ∈ t.table.segments) (hcommitted : 0 < s.committed) : False := by
  have := h.known.uncommitted hfresh s hs
  omega

/-- A fresh file that is prepared can be resumed. -/
theorem resumable_fresh {size : Int} (h : Planned size t₁) (hfresh : t₁.table.isFresh = true)
    (hpersists : t₁.table.persists = true) (hprepare : t₁.prepare = (t₀, none)) :
    Resumable body t₀ := by
  have htable := (prepare_eq hprepare).1
  obtain ⟨hoffset, hheader⟩ := ready_of_fresh hfresh hpersists h.known.size_eq hprepare
  refine ⟨hoffset, (h.prepare hprepare).describes hheader, ?_⟩
  intro s hs o hstart ho
  rw [htable] at hs
  exact (h.holds_fresh hfresh hs (by omega)).elim

/-- The file of an adopted header can be resumed. -/
theorem resumable_resumed {segments : List Segment} (hconsistent : Consistent body p.file)
    (hread : ResumeHeader.read p.file = .ok segments)
    (hcovers : ResumeHeader.covers segments body.length = true)
    (haccept : (begin (Table.resumed segments body.length) p reporter).accept replies = .ok t₁)
    (hprepare : t₁.prepare = (t₀, none)) : Resumable body t₀ := by
  have hcarries := (ResumeHeader.carries_of_read hread).1
  obtain ⟨hsegments, hoffset, hfile⟩ := ready_of_resumed haccept hprepare
  have hsize : ResumeHeader.size t₀.table.segments = ResumeHeader.size segments := by
    rw [hsegments, ResumeHeader.size, ResumeHeader.size, List.length_map]
  refine ⟨hoffset.trans hsize.symm, ⟨?_, ?_, ?_⟩, ?_⟩
  · rw [hfile, hcarries.count_eq, hsegments, List.length_map]
  · rw [hfile, hsize]
    exact hcarries.length_le
  · intro i s' hs'
    rw [hsegments, List.getElem?_map] at hs'
    obtain ⟨s, hs, rfl⟩ := Option.map_eq_some_iff.mp hs'
    rw [hfile, hcarries.record_eq i s hs]
    have hvalid := (ResumeHeader.carries_of_read hread).2.2 s (List.mem_of_getElem? hs)
    exact ⟨rfl, rfl, hvalid.committed_nonneg, le_refl _⟩
  · intro s' hs' o hstart ho
    rw [hsegments] at hs'
    obtain ⟨s, hs, rfl⟩ := List.mem_map.mp hs'
    rw [hfile, hoffset]
    exact hconsistent segments hread hcovers s hs o hstart ho

/-- A table of a partial file that was consistent can be resumed. -/
theorem resumable_load (hmax : (body.length : Int) ≤ Word.maxInt) (hpos : body ≠ [])
    (hconsistent : Consistent body p.file)
    (haccept : (begin (Table.load p.file body.length workers) p reporter).accept replies = .ok t₁)
    (hprepare : t₁.prepare = (t₀, none)) : Resumable body t₀ := by
  have hknown : (Table.load p.file body.length workers).Known body.length :=
    known_load_body hmax hpos
  have hpersists := Table.persists_load hknown
  have hplanned := (planned_begin hknown).accept haccept
  obtain ⟨-, htable⟩ := accept_table haccept
  have hpersists₁ : t₁.table.persists = true := by
    rcases htable with htable | ⟨-, htable⟩ <;> rw [htable] <;> exact hpersists
  rcases Table.load_cases p.file body.length workers with ⟨segments, hread, hcovers, hload⟩ | hload
  · rw [hload] at haccept
    exact resumable_resumed hconsistent hread hcovers haccept hprepare
  · have hfresh₁ : t₁.table.isFresh = true := by
      rcases htable with htable | ⟨-, htable⟩ <;> rw [htable, hload] <;> rfl
    exact resumable_fresh hplanned hfresh₁ hpersists₁ hprepare

/-- A file that could not be prepared is as consistent as before, unless its header
was torn. -/
theorem unprepared_consistent (hmax : (body.length : Int) ≤ Word.maxInt) (hpos : body ≠ [])
    (hconsistent : Consistent body p.file)
    (hheader : (Table.load p.file body.length workers).isFresh = true → ∀ segments,
      (ResumeHeader.write p.file segments).2 = none ∨
        (ResumeHeader.write p.file segments).1.contents = p.file.contents)
    (haccept : (begin (Table.load p.file body.length workers) p reporter).accept replies = .ok t₁)
    {cause : IoError} (hprepare : t₁.prepare = (t, some cause)) : Consistent body t.file.file := by
  have hknown : (Table.load p.file body.length workers).Known body.length :=
    known_load_body hmax hpos
  have hpersists := Table.persists_load hknown
  have hplanned := (planned_begin hknown).accept haccept
  obtain ⟨hfile, htable⟩ := accept_table haccept
  have hfile : t₁.file = p := hfile
  have hpersists₁ : t₁.table.persists = true := by
    rcases htable with htable | ⟨-, htable⟩ <;> rw [htable] <;> exact hpersists
  have hflag : t₁.table.isFresh = (Table.load p.file body.length workers).isFresh := by
    rcases htable with htable | ⟨-, htable⟩ <;> rw [htable] <;> rfl
  cases hfresh : t₁.table.isFresh with
  | false =>
    rw [prepare_resumed hfresh] at hprepare
    cases hprepare
  | true =>
    have hlimit := prepare_readLimit hprepare
    rcases unprepared_fresh hfresh hpersists₁ hplanned.known.size_eq hprepare with
      ⟨hfault, hsame⟩ | hcontents
    · rw [hfile] at hfault hsame
      rcases hheader (hflag ▸ hfresh) t₁.table.segments with hnone | hkept
      · rw [hnone] at hfault
        contradiction
      · refine hconsistent.congr ?_ ?_
        · rw [hsame, hkept]
        · rw [hlimit, hfile]
    · have hdescribes : ResumeHeader.Describes t.file.file.contents t₁.table.segments := by
        refine hplanned.describes ?_
        have hfront := Bytes.slice_splice t₁.file.file.contents 0
          (ResumeHeader.encode t₁.table.segments)
        rwa [ResumeHeader.length_encode, ← hcontents] at hfront
      refine hdescribes.consistent fun s hs o hstart ho => ?_
      have hbegun := hplanned.begun s hs
      exact (hplanned.holds_fresh hfresh hs (by omega)).elim

/-- What is known of a run that was flushed, when the server sent bytes of the body. -/
theorem closed_holds (hmax : (body.length : Int) ≤ Word.maxInt) (hpos : body ≠ [])
    (hconsistent : Consistent body p.file) (hreplies : course.replies? = some replies)
    (hserves : Serves body
      (Plan.resume (Table.load p.file body.length workers).begin.segments) course)
    (haccept : (begin (Table.load p.file body.length workers) p reporter).accept replies = .ok t₁)
    (hprepare : t₁.prepare = (t₀, none)) {u : Transfer}
    (hsettled : Settled body.length t₀ (t₀.bodies course.incidents) u) :
    ResumeHeader.Describes u.file.file.contents u.table.segments ∧
      ∀ s ∈ u.table.segments, ∀ o : Nat, s.start ≤ o → o < s.start + s.session →
        Holds body u.file.file.contents (ResumeHeader.size u.table.segments) o := by
  have hknown : (Table.load p.file body.length workers).Known body.length :=
    known_load_body hmax hpos
  have hresumable := resumable_load hmax hpos hconsistent haccept hprepare
  refine ⟨hsettled.describes hresumable.offset_eq hresumable.describes, ?_⟩
  intro s hs o hstart ho
  have hsize : ResumeHeader.size u.table.segments = t₀.file.payloadOffset := by
    rw [hresumable.offset_eq, ResumeHeader.size, ResumeHeader.size, hsettled.segments_eq,
      length_recordAll]
  rw [hsize]
  exact hsettled.holds (arrived_holds hknown hreplies hserves haccept hprepare)
    hresumable.holds hs hstart ho

/-- A checkpoint leaves the payload alone. -/
theorem holds_checkpoint {u : Transfer} {o : Nat}
    (h : Holds body u.file.file.contents (ResumeHeader.size u.table.segments) o) :
    Holds body u.checkpoint.file.file.contents (ResumeHeader.size u.table.segments) o := by
  obtain ⟨b, hb, hbody⟩ := h
  have hlt := (List.getElem?_eq_some_iff.mp hb).1
  refine ⟨b, ?_, hbody⟩
  rw [(patched_checkpoint u).getElem?_eq hlt fun b hsource => by omega, hb]

/-- However a run ends, its file is consistent. -/
theorem Ends.consistent
    (h : Ends (Table.load p.file body.length workers) p reporter course outcome t)
    (hmax : (body.length : Int) ≤ Word.maxInt) (hpos : body ≠ [])
    (hconsistent : Consistent body p.file)
    (hheader : (Table.load p.file body.length workers).isFresh = true → ∀ segments,
      (ResumeHeader.write p.file segments).2 = none ∨
        (ResumeHeader.write p.file segments).1.contents = p.file.contents)
    (hserves : Serves body
      (Plan.resume (Table.load p.file body.length workers).begin.segments) course) :
    Consistent body t.file.file := by
  cases h with
  | unanswered => exact hconsistent
  | rejected => exact hconsistent
  | unprepared replies t₁ _ cause _ haccept hprepare =>
    exact unprepared_consistent hmax hpos hconsistent hheader haccept hprepare
  | closed replies t₁ t₀ _ _ hreplies haccept hprepare hclose =>
    have hsettled :=
      settled_of_accept (known_load_body hmax hpos) haccept hprepare course.incidents
    obtain ⟨hdescribes, hholds⟩ :=
      closed_holds hmax hpos hconsistent hreplies hserves haccept hprepare hsettled
    have hcheckpoint := (describes_checkpoint (fun s => hsettled.fits_segment)
      hdescribes).consistent fun s hs o hstart ho => holds_checkpoint (hholds s hs o hstart ho)
    cases close_closes hclose with
    | completed => exact hdescribes.consistent hholds
    | failed => exact hcheckpoint
    | interrupted => exact hcheckpoint
    | incomplete => exact hcheckpoint

/-- A run that completes has the body as its payload. -/
theorem Ends.payload_eq
    (h : Ends (Table.load p.file body.length workers) p reporter course outcome t)
    (hmax : (body.length : Int) ≤ Word.maxInt) (hpos : body ≠ [])
    (hconsistent : Consistent body p.file)
    (hserves : Serves body
      (Plan.resume (Table.load p.file body.length workers).begin.segments) course)
    {n : Nat} (hcompleted : outcome = .ok (.completed n)) :
    t.file.file.contents.slice (ResumeHeader.size t.table.segments) body.length = body := by
  cases h with
  | unanswered => cases hcompleted
  | rejected => cases hcompleted
  | unprepared => cases hcompleted
  | closed replies t₁ t₀ _ _ hreplies haccept hprepare hclose =>
    have hsettled :=
      settled_of_accept (known_load_body hmax hpos) haccept hprepare course.incidents
    obtain ⟨-, hholds⟩ :=
      closed_holds hmax hpos hconsistent hreplies hserves haccept hprepare hsettled
    cases close_closes hclose with
    | failed => cases hcompleted
    | interrupted => cases hcompleted
    | incomplete => cases hcompleted
    | completed hrunning hcomplete =>
      exact hsettled.payload_eq hcomplete hholds

end Load

/-- **The resume invariant.** A consistent partial file is consistent after every run
that sends no other bytes than those of the body: whatever part of them arrives, in
whatever order, whenever the run is stopped, and wherever a write fails, but for the
header of a fresh plan, which is written as a whole or not at all. A run that
completes leaves the body as the payload. -/
theorem run_consistent {body : Bytes} {p : PartialFile} {workers : Nat} {reporter : Reporter}
    {course : Course} (hmax : (body.length : Int) ≤ Word.maxInt) (hpos : body ≠ [])
    (hconsistent : Consistent body p.file)
    (hheader : (Table.load p.file body.length workers).isFresh = true → ∀ segments,
      (ResumeHeader.write p.file segments).2 = none ∨
        (ResumeHeader.write p.file segments).1.contents = p.file.contents)
    (hserves : Serves body
      (Plan.resume (Table.load p.file body.length workers).begin.segments) course) :
    let result := run (Table.load p.file body.length workers) p reporter course
    Consistent body result.2.file.file ∧
      ∀ n, result.1 = .ok (.completed n) →
        result.2.file.file.contents.slice (ResumeHeader.size result.2.table.segments)
          body.length = body := by
  have hends := run_ends (Table.load p.file body.length workers) p reporter course
  exact ⟨hends.consistent hmax hpos hconsistent hheader hserves,
    fun n => hends.payload_eq hmax hpos hconsistent hserves⟩

/-- A partial file with two of six bytes, on a medium that fails at the third write. -/
def twoOfSix : PartialFile :=
  { file :=
      { contents := ResumeHeader.encode [⟨0, 2, 2, 2⟩, ⟨3, 5, 0, 0⟩] ++ [10, 20, 0, 0, 0, 0]
        faults := [none, none, some 24] } }

/-- The first body is too long, the second breaks off. -/
def overlongAndBroken : Course :=
  { replies? := some [.answered 206 (some 3), .answered 206 (some 3)]
    incidents :=
      [(0, .chunk 1 [40]), (1, .chunk 0 [20, 30, 99]), (2, .ended 0), (3, .chunk 1 [50]),
        (4, .broken 1)] }

/-- The checkpoint fails after the claim of the first segment, and the header is true. -/
theorem twoOfSix_consistent :
    let t := (run (Table.load twoOfSix.file 6 9) twoOfSix (Reporter.new (some 6) 100 {})
      overlongAndBroken).2
    ResumeHeader.read t.file.file = .ok [⟨0, 2, 3, 2⟩, ⟨3, 5, 0, 0⟩] ∧
      Consistent [10, 20, 30, 40, 50, 60] t.file.file := by
  have hread : ResumeHeader.read twoOfSix.file = .ok [⟨0, 2, 2, 2⟩, ⟨3, 5, 0, 0⟩] := by
    decide +kernel
  have hload : Table.load twoOfSix.file 6 9 = Table.resumed [⟨0, 2, 2, 2⟩, ⟨3, 5, 0, 0⟩] 6 :=
    Table.load_eq_resumed hread (by decide)
  have hconsistent : Consistent [10, 20, 30, 40, 50, 60] twoOfSix.file := by
    intro segments hfound _ s hs o hstart ho
    obtain rfl := Except.ok.inj (hread.symm.trans hfound)
    have hcases : o = 0 ∨ o = 1 := by
      rcases List.mem_pair.mp hs with rfl | rfl <;> simp only at hstart ho <;> omega
    rcases hcases with rfl | rfl
    · exact ⟨10, by decide +kernel, rfl⟩
    · exact ⟨20, by decide +kernel, rfl⟩
  have hserves : Serves [10, 20, 30, 40, 50, 60]
      (Plan.resume (Table.load twoOfSix.file 6 9).begin.segments) overlongAndBroken := by
    have hslots : Plan.resume (Table.load twoOfSix.file 6 9).begin.segments =
        [⟨0, 0, 1, 2⟩, ⟨1, 3, 3, 5⟩] := by
      rw [hload]
      decide
    rw [hslots]
    intro replies hreplies i slot status length? hslot hreply
    obtain rfl := Option.some.inj hreplies
    match i with
    | 0 =>
      obtain rfl := Option.some.inj hslot
      obtain ⟨rfl, rfl⟩ := Reply.answered.inj (Option.some.inj hreply)
      exact ⟨fun _ => Or.inr ⟨[99], by decide⟩, fun h => absurd h (by decide)⟩
    | 1 =>
      obtain rfl := Option.some.inj hslot
      obtain ⟨rfl, rfl⟩ := Reply.answered.inj (Option.some.inj hreply)
      exact ⟨fun _ => Or.inl ⟨[60], by decide⟩, fun h => absurd h (by decide)⟩
    | i + 2 => contradiction
  refine ⟨by decide +kernel, (run_consistent (by decide) (by decide) hconsistent ?_ hserves).1⟩
  intro hfresh
  have hfresh : (Table.load twoOfSix.file 6 9).isFresh = true := hfresh
  rw [hload] at hfresh
  contradiction

end Transfer

end SegmentedDownload
