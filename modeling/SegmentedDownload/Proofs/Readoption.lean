import Mathlib
import SegmentedDownload.Proofs.Resume
import SegmentedDownload.Proofs.TornCheckpoint

/-!
# SegmentedDownload.Proofs.Readoption

What a run writes to the header of a partial file, the next run adopts.

`Recorded size f segments` says that these are the records that were last written to the header
of `f`: a run with a fresh plan wrote the plan, or the one segment in its place; then anything
may have happened behind the header, and any checkpoints were made.

* Recorded segments partition the file, and the file carries them (`Recorded.sound`).  So the
  reader accepts them, and they cover the file.
* Segments cover a file of one size only (`coversFrom_unique`), so for any other size the next
  run plans from scratch.
* A run that goes on from recorded segments leaves a file with recorded segments
  (`Transfer.run_recorded`).

So what a run leaves is adopted by the next one, and what that one leaves again
(`Recorded.adopted`).
-/

namespace SegmentedDownload

/-- The first and the last byte of a segment. -/
def Segment.range (s : Segment) : Int × Int := (s.start, s.last)

/-- The records that were last written to the header of the partial file of a download. -/
inductive Recorded (size : Int) : OpenFile → List Segment → Prop
  /-- A run with a fresh plan has written its header, into whatever file. -/
  | header {workers : Nat} {p : PartialFile} {reporter : Reporter} {replies : List Reply}
      {t t' : Transfer}
      (haccept : (Transfer.begin (Table.fresh (some size) workers true) p reporter).accept replies =
        .ok t)
      (hwrite : t.writeHeader = (t', none)) : Recorded size t'.file.file t.table.segments
  /-- Whatever happened behind the header. -/
  | behind {f f' : OpenFile} {segments : List Segment} (h : Recorded size f segments)
      (hheader : f'.contents.slice 0 (ResumeHeader.size segments) =
        f.contents.slice 0 (ResumeHeader.size segments)) : Recorded size f' segments
  /-- A checkpoint of the same ranges, with session progress inside of them. -/
  | checkpoint {f : OpenFile} {segments later : List Segment} (h : Recorded size f segments)
      (hranges : later.map Segment.range = segments.map Segment.range)
      (hsession : ∀ s ∈ later, 0 ≤ s.session ∧ s.session ≤ s.last - s.start + 1)
      (hfault : (ResumeHeader.update f later).2.2 = none) :
    Recorded size (ResumeHeader.update f later).1 (later.map Segment.commit)

/-! ## Ranges -/

namespace ResumeHeader

variable {next size : Int} {segments later : List Segment}

/-- Only the ranges of segments decide what they cover. -/
theorem coversFrom_congr (hranges : later.map Segment.range = segments.map Segment.range) :
    coversFrom next size later = coversFrom next size segments := by
  induction segments generalizing next later with
  | nil => rw [List.map_eq_nil_iff.mp hranges]
  | cons s segments ih =>
    obtain ⟨s', later, rfl, hrange, hrest⟩ := List.map_eq_cons_iff.mp hranges
    obtain ⟨hstart, hlast⟩ := Prod.mk.inj hrange
    simp only [coversFrom, hstart, hlast, ih hrest]

/-- A checkpoint that succeeds leaves a header of the committed segments. -/
theorem carries_commit {f : OpenFile} (hcarries : Carries f.contents segments)
    (hlength : later.length = segments.length) (hvalid : ∀ s ∈ later, s.commit.IsValid)
    (hfault : (update f later).2.2 = none) :
    Carries (update f later).1.contents (later.map Segment.commit) := by
  have hrecords : (List.range later.length).map (record (update f later).1.contents) =
      later.map Segment.commit := by
    refine List.ext_getElem (by simp) fun i hi _ => ?_
    have hi' : i < later.length := by simpa using hi
    simpa using record_update_eq hfault (List.getElem?_eq_getElem hi')
      (fits_commit (hvalid _ (List.getElem_mem hi')))
  exact hrecords ▸ carries_update hcarries hlength

end ResumeHeader

namespace Plan

variable {size : Int} {segments later : List Segment}

/-- Segments of a partition with some progress in their ranges can be committed. -/
theorem IsPartition.commit (h : IsPartition size segments)
    (hranges : later.map Segment.range = segments.map Segment.range)
    (hsession : ∀ s ∈ later, 0 ≤ s.session ∧ s.session ≤ s.last - s.start + 1) :
    IsPartition size (later.map Segment.commit) := by
  have hcommit : (later.map Segment.commit).map Segment.range = segments.map Segment.range := by
    rw [List.map_map, ← hranges]
    rfl
  refine ⟨fun s' hs' => ?_, ?_, h.size_le⟩
  · obtain ⟨s, hs, rfl⟩ := List.mem_map.mp hs'
    obtain ⟨old, hold, hrange⟩ : ∃ old ∈ segments, old.range = s.range := by
      have hmem : s.range ∈ segments.map Segment.range := hranges ▸ List.mem_map_of_mem hs
      exact List.mem_map.mp hmem
    obtain ⟨hstart, hlast⟩ := Prod.mk.inj hrange
    obtain ⟨hnonneg, hle, hmax, -, -⟩ := h.valid old hold
    have hbound := h.last_lt hold
    have hsize := h.size_le
    have := hsession s hs
    simp only [Segment.IsValid, Segment.commit]
    omega
  · exact (ResumeHeader.coversFrom_congr hcommit).trans h.covers

end Plan

/-! ## Headers that the reader accepts -/

/-- What is known of the segments that were last written to a file. -/
structure Recorded.Sound (size : Int) (f : OpenFile) (segments : List Segment) : Prop where
  carries : ResumeHeader.Carries f.contents segments
  partition : Plan.IsPartition size segments

theorem Transfer.Planned.sound_writeHeader {size : Int} {t t' : Transfer} (h : Planned size t)
    (hfresh : t.table.isFresh = true) (hpersists : t.table.persists = true)
    (hwrite : t.writeHeader = (t', none)) :
    Recorded.Sound size t'.file.file t.table.segments := by
  unfold writeHeader at hwrite
  rw [hfresh, hpersists] at hwrite
  obtain ⟨rfl, hfault⟩ := Prod.mk.inj hwrite
  refine ⟨h.carries ?_, h.known.partition⟩
  have hstored := ResumeHeader.contents_write hfault
  have hfront := Bytes.slice_splice t.file.file.contents 0 (ResumeHeader.encode t.table.segments)
  rwa [← hstored, ResumeHeader.length_encode] at hfront

namespace Recorded

variable {size : Int} {f : OpenFile} {segments : List Segment}

/-- Recorded segments partition the file, and the header is theirs. -/
theorem sound (hpos : 0 < size) (hmax : size ≤ Word.maxInt) (h : Recorded size f segments) :
    Sound size f segments := by
  induction h with
  | @header workers _ _ _ _ _ haccept hwrite =>
    have hknown := Table.known_fresh_of_pos hpos hmax workers true
    have hplanned := (Transfer.planned_begin hknown).accept haccept
    obtain ⟨-, htable⟩ := Transfer.accept_table haccept
    refine hplanned.sound_writeHeader ?_ ?_ hwrite
    · rcases htable with htable | ⟨-, htable⟩ <;> rw [htable] <;> rfl
    · rcases htable with htable | ⟨-, htable⟩ <;> rw [htable] <;> exact hknown.persists_fresh
  | behind _ hheader ih => exact ⟨ih.carries.congr hheader, ih.partition⟩
  | checkpoint _ hranges hsession hfault ih =>
    have hpartition := ih.partition.commit hranges hsession
    have hlength := congrArg List.length hranges
    rw [List.length_map, List.length_map] at hlength
    exact ⟨ResumeHeader.carries_commit ih.carries hlength
      (fun s hs => hpartition.valid _ (List.mem_map_of_mem hs)) hfault, hpartition⟩

/-- Recorded segments are read back. -/
theorem Sound.read (h : Sound size f segments) (hpos : 0 < size) (hread : f.readLimit = none) :
    ResumeHeader.read f = .ok segments := by
  refine ResumeHeader.read_of_carries hread h.carries ?_ h.partition.valid
  rintro rfl
  have hcovers := h.partition.covers
  simp only [ResumeHeader.covers, ResumeHeader.coversFrom, beq_iff_eq] at hcovers
  omega

end Recorded

/-! ## Runs -/

namespace Transfer

variable {size : Int} {p : PartialFile} {workers : Nat} {reporter : Reporter}
  {replies : List Reply} {t₁ t₀ u : Transfer}

/-- The segments of a table have the ranges of the records. -/
theorem range_begin (segments : List Segment) :
    (segments.map Segment.begin).map Segment.range = segments.map Segment.range := by
  rw [List.map_map]
  rfl

/-- A file is recorded when the bodies begin to arrive, if it was recorded before or gets its
header now.  The ranges that were recorded before stay. -/
theorem prepare_recorded (hpos : 0 < size) (hmax : size ≤ Word.maxInt)
    (hold : (Table.load p.file size workers).isFresh = false →
      Recorded size p.file (Table.load p.file size workers).segments)
    (haccept : (begin (Table.load p.file size workers) p reporter).accept replies = .ok t₁)
    (hprepare : t₁.prepare = (t₀, none)) :
    ∃ segments, Recorded size t₀.file.file segments ∧
      segments.map Segment.range = t₀.table.segments.map Segment.range ∧
      ((Table.load p.file size workers).isFresh = false → segments.map Segment.range =
        (Table.load p.file size workers).segments.map Segment.range) ∧
      t₀.file.payloadOffset = ResumeHeader.size t₀.table.segments := by
  rcases Table.load_cases p.file size workers with ⟨segments, -, -, hload⟩ | hload
  · rw [hload] at hold haccept ⊢
    obtain ⟨hsegments, hoffset, hfile⟩ := ready_of_resumed haccept hprepare
    refine ⟨segments, ?_, ?_, fun _ => rfl, ?_⟩
    · rw [hfile]
      exact hold rfl
    · rw [hsegments, range_begin]
    · rw [hoffset, hsegments, ResumeHeader.size, ResumeHeader.size, List.length_map]
  · rw [hload] at haccept ⊢
    have hknown := Table.known_fresh_of_pos hpos hmax workers true
    have hplanned := (planned_begin hknown).accept haccept
    obtain ⟨-, htable⟩ := accept_table haccept
    have hfresh : t₁.table.isFresh = true := by
      rcases htable with htable | ⟨-, htable⟩ <;> rw [htable] <;> rfl
    have hpersists : t₁.table.persists = true := by
      rcases htable with htable | ⟨-, htable⟩ <;> rw [htable] <;> exact hknown.persists_fresh
    obtain ⟨hoffset, hheader⟩ := ready_of_fresh hfresh hpersists hplanned.known.size_eq hprepare
    have htable₀ := (prepare_eq hprepare).1
    rw [htable₀] at hoffset hheader ⊢
    obtain ⟨t₂, hwrite⟩ : ∃ t₂, t₁.writeHeader = (t₂, none) := by
      unfold prepare at hprepare
      split at hprepare
      · cases hprepare
      · next t₂ hwrite => exact ⟨t₂, hwrite⟩
    refine ⟨t₁.table.segments, (Recorded.header haccept hwrite).behind ?_, rfl,
      fun hresumed => absurd hresumed.symm Bool.false_ne_true, hoffset⟩
    -- the final length was set behind the header
    have hcarries := (hplanned.sound_writeHeader hfresh hpersists hwrite).carries
    rw [hheader]
    exact hcarries.encode_eq.symm

/-- A file is recorded after a checkpoint that does not fail, with the same ranges. -/
theorem Settled.recorded_checkpoint {bodies : Nat → Bytes} {segments : List Segment}
    (h : Settled size t₀ bodies u) (hpersists : t₀.table.persists = true)
    (hrecorded : Recorded size u.file.file segments)
    (hranges : segments.map Segment.range = t₀.table.segments.map Segment.range)
    (hfatal : u.checkpoint.fatal? = none) :
    Recorded size u.checkpoint.file.file u.checkpoint.table.segments ∧
      u.checkpoint.table.segments.map Segment.range = segments.map Segment.range := by
  have hpersists' : u.table.persists = true := by rw [h.table_eq]; exact hpersists
  have hrangesu : u.table.segments.map Segment.range = segments.map Segment.range := by
    rw [hranges, ← range_begin u.table.segments, h.segments_eq, map_begin_recordAll, range_begin]
  have hsession : ∀ s ∈ u.table.segments, 0 ≤ s.session ∧ s.session ≤ s.last - s.start + 1 := by
    intro s hs
    obtain ⟨i, hi⟩ := List.getElem?_of_mem hs
    obtain ⟨s₀, hs₀, hstart, hlast, -, hcommitted, hle⟩ := h.origin hi
    have hnonneg := (h.begun hs₀).2.2.committed_nonneg
    omega
  have hfault : (ResumeHeader.update u.file.file u.table.segments).2.2 = none := by
    have hbefore := checkpoint_fatal hfatal
    unfold checkpoint at hfatal
    rw [if_pos hpersists'] at hfatal
    simpa [hbefore] using hfatal
  rw [checkpoint_segments, if_pos hpersists', checkpoint, if_pos hpersists']
  refine ⟨hrecorded.checkpoint hrangesu hsession hfault, ?_⟩
  rw [← hrangesu, List.map_map]
  rfl

/-- A run that gets its replies and ends without an error leaves a recorded file: the segments as
they were committed last, or those that it began with if it completes.  Their ranges are those
that were recorded before. -/
theorem run_recorded {course : Course} {outcome : Outcome} (hpos : 0 < size)
    (hmax : size ≤ Word.maxInt)
    (hold : (Table.load p.file size workers).isFresh = false →
      Recorded size p.file (Table.load p.file size workers).segments)
    (hanswered : course.replies? ≠ none)
    (hok : (run (Table.load p.file size workers) p reporter course).1 = .ok outcome) :
    ∃ segments,
      Recorded size (run (Table.load p.file size workers) p reporter course).2.file.file segments ∧
      ((Table.load p.file size workers).isFresh = false → segments.map Segment.range =
        (Table.load p.file size workers).segments.map Segment.range) ∧
      ((∀ n, outcome ≠ .completed n) →
        segments = (run (Table.load p.file size workers) p reporter course).2.table.segments) := by
  have hknown : (Table.load p.file size workers).Known size :=
    Table.known_load hmax (Table.size_load hpos)
  have hends := run_ends (Table.load p.file size workers) p reporter course
  rw [hok] at hends
  generalize (run (Table.load p.file size workers) p reporter course).2 = t at hends ⊢
  generalize hresult : (Except.ok outcome : Except DownloadError Outcome) = result at hends
  cases hends with
  | unanswered hreplies => exact absurd hreplies hanswered
  | rejected => contradiction
  | unprepared => contradiction
  | closed replies t₁ t₀ _ _ _ haccept hprepare hclose =>
    have hsettled := settled_of_accept hknown haccept hprepare course.incidents
    obtain ⟨segments, hrecorded, hranges, hkept, hoffset⟩ :=
      prepare_recorded hpos hmax hold haccept hprepare
    have hpersists : t₀.table.persists = true := by
      rw [(prepare_eq hprepare).1]
      rcases (accept_table haccept).2 with htable | ⟨-, htable⟩ <;> rw [htable] <;>
        exact Table.persists_load hknown
    have hlength : segments.length = t₀.table.segments.length := by
      simpa using congrArg List.length hranges
    have hheader := hsettled.header_eq (by
      rw [hoffset, ResumeHeader.size, ← hlength]
      exact (hrecorded.sound hpos hmax).carries.length_le)
    rw [hoffset, ResumeHeader.size, ← hlength] at hheader
    have hrecorded' := hrecorded.behind hheader
    have hcheckpoint := hsettled.recorded_checkpoint hpersists hrecorded' hranges
    cases close_closes hclose with
    | completed =>
      obtain rfl := Except.ok.inj hresult
      exact ⟨segments, hrecorded', hkept, fun hne => absurd rfl (hne _)⟩
    | failed => contradiction
    | interrupted hfatal | incomplete hfatal =>
      obtain ⟨hlater, hsame⟩ := hcheckpoint hfatal
      exact ⟨_, hlater, fun hresumed => hsame.trans (hkept hresumed), fun _ => rfl⟩

end Transfer

namespace Recorded

variable {size : Int} {f : OpenFile} {segments : List Segment}

/-- **What a run writes, the next run adopts.**  Whatever the partial file held before, and however
many connections are set up later: the table of the next run has exactly the records that were last
written, and its payload begins where it began before.  For any other size there is a fresh plan.

A run that goes on from them, or that plans from scratch over whatever file there is, leaves a
file that can be adopted again, and the ranges of the records do not change. -/
theorem adopted (hpos : 0 < size) (hmax : size ≤ Word.maxInt) (h : Recorded size f segments)
    (hread : f.readLimit = none) :
    (∀ workers, Table.load f size workers = Table.resumed segments size ∧
      (Table.load f size workers).headerSize = ResumeHeader.size segments) ∧
    (∀ workers payloadOffset reporter replies t t',
      (Transfer.begin (Table.load f size workers) { file := f, payloadOffset } reporter).accept
          replies = .ok t →
        t.prepare = (t', none) →
          t'.file = { file := f, payloadOffset := ResumeHeader.size segments }) ∧
    (∀ size' workers, size' ≠ size →
      Table.load f size' workers = Table.fresh (some size') workers true) ∧
    ∀ workers (p : PartialFile) reporter course outcome,
      p.file = f ∨ (Table.load p.file size workers).isFresh = true → course.replies? ≠ none →
      (Transfer.run (Table.load p.file size workers) p reporter course).1 = .ok outcome →
        ∃ later, Recorded size
            (Transfer.run (Table.load p.file size workers) p reporter course).2.file.file later ∧
          (p.file = f → later.map Segment.range = segments.map Segment.range) ∧
          ((∀ n, outcome ≠ .completed n) → later =
            (Transfer.run (Table.load p.file size workers) p reporter course).2.table.segments) := by
  have hsound := h.sound hpos hmax
  have hheader := hsound.read hpos hread
  have hload : ∀ workers, Table.load f size workers = Table.resumed segments size :=
    fun _ => Table.load_eq_resumed hheader hsound.partition.covers
  refine ⟨fun workers => ?_, ?_, ?_, ?_⟩
  · rw [hload]
    exact ⟨rfl, rfl⟩
  · intro workers payloadOffset reporter replies t t' haccept hprepare
    rw [hload] at haccept
    obtain ⟨-, hoffset, hfile⟩ := Transfer.ready_of_resumed haccept hprepare
    exact congrArg₂ PartialFile.mk hfile hoffset
  · intro size' workers hne
    rcases Table.load_cases f size' workers with ⟨found, hfound, hcovers, -⟩ | hfresh
    · obtain rfl := Except.ok.inj (hheader.symm.trans hfound)
      exact absurd (ResumeHeader.coversFrom_unique hcovers hsound.partition.covers) hne
    · exact hfresh
  · intro workers p reporter course outcome hbegins hanswered hok
    have hadopted : p.file = f → Table.load p.file size workers = Table.resumed segments size := by
      rintro rfl
      exact hload workers
    have hold : (Table.load p.file size workers).isFresh = false →
        Recorded size p.file (Table.load p.file size workers).segments := by
      intro hresumed
      have hfile := hbegins.resolve_right (by rw [hresumed]; exact Bool.false_ne_true)
      rw [hadopted hfile, hfile]
      exact h
    obtain ⟨later, hrecorded, hkept, hlater⟩ :=
      Transfer.run_recorded hpos hmax hold hanswered hok
    refine ⟨later, hrecorded, fun hfile => ?_, hlater⟩
    rw [hadopted hfile] at hkept
    exact hkept rfl

/-- The file of a download of six bytes that was planned for two connections, over three bytes
that were there before.  Two bytes came in. -/
def pairWithTwo : OpenFile :=
  ((ResumeHeader.write { contents := [1, 2, 3] } [⟨0, 2, 0, 0⟩, ⟨3, 5, 0, 0⟩]).1.write 92
    [10, 20]).1

/-- A checkpoint records the two bytes, and the next run adopts them with nine connections. -/
theorem adopted_pairWithTwo :
    let f := (ResumeHeader.update pairWithTwo [⟨0, 2, 0, 2⟩, ⟨3, 5, 0, 0⟩]).1
    Table.load f 6 9 = Table.resumed [⟨0, 2, 2, 2⟩, ⟨3, 5, 0, 0⟩] 6 ∧
      (Table.load f 6 9).headerSize = 92 ∧ Table.load f 7 9 = Table.fresh (some 7) 9 true := by
  intro f
  have hheader : Recorded 6
      (ResumeHeader.write { contents := [1, 2, 3] } [⟨0, 2, 0, 0⟩, ⟨3, 5, 0, 0⟩]).1
      [⟨0, 2, 0, 0⟩, ⟨3, 5, 0, 0⟩] :=
    @Recorded.header 6 2 { file := { contents := [1, 2, 3] } } (Reporter.new (some 6) 100 {}) []
      _ _ rfl rfl
  have hbodies : Recorded 6 pairWithTwo [⟨0, 2, 0, 0⟩, ⟨3, 5, 0, 0⟩] :=
    hheader.behind (by decide +kernel)
  have hcheckpoint : Recorded 6 f [⟨0, 2, 2, 2⟩, ⟨3, 5, 0, 0⟩] :=
    @Recorded.checkpoint 6 _ _ [⟨0, 2, 0, 2⟩, ⟨3, 5, 0, 0⟩] hbodies rfl (by decide)
      (by decide +kernel)
  obtain ⟨hload, -, hother, -⟩ := adopted (by decide) (by decide) hcheckpoint (by decide +kernel)
  exact ⟨(hload 9).1, (hload 9).2, hother 7 9 (by decide)⟩

end Recorded

end SegmentedDownload
