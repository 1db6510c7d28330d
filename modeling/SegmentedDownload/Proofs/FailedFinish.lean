import SegmentedDownload.Proofs.EndToEnd
import SegmentedDownload.Proofs.HeaderImage

/-!
# SegmentedDownload.Proofs.FailedFinish

What is left of a download that has every byte and cannot be finished.

A run that completes does not commit its progress: the header in the partial file
is still the one that the run began with (`Headed`).  That does no harm as long as
the partial file becomes the finished file.  When making the finished file fails,
the partial file stays where it is (`finalize_keeps`), and the next run asks once
more for all that this run has asked for (`run_failed_finish`).
-/

namespace SegmentedDownload

open FileSystem Naming

namespace Transfer

/-! ## The header of a run that completes -/

variable {size : Int} {t t₁ t₀ u : Transfer} {recorded : List Segment}

/-- The file begins with a header of the segments of the run, with the progress that
was committed before it. -/
structure Headed (t : Transfer) (recorded : List Segment) : Prop where
  carries : ResumeHeader.Carries t.file.file.contents recorded
  segments_eq : recorded.map Segment.begin = t.table.segments.map Segment.begin
  headerSize_eq : t.table.headerSize = ResumeHeader.size recorded

/-- A plan begins with the committed progress. -/
theorem Planned.map_begin (h : Planned size t) :
    t.table.segments.map Segment.begin = t.table.segments := by
  refine (List.map_congr_left fun s hs => ?_).trans (List.map_id _)
  obtain ⟨start, last, committed, session⟩ := s
  obtain rfl : session = committed := h.begun _ hs
  rfl

/-- When the bodies arrive, the header is there: as it was adopted, or as it was
written for a fresh plan. -/
theorem headed_ready {f : OpenFile} {workers : Nat} {reporter : Reporter} {replies : List Reply}
    (hknown : (Table.load f size workers).Known size)
    (haccept : (begin (Table.load f size workers) { file := f } reporter).accept replies = .ok t₁)
    (hprepare : t₁.prepare = (t₀, none)) : ∃ recorded, t₀.Headed recorded := by
  have hplanned := (planned_begin hknown).accept haccept
  have hoffset := prepare_offset hprepare
  rcases Table.load_cases f size workers with ⟨segments, hread, -, hload⟩ | hload
  · rw [hload] at haccept
    obtain ⟨hsegments, hbehind, hfile⟩ := ready_of_resumed haccept hprepare
    refine ⟨segments, ?_, ?_, hoffset.symm.trans hbehind⟩
    · rw [hfile]
      exact (ResumeHeader.carries_of_read hread).1
    · rw [hsegments, Plan.map_begin_begin]
  · have htable := (accept_table haccept).2
    have hpersists := Table.persists_load hknown
    have hflags : t₁.table.isFresh = true ∧ t₁.table.persists = true := by
      rcases htable with htable | ⟨-, htable⟩
      · rw [htable]
        exact ⟨by rw [hload]; rfl, hpersists⟩
      · rw [htable]
        exact ⟨by rw [hload]; rfl, hpersists⟩
    obtain ⟨hbehind, hheader⟩ :=
      ready_of_fresh hflags.1 hflags.2 hplanned.known.size_eq hprepare
    exact ⟨t₀.table.segments, (hplanned.prepare hprepare).carries hheader, rfl,
      hoffset.symm.trans hbehind⟩

/-- Neither bodies nor flushing touch the header. -/
theorem Settled.headed {bodies : Nat → Bytes} (h : Settled size t₀ bodies u)
    (hoffset : t₀.file.payloadOffset = t₀.table.headerSize) (hheaded : t₀.Headed recorded) :
    u.Headed recorded := by
  have hbehind := hoffset.trans hheaded.headerSize_eq
  have hsame := h.header_eq (hbehind ▸ hheaded.carries.length_le)
  rw [hbehind] at hsame
  refine ⟨hheaded.carries.congr hsame, ?_, ?_⟩
  · rw [h.segments_eq, map_begin_recordAll]
    exact hheaded.segments_eq
  · rw [← h.offset_eq hoffset, h.streamed.offset_eq, hbehind]

/-- What a run asks for, slot by slot. -/
theorem ranges_eq (t : Transfer) :
    t.ranges = (t.workers.map (·.slot)).map fun slot => (request slot).range? := by
  rw [ranges, List.map_map]
  rfl

/-- A run that continues from a header asks for what that header says is missing. -/
theorem ranges_of_read {f : OpenFile} (hread : ResumeHeader.read f = .ok recorded)
    (hcovers : ResumeHeader.covers recorded size = true) (workers : Nat) (p : PartialFile)
    (reporter : Reporter) :
    (begin (Table.load f size workers) p reporter).ranges =
      (Plan.resume (recorded.map Segment.begin)).map fun slot => (request slot).range? := by
  have hworkers : (begin (Table.load f size workers) p reporter).workers =
      (Plan.resume (recorded.map Segment.begin)).map request := by
    rw [Table.load_eq_resumed hread hcovers]
    rfl
  rw [ranges, hworkers, List.map_map]
  rfl

/-- A run that completes leaves the header that it began with.  It asked for exactly
what that header says is missing. -/
theorem run_completed_headed {f : OpenFile} {workers : Nat} {reporter : Reporter}
    {course : Course} {length : Nat} (hknown : (Table.load f size workers).Known size)
    (hcompleted : (run (Table.load f size workers) { file := f } reporter course).1 =
      .ok (.completed length)) :
    let t := (run (Table.load f size workers) { file := f } reporter course).2
    ∃ recorded, t.Headed recorded ∧ Plan.IsPartition size recorded ∧
      (∀ s ∈ t.table.segments, s.IsFull) ∧
      t.ranges = (Plan.resume (recorded.map Segment.begin)).map
        fun slot => (request slot).range? := by
  have hends := run_ends (Table.load f size workers) { file := f } reporter course
  dsimp only
  generalize (run (Table.load f size workers) { file := f } reporter course).2 = t at hends ⊢
  rw [hcompleted] at hends
  cases hends with
  | closed replies t₁ t₀ _ _ _ haccept hprepare hclose =>
    have hsettled := settled_of_accept hknown haccept hprepare course.incidents
    obtain ⟨recorded, hready⟩ := headed_ready hknown haccept hprepare
    have hheaded := hsettled.headed (prepare_offset hprepare) hready
    cases close_closes hclose with
    | completed hrunning hcomplete =>
      -- announcing a complete run changes neither its file nor its table
      refine ⟨recorded, ⟨hheaded.carries, hheaded.segments_eq, hheaded.headerSize_eq⟩,
        hsettled.partition.congr hheaded.segments_eq, hsettled.isComplete_iff.mp hcomplete, ?_⟩
      have hslots := hsettled.slots_eq
      rw [← hsettled.planned.map_begin, ← hready.segments_eq] at hslots
      rw [← hslots]
      exact ranges_eq _

end Transfer

namespace Probe

/-- A number that is read as a word is one. -/
theorem word?_le {text : String} {n : Int} (h : word? text = some n) : n ≤ Word.maxInt :=
  (of_decide_eq_true (Option.filter_eq_some_iff.mp h).2).2

/-- A size that a reply tells is a word. -/
theorem size_le {reply : SizeReply} {n : Int} (h : size reply = .ok n) : n ≤ Word.maxInt := by
  cases reply with
  | lost => contradiction
  | answered status length? =>
    rw [size] at h
    split at h
    · split at h
      · next hword =>
        obtain rfl := Except.ok.inj h
        obtain ⟨text, -, htext⟩ := Option.bind_eq_some_iff.mp hword
        exact word?_le htext
      · contradiction
    · contradiction

end Probe

namespace Download

variable {c : Config} {files files' made : FileSystem} {path target : String} {place : Place}
  {file : OpenFile} {headerSize length : Nat} {size : Int} {contents : Bytes} {world : World}

/-! ## The partial file -/

/-- A copy leaves every file alone that was there. -/
theorem copyPayload_keeps {fault? : Option IoError}
    (h : copyPayload files contents headerSize length target = (files', fault?)) {node : Node}
    (hnode : files.node? place = some node) : files'.node? place = some node := by
  unfold copyPayload at h
  split at h
  · next files₁ fault hcreate =>
    obtain ⟨rfl, -⟩ := Prod.mk.inj h
    rw [attempt_of_fault hcreate, hnode]
  · next files₁ hcreate =>
    obtain ⟨q, hlocate, hvacant, hnodes⟩ := node?_createNew hcreate
    have hne : place ≠ q := by
      rintro rfl
      rw [hvacant] at hnode
      contradiction
    have hsame : SameDirectories files files₁ := by
      intro p
      rw [hnodes]
      by_cases hp : p = q
      · simp [hp, hvacant]
      · rw [if_neg hp]
    have hlocate₁ : files₁.locateFile target .isADirectory = .ok q :=
      locateFile_congr hsame hlocate
    have hkept : ∀ files₂ fault?,
        files₁.write target (contents.slice headerSize length) = (files₂, fault?) →
        files₂.node? place = some node := by
      intro files₂ fault? hwrite
      rw [node?_write hwrite hlocate₁ hne, hnodes, if_neg hne, hnode]
    dsimp only at h
    split at h
    · next files₂ fault hwrite =>
      obtain ⟨rfl, -⟩ := Prod.mk.inj h
      exact hkept _ _ hwrite
    · next files₂ hwrite =>
      obtain ⟨rfl, -⟩ := Prod.mk.inj h
      exact hkept _ _ hwrite

/-- A partial file with a header that cannot become the finished file stays, and is at
most cut behind its payload. -/
theorem finalize_keeps {cause : IoError}
    (h : finalize files c path place file headerSize length = (files', .error cause))
    (hheader : headerSize ≠ 0) (hplace : place ≠ [])
    (hnode : files.node? place = some (.file file.contents)) :
    ∃ left, files'.node? place = some (.file left) ∧
      (left = file.contents ∨ left = file.contents.resize (headerSize + length)) := by
  have hset := OpenFile.contents_setLength file (headerSize + length)
  unfold finalize at h
  split at h
  · obtain ⟨rfl, -⟩ := Prod.mk.inj h
    exact ⟨_, hnode, Or.inl rfl⟩
  · next file' hlength =>
    rw [hlength, if_pos rfl] at hset
    dsimp only at hset h
    refine ⟨file'.contents, ?_, Or.inr hset⟩
    have hput : (files.put place (.file file'.contents)).node? place =
        some (.file file'.contents) := by
      rw [node?_put hplace, if_pos rfl]
    rw [if_neg hheader] at h
    split at h
    · next files₁ fault hcopy =>
      obtain ⟨rfl, -⟩ := Prod.mk.inj h
      exact copyPayload_keeps hcopy hput
    · next files₁ hcopy =>
      have hkept := copyPayload_keeps hcopy hput
      cases hremove : files₁.remove path with
      | mk files₂ fault? =>
        rw [hremove] at h
        obtain ⟨rfl, hresult⟩ := Prod.mk.inj h
        cases fault? with
        | none => contradiction
        | some fault => rw [attempt_of_fault hremove, hkept]

/-- What is left when a partial file cannot become the finished file still begins with
its header. -/
theorem finalize_carries {t : Transfer} {recorded : List Segment} {cause : IoError}
    (h : finalize files c path place t.file.file t.table.headerSize length =
      (files', .error cause))
    (hheaded : t.Headed recorded) (hplace : place ≠ [])
    (hnode : files.node? place = some (.file t.file.file.contents)) :
    ∃ left, files'.node? place = some (.file left) ∧ ResumeHeader.Carries left recorded := by
  have hheader : t.table.headerSize ≠ 0 := by
    have hoffset : 0 < ResumeHeader.segmentsOffset := by decide
    rw [hheaded.headerSize_eq, ResumeHeader.size_eq]
    omega
  obtain ⟨left, hleft, rfl | rfl⟩ := finalize_keeps h hheader hplace hnode
  · exact ⟨_, hleft, hheaded.carries⟩
  · refine ⟨_, hleft, hheaded.carries.congr (Bytes.slice_resize ?_ ?_)⟩
    · rw [hheaded.headerSize_eq]
      omega
    · have := hheaded.carries.length_le
      omega

/-! ## Whole downloads -/

/-- The transfer of a download whose partial file was opened. -/
def engine (c : Config) (size? : Option Int) (contents : Bytes) (world : World) :
    Except DownloadError Outcome × Transfer :=
  let file : OpenFile := { contents, faults := world.faults }
  Transfer.run (table c size? file) { file }
    (Reporter.new (table c size? file).size? c.progressInterval {}) world.course

/-- A download whose transfer is complete goes on to finish. -/
theorem run_eq_finish {replies : List SizeReply}
    (hcertificate : Certificate.check c files.read = .ok ())
    (hsizes : world.sizes? = some replies)
    (hopens : Opens c files (Probe.settled replies) made place contents)
    (hcompleted : (engine c (Probe.settled replies) contents world).1 =
      .ok (.completed length)) :
    let t := (engine c (Probe.settled replies) contents world).2
    ∃ (d : Download) (path : String),
      d.files.node? place = some (.file t.file.file.contents) ∧
      run c files world = d.finish c path place t.file.file t.table.headerSize length := by
  have hplace := openFile_ne_nil hopens.partialFile
  unfold run
  rw [hcertificate, hsizes]
  dsimp only
  unfold fetch
  rw [hopens.directory]
  dsimp only
  have hopened := hopens.partialFile
  generalize made.openFile _ = result at hopened ⊢
  obtain ⟨files₁, opened⟩ := result
  obtain rfl : opened = _ := hopened
  unfold engine at hcompleted ⊢
  unfold transfer
  dsimp only at hcompleted ⊢
  generalize Transfer.run _ _ _ _ = result at hcompleted ⊢
  obtain ⟨outcome, t⟩ := result
  obtain rfl : outcome = _ := hcompleted
  refine ⟨_, _, ?_, rfl⟩
  rw [node?_put hplace, if_pos rfl]

/-- A download that finishes has a finished file, or stops at an error of the files. -/
theorem finish_cases (d : Download) (c : Config) (path : String) (place : Place)
    (file : OpenFile) (headerSize length : Nat) :
    (∃ cause files', finalize d.files c path place file headerSize length =
        (files', .error cause) ∧
      d.finish c path place file headerSize length =
        (.error (.io cause), { d with files := files' })) ∨
      (d.finish c path place file headerSize length).2.output? ≠ none := by
  unfold finish
  cases finalize d.files c path place file headerSize length with
  | mk files' result =>
    cases result with
    | error cause => exact Or.inl ⟨cause, files', rfl, rfl⟩
    | ok target => exact Or.inr (Option.some_ne_none target)

/-- What a failure to finish costs.

All segments of a resumable download are on disk, but the finished file cannot be
made.  The partial file is then still there, but its header has the progress that
was committed when the run began; it records all segments as complete only if there
was nothing to ask for.  A run that continues from it asks for the same ranges again. -/
theorem run_failed_finish {replies : List SizeReply} (hresume : c.resume = true)
    (hcertificate : Certificate.check c files.read = .ok ())
    (hsizes : world.sizes? = some replies) (hsettled : Probe.settled replies = some size)
    (hopens : Opens c files (some size) made place contents)
    (hcompleted : (engine c (some size) contents world).1 = .ok (.completed length))
    (hfailed : (run c files world).2.output? = none) :
    let t := (engine c (some size) contents world).2
    (∃ cause, (run c files world).1 = .error (.io cause)) ∧
      (∀ s ∈ t.table.segments, s.IsFull) ∧
      ∃ left recorded, (run c files world).2.files.node? place = some (.file left) ∧
        ResumeHeader.read { contents := left } = .ok recorded ∧
        ResumeHeader.covers recorded size = true ∧
        recorded.map Segment.begin = t.table.segments.map Segment.begin ∧
        ((∀ s ∈ recorded, s.isComplete = true) ↔ t.ranges = []) ∧
        ∀ (f : OpenFile) (workers : Nat) (reporter : Reporter),
          f.contents = left → f.readLimit = none →
          (Transfer.begin (Table.load f size workers) { file := f } reporter).ranges =
            t.ranges := by
  obtain ⟨hpos, reply, hreply⟩ := Probe.settle_eq_some hsettled
  have hplace := openFile_ne_nil hopens.partialFile
  have hloaded : table c (some size) { contents, faults := world.faults } =
      Table.load { contents, faults := world.faults } size c.workers := by
    simp [table, hresume]
  have hknown : (Table.load { contents, faults := world.faults } size c.workers).Known size :=
    Table.known_load (Probe.size_le hreply) (Table.size_load hpos)
  obtain ⟨d, path, hnode, hrun⟩ := run_eq_finish hcertificate hsizes
    (hsettled ▸ hopens) (hsettled ▸ hcompleted)
  rw [hsettled] at hnode hrun
  unfold engine at hcompleted hnode hrun ⊢
  dsimp only at hcompleted hnode hrun ⊢
  rw [hloaded] at hcompleted hnode hrun ⊢
  obtain ⟨recorded, hheaded, hpartition, hfull, hranges⟩ :=
    Transfer.run_completed_headed hknown hcompleted
  generalize (Transfer.run _ _ _ _).2 = t at hnode hrun hheaded hfull hranges ⊢
  rw [hrun] at hfailed ⊢
  rcases finish_cases d c path place t.file.file t.table.headerSize length with
    ⟨cause, files', hfinalize, hfinish⟩ | houtput
  · rw [hfinish]
    obtain ⟨left, hleft, hcarries⟩ := finalize_carries hfinalize hheaded hplace hnode
    have hne : recorded ≠ [] := by
      rintro rfl
      obtain ⟨s, hs, -⟩ := hpartition.exists_mem (le_refl 0) hpos
      contradiction
    have hread : ∀ f : OpenFile, f.contents = left → f.readLimit = none →
        ResumeHeader.read f = .ok recorded := by
      intro f hcontents hlimit
      exact ResumeHeader.read_of_carries hlimit (hcontents ▸ hcarries) hne hpartition.valid
    refine ⟨⟨cause, rfl⟩, hfull, left, recorded, hleft, hread _ rfl rfl, hpartition.covers,
      hheaded.segments_eq, ?_, ?_⟩
    · rw [hranges, List.map_eq_nil_iff, Plan.resume_eq_nil_iff, List.forall_mem_map]
      rfl
    · intro f workers reporter hcontents hlimit
      rw [Transfer.ranges_of_read (hread f hcontents hlimit) hpartition.covers, hranges]
  · exact absurd hfailed houtput

/-- A download of four bytes over two connections into a new file. -/
def refused : Config :=
  { url := "http://h/a.b", directory := "d", baseName := "a", extension := ".b", workers := 2 }

/-- The files of `refused`: there is room for the partial file, and for no other one. -/
def refusedFiles : FileSystem :=
  { entries := [(["d"], .directory)], faults := [none, none, some .noSpace] }

/-- A server for `refused`, which sends every byte. -/
def refusedWorld : World :=
  { sizes? := some [.answered 200 (some "4")]
    course :=
      { replies? := some [.answered 206 none, .answered 206 none]
        incidents :=
          [(0, .chunk 0 [1, 2]), (1, .ended 0), (2, .chunk 1 [3, 4]), (3, .ended 1)]
        closing := 4 } }

theorem refused_left :
    let t := (engine refused (some 4) [] refusedWorld).2
    (run refused refusedFiles refusedWorld).1 = .error (.io .noSpace) ∧
      ∃ left recorded,
        (run refused refusedFiles refusedWorld).2.files.node? ["d", "a.b.4.part"] =
          some (.file left) ∧
        ResumeHeader.read { contents := left } = .ok recorded ∧
        ¬ (∀ s ∈ recorded, s.isComplete = true) ∧
        (Transfer.begin (Table.load { contents := left } 4 1) {} (Reporter.new none 0 {})).ranges =
          t.ranges := by
  have hsettled : Probe.settled [.answered 200 (some "4")] = some 4 := by decide +kernel
  have hopens : Opens refused refusedFiles (some 4)
      { refusedFiles with faults := [none, some .noSpace] } ["d", "a.b.4.part"] [] :=
    ⟨by decide +kernel, by decide +kernel⟩
  have hcompleted : (engine refused (some 4) [] refusedWorld).1 = .ok (.completed 4) := by
    decide +kernel
  obtain ⟨-, -, left, recorded, hleft, hread, -, -, hrecorded, hagain⟩ :=
    run_failed_finish rfl rfl (rfl : refusedWorld.sizes? = _) hsettled hopens hcompleted
      (by decide +kernel)
  have hasked : (engine refused (some 4) [] refusedWorld).2.ranges ≠ [] := by decide +kernel
  refine ⟨by decide +kernel, left, recorded, hleft, hread, fun h => hasked (hrecorded.mp h), ?_⟩
  exact hagain { contents := left } 1 (Reporter.new none 0 {}) rfl rfl

/-- Every byte is in the partial file, and yet its header records none of them: the next
run asks for all of them again. -/
theorem refused_repeats :
    (engine refused (some 4) [] refusedWorld).1 = .ok (.completed 4) ∧
      (run refused refusedFiles refusedWorld).1 = .error (.io .noSpace) ∧
      ∃ left, (run refused refusedFiles refusedWorld).2.files.node? ["d", "a.b.4.part"] =
          some (.file left) ∧
        left.slice 92 4 = [1, 2, 3, 4] ∧
        ResumeHeader.read { contents := left } = .ok [⟨0, 1, 0, 0⟩, ⟨2, 3, 0, 0⟩] ∧
        (Transfer.begin (Table.load { contents := left } 4 2) {} (Reporter.new none 0 {})).ranges =
          [some "bytes=0-1", some "bytes=2-3"] := by
  refine ⟨by decide +kernel, by decide +kernel,
    ResumeHeader.encode [⟨0, 1, 0, 0⟩, ⟨2, 3, 0, 0⟩] ++ [1, 2, 3, 4], ?_⟩
  refine ⟨?_, ?_, ?_, ?_⟩ <;> decide +kernel

end Download

end SegmentedDownload
