import SegmentedDownload.Job
import SegmentedDownload.Proofs.Finishing

/-!
# SegmentedDownload.Proofs.EndToEnd

A job against a server that delivers, on files that refuse nothing.

* `table_completes`: whatever table a download starts with, its run is completed.
* `transfer_succeeds`, `fetch_succeeds` and `run_succeeds` add the finished file, the
  directory and the partial file, and the size query, one after the other.
* `delivers`: the job ends as finished, with the body under the first free name, the
  partial file gone and every other file as it was.
-/

namespace SegmentedDownload

open FileSystem Naming

/-- The expected digest of a configuration, if there is one, is that of a body. -/
def Config.Admits (c : Config) (body : Bytes) : Prop :=
  ∀ hash, c.expectedHash? = some hash →
    ∃ kind, Digest.ofHex? hash = some kind ∧ kind.compute body = Digest.lower hash

/-- A size that is settled is positive, and some reply told it. -/
theorem Probe.settle_eq_some {tries : Nat} {replies : List SizeReply} {n : Int}
    (h : settle tries replies = some n) : 0 < n ∧ ∃ reply, size reply = .ok n := by
  induction tries generalizing replies with
  | zero => contradiction
  | succ tries ih =>
    rw [settle] at h
    split at h
    · next hsize =>
      split at h
      · next hpos =>
        obtain rfl := Option.some.inj h
        exact ⟨hpos, _, hsize⟩
      · contradiction
    · exact ih h

namespace Download

variable {c : Config} {files files' made : FileSystem} {path target : String} {place q : Place}
  {file : OpenFile} {body contents : Bytes} {headerSize : Nat} {size? : Option Int}
  {world : World} {d : Download}

/-! ## The finished file -/

/-- The finished file is read back under its name. -/
theorem Leaves.read_eq (h : Leaves c files files' place body target q)
    (hplace : files.node? place ≠ some .directory) : files'.read target = .ok body := by
  have hsame : SameDirectories files files' := by
    intro p
    rw [h.moves p]
    by_cases hp : p = q
    · simp [hp, h.vacant]
    · by_cases hp' : p = place
      · simp [hp', h.apart.symm, hplace]
      · rw [if_neg hp, if_neg hp']
  have hnode : files'.node? q = some (.file body) := by rw [h.moves q, if_pos rfl]
  simp [FileSystem.read, locate_congr hsame h.located, hnode, bind, Except.bind, pure, Except.pure]

/-- A finished file with an admitted payload passes the check. -/
theorem verify_ok (hhash : c.Admits body) (hread : files.read target = .ok body) :
    verify files c target = .ok () := by
  unfold verify
  cases hexpected : c.expectedHash? with
  | none => rfl
  | some hash =>
    obtain ⟨kind, hkind, hdigest⟩ := hhash hash hexpected
    simp [Digest.verify, hkind, hread, hdigest]

/-- How a download of a body went well. -/
structure Succeeds (c : Config) (files : FileSystem) (place : Place) (body : Bytes)
    (result : Except DownloadError Outcome × Download) : Prop where
  outcome_eq : result.1 = .ok (.completed body.length)
  progress_eq : result.2.progress = { total := body.length, transferred := body.length }
  output : ∃ target q, result.2.output? = some target ∧ result.2.files.read target = .ok body ∧
    Leaves c files result.2.files place body target q

/-- It does not matter what was in the partial file before. -/
theorem Succeeds.of_differs {result : Except DownloadError Outcome × Download}
    (hpartial : PartialAt c files path place) (hdiffers : Differs files files' place)
    (h : Succeeds c files' place body result) : Succeeds c files place body result := by
  obtain ⟨target, q, houtput, hread, hleaves⟩ := h.output
  exact ⟨h.outcome_eq, h.progress_eq, target, q, houtput, hread,
    hleaves.of_differs hpartial.hasPartial hdiffers⟩

/-- The last stage succeeds if there is a free name and the digest is right. -/
theorem finish_succeeds (hpartial : PartialAt c d.files path place) (hfiles : d.files.Reliable)
    (hfree : ∃ n, n ≤ lastNumber ∧ d.files.has (destinationPath c n) = false)
    (hfile : file.Reliable) (hroom : headerSize + body.length ≤ OpenFile.maxPosition)
    (hpayload : file.contents.slice headerSize body.length = body) (hhash : c.Admits body)
    (hprogress : d.progress = { total := body.length, transferred := body.length }) :
    Succeeds c d.files place body (d.finish c path place file headerSize body.length) := by
  obtain ⟨files', q, target, hfinalize, hleaves⟩ :=
    finalize_reliable hpartial hfiles hfree hfile hroom hpayload
  have hread := hleaves.read_eq hpartial.not_directory
  rw [finish, hfinalize]
  refine ⟨?_, hprogress, target, q, rfl, hread, hleaves⟩
  dsimp only
  rw [verify_ok hhash hread]
  rfl

/-! ## The transfer -/

/-- Whatever table a download starts with, its run is completed, if the server delivers. -/
theorem table_completes (hpos : ∀ size, size? = some size → 0 < size)
    (hsize : ∀ size, size? = some size → size = body.length)
    (hconsistent : c.resume = true → size?.isSome → Consistent body file) (hfile : file.Reliable)
    (hroom : (table c size? file).headerSize + body.length ≤ OpenFile.maxPosition)
    (hnonstop : ∀ x ∈ world.course.incidents, x.2 ≠ .stop)
    (hserved : Served body (table c size? file) world.course) (reporter : Reporter) :
    Transfer.Completes body
      (Transfer.run (table c size? file) { file } reporter world.course) := by
  have hmax : (body.length : Int) ≤ Word.maxInt := by
    rw [← OpenFile.maxPosition_eq]
    omega
  cases size? with
  | some size =>
    have hpos := hpos size rfl
    obtain rfl := hsize size rfl
    have htable : (table c (some (body.length : Int)) file).Known body.length ∧
        (table c (some (body.length : Int)) file).Held body file.contents := by
      unfold table
      cases hresume : c.resume with
      | true =>
        have hknown : (Table.load file body.length c.workers).Known body.length :=
          Table.known_load hmax (Table.size_load hpos)
        exact ⟨hknown, (hconsistent hresume rfl).held hknown⟩
      | false =>
        have hknown : (Table.fresh (some (body.length : Int)) c.workers false).Known body.length :=
          Table.known_fresh hmax (by simp [Table.fresh, Int.natCast_pos.mp hpos])
        exact ⟨hknown, hknown.held_of_fresh rfl body file.contents⟩
    exact Transfer.run_known_completes htable.1 htable.2 hfile hroom hnonstop hserved
  | none =>
    have hroom' : body.length ≤ OpenFile.maxPosition := by omega
    have hopen : (Plan.resume (table c none file).begin.segments)[0]? =
        some Transfer.openSlot := rfl
    cases hserved with
    | parts replies hreplies hparts =>
      obtain ⟨⟨length?, hreply⟩, hbody⟩ := hparts 0 _ hopen
      rw [← List.head?_eq_getElem?] at hreply
      obtain ⟨replies, rfl⟩ := List.head?_eq_some_iff.mp hreply
      have hslice : body.slice Transfer.openSlot.resumeStart.toNat Transfer.openSlot.length =
          body := by
        change (body.drop 0).take _ = body
        exact List.take_of_length_le (Nat.le_succ_of_le hroom')
      rw [hslice] at hbody
      exact Transfer.run_unsized_completes hfile hroom' hnonstop (Or.inr rfl) hreplies hbody
    | whole length? replies _ hreplies hbody =>
      exact Transfer.run_unsized_completes hfile hroom' hnonstop (Or.inl rfl) hreplies hbody

/-- The partial file of a download was opened: the directory is there, and the partial file
is at a place, with its contents. -/
structure Opens (c : Config) (files : FileSystem) (size? : Option Int) (made : FileSystem)
    (place : Place) (contents : Bytes) : Prop where
  directory : files.createDirectory c.directory = (made, none)
  partialFile : (made.openFile (partialPath made c size? (c.resume && size?.isSome))).2 =
    .ok (place, contents)

theorem Opens.hasPartial {files : FileSystem} (h : Opens c files size? made place contents) :
    HasPartial c made (partialPath made c size? (c.resume && size?.isSome)) place := by
  obtain ⟨hlocate, hnode, -⟩ := node?_openFile h.partialFile
  obtain ⟨m, hpath⟩ := partialPath_eq made c size? (c.resume && size?.isSome)
  exact ⟨⟨size?, m, hpath⟩, (locateFile_eq_ok.mp hlocate).2, hnode⟩

/-- Nothing but the partial file is made when it is opened. -/
theorem Opens.differs {files opened : FileSystem} (h : Opens c files size? made place contents)
    (hopened : (made.openFile (partialPath made c size? (c.resume && size?.isSome))).1 = opened) :
    Differs made opened place ∧ opened.node? place = some (.file contents) := by
  obtain ⟨-, -, hnodes⟩ := node?_openFile h.partialFile
  rw [hopened] at hnodes
  have hplace : opened.node? place = some (.file contents) := (hnodes place).trans (if_pos rfl)
  exact ⟨⟨fun q hq => (hnodes q).trans (if_neg hq), by rw [hplace]; simp⟩, hplace⟩

/-- What a transfer needs to go well: the server delivers, nobody stops it, a partial file that
is continued is consistent, and the file takes what is written to it. -/
structure Favours (c : Config) (size? : Option Int) (contents body : Bytes) (world : World) :
    Prop where
  size : ∀ size, size? = some size → size = body.length
  medium : ∀ fault? ∈ world.faults, fault? = none
  nonstop : ∀ x ∈ world.course.incidents, x.2 ≠ .stop
  consistent : c.resume = true → size?.isSome →
    Consistent body { contents, faults := world.faults }
  room : (table c size? { contents, faults := world.faults }).headerSize + body.length ≤
    OpenFile.maxPosition
  served : Served body (table c size? { contents, faults := world.faults }) world.course

/-- A transfer that the world favours succeeds. -/
theorem transfer_succeeds (hpos : ∀ size, size? = some size → 0 < size)
    (hpartial : PartialAt c d.files path place) (hfiles : d.files.Reliable)
    (hfree : ∃ n, n ≤ lastNumber ∧ d.files.has (destinationPath c n) = false)
    (hfavours : Favours c size? contents body world) (hhash : c.Admits body) :
    Succeeds c d.files place body (d.transfer c size? path place contents world) := by
  have hfile : ({ contents, faults := world.faults } : OpenFile).Reliable :=
    ⟨rfl, rfl, hfavours.medium⟩
  have hrun := table_completes hpos hfavours.size hfavours.consistent hfile hfavours.room
    hfavours.nonstop hfavours.served
    (Reporter.new (table c size? { contents, faults := world.faults }).size? c.progressInterval
      d.progress)
  unfold transfer
  dsimp only
  generalize Transfer.run _ _ _ _ = result at hrun ⊢
  obtain ⟨outcome, t⟩ := result
  obtain rfl : outcome = _ := hrun.outcome_eq
  have hdiffers := hpartial.hasPartial.differs_put t.file.file.contents
  have hfinish := finish_succeeds
    (d := { d with
      files := d.files.put place (.file t.file.file.contents)
      progress := t.reporter.snapshot
      callbacks := t.callbacks })
    (hpartial.of_differs hdiffers) hfiles (hpartial.hasPartial.free_of_differs hdiffers hfree)
    hrun.reliable hrun.room hrun.payload_eq hhash hrun.snapshot_eq
  exact hfinish.of_differs hpartial hdiffers

/-! ## Whole downloads -/

theorem fetch_succeeds (hslash : '/' ∉ c.fileName.toList) (hnul : '\x00' ∉ c.fileName.toList)
    (hbase : c.baseName ≠ "") (hpos : ∀ size, size? = some size → 0 < size)
    (hfiles : d.files.Reliable)
    (hopens : Opens c d.files size? made place contents)
    (hfree : ∃ n, n ≤ lastNumber ∧ made.has (destinationPath c n) = false)
    (hfavours : Favours c size? contents body world) (hhash : c.Admits body) :
    Succeeds c made place body (d.fetch c size? world) := by
  have hmade : made.Reliable := by
    have hadds := createDirectory_adds d.files c.directory
    rw [hopens.directory] at hadds
    exact hadds.reliable hfiles
  have hreliable := openFile_reliable hmade (partialPath made c size? (c.resume && size?.isSome))
  have hpartial : PartialAt c made (partialPath made c size? (c.resume && size?.isSome)) place :=
    ⟨hslash, hnul, hbase, hopens.hasPartial.named, hopens.hasPartial.located,
      hopens.hasPartial.not_directory⟩
  obtain ⟨hdiffers, -⟩ := hopens.differs rfl
  unfold fetch
  rw [hopens.directory]
  dsimp only
  have hopened := hopens.partialFile
  generalize made.openFile _ = result at hopened hreliable hdiffers ⊢
  obtain ⟨files, opened⟩ := result
  obtain rfl : opened = _ := hopened
  have htransfer := transfer_succeeds (d := { d with files }) hpos (hpartial.of_differs hdiffers)
    hreliable (hpartial.hasPartial.free_of_differs hdiffers hfree) hfavours hhash
  exact htransfer.of_differs hpartial hdiffers

/-- A download for which all goes well brings the body. -/
theorem run_succeeds {replies : List SizeReply} (hslash : '/' ∉ c.fileName.toList)
    (hnul : '\x00' ∉ c.fileName.toList) (hbase : c.baseName ≠ "") (hhash : c.Admits body)
    (hcertificate : Certificate.check c files.read = .ok ()) (hfiles : files.Reliable)
    (hsizes : world.sizes? = some replies)
    (hopens : Opens c files (Probe.settled replies) made place contents)
    (hfree : ∃ n, n ≤ lastNumber ∧ made.has (destinationPath c n) = false)
    (hfavours : Favours c (Probe.settled replies) contents body world) :
    Succeeds c made place body (run c files world) := by
  unfold run
  rw [hcertificate, hsizes]
  exact fetch_succeeds hslash hnul hbase (fun _ hsize => (Probe.settle_eq_some hsize).1) hfiles
    hopens hfree hfavours hhash

end Download

/-! ## Jobs -/

/-- What a valid configuration has. -/
theorem Config.validate_ok {c : Config} (h : c.validate = .ok ()) :
    checkUrl c.url = .ok () ∧ c.directory ≠ "" ∧ c.baseName ≠ "" ∧ c.workers ≠ 0 ∧
      checkHash c.expectedHash? = .ok () := by
  obtain ⟨⟨⟩, hurl, h⟩ := bind_eq_ok.mp h
  dsimp only at h
  split at h
  · contradiction
  · next hdirectory =>
    split at h
    · contradiction
    · next hname =>
      split at h
      · contradiction
      · next hworkers => exact ⟨hurl, by simpa using hdirectory, by simpa using hname, hworkers, h⟩

/-- The five checks together make a configuration valid. -/
theorem Config.validate_of {c : Config} (hurl : checkUrl c.url = .ok ())
    (hdirectory : c.directory ≠ "") (hname : c.baseName ≠ "") (hworkers : c.workers ≠ 0)
    (hhash : checkHash c.expectedHash? = .ok ()) : c.validate = .ok () := by
  have hdirectory' : c.directory.isEmpty = false := by simpa using hdirectory
  have hname' : c.baseName.isEmpty = false := by simpa using hname
  simp only [validate, hurl, hdirectory', hname', if_neg hworkers, hhash]
  rfl

theorem Config.baseName_ne_of_validate {c : Config} (h : c.validate = .ok ()) :
    c.baseName ≠ "" :=
  (validate_ok h).2.2.1

namespace Job

variable {j : Job}

@[simp] theorem retire_config (j : Job) : j.retire.config = j.config := by
  unfold retire
  split <;> rfl

/-- A start is accepted when the job is idle and its configuration valid. -/
theorem start_accepted (hidle : j.state ≠ .running) (hvalid : j.config.validate = .ok ())
    (hnul : '\x00' ∉ j.config.fileName.toList) :
    ∃ started : Job, j.start .other = (started, .accepted) ∧ started.phase = .accepted ∧
      started.config = j.config := by
  refine ⟨{ j.retire.renew with phase := .accepted }, ?_, rfl, j.retire_config⟩
  simp [start, hvalid, hidle, hnul]

/-- What is left of a run once it is over. -/
theorem complete_of_accepted (h : j.phase = .accepted) (files : FileSystem) (world : World) :
    (j.complete files world).1.state = (verdict (Download.run j.config files world).1).1 ∧
      (j.complete files world).1.phase = .idle ∧
      (j.complete files world).1.progress = (Download.run j.config files world).2.progress ∧
      (j.complete files world).1.output? = (Download.run j.config files world).2.output? ∧
      (j.complete files world).2 = (Download.run j.config files world).2.files := by
  simp [complete, h, announce, conclude, retire, notify]

/-- A job that all goes well for ends as finished. The body is under the first free name, the
partial file is gone, other files stay as they are, and no others are new. -/
theorem delivers {files made : FileSystem} {world : World} {replies : List SizeReply}
    {place : Place} {body contents : Bytes} (hidle : j.state ≠ .running)
    (hvalid : j.config.validate = .ok ()) (hslash : '/' ∉ j.config.fileName.toList)
    (hnul : '\x00' ∉ j.config.fileName.toList) (hhash : j.config.Admits body)
    (hcertificate : Certificate.check j.config files.read = .ok ()) (hfiles : files.Reliable)
    (hsizes : world.sizes? = some replies)
    (hopens : Download.Opens j.config files (Probe.settled replies) made place contents)
    (hfree : ∃ n, n ≤ lastNumber ∧ made.has (destinationPath j.config n) = false)
    (hfavours : Download.Favours j.config (Probe.settled replies) contents body world) :
    let ended := (j.start .other).1.wait .other files world
    let j' := ended.1
    let files' := ended.2
    (j.start .other).2 = .accepted ∧ j'.state = .finished ∧ j'.phase = .idle ∧
      j'.progress = { total := body.length, transferred := body.length } ∧
      ∃ target q, j'.output? = some target ∧ FirstFree made j.config target ∧
        made.locate target = .ok q ∧ files'.read target = .ok body ∧
        files'.node? place = none ∧
        (∀ p node, p ≠ place → files.node? p = some node → files'.node? p = some node) ∧
        ∀ p x, files'.node? p = some (.file x) →
          (p = q ∧ x = body) ∨ files.node? p = some (.file x) := by
  obtain ⟨started, hstart, haccepted, hconfig⟩ := start_accepted hidle hvalid hnul
  have hended := complete_of_accepted haccepted files world
  have hsucceeds := Download.run_succeeds hslash hnul (Config.baseName_ne_of_validate hvalid) hhash
    hcertificate hfiles hsizes hopens hfree hfavours
  have hadds := createDirectory_adds files j.config.directory
  rw [hopens.directory] at hadds
  rw [hconfig] at hended
  obtain ⟨hstate, hphase, hprogress, houtput, hleft⟩ := hended
  obtain ⟨target, q, htarget, hread, hleaves⟩ := hsucceeds.output
  rw [hstart]
  dsimp only [wait]
  rw [hleft, hstate, hphase, hprogress, houtput, hsucceeds.outcome_eq, hsucceeds.progress_eq]
  refine ⟨rfl, rfl, rfl, rfl, target, q, htarget, hleaves.firstFree, hleaves.located, hread,
    ?_, ?_, ?_⟩
  · rw [hleaves.moves, if_neg hleaves.apart.symm, if_pos rfl]
  · intro p node hp hnode
    have hmade := hadds.node?_of_some hnode
    have hq : p ≠ q := by
      rintro rfl
      rw [hleaves.vacant] at hmade
      contradiction
    rw [hleaves.moves, if_neg hq, if_neg hp, hmade]
  · intro p x hfile
    rw [hleaves.moves] at hfile
    by_cases hq : p = q
    · rw [if_pos hq] at hfile
      exact Or.inl ⟨hq, (Node.file.inj (Option.some.inj hfile)).symm⟩
    · rw [if_neg hq] at hfile
      split at hfile
      · contradiction
      · rcases hadds.node?_eq p with heq | ⟨-, hdirectory⟩
        · exact Or.inr (heq ▸ hfile)
        · rw [hdirectory] at hfile
          simp at hfile

/-- A job whose partial file has a quarter of the body, and whose name is taken. -/
def halfDone : Job :=
  { config := { url := "http://h/a.b", directory := "d", baseName := "a", extension := ".b" } }

/-- The partial file of `halfDone`. -/
def halfDonePart : Bytes :=
  ResumeHeader.encode [⟨0, 1, 1, 1⟩, ⟨2, 3, 0, 0⟩] ++ [1, 0, 0, 0]

/-- The files of `halfDone`. -/
def halfDoneFiles : FileSystem :=
  { entries :=
      [(["d"], .directory), (["d", "a.b"], .file [9]), (["d", "a.b.4.part"], .file halfDonePart)] }

/-- A server for `halfDone`, whose chunks come in turn. -/
def halfDoneWorld : World :=
  { sizes? := some [.answered 200 (some "4")]
    course :=
      { replies? := some [.answered 206 none, .answered 206 none]
        incidents :=
          [(0, .chunk 1 [3]), (1, .chunk 0 [1, 2]), (2, .chunk 1 [4]), (3, .ended 1), (4, .ended 0)]
        closing := 5 } }

theorem halfDone_delivers :
    let ended := (halfDone.start .other).1.wait .other halfDoneFiles halfDoneWorld
    ended.1.state = .finished ∧ ∃ target, ended.1.output? = some target ∧
      ended.2.read target = .ok [1, 2, 3, 4] ∧ ended.2.node? ["d", "a.b.4.part"] = none := by
  have hsize : Probe.settled [.answered 200 (some "4")] = some 4 := by decide +kernel
  have htable : Download.table halfDone.config (some 4) { contents := halfDonePart } =
      Table.resumed [⟨0, 1, 1, 1⟩, ⟨2, 3, 0, 0⟩] 4 := by decide +kernel
  have hopens : Download.Opens halfDone.config halfDoneFiles (some 4) halfDoneFiles
      ["d", "a.b.4.part"] halfDonePart :=
    ⟨by decide +kernel, by decide +kernel⟩
  have hfavours : Download.Favours halfDone.config (some 4) halfDonePart [1, 2, 3, 4]
      halfDoneWorld := by
    refine ⟨by simp, by simp [halfDoneWorld], by simp [halfDoneWorld], ?_, ?_, ?_⟩
    · intro _ _ segments hread _ s hs o hstart ho
      have hsame : ResumeHeader.read { contents := halfDonePart } =
          .ok [⟨0, 1, 1, 1⟩, ⟨2, 3, 0, 0⟩] := by decide +kernel
      obtain rfl := Except.ok.inj (hread.symm.trans hsame)
      simp only [List.mem_cons, List.not_mem_nil, or_false] at hs
      rcases hs with rfl | rfl
      · obtain rfl : o = 0 := by
          simp only at ho
          omega
        exact ⟨1, by decide +kernel, rfl⟩
      · simp only at hstart ho
        omega
    · change (Download.table halfDone.config (some 4) { contents := halfDonePart }).headerSize + 4
        ≤ _
      rw [htable]
      decide
    · change Served _ (Download.table halfDone.config (some 4) { contents := halfDonePart }) _
      rw [htable]
      refine .parts _ rfl fun i slot hslot => ?_
      match i with
      | 0 =>
        obtain rfl := Option.some.inj hslot
        exact ⟨⟨none, rfl⟩,
          [(0, .chunk 1 [3]), (1, .chunk 0 [1, 2]), (2, .chunk 1 [4]), (3, .ended 1)],
          4, [], rfl, rfl, rfl, by unfold Open; decide⟩
      | 1 =>
        obtain rfl := Option.some.inj hslot
        exact ⟨⟨none, rfl⟩, [(0, .chunk 1 [3]), (1, .chunk 0 [1, 2]), (2, .chunk 1 [4])],
          3, [(4, .ended 0)], rfl, rfl, rfl, by unfold Open; decide⟩
      | i + 2 => contradiction
  rw [← hsize] at hopens hfavours
  have hall := delivers (by decide : halfDone.state ≠ .running) (by decide +kernel) (by decide)
    (by decide) (fun hash hhash => by cases hhash) rfl
    (by simp [FileSystem.Reliable, halfDoneFiles])
    (rfl : halfDoneWorld.sizes? = some [.answered 200 (some "4")]) hopens
    ⟨1, by decide, by decide +kernel⟩ hfavours
  obtain ⟨-, hstate, -, -, target, q, houtput, -, -, hread, hgone, -⟩ := hall
  exact ⟨hstate, target, houtput, hread, hgone⟩

end Job

end SegmentedDownload
