import SegmentedDownload.Proofs.OnDisk
import SegmentedDownload.Proofs.Sparing
import SegmentedDownload.Proofs.Stopping

/-!
# SegmentedDownload.Proofs.Accord

What a download says of itself agrees with the files that it leaves.

* `Accords` lists the ways in which a download ends, with the output and the files of each.
* Between the finished file and the check of its digest nothing else happens, and the check finds
  the digest of a valid configuration right or wrong (`verify_cases`).  So a download that fails
  has an output only if the digest is wrong.
* `run_accords` goes through all exits of a download, whatever changes of the files the system
  refuses.
-/

namespace SegmentedDownload

open FileSystem Naming

/-! ## Payloads -/

/-- What is behind the header of a partial file, cut or filled with zeros to a length. -/
def Transfer.payload (t : Transfer) (length : Nat) : Bytes :=
  Bytes.resize (t.file.file.contents.drop t.table.headerSize) length

/-- No zeros are filled in if the partial file reaches as far. -/
theorem Transfer.payload_eq_slice {t : Transfer} {length : Nat}
    (h : t.table.headerSize + length ≤ t.file.file.contents.length) :
    t.payload length = t.file.file.contents.slice t.table.headerSize length := by
  refine List.ext_getElem? fun k => ?_
  rw [payload, Bytes.getElem?_resize, Bytes.getElem?_slice, List.getElem?_drop]
  split
  · next hk => rw [List.getElem?_eq_getElem (by omega), Option.getD_some]
  · rfl

/-- A certificate that is refused says nothing of digests. -/
theorem Certificate.check_error {c : Config} {read : String → Except IoError Bytes}
    {e : DownloadError} (h : check c read = .error e) : e.kind ≠ .hashMismatch := by
  unfold check at h
  split at h
  · contradiction
  · split at h
    · cases h
      exact nofun
    · split at h
      · contradiction
      · cases h
        exact nofun

namespace Config

/-- The expected digest of a valid configuration is one. -/
theorem isSome_ofHex? {c : Config} (h : c.validate = .ok ()) {hash : String}
    (hexpected : c.expectedHash? = some hash) : (Digest.ofHex? hash).isSome = true := by
  obtain ⟨-, -, -, -, hhash⟩ := validate_ok h
  rw [hexpected, checkHash] at hhash
  split at hhash
  · assumption
  · contradiction

end Config

namespace HasPartial

open Download

variable {c : Config} {files files' : FileSystem} {path target : String} {place : Place}

/-- What is free beside a partial file was free before. -/
theorem free_before (h : HasPartial c files path place) (hdiffers : Differs files files' place)
    (hplace : files'.node? place ≠ none) (hfree : files'.has target = false) :
    files.has target = false := by
  rw [← Bool.not_eq_true] at hfree ⊢
  refine mt (has_mono (fun p => (h.sameDirectories hdiffers p).mp) fun p hp => ?_) hfree
  have hne : p ≠ place := by
    rintro rfl
    exact hplace hp
  rw [← hdiffers.others p hne, hp]

end HasPartial

namespace Download

variable {c : Config} {files files' opened made : FileSystem} {path target : String}
  {place : Place} {file : OpenFile} {contents payload : Bytes} {headerSize length : Nat}
  {size? : Option Int} {world : World} {d : Download}

/-! ## Digests -/

/-- The check of a digest finds it right or wrong, if the configuration is valid. -/
theorem verify_cases (hvalid : c.validate = .ok ()) (hread : files.read target = .ok payload) :
    (verify files c target = .ok () ∧ c.Admits payload) ∨
      ∃ hash kind, c.expectedHash? = some hash ∧ Digest.ofHex? hash = some kind ∧
        kind.compute payload ≠ Digest.lower hash ∧
        verify files c target =
          .error (.hashMismatch (Digest.lower hash) (kind.compute payload)) := by
  unfold verify
  cases hexpected : c.expectedHash? with
  | none => exact Or.inl ⟨rfl, fun hash hhash => by rw [hexpected] at hhash; contradiction⟩
  | some hash =>
    obtain ⟨kind, hkind⟩ := Option.isSome_iff_exists.mp (Config.isSome_ofHex? hvalid hexpected)
    by_cases hsame : kind.compute payload = Digest.lower hash
    · refine Or.inl ⟨by simp [Digest.verify, hkind, hread, hsame], fun hash' hhash' => ?_⟩
      obtain rfl := Option.some.inj (hexpected.symm.trans hhash')
      exact ⟨kind, hkind, hsame⟩
    · exact Or.inr ⟨hash, kind, rfl, hkind, hsame, by simp [Digest.verify, hkind, hread, hsame]⟩

/-! ## How a download ends -/

/-- The transfer of a download completes with a payload, which is as long as the server told if it
told that at all.  All of it is in the partial file, which is at a place, unless the transfer began
with the last byte counted as committed. -/
inductive Brings (c : Config) (files : FileSystem) (world : World) (place : Place)
    (payload : Bytes) : Prop
  | intro (replies : List SizeReply) (made : FileSystem) (contents : Bytes)
      (certificate : Certificate.check c files.read = .ok ())
      (sizes : world.sizes? = some replies)
      (opens : Opens c files (Probe.settled replies) made place contents)
      (completed : (engine c (Probe.settled replies) contents world).1 =
        .ok (.completed payload.length))
      (sized : ∀ size, Probe.settled replies = some size → (payload.length : Int) = size)
      (payload_eq : payload =
        (engine c (Probe.settled replies) contents world).2.payload payload.length)
      (stored : ¬ (table c (Probe.settled replies) { contents, faults := world.faults }).Committed
          (payload.length - 1) →
        payload = (engine c (Probe.settled replies) contents world).2.file.file.contents.slice
          (engine c (Probe.settled replies) contents world).2.table.headerSize payload.length)

/-- A download has a finished file with the payload of its transfer, whose name led to nothing
before, and its partial file is gone. -/
structure Saves (c : Config) (files : FileSystem) (world : World) (files' : FileSystem)
    (place : Place) (payload : Bytes) (target : String) : Prop where
  new : files.has target = false
  brings : Brings c files world place payload
  read : files'.read target = .ok payload
  gone : files'.node? place = none

/-- How the outcome of a download goes with its output and the files that it leaves. -/
inductive Accords (c : Config) (files : FileSystem) (world : World) (files' : FileSystem) :
    Except DownloadError Outcome → Option String → Prop
  | finished (place : Place) (payload : Bytes) (target : String)
      (hsaves : Saves c files world files' place payload target) (hhash : c.Admits payload) :
    Accords c files world files' (.ok (.completed payload.length)) (some target)
  | stopped (hstop : world.HearsStop) : Accords c files world files' (.ok .interrupted) none
  | incomplete (failed : Nat) : Accords c files world files' (.ok (.incomplete failed)) none
  /-- The digest of the finished file is wrong. -/
  | mismatched (place : Place) (payload : Bytes) (target hash : String) (kind : Digest)
      (hsaves : Saves c files world files' place payload target)
      (hexpected : c.expectedHash? = some hash) (hkind : Digest.ofHex? hash = some kind)
      (hdiffers : kind.compute payload ≠ Digest.lower hash) :
    Accords c files world files'
      (.error (.hashMismatch (Digest.lower hash) (kind.compute payload))) (some target)
  | failed (e : DownloadError) (hother : e.kind ≠ .hashMismatch) :
    Accords c files world files' (.error e) none

/-- What the last stage brings accords with the output, whether or not the digest is right. -/
theorem finish_accords (hvalid : c.validate = .ok ()) (hpartial : HasPartial c d.files path place)
    (houtput : d.output? = none)
    (hfree : ∃ n, n ≤ lastNumber ∧ d.files.has (destinationPath c n) = false)
    (hnew : ∀ target, d.files.has target = false → files.has target = false)
    (hbrings : Brings c files world place
      (Bytes.resize (file.contents.drop headerSize) length)) :
    let result := d.finish c path place file headerSize length
    Accords c files world result.2.files result.1 result.2.output? := by
  unfold finish
  cases hfinalize : finalize d.files c path place file headerSize length with
  | mk files' finalized =>
    cases finalized with
    | error cause =>
      dsimp only
      rw [houtput]
      exact .failed (.io cause) nofun
    | ok target =>
      obtain ⟨q, hleaves⟩ := finalize_leaves hpartial hfree hfinalize
      have hread := hleaves.read_eq hpartial.not_directory
      have hgone : files'.node? place = none := by
        rw [hleaves.moves, if_neg hleaves.apart.symm, if_pos rfl]
      obtain ⟨n, -, rfl, hfirst, -⟩ := hleaves.firstFree
      have hsaves := Saves.mk (hnew _ hfirst) hbrings hread hgone
      dsimp only
      rcases verify_cases hvalid hread with ⟨hverify, hhash⟩ | ⟨hash, kind, hexpected, hkind,
        hdiffers, hverify⟩
      · rw [hverify]
        have haccords := Accords.finished place _ _ hsaves hhash
        rw [Bytes.length_resize] at haccords
        exact haccords
      · rw [hverify]
        exact .mismatched place _ _ hash kind hsaves hexpected hkind hdiffers

theorem transfer_accords (hvalid : c.validate = .ok ()) (hpartial : HasPartial c opened path place)
    (hfree : ∃ n, n ≤ lastNumber ∧ opened.has (destinationPath c n) = false)
    (hnew : ∀ target, opened.has target = false → files.has target = false)
    (hbrings : ∀ length, (engine c size? contents world).1 = .ok (.completed length) →
      Brings c files world place ((engine c size? contents world).2.payload length)) :
    let result := transfer { files := opened } c size? path place contents world
    Accords c files world result.2.files result.1 result.2.output? := by
  have hstop : (engine c size? contents world).1 = .ok .interrupted → world.HearsStop :=
    fun h => Or.inr (Transfer.stop_of_interrupted h)
  have herror : ∀ e, (engine c size? contents world).1 = .error e → e.kind ≠ .hashMismatch := by
    intro e he
    rcases Transfer.run_error he with ⟨index, rfl⟩ | ⟨cause, rfl⟩ <;> exact nofun
  unfold engine at hbrings hstop herror
  unfold transfer
  dsimp only at hbrings hstop herror ⊢
  generalize Transfer.run _ _ _ _ = result at hbrings hstop herror ⊢
  obtain ⟨outcome, t⟩ := result
  have hdiffers := hpartial.differs_put t.file.file.contents
  rcases outcome with e | length | _ | failed
  · exact .failed e (herror e rfl)
  · have hplace : (opened.put place (.file t.file.file.contents)).node? place ≠ none := by
      rw [node?_put (ne_nil_of_node? hpartial.not_directory), if_pos rfl]
      exact Option.some_ne_none _
    exact finish_accords
      (d := { files := opened.put place (.file t.file.file.contents)
              progress := t.reporter.snapshot
              callbacks := t.callbacks })
      hvalid (hpartial.of_differs hdiffers) rfl (hpartial.free_of_differs hdiffers hfree)
      (fun target h => hnew target (hpartial.free_before hdiffers hplace h)) (hbrings length rfl)
  · exact .stopped (hstop rfl)
  · exact .incomplete failed

theorem fetch_accords (hvalid : c.validate = .ok ())
    (hcertificate : Certificate.check c files.read = .ok ()) {replies : List SizeReply}
    (hsizes : world.sizes? = some replies)
    (hfree : ∀ made, files.createDirectory c.directory = (made, none) →
      ∃ n, n ≤ lastNumber ∧ made.has (destinationPath c n) = false) :
    let result := fetch { files } c (Probe.settled replies) world
    Accords c files world result.2.files result.1 result.2.output? := by
  have hadds := createDirectory_adds files c.directory
  unfold fetch
  dsimp only
  split
  · exact .failed (.io _) nofun
  · next made hmade =>
    rw [hmade] at hadds
    split
    · exact .failed (.io _) nofun
    · next opened place contents hopen =>
      have hopens : Opens c files (Probe.settled replies) made place contents :=
        ⟨hmade, congrArg Prod.snd hopen⟩
      have hpartial := hopens.hasPartial
      obtain ⟨hdiffers, hplace⟩ := hopens.differs (congrArg Prod.fst hopen)
      have hbefore : ∀ target, made.has target = false → files.has target = false := by
        intro target h
        rw [← Bool.not_eq_true] at h ⊢
        refine mt (has_mono (fun q hq => hadds.node?_of_some hq) fun q hq => ?_) h
        rcases hadds.node?_eq q with heq | ⟨hnone, -⟩
        · rw [← heq, hq]
        · exact hnone
      refine transfer_accords hvalid (hpartial.of_differs hdiffers)
        (hpartial.free_of_differs hdiffers (hfree made hmade))
        (fun target h => hbefore target (hpartial.free_before hdiffers (by rw [hplace]; simp) h))
        fun length hcompleted => ?_
      have hlength : ((engine c (Probe.settled replies) contents world).2.payload length).length =
          length := Bytes.length_resize _ _
      have hsize : ∀ size, Probe.settled replies = some size → 0 < size ∧ size ≤ Word.maxInt := by
        intro size hsize
        obtain ⟨hpos, reply, hreply⟩ := Probe.settle_eq_some hsize
        exact ⟨hpos, Probe.size_le hreply⟩
      refine .intro replies made contents hcertificate hsizes hopens ?_ ?_ ?_ fun hcounted => ?_
      · rw [hlength, hcompleted]
      · intro size hsome
        rw [hlength]
        exact engine_length hsize hcompleted hsome
      · rw [hlength]
      · rw [hlength] at hcounted ⊢
        exact Transfer.payload_eq_slice (engine_reaches hsize hcompleted hcounted)

/-- The outcome of a download with a valid configuration goes with its output and its files, if
some name of the finished file is free once its directory is there. -/
theorem run_accords (hvalid : c.validate = .ok ()) (world : World)
    (hfree : ∀ made, files.createDirectory c.directory = (made, none) →
      ∃ n, n ≤ lastNumber ∧ made.has (destinationPath c n) = false) :
    Accords c files world (run c files world).2.files (run c files world).1
      (run c files world).2.output? := by
  unfold run
  dsimp only
  split
  · next e hcheck => exact .failed e (Certificate.check_error hcheck)
  · next hcheck =>
    split
    · next hsizes => exact .stopped (Or.inl hsizes)
    · next replies hsizes => exact fetch_accords hvalid hcheck hsizes hfree

end Download

end SegmentedDownload
