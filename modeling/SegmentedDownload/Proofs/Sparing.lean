import SegmentedDownload.Proofs.FailedFinish

/-!
# SegmentedDownload.Proofs.Sparing

Which files a run may change that were there before it.

A run makes directories, opens its partial file, and gives the finished file a new name or
copies it.  Each of these spares what is there already, apart from three cases (`Takes`):

* a run that resumes writes to the partial file that it finds;
* a run that does not resume takes the last name for its partial file, free or not, if all
  others are taken;
* a partial file without a header is given the last name of the finished file, free or not,
  if all others are taken.

`run_spares` and `Job.complete_spares` say that there are no more of them, however the
server behaves and whatever the system refuses.  `run_replaces` is the third case.
-/

namespace SegmentedDownload

open FileSystem

/-! ## Names -/

namespace FileSystem

variable {fs fs' : FileSystem}

/-- Two trees have the same directories, and other things at the same places. -/
structure SameNames (fs fs' : FileSystem) : Prop where
  directories : SameDirectories fs fs'
  taken : ∀ q, fs'.node? q = none ↔ fs.node? q = none

theorem SameNames.symm (h : SameNames fs fs') : SameNames fs' fs :=
  ⟨h.directories.symm, fun q => (h.taken q).symm⟩

/-- A name that is taken stays so when things are added. -/
theorem has_mono {path : String}
    (hdirectories : ∀ q, fs.node? q = some .directory → fs'.node? q = some .directory)
    (htaken : ∀ q, fs'.node? q = none → fs.node? q = none) (h : fs.has path = true) :
    fs'.has path = true := by
  obtain ⟨q, hlocate, hq⟩ := has_eq_true.mp h
  exact has_eq_true.mpr ⟨q, locate_mono hdirectories hlocate, mt (htaken q) hq⟩

/-- New contents of a file change no name. -/
theorem sameNames_put {place : Place} {old : Bytes} (h : fs.node? place = some (.file old))
    (contents : Bytes) : SameNames fs (fs.put place (.file contents)) := by
  have hplace : place ≠ [] := ne_nil_of_node? (by rw [h]; simp)
  constructor <;> intro q <;> rw [node?_put hplace]
  · by_cases hq : q = place
    · simp [hq, h]
    · rw [if_neg hq]
  · by_cases hq : q = place
    · simp [hq, h]
    · rw [if_neg hq]

end FileSystem

namespace Naming

variable {fs fs' : FileSystem} {path : Nat → String} {place : Place}

/-- A name that is taken is the last one, and all before it are taken as well. -/
theorem freeFrom_of_has {tries number : Nat} (h : fs.has (freeFrom fs path tries number) = true) :
    freeFrom fs path tries number = path (number + tries) ∧
      ∀ n, number ≤ n → n < number + tries → fs.has (path n) = true := by
  induction tries generalizing number with
  | zero => exact ⟨rfl, fun n hn hlt => by omega⟩
  | succ tries ih =>
    rw [freeFrom] at h ⊢
    split at h
    · next htaken =>
      obtain ⟨hlast, hbefore⟩ := ih h
      rw [if_pos htaken, hlast]
      refine ⟨congrArg path (by omega), fun n hn hlt => ?_⟩
      by_cases heq : n = number
      · rw [heq, htaken]
      · exact hbefore n (by omega) (by omega)
    · contradiction

/-- All names that are tried are taken, and the last one leads to a place. -/
structure Crowded (fs : FileSystem) (path : Nat → String) (place : Place) : Prop where
  taken : ∀ n < lastNumber, fs.has (path n) = true
  last : fs.locate (path lastNumber) = .ok place

/-- A name is free where it leads to, unless the names are crowded there. -/
theorem crowded_of_located {node : Node}
    (hlocate : fs.locate (freeFrom fs path lastNumber 0) = .ok place)
    (hnode : fs.node? place = some node) : Crowded fs path place := by
  have hhas : fs.has (freeFrom fs path lastNumber 0) = true :=
    has_eq_true.mpr ⟨place, hlocate, by simp [hnode]⟩
  obtain ⟨hlast, hbefore⟩ := freeFrom_of_has hhas
  rw [Nat.zero_add] at hlast
  exact ⟨fun n hn => hbefore n (Nat.zero_le n) (by omega), hlast ▸ hlocate⟩

theorem Crowded.mono (hdirectories : SameDirectories fs fs')
    (htaken : ∀ q, fs'.node? q = none → fs.node? q = none) (h : Crowded fs path place) :
    Crowded fs' path place :=
  ⟨fun n hn => has_mono (fun q => (hdirectories q).mp) htaken (h.taken n hn),
    locate_congr hdirectories h.last⟩

theorem Crowded.congr (h : SameNames fs fs') (hcrowded : Crowded fs path place) :
    Crowded fs' path place :=
  hcrowded.mono h.directories fun q => (h.taken q).mp

/-- Where the names are crowded, the last one is taken. -/
theorem Crowded.freeFrom_eq (h : Crowded fs path place) :
    freeFrom fs path lastNumber 0 = path lastNumber := by
  have hlast : freeFrom fs path lastNumber 0 = path (0 + lastNumber) :=
    freeFrom_of_taken fun n _ hn => h.taken n (by omega)
  rwa [Nat.zero_add] at hlast

/-- The `n`-th path of a partial file. -/
def partialName (c : Config) (size? : Option Int) (n : Nat) : String :=
  join c.directory (candidate (partialStem c size?) partialExtension n)

theorem partialPath_fresh (fs : FileSystem) (c : Config) (size? : Option Int) :
    partialPath fs c size? false = freeFrom fs (partialName c size?) lastNumber 0 := by
  rw [partialPath, if_neg Bool.false_ne_true]
  rfl

theorem destination_eq (fs : FileSystem) (c : Config) :
    destination fs c = freeFrom fs (destinationPath c) lastNumber 0 := by
  rw [destination]
  rfl

end Naming

open Naming

namespace Download

variable {c : Config} {files files' made : FileSystem} {path : String} {place p : Place}
  {file : OpenFile} {headerSize length : Nat} {size? : Option Int} {contents bytes : Bytes}
  {world : World} {d : Download}

/-! ## The finished file -/

/-- Copying the payload and removing the partial file spares what is elsewhere. -/
theorem copy_spares {target : String} {fault? : Option IoError}
    (hlocate : files.locate path = .ok place) (hne : p ≠ place)
    (hnode : files.node? p = some (.file bytes))
    (hcopy : copyPayload files contents headerSize length target = (files', fault?)) :
    files'.node? p = some (.file bytes) ∧
      (files'.remove path).1.node? p = some (.file bytes) := by
  have hkept := copyPayload_keeps hcopy hnode
  have hlocate' : files'.locate path = .ok place :=
    locate_mono (fun q hq => copyPayload_keeps hcopy hq) hlocate
  exact ⟨hkept, (node?_remove (Prod.eta (files'.remove path)).symm hlocate' hne).trans hkept⟩

/-- A new name for the partial file spares what is elsewhere, unless all names are taken. -/
theorem rename_spares (hlocate : files.locate path = .ok place) (hne : p ≠ place)
    (hnode : files.node? p = some (.file bytes)) :
    (files.rename path (destination files c)).1.node? p = some (.file bytes) ∨
      Crowded files (destinationPath c) p := by
  rcases rename_cases (Prod.eta (files.rename path (destination files c))).symm with
    hkept | ⟨source, target, moved, hsource, htarget, -, hnodes⟩
  · exact Or.inl (hkept ▸ hnode)
  · obtain rfl : place = source := Except.ok.inj (hlocate.symm.trans hsource)
    by_cases htaken : p = target
    · rw [destination_eq, ← htaken] at htarget
      exact Or.inr (crowded_of_located htarget hnode)
    · refine Or.inl ?_
      rw [hnodes, if_neg htaken, if_neg hne, hnode]

/-- Making the finished file spares what is at other places than the partial file, unless a
new name is given and all names are taken. -/
theorem finalize_spares (c : Config) (file : OpenFile) (headerSize length : Nat)
    (hlocate : files.locate path = .ok place)
    (hplace : files.node? place = some (.file contents)) (hne : p ≠ place)
    (hnode : files.node? p = some (.file bytes)) :
    (finalize files c path place file headerSize length).1.node? p = some (.file bytes) ∨
      headerSize = 0 ∧ Crowded files (destinationPath c) p := by
  unfold finalize
  split
  · exact Or.inl hnode
  · next file' _ =>
    have hsame := sameNames_put hplace file'.contents
    have hlocate' := locate_congr hsame.directories hlocate
    have hnode' : (files.put place (.file file'.contents)).node? p = some (.file bytes) := by
      rw [node?_put (ne_nil_of_node? (by rw [hplace]; simp)), if_neg hne, hnode]
    dsimp only
    generalize files.put place (.file file'.contents) = files₁ at hsame hlocate' hnode' ⊢
    by_cases hzero : headerSize = 0
    · rw [if_pos hzero]
      exact (rename_spares hlocate' hne hnode').imp_right fun h => ⟨hzero, h.congr hsame.symm⟩
    · rw [if_neg hzero]
      refine Or.inl ?_
      cases hcopy : copyPayload files₁ file'.contents headerSize length (destination files₁ c) with
      | mk files₂ fault? =>
        obtain ⟨hkept, hremoved⟩ := copy_spares hlocate' hne hnode' hcopy
        cases fault? with
        | some fault => exact hkept
        | none => exact hremoved

/-- The last stage changes the files as it moves the payload, and no further. -/
theorem finish_files (d : Download) (c : Config) (path : String) (place : Place)
    (file : OpenFile) (headerSize length : Nat) :
    (d.finish c path place file headerSize length).2.files =
      (finalize d.files c path place file headerSize length).1 := by
  unfold finish
  generalize finalize d.files c path place file headerSize length = result
  obtain ⟨files', result⟩ := result
  cases result <;> rfl

/-- The last stage spares every other file, but the last of the names when all are taken. -/
theorem finish_spares (c : Config) (file : OpenFile) (headerSize length : Nat)
    (hlocate : d.files.locate path = .ok place)
    (hplace : d.files.node? place = some (.file contents)) (hne : p ≠ place)
    (hnode : d.files.node? p = some (.file bytes)) :
    (d.finish c path place file headerSize length).2.files.node? p = some (.file bytes) ∨
      headerSize = 0 ∧ Crowded d.files (destinationPath c) p := by
  rw [finish_files]
  exact finalize_spares c file headerSize length hlocate hplace hne hnode

/-! ## The run -/

/-- How a run may come to change a file that was there before it. -/
inductive Takes (c : Config) (files : FileSystem) (world : World) (p : Place) : Prop
  /-- It is the partial file that the run resumes. -/
  | resumed (replies : List SizeReply) (size : Int) (made : FileSystem) (contents : Bytes)
      (sizes : world.sizes? = some replies) (settled : Probe.settled replies = some size)
      (resume : c.resume = true) (opens : Opens c files (some size) made p contents)
  /-- The run does not resume, and all names of its partial file are taken. -/
  | lastPartial (replies : List SizeReply) (made : FileSystem) (contents : Bytes)
      (sizes : world.sizes? = some replies)
      (fresh : (c.resume && (Probe.settled replies).isSome) = false)
      (opens : Opens c files (Probe.settled replies) made p contents)
      (crowded : Crowded made (partialName c (Probe.settled replies)) p)
  /-- The partial file is complete and has no header, and all names of the finished file
  are taken. -/
  | lastDestination (replies : List SizeReply) (made : FileSystem) (place : Place)
      (contents : Bytes) (length : Nat) (sizes : world.sizes? = some replies)
      (opens : Opens c files (Probe.settled replies) made place contents)
      (completed : (engine c (Probe.settled replies) contents world).1 = .ok (.completed length))
      (headless : (engine c (Probe.settled replies) contents world).2.table.headerSize = 0)
      (crowded : Crowded (made.openFile (partialPath made c (Probe.settled replies)
        (c.resume && (Probe.settled replies).isSome))).1 (destinationPath c) p)

theorem transfer_spares (c : Config) (size? : Option Int) (world : World) {opened : FileSystem}
    (hlocate : opened.locate path = .ok place)
    (hplace : opened.node? place = some (.file contents)) (hne : p ≠ place)
    (hnode : opened.node? p = some (.file bytes)) :
    (transfer { files := opened } c size? path place contents world).2.files.node? p =
        some (.file bytes) ∨
      ∃ length, (engine c size? contents world).1 = .ok (.completed length) ∧
        (engine c size? contents world).2.table.headerSize = 0 ∧
        Crowded opened (destinationPath c) p := by
  unfold transfer engine
  dsimp only
  generalize Transfer.run _ _ _ _ = result
  obtain ⟨outcome, t⟩ := result
  have hroot : place ≠ [] := ne_nil_of_node? (by rw [hplace]; simp)
  have hsame := sameNames_put hplace t.file.file.contents
  have hnode' : (opened.put place (.file t.file.file.contents)).node? p = some (.file bytes) := by
    rw [node?_put hroot, if_neg hne, hnode]
  dsimp only
  split
  · next length =>
    have hput : (opened.put place (.file t.file.file.contents)).node? place =
        some (.file t.file.file.contents) := by
      rw [node?_put hroot, if_pos rfl]
    exact Or.imp id (fun ⟨hzero, hcrowded⟩ => ⟨length, rfl, hzero, hcrowded.congr hsame.symm⟩)
      (finish_spares c t.file.file t.table.headerSize length
        (locate_congr hsame.directories hlocate) hput hne hnode')
  · exact Or.inl hnode'

/-- Opening the partial file spares what is elsewhere.  What it finds is the partial file that
is resumed, or the last name if all are taken. -/
theorem opened_cases {replies : List SizeReply} (hsizes : world.sizes? = some replies)
    (hopens : Opens c files (Probe.settled replies) made place contents)
    (hnode : made.node? place = some (.file bytes)) : Takes c files world place := by
  obtain ⟨hlocate, -, -⟩ := node?_openFile hopens.partialFile
  have hlocate := (locateFile_eq_ok.mp hlocate).2
  cases hresume : c.resume && (Probe.settled replies).isSome with
  | false =>
    rw [hresume, partialPath_fresh] at hlocate
    exact .lastPartial replies made contents hsizes hresume hopens
      (crowded_of_located hlocate hnode)
  | true =>
    obtain ⟨hresume, hsome⟩ := Bool.and_eq_true_iff.mp hresume
    obtain ⟨size, hsize⟩ := Option.isSome_iff_exists.mp hsome
    exact .resumed replies size made contents hsizes hsize hresume (hsize ▸ hopens)

theorem fetch_spares (c : Config) {replies : List SizeReply} (hsizes : world.sizes? = some replies)
    (hnode : files.node? p = some (.file bytes)) :
    (fetch { files } c (Probe.settled replies) world).2.files.node? p = some (.file bytes) ∨
      Takes c files world p := by
  have hadds := createDirectory_adds files c.directory
  unfold fetch
  dsimp only
  split
  · next made fault hmade =>
    rw [hmade] at hadds
    exact Or.inl (hadds.node?_of_some hnode)
  · next made hmade =>
    rw [hmade] at hadds
    have hnode : made.node? p = some (.file bytes) := hadds.node?_of_some hnode
    split
    · next opened cause hopen =>
      have hkept := openFile_of_error (congrArg Prod.snd hopen)
      rw [hopen] at hkept
      exact Or.inl (hkept ▸ hnode)
    · next opened place contents hopen =>
      have hopens : Opens c files (Probe.settled replies) made place contents :=
        ⟨hmade, congrArg Prod.snd hopen⟩
      by_cases hne : p = place
      · subst hne
        exact Or.inr (opened_cases hsizes hopens hnode)
      · obtain ⟨hlocate, -, hnodes⟩ := node?_openFile hopens.partialFile
        have hlocate := locate_congr (sameDirectories_openFile hopens.partialFile)
          (locateFile_eq_ok.mp hlocate).2
        rw [hopen] at hnodes hlocate
        have hplace : opened.node? place = some (.file contents) :=
          (hnodes place).trans (if_pos rfl)
        have hnode : opened.node? p = some (.file bytes) :=
          (hnodes p).trans ((if_neg hne).trans hnode)
        rcases transfer_spares c (Probe.settled replies) world hlocate hplace hne hnode with
          hkept | ⟨length, hcompleted, hheadless, hcrowded⟩
        · exact Or.inl hkept
        · exact Or.inr (.lastDestination replies made place contents length hsizes hopens
            hcompleted hheadless (by rw [hopen]; exact hcrowded))

/-- No run changes a file that was there before it, apart from the cases of `Takes`. -/
theorem run_spares (c : Config) (world : World) (hnode : files.node? p = some (.file bytes)) :
    (run c files world).2.files.node? p = some (.file bytes) ∨ Takes c files world p := by
  unfold run
  split
  · exact Or.inl hnode
  · split
    · exact Or.inl hnode
    · next replies hsizes => exact fetch_spares c hsizes hnode

/-! ## What is lost -/

/-- Where all names are taken, the partial file replaces the last of them. -/
theorem finalize_replaces {file' : OpenFile} (hfiles : files.Reliable)
    (hlocate : files.locate path = .ok place)
    (hplace : files.node? place = some (.file contents))
    (hlength : file.setLength (0 + length) = (file', none))
    (hcrowded : Crowded files (destinationPath c) p)
    (hslash : (destinationPath c lastNumber).toList.getLast? ≠ some '/')
    (hnode : files.node? p = some (.file bytes)) :
    (finalize files c path place file 0 length).1.node? p = some (.file file'.contents) := by
  have hsame := sameNames_put hplace file'.contents
  have hroot : place ≠ [] := ne_nil_of_node? (by rw [hplace]; simp)
  have hput : (files.put place (.file file'.contents)).node? place =
      some (.file file'.contents) := by
    rw [node?_put hroot, if_pos rfl]
  have hother : (files.put place (.file file'.contents)).node? p ≠ some .directory := by
    rw [Ne, ← hsame.directories, hnode]
    simp
  have hreliable : (files.put place (.file file'.contents)).Reliable := hfiles
  unfold finalize
  rw [hlength]
  dsimp only
  generalize files.put place (.file file'.contents) = files₁ at hsame hput hother hreliable ⊢
  have hcrowded₁ := hcrowded.congr hsame
  have htarget : destination files₁ c = destinationPath c lastNumber := by
    rw [destination_eq, hcrowded₁.freeFrom_eq]
  have hlast : files₁.locateFile (destinationPath c lastNumber) .notADirectory = .ok p :=
    locateFile_eq_ok.mpr ⟨hslash, hcrowded₁.last⟩
  obtain ⟨files₂, hrename, -, hnodes⟩ := rename_reliable hreliable
    (locate_congr hsame.directories hlocate) hlast hput hother
  rw [if_pos rfl, htarget, hrename]
  exact (hnodes p).trans (if_pos rfl)

/-- A file under the last name is replaced when the payload is renamed. -/
theorem transfer_replaces {opened : FileSystem} {file' : OpenFile} (hopened : opened.Reliable)
    (hlocate : opened.locate path = .ok place)
    (hplace : opened.node? place = some (.file contents))
    (hcompleted : (engine c size? contents world).1 = .ok (.completed length))
    (hheadless : (engine c size? contents world).2.table.headerSize = 0)
    (hlength : (engine c size? contents world).2.file.file.setLength (0 + length) = (file', none))
    (hcrowded : Crowded opened (destinationPath c) p)
    (hslash : (destinationPath c lastNumber).toList.getLast? ≠ some '/')
    (hne : p ≠ place) (hnode : opened.node? p = some (.file bytes)) :
    (transfer { files := opened } c size? path place contents world).2.files.node? p =
      some (.file file'.contents) := by
  have hroot : place ≠ [] := ne_nil_of_node? (by rw [hplace]; simp)
  unfold engine at hcompleted hheadless hlength
  unfold transfer
  dsimp only at hcompleted hheadless hlength ⊢
  generalize Transfer.run _ _ _ _ = result at hcompleted hheadless hlength ⊢
  obtain ⟨outcome, t⟩ := result
  obtain rfl : outcome = _ := hcompleted
  dsimp only at hheadless hlength ⊢
  have hsame := sameNames_put hplace t.file.file.contents
  have hplace' : (opened.put place (.file t.file.file.contents)).node? place =
      some (.file t.file.file.contents) := by
    rw [node?_put hroot, if_pos rfl]
  have hnode' : (opened.put place (.file t.file.file.contents)).node? p = some (.file bytes) := by
    rw [node?_put hroot, if_neg hne, hnode]
  rw [finish_files, hheadless]
  exact finalize_replaces hopened (locate_congr hsame.directories hlocate) hplace' hlength
    (hcrowded.congr hsame) hslash hnode'

/-- A run whose partial file can be opened goes on with the transfer. -/
theorem run_of_opens {replies : List SizeReply}
    (hcertificate : Certificate.check c files.read = .ok ())
    (hsizes : world.sizes? = some replies)
    (hopens : Opens c files (Probe.settled replies) made place contents) :
    run c files world =
      transfer { files := (made.openFile (partialPath made c (Probe.settled replies)
          (c.resume && (Probe.settled replies).isSome))).1 } c (Probe.settled replies)
        (partialPath made c (Probe.settled replies) (c.resume && (Probe.settled replies).isSome))
        place contents world := by
  unfold run
  rw [hcertificate, hsizes]
  dsimp only
  unfold fetch
  rw [hopens.directory]
  dsimp only
  have hopened := hopens.partialFile
  generalize made.openFile _ = result at hopened ⊢
  obtain ⟨opened, opened?⟩ := result
  obtain rfl : opened? = _ := hopened
  rfl

/-- Where all names are taken, a run whose partial file has no header puts what it has
received in the place of the last file. -/
theorem run_replaces {replies : List SizeReply} {file' : OpenFile}
    (hcertificate : Certificate.check c files.read = .ok ())
    (hsizes : world.sizes? = some replies)
    (hopens : Opens c files (Probe.settled replies) made place contents)
    (hmade : made.Reliable)
    (hcompleted : (engine c (Probe.settled replies) contents world).1 = .ok (.completed length))
    (hheadless : (engine c (Probe.settled replies) contents world).2.table.headerSize = 0)
    (hlength : (engine c (Probe.settled replies) contents world).2.file.file.setLength
      (0 + length) = (file', none))
    (hcrowded : Crowded made (destinationPath c) p)
    (hslash : (destinationPath c lastNumber).toList.getLast? ≠ some '/')
    (hne : p ≠ place) (hnode : made.node? p = some (.file bytes)) :
    (run c files world).2.files.node? p = some (.file file'.contents) := by
  have hdirectories := sameDirectories_openFile hopens.partialFile
  obtain ⟨hlocate, -, hnodes⟩ := node?_openFile hopens.partialFile
  rw [run_of_opens hcertificate hsizes hopens]
  refine transfer_replaces (openFile_reliable hmade _)
    (locate_congr hdirectories (locateFile_eq_ok.mp hlocate).2)
    ((hnodes place).trans (if_pos rfl)) hcompleted hheadless hlength ?_ hslash hne
    ((hnodes p).trans ((if_neg hne).trans hnode))
  refine hcrowded.mono hdirectories fun q hq => ?_
  rw [hnodes] at hq
  split at hq
  · contradiction
  · exact hq

end Download

namespace Job

/-- A run of a job spares every file that was there before it.  The exceptions are the
partial file that it resumes, and the file with the last of ten thousand numbers. -/
theorem complete_spares (j : Job) (files : FileSystem) (world : World) {p : Place}
    {bytes : Bytes} (hnode : files.node? p = some (.file bytes)) :
    (j.complete files world).2.node? p = some (.file bytes) ∨
      Download.Takes j.config files world p := by
  unfold complete
  split
  · exact Or.inl hnode
  · exact Or.inl hnode
  · exact Download.run_spares j.config world hnode
  · exact Download.run_spares j.config world hnode

end Job

/-! ## A crowded directory -/

namespace FileSystem

/-- The present directory needs no making. -/
theorem createDirectory_here (entries : List (Place × Node)) :
    createDirectory { entries } "." = ({ entries }, none) := by
  have hnames : names "." = ["."] := by decide +kernel
  have hcheck : checkPath "." = .ok () := by decide +kernel
  have hmake : ∀ fs : FileSystem, fs.makeOrKeep ["."] = .ok fs := fun _ => rfl
  simp [createDirectory, next, hnames, hcheck, makeAbove, makeAll, hmake]

/-- A file of the present directory. -/
theorem locate_here (fs : FileSystem) {name : String} (hslash : '/' ∉ name.toList)
    (hnul : '\x00' ∉ name.toList) (hmem : 'a' ∈ name.toList) (hsize : name.utf8ByteSize ≤ 255) :
    fs.locate (join "." name) = .ok [name] := by
  have hne : ∀ other : String, 'a' ∉ other.toList → name ≠ other := by
    rintro other hnone rfl
    exact hnone hmem
  have hjoin : join "." name = "./" ++ name := by
    have hfront : ("." ++ "/" : String) = "./" := by decide
    rw [join, if_neg fun hhead => hslash (List.mem_of_head? hhead), if_neg (by decide), hfront]
  have hnames : names ("./" ++ name) = [".", name] := by
    have hlist : ("./" ++ name).toList = ['.'] ++ '/' :: name.toList := by
      rw [String.toList_append]
      rfl
    have hfront : List.splitOn '/' ['.'] = [['.']] := by decide
    rw [names, hlist, List.splitOn_append_cons_self, List.splitOn_eq_singleton hslash, hfront]
    simp
  have hcheck : checkPath ("./" ++ name) = .ok () := by
    rw [checkPath_eq_ok]
    refine ⟨?_, ?_, ?_⟩
    · rw [String.toList_append, List.mem_append, not_or]
      exact ⟨by decide, hnul⟩
    · intro hempty
      have hlength := congrArg String.length hempty
      rw [String.length_append] at hlength
      simp at hlength
    · have htwo : ("./" : String).utf8ByteSize = 2 := by decide
      rw [String.utf8ByteSize_append, htwo]
      omega
  have henter : enter [] name = [name] := by
    rw [enter, if_neg (not_or.mpr ⟨hne "" (by decide), hne "." (by decide)⟩),
      if_neg (hne ".." (by decide))]
    rfl
  rw [hjoin, locate_eq_ok, hnames]
  exact ⟨hcheck, walk_cons.mpr ⟨rfl, by decide, walk_cons.mpr ⟨rfl, hsize, henter ▸ rfl⟩⟩⟩

end FileSystem

namespace Download

/-- A download of a file of unknown size into the present directory. -/
def crowded : Config :=
  { url := "http://h/a.b", directory := ".", baseName := "a", extension := ".b", workers := 1,
    resume := false }

/-- A job for `crowded` that was started. -/
def crowdedJob : Job := { config := crowded, phase := .accepted }

/-- As many names of the file of `crowded` are taken. -/
def taken (count : Nat) : FileSystem :=
  { entries := (List.range count).map fun n => ([candidate "a" ".b" n], .file [7]) }

/-- All names that are tried are taken, and the last one as well. -/
def crowdedFiles : FileSystem := taken (lastNumber + 1)

/-- A server for `crowded`, which sends two bytes. -/
def crowdedWorld : World :=
  { sizes? := some []
    course :=
      { replies? := some [.answered 200 none]
        incidents := [(0, .chunk 0 [1, 2]), (1, .ended 0)]
        closing := 2 } }

theorem crowded_name {n : Nat} (hn : n ≤ lastNumber) (fs : FileSystem) :
    fs.locate (destinationPath crowded n) = .ok [candidate "a" ".b" n] := by
  have hslash : '/' ∉ crowded.fileName.toList := by decide
  refine locate_here fs (destination_no_slash hslash n) ?_ ?_ ?_
  · intro hmem
    rcases mem_candidate hmem with hmem | hmem
    · exact absurd hmem (by decide)
    · rcases hmem with heq | heq | heq <;> simp at heq
  · rw [candidate_eq, String.toList_append, String.toList_append]
    exact List.mem_append_left _ (List.mem_append_left _ (by decide))
  · have hnumber := utf8ByteSize_numbering hn
    have hbase : ("a" : String).utf8ByteSize = 1 := by decide
    have hextension : (".b" : String).utf8ByteSize = 2 := by decide
    change (candidate "a" ".b" n).utf8ByteSize ≤ 255
    rw [candidate_eq, String.utf8ByteSize_append, String.utf8ByteSize_append, hbase, hextension]
    omega

theorem taken_node {n count : Nat} (hn : n < count) :
    (taken count).node? [candidate "a" ".b" n] = some (.file [7]) := by
  have hlookup : ∀ names : List Nat, n ∈ names →
      (names.map fun n => ([candidate "a" ".b" n], Node.file [7])).lookup
        [candidate "a" ".b" n] = some (Node.file [7]) := by
    intro names hmem
    induction names with
    | nil => contradiction
    | cons m names ih =>
      rw [List.map_cons, List.lookup_cons]
      split
      · rfl
      · next hne =>
        refine ih ((List.mem_cons.mp hmem).resolve_left ?_)
        rintro rfl
        simp at hne
  exact hlookup _ (List.mem_range.mpr hn)

theorem taken_free (count : Nat) : (taken count).node? ["a.b.0.part"] = none := by
  have hlookup : ∀ names : List Nat,
      (names.map fun n => ([candidate "a" ".b" n], Node.file [7])).lookup ["a.b.0.part"] =
        none := by
    intro names
    induction names with
    | nil => rfl
    | cons m names ih =>
      have hne : (["a.b.0.part"] == [candidate "a" ".b" m]) = false := by
        rw [beq_eq_false_iff_ne]
        intro heq
        have hpoints := congrArg points (List.cons.inj heq).1
        rw [points_candidate] at hpoints
        exact absurd hpoints (by decide)
      rw [List.map_cons, List.lookup_cons, hne]
      exact ih
  exact hlookup _

/-- With more files than numbers the last name is crowded. -/
theorem taken_crowded {count : Nat} (hcount : lastNumber < count) :
    Crowded (taken count) (destinationPath crowded) ["a(10000).b"] where
  taken n hn := has_eq_true.mpr ⟨_, crowded_name (Nat.le_of_lt hn) _, by
    rw [taken_node (Nat.lt_trans hn hcount)]; simp⟩
  last := crowded_name (Nat.le_refl _) _

theorem openFile_of_none {fs : FileSystem} (hfaults : fs.faults = []) {path : String}
    {place : Place} (hlocate : fs.locateFile path .isADirectory = .ok place)
    (hnone : fs.node? place = none) : (fs.openFile path).2 = .ok (place, []) := by
  have hnext : fs.next = (fs, none) := by simp [next, hfaults]
  rw [openFile, hnext]
  simp [hlocate, hnone]

theorem taken_opens (count : Nat) :
    Opens crowded (taken count) none (taken count) ["a.b.0.part"] [] := by
  have hname : partialName crowded none 0 = join "." "a.b.0.part" := by decide +kernel
  have hlocate : ∀ fs : FileSystem,
      fs.locate (partialName crowded none 0) = .ok ["a.b.0.part"] := fun fs => by
    rw [hname]
    exact locate_here fs (by decide) (by decide) (by decide) (by decide)
  have hfree : (taken count).has (partialName crowded none 0) = false := by
    rw [← Bool.not_eq_true, has_eq_true]
    rintro ⟨q, hq, hnode⟩
    obtain rfl := Except.ok.inj ((hlocate _).symm.trans hq)
    exact hnode (taken_free count)
  have hpath : partialPath (taken count) crowded none false = partialName crowded none 0 := by
    rw [partialPath_fresh]
    have hsome : ∃ n, 0 ≤ n ∧ n ≤ 0 + lastNumber ∧
        (taken count).has (partialName crowded none n) = false :=
      ⟨0, Nat.le_refl _, Nat.zero_le _, hfree⟩
    obtain ⟨n, -, -, heq, -, hbefore⟩ := freeFrom_first hsome
    cases n with
    | zero => exact heq
    | succ n => exact absurd (hbefore 0 (Nat.le_refl _) (Nat.succ_pos n)) (by simp [hfree])
  refine ⟨createDirectory_here _, ?_⟩
  change ((taken count).openFile (partialPath (taken count) crowded none false)).2 = _
  rw [hpath]
  exact openFile_of_none rfl (locateFile_eq_ok.mpr ⟨by decide +kernel, hlocate _⟩)
    (taken_free count)

/-- While there is a free name, the files that were there stay. -/
theorem roomy_spared :
    (taken 3).node? ["a.b"] = some (.file [7]) ∧
      (crowdedJob.complete (taken 3) crowdedWorld).2.node? ["a.b"] = some (.file [7]) := by
  have hnode : (taken 3).node? ["a.b"] = some (.file [7]) := by decide +kernel
  refine ⟨hnode, (Job.complete_spares crowdedJob (taken 3) crowdedWorld hnode).resolve_right ?_⟩
  have hmade : ∀ {made : FileSystem}, (taken 3).createDirectory "." = (made, none) →
      made = taken 3 := fun h => (Prod.mk.inj ((createDirectory_here _).symm.trans h)).1.symm
  intro htakes
  cases htakes with
  | resumed replies size made contents sizes settled resume opens => cases resume
  | lastPartial replies made contents sizes fresh opens crowded =>
    obtain rfl := hmade opens.directory
    obtain rfl := Option.some.inj sizes
    have hfree : (taken 3).has (partialName Download.crowded (Probe.settled []) 0) = false := by
      decide +kernel
    exact Bool.false_ne_true (hfree.symm.trans (crowded.taken 0 (by decide)))
  | lastDestination replies made place contents length sizes opens completed headless crowded =>
    obtain rfl := hmade opens.directory
    obtain rfl := Option.some.inj sizes
    have hfree : ((taken 3).openFile (partialPath (taken 3) Download.crowded (Probe.settled [])
        false)).1.has (destinationPath Download.crowded 3) = false := by
      decide +kernel
    exact Bool.false_ne_true (hfree.symm.trans (crowded.taken 3 (by decide)))

/-- A file that was there is lost: the run has given its name to what it received. -/
theorem crowded_replaced :
    crowdedFiles.node? ["a(10000).b"] = some (.file [7]) ∧
      (crowdedJob.complete crowdedFiles crowdedWorld).2.node? ["a(10000).b"] =
        some (.file [1, 2]) := by
  have hmore : lastNumber < lastNumber + 1 := Nat.lt_add_one lastNumber
  have hlast : "a(10000).b" = candidate "a" ".b" lastNumber := by decide
  have hnode : crowdedFiles.node? ["a(10000).b"] = some (.file [7]) := by
    rw [hlast]
    exact taken_node hmore
  have hlength : ((engine crowded none [] crowdedWorld).2.file.file.setLength (0 + 2)).2 = none :=
    by decide +kernel
  have hcontents : ((engine crowded none [] crowdedWorld).2.file.file.setLength
      (0 + 2)).1.contents = [1, 2] := by
    decide +kernel
  have hrun : (run crowded crowdedFiles crowdedWorld).2.files.node? ["a(10000).b"] =
      some (.file [1, 2]) := by
    rw [← hcontents]
    have hopens : Opens crowded crowdedFiles (Probe.settled []) crowdedFiles ["a.b.0.part"] [] :=
      taken_opens _
    exact run_replaces rfl rfl hopens (List.forall_mem_nil _) (by decide +kernel)
      (by decide +kernel) (Prod.ext rfl hlength) (taken_crowded hmore) (by decide +kernel)
      (by decide) hnode
  have haccepted : crowdedJob.phase = .accepted := rfl
  have hcomplete := Job.complete_of_accepted haccepted crowdedFiles crowdedWorld
  have hconfig : crowdedJob.config = crowded := rfl
  obtain ⟨-, -, -, -, hfiles⟩ := hcomplete
  rw [hconfig] at hfiles
  rw [hfiles]
  exact ⟨hnode, hrun⟩

end Download

end SegmentedDownload
