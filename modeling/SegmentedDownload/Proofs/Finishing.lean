import SegmentedDownload.Download
import SegmentedDownload.Proofs.Delivery
import SegmentedDownload.Proofs.LastNames

/-!
# SegmentedDownload.Proofs.Finishing

What becomes of the files of a download whose transfer is complete.

* `FirstFree`: the finished file gets the first free name, and the partial file does not
  change which one that is.
* `handOver_leaves`: both ways of handing the payload over, the new name and the copy, leave the
  same tree behind, whatever file of the tree the partial file is (`FileAt`).
* `finalize_leaves`: so it is once the partial file was cut behind its payload, however the names
  in the directory are made up.
* `finalize_reliable`: they come to their end, if the name is an ordinary one and no change of
  the files is refused.
-/

namespace SegmentedDownload

/-! ## The destination -/

namespace Naming

/-- The `n`-th path of the finished file. -/
def destinationPath (c : Config) (n : Nat) : String :=
  join c.directory (candidate c.baseName c.extension n)

/-- A path is the first one of the finished file that leads to nothing. -/
def FirstFree (fs : FileSystem) (c : Config) (target : String) : Prop :=
  ∃ n, n ≤ lastNumber ∧ target = destinationPath c n ∧ fs.has (destinationPath c n) = false ∧
    ∀ k, k < n → fs.has (destinationPath c k) = true

/-- The finished file gets the first name that is free, if there is one. -/
theorem destination_firstFree {fs : FileSystem} {c : Config}
    (h : ∃ n, n ≤ lastNumber ∧ fs.has (destinationPath c n) = false) :
    FirstFree fs c (destination fs c) := by
  obtain ⟨n, hn, hfree⟩ := h
  have hsome : ∃ n, 0 ≤ n ∧ n ≤ 0 + lastNumber ∧ fs.has (destinationPath c n) = false :=
    ⟨n, Nat.zero_le n, by omega, hfree⟩
  obtain ⟨k, -, hk, heq, hfreek, hbefore⟩ := freeFrom_first hsome
  exact ⟨k, by omega, heq, hfreek, fun l hl => hbefore l (Nat.zero_le l) hl⟩

/-- Nothing is where a free name leads to. -/
theorem FirstFree.vacant {fs : FileSystem} {c : Config} {target : String} {q : Place}
    (h : FirstFree fs c target) (hlocate : fs.locate target = .ok q) : fs.node? q = none := by
  obtain ⟨n, -, rfl, hnone, -⟩ := h
  rw [← Bool.not_eq_true, FileSystem.has_eq_true] at hnone
  by_contra hnode
  exact hnone ⟨q, hlocate, hnode⟩

end Naming

open FileSystem Naming

/-- A partial file of a download, which is not a directory, is at a place. -/
structure HasPartial (c : Config) (files : FileSystem) (path : String) (place : Place) : Prop where
  named : ∃ size? m, path = join c.directory (candidate (partialStem c size?) partialExtension m)
  located : files.locate path = .ok place
  not_directory : files.node? place ≠ some .directory

/-- A partial file of a download whose file name is an ordinary one is at a place. -/
structure PartialAt (c : Config) (files : FileSystem) (path : String) (place : Place) : Prop where
  no_slash : '/' ∉ c.fileName.toList
  no_nul : '\x00' ∉ c.fileName.toList
  base_ne : c.baseName ≠ ""
  named : ∃ size? m, path = join c.directory (candidate (partialStem c size?) partialExtension m)
  located : files.locate path = .ok place
  not_directory : files.node? place ≠ some .directory

/-- A path leads to a file. -/
structure FileAt (files : FileSystem) (path : String) (place : Place) (contents : Bytes) :
    Prop where
  located : files.locate path = .ok place
  node_eq : files.node? place = some (.file contents)

/-- Two trees differ in nothing but a file. -/
structure Differs (files files' : FileSystem) (place : Place) : Prop where
  others : ∀ q, q ≠ place → files'.node? q = files.node? q
  not_directory : files'.node? place ≠ some .directory

section

variable {c : Config} {files files' : FileSystem} {path : String} {place q : Place}

namespace HasPartial

/-- No name of the finished file leads to the partial file. -/
theorem destination_ne (h : HasPartial c files path place) {n : Nat}
    (hlocate : files.locate (destinationPath c n) = .ok q) : q ≠ place := by
  obtain ⟨size?, m, rfl⟩ := h.named
  exact destination_apart h.located h.not_directory hlocate

/-- A tree that differs in the partial file only has the same directories. -/
theorem sameDirectories (h : HasPartial c files path place)
    (hdiffers : Differs files files' place) : SameDirectories files files' := by
  intro q
  by_cases hq : q = place
  · subst hq
    simp [h.not_directory, hdiffers.not_directory]
  · rw [hdiffers.others q hq]

/-- The contents of the partial file do not matter for the names. -/
theorem of_differs (h : HasPartial c files path place) (hdiffers : Differs files files' place) :
    HasPartial c files' path place :=
  ⟨h.named, locate_congr (h.sameDirectories hdiffers) h.located, hdiffers.not_directory⟩

/-- Changes to the partial file leave the names of finished files alone. -/
theorem has_of_differs (h : HasPartial c files path place) (hdiffers : Differs files files' place)
    (n : Nat) : files'.has (destinationPath c n) = files.has (destinationPath c n) :=
  has_congr (h.sameDirectories hdiffers) fun q hlocate =>
    hdiffers.others q (h.destination_ne hlocate)

theorem free_of_differs (h : HasPartial c files path place) (hdiffers : Differs files files' place)
    (hfree : ∃ n, n ≤ lastNumber ∧ files.has (destinationPath c n) = false) :
    ∃ n, n ≤ lastNumber ∧ files'.has (destinationPath c n) = false := by
  obtain ⟨n, hn, hnone⟩ := hfree
  exact ⟨n, hn, by rw [h.has_of_differs hdiffers, hnone]⟩

/-- Writing the partial file changes it only. -/
theorem differs_put (h : HasPartial c files path place) (contents : Bytes) :
    Differs files (files.put place (.file contents)) place := by
  have hplace := ne_nil_of_node? h.not_directory
  refine ⟨fun q hq => ?_, ?_⟩
  · rw [node?_put hplace, if_neg hq]
  · rw [node?_put hplace, if_pos rfl]
    simp

end HasPartial

end

namespace PartialAt

variable {c : Config} {files files' : FileSystem} {path : String} {place q : Place}

theorem hasPartial (h : PartialAt c files path place) : HasPartial c files path place :=
  ⟨h.named, h.located, h.not_directory⟩

/-- The contents of the partial file do not matter for the names. -/
theorem of_differs (h : PartialAt c files path place) (hdiffers : Differs files files' place) :
    PartialAt c files' path place :=
  ⟨h.no_slash, h.no_nul, h.base_ne, h.named, (h.hasPartial.of_differs hdiffers).located,
    hdiffers.not_directory⟩

/-- The first free name has a place, and nothing is there. -/
theorem destination_located (h : PartialAt c files path place) {target : String}
    (hfree : FirstFree files c target) (cause : IoError) :
    ∃ q, files.locateFile target cause = .ok q ∧ files.locate target = .ok q ∧
      files.node? q = none ∧ q ≠ place := by
  obtain ⟨n, hn, rfl, -⟩ := id hfree
  obtain ⟨q, hlocateFile⟩ : ∃ q, files.locateFile (destinationPath c n) cause = .ok q := by
    obtain ⟨size?, m, rfl⟩ := h.named
    exact locateFile_destination h.no_slash h.no_nul h.base_ne hn h.located cause
  have hlocate := (locateFile_eq_ok.mp hlocateFile).2
  exact ⟨q, hlocateFile, hlocate, hfree.vacant hlocate, h.hasPartial.destination_ne hlocate⟩

end PartialAt

/-! ## The payload -/

/-- A file that is cut or filled behind its payload. -/
theorem Bytes.slice_resize_eq (contents : Bytes) (pos len : Nat) :
    (resize contents (pos + len)).slice pos len = resize (contents.drop pos) len := by
  refine List.ext_getElem? fun k => ?_
  rw [getElem?_slice, getElem?_resize, getElem?_resize, List.getElem?_drop]
  by_cases hk : k < len
  · rw [if_pos hk, if_pos hk, if_pos (by omega)]
  · rw [if_neg hk, if_neg hk]

/-- Cutting a file behind its payload keeps the payload. -/
theorem Bytes.slice_resize_of_eq {contents body : Bytes} {pos : Nat}
    (h : contents.slice pos body.length = body) :
    (resize contents (pos + body.length)).slice pos body.length = body := by
  cases body with
  | nil => exact slice_zero _ _
  | cons b body =>
    have hlength := congrArg List.length h
    rw [length_slice] at hlength
    rw [slice_resize (Nat.le_refl _) (by simp only [List.length_cons] at hlength ⊢; omega), h]

/-! ## The finished file -/

namespace Download

variable {c : Config} {files : FileSystem} {path : String} {place : Place} {file : OpenFile}
  {body : Bytes} {headerSize : Nat}

/-- A body is in a file at one place, another place is empty, and all else is as before. -/
def Moves (files files' : FileSystem) (place q : Place) (body : Bytes) : Prop :=
  ∀ p, files'.node? p =
    if p = q then some (.file body) else if p = place then none else files.node? p

/-- What is moved in one tree is moved in another one that differs in the partial file. -/
theorem Moves.of_differs {files₁ files' : FileSystem} {q : Place}
    (hdiffers : Differs files files₁ place) (h : Moves files₁ files' place q body) :
    Moves files files' place q body := by
  intro p
  rw [h]
  by_cases hp : p = place
  · simp [hp]
  · rw [if_neg hp, if_neg hp, hdiffers.others p hp]

/-- What a download whose transfer is complete leaves behind: the finished file has the first
free name, and the partial file is gone. -/
structure Leaves (c : Config) (files files' : FileSystem) (place : Place) (body : Bytes)
    (target : String) (q : Place) : Prop where
  firstFree : FirstFree files c target
  located : files.locate target = .ok q
  vacant : files.node? q = none
  apart : q ≠ place
  moves : Moves files files' place q body

/-- It does not count what happened to the partial file before. -/
theorem Leaves.of_differs {files₁ files' : FileSystem} {target : String} {q : Place}
    (hpartial : HasPartial c files path place) (hdiffers : Differs files files₁ place)
    (h : Leaves c files₁ files' place body target q) :
    Leaves c files files' place body target q := by
  refine ⟨?_, locate_congr (hpartial.sameDirectories hdiffers).symm h.located, ?_, h.apart,
    h.moves.of_differs hdiffers⟩
  · obtain ⟨n, hn, htarget, hfree, hbefore⟩ := h.firstFree
    refine ⟨n, hn, htarget, ?_, fun k hk => ?_⟩
    · rw [← hpartial.has_of_differs hdiffers, hfree]
    · rw [← hpartial.has_of_differs hdiffers, hbefore k hk]
  · rw [← hdiffers.others q h.apart, h.vacant]

/-- A copy is a new file with the payload. -/
theorem copyPayload_eq {files files' : FileSystem} {contents : Bytes} {headerSize length : Nat}
    {target : String} (h : copyPayload files contents headerSize length target = (files', none)) :
    ∃ q, files.locate target = .ok q ∧ files.node? q = none ∧
      ∀ p, files'.node? p =
        if p = q then some (.file (contents.slice headerSize length)) else files.node? p := by
  unfold copyPayload at h
  split at h
  · simp at h
  · next files₁ hcreate =>
    obtain ⟨q, hlocate, hvacant, hnodes₁⟩ := node?_createNew hcreate
    have hsame : SameDirectories files files₁ := by
      intro p
      rw [hnodes₁]
      by_cases hp : p = q
      · simp [hp, hvacant]
      · rw [if_neg hp]
    dsimp only at h
    split at h
    · simp at h
    · next files₂ hwrite =>
      obtain ⟨rfl, -⟩ := Prod.mk.inj h
      obtain ⟨q', hlocate', hnodes₂⟩ := nodes_write hwrite
      have hlocate₁ : files₁.locateFile target .isADirectory = .ok q :=
        locateFile_congr hsame hlocate
      obtain rfl := Except.ok.inj (hlocate₁.symm.trans hlocate')
      refine ⟨q, (locateFile_eq_ok.mp hlocate).2, hvacant, fun p => ?_⟩
      rw [hnodes₂, hnodes₁]
      split <;> rfl

/-- A copy can be made of a partial file, if no change is refused. -/
theorem copyPayload_reliable (hfiles : files.Reliable) {target : String} {cause : IoError}
    {q : Place} (hlocate : files.locateFile target cause = .ok q) (hnone : files.node? q = none)
    {contents : Bytes} {length : Nat}
    (hlength : (contents.slice headerSize length).length = length) :
    ∃ files', copyPayload files contents headerSize length target = (files', none) ∧
      files'.Reliable := by
  obtain ⟨files₁, hcreate, hfiles₁, hnodes₁⟩ := createNew_reliable hfiles hlocate hnone
  have hsame : SameDirectories files files₁ := by
    intro p
    rw [hnodes₁]
    by_cases hp : p = q
    · simp [hp, hnone]
    · rw [if_neg hp]
  have hlocate₁ : files₁.locateFile target cause = .ok q := locateFile_congr hsame hlocate
  obtain ⟨files₂, hwrite, hfiles₂, -⟩ := write_reliable hfiles₁ hlocate₁
    (by rw [hnodes₁, if_pos rfl]) (contents.slice headerSize length)
  refine ⟨files₂, ?_, hfiles₂⟩
  rw [copyPayload, hcreate]
  dsimp only
  rw [hwrite, hlength]
  simp

end Download

namespace FileAt

open Download

variable {c : Config} {files files' copied : FileSystem} {path target : String} {place q : Place}
  {contents payload : Bytes} {headerSize length : Nat}

/-- A free name leads to another place. -/
theorem apart (h : FileAt files path place contents) (hfirst : FirstFree files c target)
    (hlocate : files.locate target = .ok q) : q ≠ place := by
  rintro rfl
  have hvacant := hfirst.vacant hlocate
  rw [h.node_eq] at hvacant
  contradiction

/-- Moving a payload to the first free name leaves what it should. -/
theorem leaves (h : FileAt files path place contents) (hfirst : FirstFree files c target)
    (hlocate : files.locate target = .ok q) (hmoves : Moves files files' place q payload) :
    Leaves c files files' place payload target q :=
  ⟨hfirst, hlocate, hfirst.vacant hlocate, h.apart hfirst hlocate, hmoves⟩

/-- A partial file that got the first free name is gone. -/
theorem leaves_of_rename (h : FileAt files path place contents) (hfirst : FirstFree files c target)
    (hrename : files.rename path target = (files', none)) :
    ∃ q, Leaves c files files' place contents target q := by
  obtain ⟨source, q, moved, hsource, hlocate, hfile, hnodes⟩ := nodes_rename hrename
  obtain rfl := Except.ok.inj (h.located.symm.trans hsource)
  obtain rfl := Node.file.inj (Option.some.inj (h.node_eq.symm.trans hfile))
  exact ⟨q, h.leaves hfirst hlocate hnodes⟩

/-- Nothing becomes of a partial file while it is copied. -/
theorem of_copy (h : FileAt files path place contents) (hfirst : FirstFree files c target)
    (hcopy : copyPayload files contents headerSize length target = (copied, none)) :
    ∃ q, files.locate target = .ok q ∧ q ≠ place ∧ copied.locate path = .ok place ∧
      ∀ p, copied.node? p =
        if p = q then some (.file (contents.slice headerSize length)) else files.node? p := by
  obtain ⟨q, hlocate, hvacant, hcopied⟩ := copyPayload_eq hcopy
  refine ⟨q, hlocate, h.apart hfirst hlocate, locate_mono (fun p hp => ?_) h.located, hcopied⟩
  have hne : p ≠ q := by
    rintro rfl
    rw [hvacant] at hp
    contradiction
  rw [hcopied, if_neg hne, hp]

/-- A partial file that was copied is gone as soon as it is removed. -/
theorem leaves_of_copy (h : FileAt files path place contents) (hfirst : FirstFree files c target)
    (hcopy : copyPayload files contents headerSize length target = (copied, none))
    (hremove : copied.remove path = (files', none)) :
    ∃ q, Leaves c files files' place (contents.slice headerSize length) target q := by
  obtain ⟨q, hlocate, hapart, hlocated, hcopied⟩ := h.of_copy hfirst hcopy
  obtain ⟨source, hsource, hremoved⟩ := nodes_remove hremove
  obtain rfl := Except.ok.inj (hlocated.symm.trans hsource)
  refine ⟨q, h.leaves hfirst hlocate fun p => ?_⟩
  rw [hremoved, hcopied]
  by_cases hp : p = place
  · rw [if_pos hp, if_neg (by rw [hp]; exact hapart.symm), if_pos hp]
  · rw [if_neg hp, if_neg hp]

end FileAt

namespace Download

variable {c : Config} {files files' : FileSystem} {path target : String} {place : Place}
  {file : OpenFile} {body contents : Bytes} {headerSize length : Nat}

/-- The partial file, which ends with its payload, becomes the finished file, or is copied to it. -/
def handOver (files : FileSystem) (c : Config) (path : String) (contents : Bytes)
    (headerSize length : Nat) : FileSystem × Except IoError String :=
  let target := destination files c
  let (files, fault?) :=
    if headerSize = 0 then files.rename path target
    else match copyPayload files contents headerSize length target with
      | (files, some fault) => (files, some fault)
      | (files, none) => files.remove path
  (files, match fault? with | some fault => .error fault | none => .ok target)

/-- The finished file is made in two steps, of which the first one cuts the partial file. -/
theorem finalize_eq (files : FileSystem) (c : Config) (path : String) (place : Place)
    (file : OpenFile) (headerSize length : Nat) :
    finalize files c path place file headerSize length =
      match file.setLength (headerSize + length) with
      | (_, some fault) => (files, .error fault)
      | (file, none) =>
        handOver (files.put place (.file file.contents)) c path file.contents headerSize length :=
  rfl

/-- Both ways to hand a payload over have the same outcome. -/
theorem handOver_leaves (hat : FileAt files path place contents)
    (hfirst : FirstFree files c (destination files c))
    (hlength : contents.length = headerSize + length)
    (h : handOver files c path contents headerSize length = (files', .ok target)) :
    ∃ q, Leaves c files files' place (contents.slice headerSize length) target q := by
  unfold handOver at h
  dsimp only at h
  by_cases hzero : headerSize = 0
  · rw [if_pos hzero] at h
    cases hrename : files.rename path (destination files c) with
    | mk renamed fault? =>
      rw [hrename] at h
      cases fault? with
      | some fault => simp at h
      | none =>
        obtain ⟨rfl, htarget⟩ := Prod.mk.inj h
        obtain rfl := Except.ok.inj htarget
        have hall : contents.slice headerSize length = contents := by
          rw [hzero, Nat.zero_add] at hlength
          rw [hzero, ← hlength, Bytes.slice_all]
        rw [hall]
        exact hat.leaves_of_rename hfirst hrename
  · rw [if_neg hzero] at h
    split at h
    · simp at h
    · next copied hcopy =>
      cases hremove : copied.remove path with
      | mk removed fault? =>
        rw [hremove] at h
        cases fault? with
        | some fault => simp at h
        | none =>
          obtain ⟨rfl, htarget⟩ := Prod.mk.inj h
          obtain rfl := Except.ok.inj htarget
          exact hat.leaves_of_copy hfirst hcopy hremove

/-- A finished file has the payload of the partial file, which is gone. -/
theorem finalize_leaves (hpartial : HasPartial c files path place)
    (hfree : ∃ n, n ≤ lastNumber ∧ files.has (destinationPath c n) = false)
    (h : finalize files c path place file headerSize length = (files', .ok target)) :
    ∃ q, Leaves c files files' place (Bytes.resize (file.contents.drop headerSize) length)
      target q := by
  have hset := OpenFile.contents_setLength file (headerSize + length)
  rw [finalize_eq] at h
  split at h
  · simp at h
  · next file' hcut =>
    rw [hcut, if_pos rfl] at hset
    dsimp only at hset
    have hdiffers := hpartial.differs_put file'.contents
    have hat : FileAt (files.put place (.file file'.contents)) path place file'.contents := by
      refine ⟨(hpartial.of_differs hdiffers).located, ?_⟩
      rw [node?_put (ne_nil_of_node? hpartial.not_directory), if_pos rfl]
    have hfirst := destination_firstFree (hpartial.free_of_differs hdiffers hfree)
    have hlength : file'.contents.length = headerSize + length := by
      rw [hset, Bytes.length_resize]
    obtain ⟨q, hleaves⟩ := handOver_leaves hat hfirst hlength h
    rw [hset, Bytes.slice_resize_eq] at hleaves
    exact ⟨q, hleaves.of_differs hpartial (hset ▸ hdiffers)⟩

/-- A complete partial file becomes the finished file, if no change is refused. -/
theorem finalize_reliable (hpartial : PartialAt c files path place) (hfiles : files.Reliable)
    (hfree : ∃ n, n ≤ lastNumber ∧ files.has (destinationPath c n) = false)
    (hfile : file.Reliable) (hroom : headerSize + body.length ≤ OpenFile.maxPosition)
    (hpayload : file.contents.slice headerSize body.length = body) :
    ∃ files' q target, finalize files c path place file headerSize body.length =
        (files', .ok target) ∧ Leaves c files files' place body target q := by
  suffices ∃ files' target, finalize files c path place file headerSize body.length =
      (files', .ok target) by
    obtain ⟨files', target, hfinalize⟩ := this
    obtain ⟨q, hleaves⟩ := finalize_leaves hpartial.hasPartial hfree hfinalize
    rw [← Bytes.slice_resize_eq, Bytes.slice_resize_of_eq hpayload] at hleaves
    exact ⟨files', q, target, hfinalize, hleaves⟩
  obtain ⟨file', hset, hcontents⟩ : ∃ file',
      file.setLength (headerSize + body.length) = (file', none) ∧
        file'.contents = file.contents.resize (headerSize + body.length) := by
    obtain ⟨hnone, hcontents, -⟩ := hfile.setLength_eq hroom
    exact ⟨_, Prod.ext rfl hnone, hcontents⟩
  have hdiffers := hpartial.hasPartial.differs_put file'.contents
  have hpartial' := hpartial.of_differs hdiffers
  have hnode : (files.put place (.file file'.contents)).node? place =
      some (.file file'.contents) := by
    rw [node?_put (ne_nil_of_node? hpartial.not_directory), if_pos rfl]
  have hfiles' : (files.put place (.file file'.contents)).Reliable := hfiles
  have hfirst : FirstFree (files.put place (.file file'.contents)) c
      (destination (files.put place (.file file'.contents)) c) :=
    destination_firstFree (hpartial.hasPartial.free_of_differs hdiffers hfree)
  rw [finalize, hset]
  dsimp only
  by_cases hzero : headerSize = 0
  · obtain ⟨q, hlocate, -, hnone, -⟩ := hpartial'.destination_located hfirst .notADirectory
    obtain ⟨files', hrename, -⟩ :=
      rename_reliable hfiles' hpartial'.located hlocate hnode (by rw [hnone]; simp)
    rw [if_pos hzero, hrename]
    exact ⟨files', _, rfl⟩
  · obtain ⟨q, hlocate, -, hnone, -⟩ := hpartial'.destination_located hfirst .isADirectory
    have hpayload' : file'.contents.slice headerSize body.length = body := by
      rw [hcontents, Bytes.slice_resize_of_eq hpayload]
    obtain ⟨copied, hcopy, hreliable⟩ :=
      copyPayload_reliable hfiles' hlocate hnone (congrArg List.length hpayload')
    have hat : FileAt (files.put place (.file file'.contents)) path place file'.contents :=
      ⟨hpartial'.located, hnode⟩
    obtain ⟨_, -, hapart, hlocated, hcopied⟩ := hat.of_copy hfirst hcopy
    obtain ⟨files', hremove, -⟩ := remove_reliable hreliable hlocated
      ((hcopied place).trans ((if_neg hapart.symm).trans hnode))
    rw [if_neg hzero, hcopy]
    dsimp only
    rw [hremove]
    exact ⟨files', _, rfl⟩

end Download

end SegmentedDownload
