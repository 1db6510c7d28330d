import SegmentedDownload.Proofs.Sparing

/-!
# SegmentedDownload.Proofs.Saving

Both ways to make the finished file save the same.

A partial file without a header gets the name of the finished file, any other one is copied behind
its header and removed.  The partial file may be any file of the tree, and the names in the
directory may be made up in any way; the only condition is that the operations on files, as
`FinalizeFails` lists them, do what they are asked for (one that does not is the error of
`finalize`).  Then

* the payload is handed over (`handOver_works`): nothing of the header and nothing behind the
  payload;
* the first free name is the same before and after the partial file is cut, since a file is there
  all the time (`FirstFree.congr`);
* so what is left depends on the payload only (`finalize_saves`).
-/

namespace SegmentedDownload

open FileSystem Naming

/-! ## Names -/

/-- Trees with the same names agree on what is free. -/
theorem FileSystem.SameNames.has_eq {fs fs' : FileSystem} (h : SameNames fs fs') (path : String) :
    fs'.has path = fs.has path := by
  rw [Bool.eq_iff_iff]
  exact ⟨has_mono (fun q => (h.symm.directories q).mp) fun q => (h.symm.taken q).mp,
    has_mono (fun q => (h.directories q).mp) fun q => (h.taken q).mp⟩

namespace Naming

variable {fs fs' : FileSystem} {c : Config} {target target' : String}

theorem FirstFree.congr (h : SameNames fs fs') (hfirst : FirstFree fs' c target) :
    FirstFree fs c target := by
  obtain ⟨n, hn, htarget, hfree, hbefore⟩ := hfirst
  refine ⟨n, hn, htarget, ?_, fun k hk => ?_⟩
  · rw [← h.has_eq, hfree]
  · rw [← h.has_eq, hbefore k hk]

/-- There is one first free name. -/
theorem FirstFree.unique (h : FirstFree fs c target) (h' : FirstFree fs c target') :
    target = target' := by
  obtain ⟨n, -, rfl, hfree, hbefore⟩ := h
  obtain ⟨m, -, rfl, hfree', hbefore'⟩ := h'
  have hnm : ¬ n < m := fun hlt => by
    have htaken := hbefore' n hlt
    rw [hfree] at htaken
    contradiction
  have hmn : ¬ m < n := fun hlt => by
    have htaken := hbefore m hlt
    rw [hfree'] at htaken
    contradiction
  rw [show n = m by omega]

end Naming

/-! ## Partial files -/

namespace FileAt

open Download

variable {c : Config} {files files' : FileSystem} {path target : String} {place q : Place}
  {contents contents' payload : Bytes}

/-- The file may get other contents. -/
theorem put (h : FileAt files path place contents) (contents' : Bytes) :
    FileAt (files.put place (.file contents')) path place contents' := by
  refine ⟨locate_congr (sameNames_put h.node_eq contents').directories h.located, ?_⟩
  rw [node?_put (ne_nil_of_node? (by rw [h.node_eq]; simp)), if_pos rfl]

/-- What is left does not depend on the contents that the partial file had before. -/
theorem leaves_of_put (h : FileAt files path place contents)
    (hleaves : Leaves c (files.put place (.file contents')) files' place payload target q) :
    Leaves c files files' place payload target q := by
  have hsame := sameNames_put h.node_eq contents'
  have hdiffers : Differs files (files.put place (.file contents')) place := by
    refine ⟨fun p hp => ?_, by rw [(h.put contents').node_eq]; simp⟩
    rw [node?_put (ne_nil_of_node? (by rw [h.node_eq]; simp)), if_neg hp]
  exact ⟨hleaves.firstFree.congr hsame, locate_congr hsame.directories.symm hleaves.located,
    (hsame.taken q).mp hleaves.vacant, hleaves.apart, hleaves.moves.of_differs hdiffers⟩

end FileAt

namespace Download

variable {c : Config} {files files' : FileSystem} {path : String} {place : Place}
  {file : OpenFile} {contents payload : Bytes} {headerSize length : Nat}

/-! ## Operations -/

/-- The payload of a partial file that ends with it is all there. -/
theorem length_payload (hlength : contents.length = headerSize + length) :
    (contents.slice headerSize length).length = length := by
  rw [Bytes.length_slice]
  omega

/-- An operation that hands the payload over is refused, when those before it were not. -/
inductive HandOverFails (files : FileSystem) (c : Config) (path : String) (contents : Bytes)
    (headerSize length : Nat) : IoError → Prop
  | rename (files' : FileSystem) (cause : IoError) (hheader : headerSize = 0)
      (hrename : files.rename path (destination files c) = (files', some cause)) :
    HandOverFails files c path contents headerSize length cause
  | create (files' : FileSystem) (cause : IoError) (hheader : headerSize ≠ 0)
      (hcreate : files.createNew (destination files c) = (files', some cause)) :
    HandOverFails files c path contents headerSize length cause
  | write (created files' : FileSystem) (cause : IoError) (hheader : headerSize ≠ 0)
      (hcreate : files.createNew (destination files c) = (created, none))
      (hwrite : created.write (destination files c) (contents.slice headerSize length) =
        (files', some cause)) :
    HandOverFails files c path contents headerSize length cause
  | remove (created written files' : FileSystem) (cause : IoError) (hheader : headerSize ≠ 0)
      (hcreate : files.createNew (destination files c) = (created, none))
      (hwrite : created.write (destination files c) (contents.slice headerSize length) =
        (written, none))
      (hremove : written.remove path = (files', some cause)) :
    HandOverFails files c path contents headerSize length cause

/-- An operation that makes the finished file is refused. -/
inductive FinalizeFails (files : FileSystem) (c : Config) (path : String) (place : Place)
    (file : OpenFile) (headerSize length : Nat) : IoError → Prop
  | cut (file' : OpenFile) (cause : IoError)
      (hcut : file.setLength (headerSize + length) = (file', some cause)) :
    FinalizeFails files c path place file headerSize length cause
  | handOver (file' : OpenFile) (cause : IoError)
      (hcut : file.setLength (headerSize + length) = (file', none))
      (hfails : HandOverFails (files.put place (.file file'.contents)) c path file'.contents
        headerSize length cause) :
    FinalizeFails files c path place file headerSize length cause

/-- The operation that is refused is the one that is told of. -/
theorem HandOverFails.error {cause : IoError} (hlength : contents.length = headerSize + length)
    (h : HandOverFails files c path contents headerSize length cause) :
    (handOver files c path contents headerSize length).2 = .error cause := by
  have hpayload := length_payload hlength
  cases h with
  | rename _ _ hheader hrename => simp [handOver, hheader, hrename]
  | create _ _ hheader hcreate => simp [handOver, copyPayload, hheader, hcreate]
  | write _ _ _ hheader hcreate hwrite => simp [handOver, copyPayload, hheader, hcreate, hwrite]
  | remove _ _ _ _ hheader hcreate hwrite hremove =>
    simp [handOver, copyPayload, hheader, hcreate, hwrite, hremove, hpayload]

/-- Each of these failures is told with its cause. -/
theorem FinalizeFails.error {cause : IoError}
    (h : FinalizeFails files c path place file headerSize length cause) :
    (finalize files c path place file headerSize length).2 = .error cause := by
  rw [finalize_eq]
  cases h with
  | cut _ _ hcut => rw [hcut]
  | handOver file' _ hcut hfails =>
    have hset := OpenFile.contents_setLength file (headerSize + length)
    rw [hcut, if_pos rfl] at hset
    rw [hcut]
    exact hfails.error (by rw [hset, Bytes.length_resize])

/-- A payload is handed over if no operation is refused: the copy is never too short. -/
theorem handOver_works (hlength : contents.length = headerSize + length)
    (hworks : ∀ cause, ¬ HandOverFails files c path contents headerSize length cause) :
    ∃ files', handOver files c path contents headerSize length =
      (files', .ok (destination files c)) := by
  unfold handOver
  dsimp only
  by_cases hzero : headerSize = 0
  · rw [if_pos hzero]
    cases hrename : files.rename path (destination files c) with
    | mk renamed fault? =>
      cases fault? with
      | some cause => exact absurd (.rename renamed cause hzero hrename) (hworks cause)
      | none => exact ⟨renamed, rfl⟩
  · rw [if_neg hzero]
    have hpayload := length_payload hlength
    cases hcreate : files.createNew (destination files c) with
    | mk created fault? =>
      cases fault? with
      | some cause => exact absurd (.create created cause hzero hcreate) (hworks cause)
      | none =>
        cases hwrite : created.write (destination files c) (contents.slice headerSize length) with
        | mk written fault? =>
          cases fault? with
          | some cause =>
            exact absurd (.write created written cause hzero hcreate hwrite) (hworks cause)
          | none =>
            have hcopy : copyPayload files contents headerSize length (destination files c) =
                (written, none) := by
              simp [copyPayload, hcreate, hwrite, hpayload]
            cases hremove : written.remove path with
            | mk removed fault? =>
              cases fault? with
              | some cause =>
                exact absurd (.remove created written removed cause hzero hcreate hwrite hremove)
                  (hworks cause)
              | none =>
                simp only [hcopy, hremove]
                exact ⟨removed, rfl⟩

/-! ## Finished files -/

/-- What is cut off behind a payload does not belong to it, nor does what stands before it. -/
theorem slice_cut (header payload rest : Bytes) :
    (Bytes.resize (header ++ payload ++ rest) (header.length + payload.length)).slice header.length
      payload.length = payload := by
  rw [Bytes.slice_resize_eq, List.append_assoc, List.drop_left, Bytes.resize, List.take_left,
    List.length_append, Nat.sub_eq_zero_of_le (Nat.le_add_right _ _), List.replicate_zero,
    List.append_nil]

/-- If no operation is refused, the finished file gets the payload. -/
theorem finalize_works {header rest : Bytes} (hat : FileAt files path place file.contents)
    (hcontents : file.contents = header ++ payload ++ rest)
    (hfree : ∃ n, n ≤ lastNumber ∧ files.has (destinationPath c n) = false)
    (hworks : ∀ cause,
      ¬ FinalizeFails files c path place file header.length payload.length cause) :
    ∃ files' target q, finalize files c path place file header.length payload.length =
      (files', .ok target) ∧ Leaves c files files' place payload target q := by
  have hset := OpenFile.contents_setLength file (header.length + payload.length)
  rw [finalize_eq]
  cases hcut : file.setLength (header.length + payload.length) with
  | mk file' fault? =>
    cases fault? with
    | some cause => exact absurd (.cut file' cause hcut) (hworks cause)
    | none =>
      rw [hcut, if_pos rfl, hcontents] at hset
      dsimp only at hset ⊢
      have hat' := hat.put file'.contents
      have hsame := sameNames_put hat.node_eq file'.contents
      have hlength : file'.contents.length = header.length + payload.length := by
        rw [hset, Bytes.length_resize]
      have hfirst : FirstFree (files.put place (.file file'.contents)) c
          (destination (files.put place (.file file'.contents)) c) := by
        obtain ⟨n, hn, hnone⟩ := hfree
        exact destination_firstFree ⟨n, hn, by rw [hsame.has_eq, hnone]⟩
      obtain ⟨files', hover⟩ := handOver_works hlength fun cause hfails =>
        hworks cause (.handOver file' cause hcut hfails)
      obtain ⟨q, hleaves⟩ := handOver_leaves hat' hfirst hlength hover
      have hpayload : file'.contents.slice header.length payload.length = payload := by
        rw [hset, slice_cut]
      rw [hpayload] at hleaves
      exact ⟨files', _, q, hover, hat.leaves_of_put hleaves⟩

/-- If no operation is refused, the payload is in a file of its own under the first free name, and
the partial file is gone.  What the partial file had in front of the payload and behind it makes no
difference: with or without a header, the finished file has the same name, and the same tree is
left. -/
theorem finalize_saves {header rest : Bytes} (hat : FileAt files path place file.contents)
    (hcontents : file.contents = header ++ payload ++ rest)
    (hfree : ∃ n, n ≤ lastNumber ∧ files.has (destinationPath c n) = false)
    (hworks : ∀ cause,
      ¬ FinalizeFails files c path place file header.length payload.length cause) :
    ∃ files' target q, finalize files c path place file header.length payload.length =
        (files', .ok target) ∧ Leaves c files files' place payload target q ∧
      ∀ (other : OpenFile) (header' rest' : Bytes), other.contents = header' ++ payload ++ rest' →
        (∀ cause, ¬ FinalizeFails (files.put place (.file other.contents)) c path place other
          header'.length payload.length cause) →
        ∃ left, finalize (files.put place (.file other.contents)) c path place other
            header'.length payload.length = (left, .ok target) ∧ left.node? = files'.node? := by
  obtain ⟨files', target, q, hfinalize, hleaves⟩ := finalize_works hat hcontents hfree hworks
  refine ⟨files', target, q, hfinalize, hleaves, ?_⟩
  intro other header' rest' hother hworks'
  have hsame := sameNames_put hat.node_eq other.contents
  have hfree' : ∃ n, n ≤ lastNumber ∧
      (files.put place (.file other.contents)).has (destinationPath c n) = false := by
    obtain ⟨n, hn, hnone⟩ := hfree
    exact ⟨n, hn, by rw [hsame.has_eq, hnone]⟩
  obtain ⟨left, target', q', hfinalize', hleaves'⟩ :=
    finalize_works (hat.put other.contents) hother hfree' hworks'
  have hleaves' := hat.leaves_of_put hleaves'
  obtain rfl := hleaves.firstFree.unique hleaves'.firstFree
  obtain rfl := Except.ok.inj (hleaves.located.symm.trans hleaves'.located)
  refine ⟨left, hfinalize', funext fun p => ?_⟩
  rw [hleaves'.moves, hleaves.moves]

/-- A download to a directory. -/
def numbered : Config :=
  { url := "http://h/a.b", directory := "d", baseName := "a", extension := ".b" }

/-- Three bytes with two stale ones behind them. -/
def bare : OpenFile := { contents := [1, 2, 3, 0, 0] }

/-- The same three bytes behind a header. -/
def headed : OpenFile := { contents := ResumeHeader.encode [⟨0, 2, 0, 0⟩] ++ [1, 2, 3] }

/-- The first name of the download is taken. -/
def numberedFiles (file : OpenFile) : FileSystem :=
  { entries := [(["d", "a.b.3.part"], .file file.contents), (["d"], .directory),
      (["d", "a.b"], .file [7])] }

/-- The second name is free, with a header and without one. -/
theorem finalize_saves_numbered :
    ∃ files' left, left.node? = files'.node? ∧
      finalize (numberedFiles bare) numbered "d/a.b.3.part" ["d", "a.b.3.part"] bare 0 3 =
        (files', .ok "d/a(1).b") ∧
      finalize (numberedFiles headed) numbered "d/a.b.3.part" ["d", "a.b.3.part"] headed 60 3 =
        (left, .ok "d/a(1).b") := by
  have hbare : (finalize (numberedFiles bare) numbered "d/a.b.3.part" ["d", "a.b.3.part"] bare
      0 3).2 = .ok "d/a(1).b" := by decide +kernel
  have hheaded : (finalize (numberedFiles headed) numbered "d/a.b.3.part" ["d", "a.b.3.part"] headed
      60 3).2 = .ok "d/a(1).b" := by decide +kernel
  have hat : FileAt (numberedFiles bare) "d/a.b.3.part" ["d", "a.b.3.part"] bare.contents :=
    ⟨by decide +kernel, by decide +kernel⟩
  have hcontents : bare.contents = [] ++ [1, 2, 3] ++ [0, 0] := rfl
  have hfree : ∃ n, n ≤ lastNumber ∧
      (numberedFiles bare).has (destinationPath numbered n) = false :=
    ⟨1, by decide, by decide +kernel⟩
  have hrest : headed.contents = ResumeHeader.encode [⟨0, 2, 0, 0⟩] ++ [1, 2, 3] ++ [] :=
    (List.append_nil _).symm
  obtain ⟨files', target, _, hfinalize, -, hother⟩ := finalize_saves hat hcontents hfree
    fun cause hfails => by cases hbare.symm.trans hfails.error
  obtain ⟨left, hleft, hsame⟩ := hother headed (ResumeHeader.encode [⟨0, 2, 0, 0⟩]) [] hrest
    fun cause hfails => by cases hheaded.symm.trans hfails.error
  obtain rfl : target = "d/a(1).b" :=
    Except.ok.inj ((congrArg Prod.snd hfinalize).symm.trans hbare)
  exact ⟨files', left, hsame, hfinalize, hleft⟩

end Download

end SegmentedDownload
