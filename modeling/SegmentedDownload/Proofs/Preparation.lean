import Mathlib
import SegmentedDownload.Proofs.Setup

/-!
# SegmentedDownload.Proofs.Preparation

The file between the replies and the bodies.

* Preparing changes nothing but the file (`prepare_file`), and keeps a plan
  (`Planned.prepare`).
* The file of a resumed table is left alone (`prepare_resumed`).
* A fresh file gets its header first, and then its final length.  Either can fail
  (`prepare_fresh`, `unprepared_fresh`).
* In both cases the bodies go behind the header of the plan (`ready_of_resumed`,
  `ready_of_fresh`).
-/

namespace SegmentedDownload.Transfer

variable {size : Int} {t t' : Transfer}

/-- Preparing touches only the file. -/
theorem prepare_file {fault? : Option IoError} (h : t.prepare = (t', fault?)) :
    t' = { t with file := t'.file } := by
  have hheader : ∀ u fault?, t.writeHeader = (u, fault?) → u = { t with file := u.file } := by
    intro u fault? hu
    unfold writeHeader at hu
    split at hu
    all_goals
      obtain ⟨rfl, rfl⟩ := hu
      rfl
  unfold prepare at h
  split at h
  · next u cause hu =>
    obtain ⟨rfl, rfl⟩ := h
    exact hheader _ _ hu
  · next u hu =>
    rw [hheader u none hu] at h
    unfold reserve at h
    split at h
    all_goals
      obtain ⟨rfl, rfl⟩ := h
      rfl

/-- To prepare the file touches nothing but the file. -/
theorem prepare_eq {fault? : Option IoError} (h : t.prepare = (t', fault?)) :
    t'.table = t.table ∧ t'.workers = t.workers ∧ t'.fatal? = t.fatal? ∧
      t'.stopped = t.stopped := by
  rw [prepare_file h]
  exact ⟨rfl, rfl, rfl, rfl⟩

theorem Planned.prepare (h : Planned size t) {fault? : Option IoError}
    (hprepare : t.prepare = (t', fault?)) : Planned size t' := by
  obtain ⟨htable, hworkers, hfatal, hstopped⟩ := prepare_eq hprepare
  exact h.congr htable hworkers hfatal hstopped

theorem prepare_readLimit {fault? : Option IoError} (h : t.prepare = (t', fault?)) :
    t'.file.file.readLimit = t.file.file.readLimit := by
  have hheader : t.writeHeader.1.file.file.readLimit = t.file.file.readLimit := by
    unfold writeHeader
    split
    · exact OpenFile.write_readLimit _ _ _
    · rfl
  unfold Transfer.prepare at h
  split at h
  · next u cause hu =>
    rw [hu] at hheader
    obtain ⟨rfl, -⟩ := Prod.ext_iff.mp h
    exact hheader
  · next u hu =>
    rw [hu] at hheader
    unfold reserve at h
    split at h
    · obtain ⟨rfl, -⟩ := Prod.ext_iff.mp h
      exact (OpenFile.setLength_readLimit _ _).trans hheader
    · obtain ⟨rfl, -⟩ := Prod.ext_iff.mp h
      exact hheader

/-- The payload of a file that is prepared begins behind its header. -/
theorem prepare_offset (h : t.prepare = (t', none)) :
    t'.file.payloadOffset = t'.table.headerSize := by
  rw [(prepare_eq h).1]
  have hheader : t.writeHeader.1.table = t.table := by
    unfold writeHeader
    split <;> rfl
  unfold Transfer.prepare at h
  split at h
  · obtain ⟨-, hcause⟩ := Prod.ext_iff.mp h
    contradiction
  · next u hu =>
    rw [hu] at hheader
    unfold reserve at h
    split at h
    all_goals
      obtain ⟨rfl, -⟩ := Prod.ext_iff.mp h
      exact congrArg Table.headerSize hheader

/-- Preparing fails with the file. -/
theorem prepare_fault {cause : IoError} (h : t.prepare = (t', some cause)) : cause.OfMedium := by
  unfold Transfer.prepare at h
  split at h
  · next u fault hu =>
    obtain ⟨-, hcause⟩ := Prod.ext_iff.mp h
    obtain rfl := Option.some.inj hcause
    unfold writeHeader at hu
    split at hu
    · exact OpenFile.write_fault (Prod.ext_iff.mp hu).2
    · cases hu
  · next u hu =>
    unfold reserve at h
    split at h
    · exact OpenFile.setLength_fault (Prod.ext_iff.mp h).2
    · cases h

/-- The file of a resumed table is left alone. -/
theorem prepare_resumed (h : t.table.isFresh = false) : t.prepare = (t.setPayloadOffset, none) := by
  have hreserve : t.setPayloadOffset.reserve = (t.setPayloadOffset, none) := by
    unfold reserve
    split
    · next hfresh _ =>
      rw [show t.setPayloadOffset.table.isFresh = false from h] at hfresh
      contradiction
    · rfl
  simp only [Transfer.prepare, writeHeader, h, Bool.false_and, Bool.false_eq_true, if_false,
    hreserve]

/-- What preparing a fresh file does, step by step. -/
theorem prepare_of_fresh (hfresh : t.table.isFresh = true) (hpersists : t.table.persists = true)
    (hsize : t.table.size? = some size) :
    t.prepare = match ResumeHeader.write t.file.file t.table.segments with
      | (file, some cause) => ({ t with file := { t.file with file } }, some cause)
      | (file, none) =>
        ({ t with
            file :=
              { file := (file.setLength (ResumeHeader.size t.table.segments + size.toNat)).1
                payloadOffset := ResumeHeader.size t.table.segments } },
          (file.setLength (ResumeHeader.size t.table.segments + size.toNat)).2) := by
  have hheader : t.writeHeader =
      ({ t with file := { t.file with
          file := (ResumeHeader.write t.file.file t.table.segments).1 } },
        (ResumeHeader.write t.file.file t.table.segments).2) := by
    unfold writeHeader
    rw [hfresh, hpersists]
    rfl
  have hoffset : t.table.headerSize = ResumeHeader.size t.table.segments := if_pos hpersists
  unfold prepare
  rw [hheader]
  cases hwrite : ResumeHeader.write t.file.file t.table.segments with
  | mk file fault? =>
    cases fault? with
    | some cause => rfl
    | none =>
      simp only [reserve, setPayloadOffset, hfresh, hsize, hoffset]

/-- A fresh file that is prepared has its header, and its final length. -/
theorem prepare_fresh (hfresh : t.table.isFresh = true) (hpersists : t.table.persists = true)
    (hsize : t.table.size? = some size) (h : t.prepare = (t', none)) :
    t'.file.file.contents =
      (t.file.file.contents.splice 0 (ResumeHeader.encode t.table.segments)).resize
        (ResumeHeader.size t.table.segments + size.toNat) := by
  rw [prepare_of_fresh hfresh hpersists hsize] at h
  cases hwrite : ResumeHeader.write t.file.file t.table.segments with
  | mk file fault? =>
    rw [hwrite] at h
    cases fault? with
    | some cause => cases h
    | none =>
      have hstored := ResumeHeader.contents_write (congrArg Prod.snd hwrite)
      simp only [hwrite] at hstored
      simp only [Prod.mk.injEq] at h
      obtain ⟨rfl, hnone⟩ := h
      dsimp only
      rw [OpenFile.contents_setLength, if_pos hnone, hstored]

/-- A run that adopted a header streams into the file as it was. -/
theorem ready_of_resumed {segments : List Segment} {p : PartialFile} {reporter : Reporter}
    {replies : List Reply}
    (haccept : (begin (Table.resumed segments size) p reporter).accept replies = .ok t)
    (hprepare : t.prepare = (t', none)) :
    t'.table.segments = segments.map Segment.begin ∧
      t'.file.payloadOffset = ResumeHeader.size segments ∧ t'.file.file = p.file := by
  obtain ⟨hfile, htable | ⟨hfresh, -⟩⟩ := accept_table haccept
  · have hoffset := prepare_offset hprepare
    rw [prepare_resumed (by rw [htable]; rfl)] at hprepare
    obtain rfl : t.setPayloadOffset = t' := congrArg Prod.fst hprepare
    have hsame : t.setPayloadOffset.table = (Table.resumed segments size).begin := htable
    have hkept : t.file.file = p.file := congrArg PartialFile.file hfile
    rw [hoffset, hsame]
    refine ⟨rfl, ?_, hkept⟩
    simp [Table.headerSize, ResumeHeader.size, Table.begin, Table.resumed]
  · contradiction

/-- A run with a fresh plan streams behind the header of its plan. -/
theorem ready_of_fresh (hfresh : t.table.isFresh = true) (hpersists : t.table.persists = true)
    (hsize : t.table.size? = some size) (h : t.prepare = (t', none)) :
    t'.file.payloadOffset = ResumeHeader.size t'.table.segments ∧
      t'.file.file.contents.slice 0 (ResumeHeader.size t'.table.segments) =
        ResumeHeader.encode t'.table.segments := by
  have htable := (prepare_eq h).1
  constructor
  · rw [prepare_offset h, htable, Table.headerSize, hpersists]
    rfl
  · rw [htable, prepare_fresh hfresh hpersists hsize h, Bytes.slice_resize (by omega)]
    · have hfront := Bytes.slice_splice t.file.file.contents 0
        (ResumeHeader.encode t.table.segments)
      rwa [ResumeHeader.length_encode] at hfront
    · rw [Bytes.length_splice, ResumeHeader.length_encode]
      omega

/-- A fresh file that could not be prepared has its header, unless that is what failed. -/
theorem unprepared_fresh (hfresh : t.table.isFresh = true) (hpersists : t.table.persists = true)
    (hsize : t.table.size? = some size) {cause : IoError} (h : t.prepare = (t', some cause)) :
    ((ResumeHeader.write t.file.file t.table.segments).2 = some cause ∧
        t'.file.file = (ResumeHeader.write t.file.file t.table.segments).1) ∨
      t'.file.file.contents =
        t.file.file.contents.splice 0 (ResumeHeader.encode t.table.segments) := by
  rw [prepare_of_fresh hfresh hpersists hsize] at h
  cases hwrite : ResumeHeader.write t.file.file t.table.segments with
  | mk file fault? =>
    rw [hwrite] at h
    cases fault? with
    | some fault =>
      obtain ⟨rfl, hfault⟩ := Prod.ext_iff.mp h
      exact Or.inl ⟨hfault, rfl⟩
    | none =>
      have hstored := ResumeHeader.contents_write (congrArg Prod.snd hwrite)
      simp only [hwrite] at hstored
      simp only [Prod.mk.injEq] at h
      obtain ⟨rfl, hfault⟩ := h
      right
      dsimp only
      rw [OpenFile.contents_setLength, hfault, if_neg (Option.some_ne_none cause), hstored]

/-- Preparing a reliable file succeeds if the whole download has a place in it. -/
theorem prepare_reliable (hfile : t.file.file.Reliable)
    (hroom : t.table.headerSize + (t.table.size?.getD 0).toNat ≤ OpenFile.maxPosition) :
    ∃ t', t.prepare = (t', none) ∧ t'.file.file.Reliable := by
  have hheader : ∃ t₁, t.writeHeader = (t₁, none) ∧ t₁.file.file.Reliable ∧
      t₁.table = t.table := by
    unfold writeHeader
    split
    · obtain ⟨hnone, hreliable⟩ :=
        hfile.write_eq (Nat.zero_le _) (ResumeHeader.encode t.table.segments)
      exact ⟨_, Prod.ext rfl hnone, hreliable, rfl⟩
    · exact ⟨t, rfl, hfile, rfl⟩
  obtain ⟨t₁, hwrite, hfile₁, htable⟩ := hheader
  rw [prepare, hwrite]
  change ∃ t', t₁.setPayloadOffset.reserve = (t', none) ∧ t'.file.file.Reliable
  unfold reserve
  split
  · next size _ hsize =>
    change t₁.table.size? = some size at hsize
    rw [← htable, hsize] at hroom
    obtain ⟨hnone, -, hreliable⟩ :=
      OpenFile.Reliable.setLength_eq (f := t₁.setPayloadOffset.file.file) hfile₁ hroom
    exact ⟨_, Prod.ext rfl hnone, hreliable⟩
  · exact ⟨_, rfl, hfile₁⟩

end SegmentedDownload.Transfer
