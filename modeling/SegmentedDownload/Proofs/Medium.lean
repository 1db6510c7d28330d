import Mathlib
import SegmentedDownload.PartialFile
import SegmentedDownload.Proofs.Contents

/-!
# SegmentedDownload.Proofs.Medium

What operations on a file leave in it, whether they succeed or not.

* A write that fails has stored a front part of its data (`write_contents`), so
  in any case it patches the contents with that data (`patched_write`).
* A write that succeeds has stored all of it (`contents_write`).
* A `Reliable` medium takes every write at a position that a file has.

The last section says the same of `PartialFile.writePayload`.

In front stand `bind_eq_ok` and `bind_eq_error`, which take apart what comes step by
step and may fail at each of them.
-/

namespace SegmentedDownload

/-! ## Steps that may fail -/

section Bind

variable {ε α β : Type} {x : Except ε α} {f : α → Except ε β}

/-- One step behind another succeeds if both do. -/
theorem bind_eq_ok {b : β} : x >>= f = .ok b ↔ ∃ a, x = .ok a ∧ f a = .ok b := by
  cases x <;> simp [bind, Except.bind]

/-- One step behind another fails if either does. -/
theorem bind_eq_error {e : ε} :
    x >>= f = .error e ↔ x = .error e ∨ ∃ a, x = .ok a ∧ f a = .error e := by
  cases x <;> simp [bind, Except.bind]

end Bind

namespace OpenFile

theorem maxPosition_eq : (maxPosition : Int) = Word.maxInt := rfl

/-- A medium that refuses nothing that is asked of it. -/
structure Reliable (f : OpenFile) : Prop where
  writable : f.writable = true
  unlimited : f.writeLimit = none
  accepts : ∀ fault? ∈ f.faults, fault? = none

/-! ## Writing -/

theorem write_nil (f : OpenFile) (pos : Nat) : (f.write pos []).1 = f := by
  unfold write
  split <;> rfl

/-- A write changes nothing, or stores a front part of its data. -/
theorem write_contents (f : OpenFile) (pos : Nat) (data : Bytes) :
    (f.write pos data).1.contents = f.contents ∨
      ∃ n, (f.write pos data).1.contents = f.contents.splice pos (data.take n) := by
  unfold write
  split
  · exact Or.inl rfl
  · split
    · exact Or.inl rfl
    · split
      · exact Or.inl rfl
      · split
        · exact Or.inr ⟨_, rfl⟩
        · exact Or.inr ⟨_, rfl⟩
        · next k _ _ =>
          dsimp only
          split
          · exact Or.inl rfl
          · exact Or.inr ⟨k, rfl⟩

/-- A write inside of a file stores a front part of its data. -/
theorem write_torn {f : OpenFile} {pos : Nat} (h : pos ≤ f.contents.length) (data : Bytes) :
    ∃ n, (f.write pos data).1.contents = f.contents.splice pos (data.take n) := by
  rcases write_contents f pos data with hsame | hpart
  · exact ⟨0, by rw [hsame, List.take_zero, Bytes.splice_nil h]⟩
  · exact hpart

/-- Whatever becomes of a write, it only puts its data to their place. -/
theorem patched_write (f : OpenFile) (pos : Nat) (data : Bytes) :
    Bytes.Patched (Bytes.Written pos data) f.contents (f.write pos data).1.contents := by
  by_cases hdata : data = []
  · subst hdata
    rw [write_nil]
    exact Bytes.Patched.refl _ _
  · rcases write_contents f pos data with h | ⟨n, h⟩
    · rw [h]
      exact Bytes.Patched.refl _ _
    · rw [h]
      exact Bytes.patched_splice_take f.contents pos n hdata

/-- Storing all of the data is what makes `store` succeed. -/
theorem contents_store {f : OpenFile} {pos : Nat} {data : Bytes}
    (h : (f.store pos data).2 = none) :
    (f.store pos data).1.contents = f.contents.splice pos data := by
  unfold store at h ⊢
  dsimp only at h ⊢
  split at h
  · contradiction
  · next hroom => rw [List.take_of_length_le (by omega)]

/-- A write that succeeds has stored all of its data. -/
theorem contents_write {f : OpenFile} {pos : Nat} {data : Bytes} (hdata : data ≠ [])
    (h : (f.write pos data).2 = none) :
    (f.write pos data).1.contents = f.contents.splice pos data := by
  have hne : data.isEmpty = false := by simpa using hdata
  unfold write at h ⊢
  split at h
  · contradiction
  · next hpos =>
    rw [if_neg hpos]
    rw [hne] at h ⊢
    simp only [Bool.false_eq_true, if_false] at h ⊢
    split at h
    · contradiction
    · next hw =>
      rw [if_neg hw]
      split at h
      · exact contents_store h
      · exact contents_store h
      · contradiction

/-- What a write that succeeded has stored is read back. -/
theorem slice_write {f : OpenFile} {pos : Nat} {data : Bytes}
    (h : (f.write pos data).2 = none) :
    (f.write pos data).1.contents.slice pos data.length = data := by
  by_cases hdata : data = []
  · subst hdata
    simp
  · rw [contents_write hdata h, Bytes.slice_splice]

/-- Writing changes neither what can be read nor whether anything can be written. -/
theorem write_readLimit (f : OpenFile) (pos : Nat) (data : Bytes) :
    (f.write pos data).1.readLimit = f.readLimit := by
  unfold write store
  split
  · rfl
  · split
    · rfl
    · split
      · rfl
      · split <;> rfl

/-! ## Lengths -/

/-- The length is set, or the contents are left alone. -/
theorem contents_setLength (f : OpenFile) (n : Nat) :
    (f.setLength n).1.contents =
      if (f.setLength n).2 = none then f.contents.resize n else f.contents := by
  unfold setLength
  split
  · rfl
  · split
    · rfl
    · split <;> rfl

theorem setLength_readLimit (f : OpenFile) (n : Nat) :
    (f.setLength n).1.readLimit = f.readLimit := by
  unfold setLength
  split
  · rfl
  · split
    · rfl
    · split <;> rfl

/-! ## Reliable media -/

namespace Reliable

variable {f : OpenFile}

/-- Taking one accepted write off the script keeps a medium reliable. -/
theorem next_fault (h : f.Reliable) {fault? : Option Nat} {faults : List (Option Nat)}
    (hf : f.faults = fault? :: faults) : fault? = none ∧ { f with faults }.Reliable := by
  have hmem : ∀ x ∈ fault? :: faults, x = none := hf ▸ h.accepts
  refine ⟨hmem _ List.mem_cons_self, h.writable, h.unlimited, fun x hx => ?_⟩
  exact hmem x (List.mem_cons_of_mem _ hx)

/-- A medium without faults stores and has none afterwards. -/
theorem store_eq (h : f.Reliable) (pos : Nat) (data : Bytes) :
    (f.store pos data).2 = none ∧ (f.store pos data).1.Reliable := by
  have hroom : f.room pos data.length = data.length := by rw [room, h.unlimited]
  unfold store
  rw [hroom]
  exact ⟨if_neg (Nat.lt_irrefl _), h.writable, h.unlimited, h.accepts⟩

/-- A reliable medium stores what is written to a position that a file has. -/
theorem write_eq (h : f.Reliable) {pos : Nat} (hpos : pos ≤ maxPosition) (data : Bytes) :
    (f.write pos data).2 = none ∧ (f.write pos data).1.Reliable := by
  unfold write
  rw [if_neg (by omega)]
  split
  · exact ⟨rfl, h⟩
  · rw [if_neg (by simp [h.writable])]
    split
    · exact h.store_eq pos data
    · next faults hf => exact (h.next_fault hf).2.store_eq pos data
    · next k faults hf => exact absurd (h.next_fault hf).1 (by simp)

/-- A reliable medium takes on every length that a file has. -/
theorem setLength_eq (h : f.Reliable) {n : Nat} (hn : n ≤ maxPosition) :
    (f.setLength n).2 = none ∧ (f.setLength n).1.contents = f.contents.resize n ∧
      (f.setLength n).1.Reliable := by
  unfold setLength
  rw [if_neg (by omega), if_neg (by simp [h.writable])]
  split
  · exact ⟨rfl, rfl, h.writable, h.unlimited, h.accepts⟩
  · next faults hf =>
    have h' := (h.next_fault hf).2
    exact ⟨rfl, rfl, h'.writable, h'.unlimited, h'.accepts⟩
  · next k faults hf => exact absurd (h.next_fault hf).1 (by simp)

end Reliable

end OpenFile

/-! ## The payload -/

namespace PartialFile

variable {p : PartialFile} {position : Nat} {data : Bytes}

@[simp] theorem writePayload_offset (p : PartialFile) (position : Nat) (data : Bytes) :
    (p.writePayload position data).1.payloadOffset = p.payloadOffset := by
  unfold writePayload
  split <;> rfl

/-- A write of a payload patches the file behind the header. -/
theorem patched_writePayload (p : PartialFile) (position : Nat) (data : Bytes) :
    Bytes.Patched (Bytes.Written (p.payloadOffset + position) data) p.file.contents
      (p.writePayload position data).1.file.contents := by
  unfold writePayload
  split
  · exact Bytes.Patched.refl _ _
  · exact OpenFile.patched_write _ _ _

/-- A payload that was written is read back. -/
theorem payload_writePayload (h : (p.writePayload position data).2 = none) :
    (p.writePayload position data).1.payload position data.length = data := by
  unfold writePayload at h ⊢
  split at h
  · contradiction
  · next hpos =>
    rw [if_neg hpos]
    exact OpenFile.slice_write h

theorem writePayload_readLimit (p : PartialFile) (position : Nat) (data : Bytes) :
    (p.writePayload position data).1.file.readLimit = p.file.readLimit := by
  unfold writePayload
  split
  · rfl
  · exact OpenFile.write_readLimit _ _ _

/-- A reliable medium stores a piece of payload that lies in the range of positions. -/
theorem writePayload_reliable (h : p.file.Reliable)
    (hpos : p.payloadOffset + position ≤ OpenFile.maxPosition) (data : Bytes) :
    (p.writePayload position data).2 = none ∧
      (p.writePayload position data).1.file.Reliable := by
  have hlt : ¬ 18446744073709551616 ≤ p.payloadOffset + position := by
    unfold OpenFile.maxPosition at hpos
    omega
  unfold writePayload
  rw [if_neg hlt]
  exact h.write_eq hpos data

end PartialFile

end SegmentedDownload
