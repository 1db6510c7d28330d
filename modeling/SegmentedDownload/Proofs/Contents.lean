import Mathlib
import SegmentedDownload.Bytes

/-!
# SegmentedDownload.Proofs.Contents

Contents byte by byte.

* `getElem?_resize`, `getElem?_splice` and `getElem?_slice` say what is at each
  position after the operations of `Bytes`.
* `Patched source old new` relates the contents of a file before and after some
  writes: every old byte is still there, or was replaced by one that `source`
  allows at its position. Writes compose by `Patched.trans`, and a run of bytes
  that no source reaches is read back unchanged (`Patched.slice_eq`).
-/

namespace SegmentedDownload.Bytes

/-! ## The byte at a position -/

/-- A resized file holds its old bytes, and zeros behind them. -/
theorem getElem?_resize (contents : Bytes) (n k : Nat) :
    (resize contents n)[k]? = if k < n then some (contents[k]?.getD 0) else none := by
  unfold resize
  rw [List.getElem?_append, List.length_take]
  by_cases hn : k < n
  · by_cases hk : k < contents.length
    · rw [if_pos (by omega), if_pos hn, List.getElem?_take_of_lt hn, List.getElem?_eq_getElem hk]
      rfl
    · rw [if_neg (by omega), if_pos hn, List.getElem?_eq_none (Nat.le_of_not_lt hk),
        List.getElem?_replicate, if_pos (by omega)]
      rfl
  · rw [if_neg hn]
    split
    · rw [List.getElem?_take_eq_none (by omega)]
    · rw [List.getElem?_replicate, if_neg (by omega)]

/-- Written data is at its place, and the bytes around it are unchanged. -/
theorem getElem?_splice (contents : Bytes) (pos : Nat) (data : Bytes) (k : Nat) :
    (splice contents pos data)[k]? =
      if k < pos then some (contents[k]?.getD 0)
      else if k < pos + data.length then data[k - pos]?
      else contents[k]? := by
  unfold splice
  rw [List.append_assoc, List.getElem?_append, length_resize]
  by_cases hpos : k < pos
  · rw [if_pos hpos, if_pos hpos, getElem?_resize, if_pos hpos]
  · rw [if_neg hpos, if_neg hpos, List.getElem?_append]
    by_cases hend : k < pos + data.length
    · rw [if_pos hend, if_pos (by omega)]
    · rw [if_neg hend, if_neg (by omega), List.getElem?_drop]
      congr 1
      omega

/-- A slice holds the bytes from its position on. -/
theorem getElem?_slice (contents : Bytes) (pos len k : Nat) :
    (slice contents pos len)[k]? = if k < len then contents[pos + k]? else none := by
  unfold slice
  rw [List.getElem?_take, List.getElem?_drop]

/-- A slice of nothing is empty. -/
@[simp] theorem slice_zero (contents : Bytes) (pos : Nat) : slice contents pos 0 = [] := by
  simp [slice]

/-- A slice followed by the one behind it. -/
theorem slice_append_slice (contents : Bytes) (pos m n : Nat) :
    slice contents pos m ++ slice contents (pos + m) n = slice contents pos (m + n) := by
  unfold slice
  rw [List.take_add, List.drop_drop]

/-- A slice of a slice. -/
theorem slice_slice {contents : Bytes} {pos len i n : Nat} (h : i + n ≤ len) :
    slice (slice contents pos len) i n = slice contents (pos + i) n := by
  unfold slice
  rw [List.drop_take, List.drop_drop, List.take_take, Nat.min_eq_left (by omega)]

/-- A slice in front of a cut. -/
theorem slice_take {contents : Bytes} {pos len n : Nat} (h : pos + len ≤ n) :
    slice (contents.take n) pos len = slice contents pos len := by
  unfold slice
  rw [List.drop_take, List.take_take, Nat.min_eq_left (by omega)]

/-- A slice of the front of some appended contents. -/
theorem slice_append_left {front back : Bytes} {pos len : Nat} (h : pos + len ≤ front.length) :
    slice (front ++ back) pos len = slice front pos len := by
  unfold slice
  rw [List.drop_append_of_le_length (by omega), List.take_append_of_le_length]
  rw [List.length_drop]
  omega

/-- A slice of the back of some appended contents. -/
theorem slice_append_right (front back : Bytes) (pos len : Nat) :
    slice (front ++ back) (front.length + pos) len = slice back pos len := by
  unfold slice
  rw [List.drop_append, List.drop_eq_nil_of_le (by omega), List.nil_append,
    Nat.add_sub_cancel_left]

/-- The slice of all contents. -/
theorem slice_all (contents : Bytes) : slice contents 0 contents.length = contents := by
  simp [slice]

/-- One of some parts of equal length that stand one behind the other. -/
theorem slice_flatten {parts : List Bytes} {len i : Nat} {part : Bytes}
    (hlen : ∀ p ∈ parts, p.length = len) (h : parts[i]? = some part) :
    slice parts.flatten (i * len) len = part := by
  induction parts generalizing i with
  | nil => simp at h
  | cons p rest ih =>
    have hp : p.length = len := hlen p List.mem_cons_self
    rw [List.flatten_cons]
    cases i with
    | zero =>
      obtain rfl : p = part := by simpa using h
      rw [Nat.zero_mul, slice_append_left (by omega), ← hp, slice_all]
    | succ i =>
      rw [show (i + 1) * len = p.length + i * len by rw [hp]; ring, slice_append_right]
      exact ih (fun q hq => hlen q (List.mem_cons_of_mem _ hq)) (by simpa using h)

/-- The slices of equal length that follow each other from a position. -/
theorem flatten_slices (contents : Bytes) (pos len n : Nat) :
    ((List.range n).map fun i => slice contents (pos + i * len) len).flatten =
      slice contents pos (n * len) := by
  induction n with
  | zero => simp
  | succ n ih =>
    rw [List.range_succ, List.map_append, List.flatten_append, ih, List.map_singleton,
      List.flatten_singleton, slice_append_slice, Nat.succ_mul]

/-- Writing nothing inside of contents changes nothing. -/
theorem splice_nil {contents : Bytes} {pos : Nat} (h : pos ≤ contents.length) :
    splice contents pos [] = contents := by
  simp [splice, resize, Nat.sub_eq_zero_of_le h]

/-- Writing a front part of what is there already changes nothing. -/
theorem splice_take_slice {contents data : Bytes} {pos : Nat}
    (hlen : pos + data.length ≤ contents.length) (h : slice contents pos data.length = data)
    (n : Nat) : splice contents pos (data.take n) = contents := by
  apply List.ext_getElem?
  intro k
  rw [getElem?_splice]
  by_cases hpos : k < pos
  · rw [if_pos hpos, List.getElem?_eq_getElem (by omega)]
    rfl
  · rw [if_neg hpos]
    by_cases hend : k < pos + (data.take n).length
    · have hk : k - pos < n ∧ k - pos < data.length := by
        rw [List.length_take] at hend
        omega
      rw [if_pos hend, List.getElem?_take_of_lt hk.1, ← h, getElem?_slice, if_pos hk.2,
        Nat.add_sub_cancel' (by omega)]
    · rw [if_neg hend]

/-- Cutting a file at or behind a slice does not change the slice. -/
theorem slice_resize {contents : Bytes} {pos len n : Nat} (hn : pos + len ≤ n)
    (hlen : pos + len ≤ contents.length) :
    slice (resize contents n) pos len = slice contents pos len := by
  apply List.ext_getElem?
  intro k
  rw [getElem?_slice, getElem?_slice, getElem?_resize]
  by_cases hk : k < len
  · rw [if_pos hk, if_pos hk, if_pos (by omega), List.getElem?_eq_getElem (by omega)]
    rfl
  · rw [if_neg hk, if_neg hk]

/-! ## Contents before and after some writes -/

/-- What writes may do to contents: every byte stays, or is replaced by one that
`source` allows at its position, and contents only grow up to such a position. -/
structure Patched (source : Nat → UInt8 → Prop) (old new : Bytes) : Prop where
  length_le : old.length ≤ new.length
  getElem? : ∀ k b, old[k]? = some b → ∃ b', new[k]? = some b' ∧ (b' = b ∨ source k b')
  grown : old.length < new.length → ∃ k b, source k b ∧ new.length ≤ k + 1

namespace Patched

variable {source source' : Nat → UInt8 → Prop} {old mid new : Bytes}

theorem refl (source : Nat → UInt8 → Prop) (contents : Bytes) :
    Patched source contents contents :=
  ⟨Nat.le_refl _, fun _ b h => ⟨b, h, Or.inl rfl⟩, fun h => absurd h (Nat.lt_irrefl _)⟩

theorem trans (h : Patched source old mid) (h' : Patched source mid new) :
    Patched source old new := by
  refine ⟨Nat.le_trans h.length_le h'.length_le, ?_, ?_⟩
  · intro k b hb
    obtain ⟨c, hc, hcb⟩ := h.getElem? k b hb
    obtain ⟨d, hd, hdc⟩ := h'.getElem? k c hc
    refine ⟨d, hd, ?_⟩
    rcases hdc with rfl | hsource
    · exact hcb
    · exact Or.inr hsource
  · intro hlt
    by_cases hgrow : mid.length < new.length
    · exact h'.grown hgrow
    · obtain ⟨k, b, hsource, hle⟩ := h.grown (by omega)
      exact ⟨k, b, hsource, by omega⟩

theorem mono (h : Patched source old new) (hs : ∀ k b, source k b → source' k b) :
    Patched source' old new := by
  refine ⟨h.length_le, ?_, ?_⟩
  · intro k b hb
    obtain ⟨c, hc, hcb⟩ := h.getElem? k b hb
    exact ⟨c, hc, hcb.imp_right (hs k c)⟩
  · intro hlt
    obtain ⟨k, b, hsource, hle⟩ := h.grown hlt
    exact ⟨k, b, hs k b hsource, hle⟩

/-- A byte that no source reaches is unchanged. -/
theorem getElem?_eq (h : Patched source old new) {k : Nat} (hk : k < old.length)
    (hs : ∀ b, ¬ source k b) : new[k]? = old[k]? := by
  obtain ⟨b, hb⟩ : ∃ b, old[k]? = some b := ⟨old[k], List.getElem?_eq_getElem hk⟩
  obtain ⟨c, hc, hcb⟩ := h.getElem? k b hb
  rcases hcb with rfl | hsource
  · rw [hc, hb]
  · exact absurd hsource (hs c)

/-- A run of bytes that no source reaches is read back unchanged. -/
theorem slice_eq (h : Patched source old new) {pos len : Nat} (hlen : pos + len ≤ old.length)
    (hs : ∀ k b, pos ≤ k → k < pos + len → ¬ source k b) :
    slice new pos len = slice old pos len := by
  apply List.ext_getElem?
  intro k
  rw [getElem?_slice, getElem?_slice]
  by_cases hk : k < len
  · rw [if_pos hk, if_pos hk]
    exact h.getElem?_eq (by omega) fun b => hs (pos + k) b (by omega) (by omega)
  · rw [if_neg hk, if_neg hk]

/-- Contents do not grow when every source lies inside of them. -/
theorem length_eq (h : Patched source old new) (hs : ∀ k b, source k b → k < old.length) :
    new.length = old.length := by
  by_contra hne
  have hle := h.length_le
  obtain ⟨k, b, hsource, hnew⟩ := h.grown (by omega)
  have := hs k b hsource
  omega

end Patched

/-- The source of one write: the bytes of `data` at their places. -/
def Written (pos : Nat) (data : Bytes) (k : Nat) (b : UInt8) : Prop :=
  pos ≤ k ∧ data[k - pos]? = some b

/-- A write ends where its data ends. -/
theorem Written.lt {pos : Nat} {data : Bytes} {k : Nat} {b : UInt8} (h : Written pos data k b) :
    k < pos + data.length := by
  obtain ⟨hpos, hb⟩ := h
  have := (List.getElem?_eq_some_iff.mp hb).1
  omega

/-- A write that stores any number of bytes of its data patches the contents. -/
theorem patched_splice_take (contents : Bytes) (pos n : Nat) {data : Bytes} (hdata : data ≠ []) :
    Patched (Written pos data) contents (splice contents pos (data.take n)) := by
  have hpos : 0 < data.length := List.length_pos_iff.mpr hdata
  have hlen : (data.take n).length = min n data.length := List.length_take
  refine ⟨by rw [length_splice]; exact Nat.le_max_left _ _, ?_, ?_⟩
  · intro k b hb
    rw [getElem?_splice]
    by_cases hk : k < pos
    · exact ⟨b, by rw [if_pos hk, hb]; rfl, Or.inl rfl⟩
    · rw [if_neg hk]
      by_cases hend : k < pos + (data.take n).length
      · rw [if_pos hend, List.getElem?_take_of_lt (by omega)]
        have hk' : k - pos < data.length := by omega
        refine ⟨data[k - pos], List.getElem?_eq_getElem hk', Or.inr ⟨by omega, ?_⟩⟩
        exact List.getElem?_eq_getElem hk'
      · exact ⟨b, by rw [if_neg hend, hb], Or.inl rfl⟩
  · intro hlt
    rw [length_splice] at hlt ⊢
    -- the last byte of the data lies at or behind every new end
    refine ⟨pos + (data.length - 1), data[data.length - 1], ⟨by omega, ?_⟩, by omega⟩
    rw [Nat.add_sub_cancel_left]
    exact List.getElem?_eq_getElem _

end SegmentedDownload.Bytes
