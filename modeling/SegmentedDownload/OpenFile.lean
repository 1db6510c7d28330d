import SegmentedDownload.Word
import SegmentedDownload.IoError

/-!
# SegmentedDownload.OpenFile

An open file on a medium that may fail.

The contents are a byte list; the other fields say how the medium behaves:

* without `writable`, nothing can be written;
* nothing can be stored at or past `writeLimit`, and nothing read from
  `readLimit` on;
* `faults` scripts the coming writes one by one: `none` is a write that the
  medium accepts, `some k` one that it gives up after `k` bytes.

A failed write has still stored the bytes before the failure. That is why
every operation returns the file beside its error.
-/

namespace SegmentedDownload

/-- An open file and the behaviour of its medium. -/
structure OpenFile where
  contents : Bytes := []
  writable : Bool := true
  writeLimit : Option Nat := none
  readLimit : Option Nat := none
  faults : List (Option Nat) := []
deriving Repr, DecidableEq, Inhabited

namespace OpenFile

/-- The largest position in a file. -/
def maxPosition : Nat := 9223372036854775807

def size (f : OpenFile) : Nat := f.contents.length

/-- How many of `n` bytes the medium can store at `pos`. -/
def room (f : OpenFile) (pos n : Nat) : Nat :=
  match f.writeLimit with
  | none => n
  | some limit => min n (limit - pos)

/-- Store as much of `data` at `pos` as there is room for. -/
def store (f : OpenFile) (pos : Nat) (data : Bytes) : OpenFile × Option IoError :=
  let kept := f.room pos data.length
  ({ f with contents := f.contents.splice pos (data.take kept) },
    if kept < data.length then some .shortWrite else none)

/-- Write `data` at `pos`. Writing nothing always succeeds. -/
def write (f : OpenFile) (pos : Nat) (data : Bytes) : OpenFile × Option IoError :=
  if maxPosition < pos then (f, some .invalidArgument)
  else if data.isEmpty then (f, none)
  else if !f.writable then (f, some .badDescriptor)
  else match f.faults with
    | [] => f.store pos data
    | none :: faults => { f with faults }.store pos data
    | some k :: faults =>
      let kept := data.take k
      let contents := if kept.isEmpty then f.contents else f.contents.splice pos kept
      ({ f with contents, faults }, some .noSpace)

/-- Cut or zero-fill the file to `n` bytes. -/
def setLength (f : OpenFile) (n : Nat) : OpenFile × Option IoError :=
  if maxPosition < n then (f, some .lengthTooLarge)
  else if !f.writable then (f, some .invalidArgument)
  else match f.faults with
    | [] => ({ f with contents := f.contents.resize n }, none)
    | none :: faults => ({ f with contents := f.contents.resize n, faults }, none)
    | some _ :: faults => ({ f with faults }, some .noSpace)

/-- Whether the medium refuses to be read at `pos`. -/
def refuses (f : OpenFile) (pos : Nat) : Bool :=
  match f.readLimit with
  | none => false
  | some limit => decide (limit ≤ pos)

/-- The `len` bytes at `pos`, fewer when the file ends before. A short read is
followed by one that looks for more at the end of the file. -/
def read (f : OpenFile) (pos len : Nat) : Except IoError Bytes :=
  let found := f.contents.slice pos len
  if f.refuses pos then .error .unreadable
  else if found.length < len ∧ f.refuses (pos + found.length) = true then .error .unreadable
  else .ok found

end OpenFile

end SegmentedDownload
