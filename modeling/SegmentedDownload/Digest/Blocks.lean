import SegmentedDownload.IoError
import SegmentedDownload.Word

/-!
# SegmentedDownload.Digest.Blocks

Digests that take a message in blocks of sixty-four bytes.

A `BlockDigest` says how a block changes the state. The message is filled up to
whole blocks by one byte 128, zeros and, in the last eight bytes, its length in
bits.

A message that arrives in chunks is absorbed by a `Feed`, which keeps the bytes
behind the last whole block. The chunks of a file come from a reader, whose reads
may also fail.
-/

namespace SegmentedDownload

/-- A digest with states of type `σ`. -/
structure BlockDigest (σ : Type) where
  initial : σ
  /-- The state after a block. -/
  compress : σ → Bytes → σ
  /-- The eight bytes that stand for the length of the message in bits. -/
  lengthBytes : Nat → Bytes
  /-- The digest that a final state stands for. -/
  output : σ → Bytes

namespace BlockDigest

variable {σ : Type} (d : BlockDigest σ)

/-- The state after all whole blocks, and the bytes behind them. -/
def absorb (state : σ) (data : Bytes) : σ × Bytes :=
  let block := data.take 64
  if block.length = 64 then absorb (d.compress state block) (data.drop 64) else (state, data)
termination_by data.length
decreasing_by
  rename_i h
  simp only [block, List.length_take] at h
  simp only [List.length_drop]
  omega

/-- What fills a message of `n` bytes up to whole blocks. -/
def padding (n : Nat) : Bytes :=
  128 :: List.replicate ((119 - n % 64) % 64) 0 ++ d.lengthBytes (8 * n)

def digest (message : Bytes) : Bytes :=
  d.output (d.absorb d.initial (message ++ d.padding message.length)).1

/-- A digest of which the message has arrived in part. -/
structure Feed (σ : Type) where
  state : σ
  /-- The bytes behind the last whole block. -/
  pending : Bytes := []
  length : Nat := 0

/-- Nothing has arrived yet. -/
def start : Feed σ := { state := d.initial }

/-- Another chunk has arrived. -/
def feed (f : Feed σ) (chunk : Bytes) : Feed σ :=
  let (state, pending) := d.absorb f.state (f.pending ++ chunk)
  { state, pending, length := f.length + chunk.length }

/-- The message has arrived in full. -/
def finish (f : Feed σ) : Bytes :=
  d.output (d.absorb f.state (f.pending ++ d.padding f.length)).1

/-- The digest of a message that arrives in chunks. -/
def digestChunks (chunks : List Bytes) : Bytes := d.finish (chunks.foldl d.feed d.start)

/-- The digest of what a reader gives, read by read. A read of nothing is the end of
the message, and one that fails leaves no digest. -/
def digestReads (f : Feed σ) : List (Except IoError Bytes) → Except IoError Bytes
  | [] => .ok (d.finish f)
  | .error cause :: _ => .error cause
  | .ok chunk :: rest =>
    if chunk.isEmpty then .ok (d.finish f) else digestReads (d.feed f chunk) rest

end BlockDigest

namespace Digest

/-- The words of four bytes in a block, least significant byte first. -/
def littleWords : Bytes → List UInt32
  | a :: b :: c :: d :: rest => UInt32.ofNat (Word.ofDigits [a, b, c, d]) :: littleWords rest
  | _ => []

/-- The words of four bytes in a block, most significant byte first. -/
def bigWords : Bytes → List UInt32
  | a :: b :: c :: d :: rest => UInt32.ofNat (Word.ofDigits [d, c, b, a]) :: bigWords rest
  | _ => []

/-- The bytes of a word, least significant first. -/
def littleBytes (w : UInt32) : Bytes := Word.digits 4 w.toNat

/-- The bytes of a word, most significant first. -/
def bigBytes (w : UInt32) : Bytes := (littleBytes w).reverse

def rotateLeft (w : UInt32) (n : UInt32) : UInt32 := (w <<< n) ||| (w >>> (32 - n))

def rotateRight (w : UInt32) (n : UInt32) : UInt32 := (w >>> n) ||| (w <<< (32 - n))

end Digest

end SegmentedDownload
