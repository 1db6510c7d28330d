import SegmentedDownload.Digest.Blocks

/-!
# SegmentedDownload.Digest.Sha256

The digest SHA-256: eight words of state, and sixty-four steps per block, each
with a word of the schedule that the block is stretched to.
-/

namespace SegmentedDownload.Sha256

structure State where
  a : UInt32
  b : UInt32
  c : UInt32
  d : UInt32
  e : UInt32
  f : UInt32
  g : UInt32
  h : UInt32
deriving DecidableEq

/-- The constant of each step: the fraction of the cube root of a prime. -/
def constants : List UInt32 :=
  [0x428a2f98, 0x71374491, 0xb5c0fbcf, 0xe9b5dba5, 0x3956c25b, 0x59f111f1, 0x923f82a4, 0xab1c5ed5,
   0xd807aa98, 0x12835b01, 0x243185be, 0x550c7dc3, 0x72be5d74, 0x80deb1fe, 0x9bdc06a7, 0xc19bf174,
   0xe49b69c1, 0xefbe4786, 0x0fc19dc6, 0x240ca1cc, 0x2de92c6f, 0x4a7484aa, 0x5cb0a9dc, 0x76f988da,
   0x983e5152, 0xa831c66d, 0xb00327c8, 0xbf597fc7, 0xc6e00bf3, 0xd5a79147, 0x06ca6351, 0x14292967,
   0x27b70a85, 0x2e1b2138, 0x4d2c6dfc, 0x53380d13, 0x650a7354, 0x766a0abb, 0x81c2c92e, 0x92722c85,
   0xa2bfe8a1, 0xa81a664b, 0xc24b8b70, 0xc76c51a3, 0xd192e819, 0xd6990624, 0xf40e3585, 0x106aa070,
   0x19a4c116, 0x1e376c08, 0x2748774c, 0x34b0bcb5, 0x391c0cb3, 0x4ed8aa4a, 0x5b9cca4f, 0x682e6ff3,
   0x748f82ee, 0x78a5636f, 0x84c87814, 0x8cc70208, 0x90befffa, 0xa4506ceb, 0xbef9a3f7, 0xc67178f2]

/-- A word mixed with two turned copies of it, and a third one that is shifted. -/
def spread (w : UInt32) (first second shift : UInt32) : UInt32 :=
  Digest.rotateRight w first ^^^ Digest.rotateRight w second ^^^ (w >>> shift)

/-- A word as the sum of three turned copies of it. -/
def fold (w : UInt32) (first second third : UInt32) : UInt32 :=
  Digest.rotateRight w first ^^^ Digest.rotateRight w second ^^^ Digest.rotateRight w third

/-- Stretch a schedule by `n` words. Its last word comes first. -/
def stretch : Nat → List UInt32 → List UInt32
  | 0, words => words
  | n + 1, words =>
    let word := spread (words.getD 1 0) 17 19 10 + words.getD 6 0 +
      spread (words.getD 14 0) 7 18 3 + words.getD 15 0
    stretch n (word :: words)

def schedule (block : Bytes) : List UInt32 :=
  (stretch 48 (Digest.bigWords block).reverse).reverse

def step (s : State) (constant word : UInt32) : State :=
  let choice := (s.e &&& s.f) ^^^ (~~~s.e &&& s.g)
  let majority := (s.a &&& s.b) ^^^ (s.a &&& s.c) ^^^ (s.b &&& s.c)
  let sum := s.h + fold s.e 6 11 25 + choice + constant + word
  { a := sum + fold s.a 2 13 22 + majority
    b := s.a, c := s.b, d := s.c, e := s.d + sum, f := s.e, g := s.f, h := s.g }

def compress (s : State) (block : Bytes) : State :=
  let t := (constants.zip (schedule block)).foldl
    (fun t (constant, word) => step t constant word) s
  { a := s.a + t.a, b := s.b + t.b, c := s.c + t.c, d := s.d + t.d
    e := s.e + t.e, f := s.f + t.f, g := s.g + t.g, h := s.h + t.h }

def blocks : BlockDigest State where
  initial :=
    { a := 0x6a09e667, b := 0xbb67ae85, c := 0x3c6ef372, d := 0xa54ff53a
      e := 0x510e527f, f := 0x9b05688c, g := 0x1f83d9ab, h := 0x5be0cd19 }
  compress := compress
  lengthBytes n := (Word.digits 8 n).reverse
  output s := [s.a, s.b, s.c, s.d, s.e, s.f, s.g, s.h].flatMap Digest.bigBytes

end SegmentedDownload.Sha256
