import SegmentedDownload.Bytes

/-!
# SegmentedDownload.Url.Percent

Percent-encoding: a byte is written as `%` and two hexadecimal digits.

* `decode` takes every such group for its byte, and leaves a `%` that is not
  followed by two digits as it is.
* `encodeChar` is the form of a character in a path. Controls, characters
  outside of ASCII and those with a meaning of their own are encoded, byte by
  byte of their UTF-8 form.
-/

namespace SegmentedDownload.Percent

def hexValue? (b : UInt8) : Option Nat :=
  let n := b.toNat
  if 48 ≤ n ∧ n ≤ 57 then some (n - 48)
  else if 65 ≤ n ∧ n ≤ 70 then some (n - 55)
  else if 97 ≤ n ∧ n ≤ 102 then some (n - 87)
  else none

def decode : Bytes → Bytes
  | 37 :: a :: b :: rest =>
    match hexValue? a, hexValue? b with
    | some x, some y => UInt8.ofNat (16 * x + y) :: decode rest
    | _, _ => 37 :: decode (a :: b :: rest)
  | c :: rest => c :: decode rest
  | [] => []

/-- The text that a percent-encoded text stands for, if its bytes are UTF-8. -/
def decodeText? (s : List Char) : Option String :=
  Bytes.toText? (decode (Bytes.ofText (String.ofList s)))

/-- Whether a character stands for itself in a path. -/
def isPlain (c : Char) : Bool :=
  decide (0x21 ≤ c.toNat ∧ c.toNat ≤ 0x7e) &&
    !(['"', '#', '<', '>', '?', '`', '{', '}'].contains c)

def hexDigit (n : Nat) : Char := if n < 10 then Char.ofNat (48 + n) else Char.ofNat (55 + n)

def encodeByte (b : UInt8) : List Char := ['%', hexDigit (b.toNat / 16), hexDigit (b.toNat % 16)]

/-- The form of a character in a path. -/
def encodeChar (c : Char) : List Char :=
  if isPlain c then [c] else (String.utf8EncodeChar c).flatMap encodeByte

def encode (s : List Char) : List Char := s.flatMap encodeChar

end SegmentedDownload.Percent
