import SegmentedDownload.Bytes

/-!
# SegmentedDownload.Word

Sixty-four bit words in little-endian byte order, unsigned for counts and
two's complement for offsets.

`decodeNat_encodeNat` and `decodeInt_encodeInt` say that a number in range is
read back from its own eight bytes.
-/

namespace SegmentedDownload.Word

def size : Nat := 8

def maxInt : Int := 9223372036854775807

def minInt : Int := -9223372036854775808

/-- The numbers that a signed word holds. -/
def Fits (n : Int) : Prop := minInt ≤ n ∧ n ≤ maxInt

instance (n : Int) : Decidable (Fits n) := inferInstanceAs (Decidable (_ ∧ _))

/-! ## Little-endian digits -/

/-- The `width` low base-256 digits of a number, least significant first. -/
def digits : Nat → Nat → Bytes
  | 0, _ => []
  | width + 1, n => UInt8.ofNat n :: digits width (n / 256)

/-- The number whose base-256 digits are given, least significant first. -/
def ofDigits : Bytes → Nat
  | [] => 0
  | b :: bs => b.toNat + 256 * ofDigits bs

@[simp] theorem length_digits (width n : Nat) : (digits width n).length = width := by
  induction width generalizing n with
  | zero => rfl
  | succ width ih => simp [digits, ih]

/-- Number of values that some digits take. -/
def digitBound : Nat → Nat
  | 0 => 1
  | width + 1 => 256 * digitBound width

theorem digitBound_size : digitBound size = 18446744073709551616 := rfl

/-- Digits hold a number up to multiples of their bound. -/
theorem ofDigits_digits (width n : Nat) :
    ofDigits (digits width n) = n % digitBound width := by
  induction width generalizing n with
  | zero => rw [digits, ofDigits, digitBound, Nat.mod_one]
  | succ width ih =>
    have hb : (UInt8.ofNat n).toNat = n % 256 := by simp
    rw [digits, ofDigits, ih, hb, digitBound, Nat.mod_mul]

theorem ofDigits_lt (bs : Bytes) : ofDigits bs < digitBound bs.length := by
  induction bs with
  | nil => exact Nat.one_pos
  | cons b bs ih =>
    have hb : b.toNat < 256 := b.toNat_lt
    rw [ofDigits, List.length_cons, digitBound]
    omega

/-- Every row of bytes is the digits of the number that it holds. -/
theorem digits_ofDigits (bs : Bytes) : digits bs.length (ofDigits bs) = bs := by
  induction bs with
  | nil => rfl
  | cons b bs ih =>
    have hb : b.toNat < 256 := b.toNat_lt
    rw [List.length_cons, ofDigits, digits]
    congr 1
    · apply UInt8.toNat_inj.mp
      simp
    · rw [show (b.toNat + 256 * ofDigits bs) / 256 = ofDigits bs by omega, ih]

/-! ## Words -/

/-- The bytes of an unsigned word; a larger number keeps its low digits. -/
def encodeNat (n : Nat) : Bytes := digits size n

def decodeNat (bs : Bytes) : Nat := ofDigits bs

/-- The unsigned word with the same bytes as a signed one. -/
def toUnsigned (n : Int) : Nat := (n % 18446744073709551616).toNat

/-- The signed word with the same bytes as an unsigned one. -/
def toSigned (n : Nat) : Int :=
  if n < 9223372036854775808 then n else (n : Int) - 18446744073709551616

/-- The bytes of a signed word in two's complement. -/
def encodeInt (n : Int) : Bytes := digits size (toUnsigned n)

def decodeInt (bs : Bytes) : Int := toSigned (ofDigits bs)

@[simp] theorem length_encodeNat (n : Nat) : (encodeNat n).length = size := by
  simp [encodeNat]

@[simp] theorem length_encodeInt (n : Int) : (encodeInt n).length = size := by
  simp [encodeInt]

/-- A number below 2⁶⁴ is read back from its word. -/
theorem decodeNat_encodeNat {n : Nat} (h : n < 18446744073709551616) :
    decodeNat (encodeNat n) = n := by
  rw [decodeNat, encodeNat, ofDigits_digits, digitBound_size, Nat.mod_eq_of_lt h]

theorem toUnsigned_lt (n : Int) : toUnsigned n < 18446744073709551616 := by
  simp only [toUnsigned]
  omega

/-- A number that fits survives being stored without a sign. -/
theorem toSigned_toUnsigned {n : Int} (h : Fits n) : toSigned (toUnsigned n) = n := by
  obtain ⟨h1, h2⟩ := h
  simp only [minInt, maxInt] at h1 h2
  unfold toSigned toUnsigned
  by_cases h : (n % 18446744073709551616).toNat < 9223372036854775808
  · rw [if_pos h]
    omega
  · rw [if_neg h]
    omega

theorem toUnsigned_toSigned {n : Nat} (h : n < 18446744073709551616) :
    toUnsigned (toSigned n) = n := by
  unfold toSigned toUnsigned
  by_cases h' : n < 9223372036854775808
  · rw [if_pos h']
    omega
  · rw [if_neg h']
    omega

theorem toUnsigned_of_nonneg {n : Int} (h : 0 ≤ n) (hmax : n ≤ maxInt) :
    toUnsigned n = n.toNat := by
  simp only [maxInt] at hmax
  simp only [toUnsigned]
  omega

/-- A signed number that fits is read back from its word. -/
theorem decodeInt_encodeInt {n : Int} (h : Fits n) : decodeInt (encodeInt n) = n := by
  rw [decodeInt, encodeInt, ofDigits_digits, digitBound_size,
    Nat.mod_eq_of_lt (toUnsigned_lt n), toSigned_toUnsigned h]

/-- Every word is that of the number which is read from it. -/
theorem encodeInt_decodeInt {bs : Bytes} (h : bs.length = size) :
    encodeInt (decodeInt bs) = bs := by
  have hlt := ofDigits_lt bs
  rw [h, digitBound_size] at hlt
  rw [encodeInt, decodeInt, toUnsigned_toSigned hlt, ← h, digits_ofDigits]

theorem encodeNat_decodeNat {bs : Bytes} (h : bs.length = size) :
    encodeNat (decodeNat bs) = bs := by
  rw [encodeNat, decodeNat, ← h, digits_ofDigits]

end SegmentedDownload.Word
