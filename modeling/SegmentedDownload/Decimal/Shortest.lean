/-!
# SegmentedDownload.Decimal.Shortest

The shortest decimal text of a binary64 number.

A finite number is `m · 2^q`. The decimals that round to it form an interval
around it, whose ends belong to it exactly when `m` is even. Among the decimals
of one digit, then of two, and so on up to seventeen, the first that lies in the
interval is taken, and of two of the same length the nearer.

All comparisons are made on natural numbers, so no step rounds.
-/

namespace SegmentedDownload.Decimal

/-- A decimal number `digits · 10^exponent`. -/
structure Scientific where
  digits : Nat
  exponent : Int
deriving Repr, DecidableEq, Inhabited

/-- The significand and the binary exponent of the magnitude of a finite number. -/
def binaryParts (bits : UInt64) : Nat × Int :=
  let fraction := bits.toNat % 4503599627370496
  let exponent := bits.toNat / 4503599627370496 % 2048
  if exponent = 0 then (fraction, -1074)
  else (fraction + 4503599627370496, (exponent : Int) - 1075)

/-- Whether `a · 10^p < b · 2^q`. -/
def decimalBelow (a : Nat) (p : Int) (b : Nat) (q : Int) : Bool :=
  a * Nat.pow 10 p.toNat * Nat.pow 2 (-q).toNat <
    b * Nat.pow 2 q.toNat * Nat.pow 10 (-p).toNat

/-- Whether `b · 2^q < a · 10^p`. -/
def decimalAbove (a : Nat) (p : Int) (b : Nat) (q : Int) : Bool :=
  b * Nat.pow 2 q.toNat * Nat.pow 10 (-p).toNat <
    a * Nat.pow 10 p.toNat * Nat.pow 2 (-q).toNat

/-- The decimals that round to `m · 2^q`, as the quarters of `2^q` between which
they lie. The number below is half as far away when `m` is the smallest
significand of its binade. -/
def quarters (m : Nat) (q : Int) : Nat × Nat :=
  if m = 4503599627370496 ∧ -1074 < q then (4 * m - 1, 4 * m + 2) else (4 * m - 2, 4 * m + 2)

/-- Whether `d · 10^p` rounds to `m · 2^q`. -/
def rounds (m : Nat) (q : Int) (d : Nat) (p : Int) : Bool :=
  let (lo, hi) := quarters m q
  if m % 2 = 0 then !decimalBelow d p lo (q - 2) && !decimalAbove d p hi (q - 2)
  else decimalAbove d p lo (q - 2) && decimalBelow d p hi (q - 2)

/-- The number of digits in front of the point of `num / den`; zero or less when
the first digit comes behind it. -/
def magnitude (num den : Nat) : Int :=
  let whole := num / den
  if 0 < whole then ((Nat.toDigits 10 whole).length : Int)
  else
    -- the least power of ten that lifts the quotient to one
    match (List.range 400).find? fun j => den ≤ num * Nat.pow 10 j with
    | some j => 1 - (j : Int)
    | none => 0

/-- The decimal with `n` digits that is nearest to `m · 2^q`, if it rounds to it. -/
def withDigits? (m : Nat) (q : Int) (size : Int) (n : Nat) : Option Scientific :=
  let p := size - n
  let num := m * Nat.pow 2 q.toNat * Nat.pow 10 (-p).toNat
  let den := Nat.pow 2 (-q).toNat * Nat.pow 10 p.toNat
  let below := num / den
  -- twice the distance to the point below, against the width of the grid
  let nearer := if 2 * (num % den) ≤ den then [below, below + 1] else [below + 1, below]
  (nearer.find? fun d => rounds m q d p).map (⟨·, p⟩)

/-- The decimal without trailing zeros. -/
def strip : Nat → Scientific → Scientific
  | 0, d => d
  | fuel + 1, d =>
    if d.digits ≠ 0 ∧ d.digits % 10 = 0 then strip fuel ⟨d.digits / 10, d.exponent + 1⟩ else d

/-- The shortest decimal that rounds to the magnitude of a finite number. -/
def shortest (bits : UInt64) : Scientific :=
  let (m, q) := binaryParts bits
  if m = 0 then ⟨0, 0⟩
  else
    let size := magnitude (m * Nat.pow 2 q.toNat) (Nat.pow 2 (-q).toNat)
    match (List.range 17).findSome? fun n => withDigits? m q size (n + 1) with
    | some d => strip 20 d
    | none => ⟨0, 0⟩

structure Style where
  /-- The exponents of the first digit that are written without an exponent. -/
  leastPlain : Int
  mostPlain : Int
  /-- Whether a positive exponent carries its sign. -/
  plusSign : Bool
deriving Repr, DecidableEq

/-- The digits of a decimal with a point behind the first `size` of them. -/
def plainText (digits : List Char) (size : Int) : List Char :=
  if size ≤ 0 then '0' :: '.' :: (List.replicate (-size).toNat '0' ++ digits)
  else
    let whole := digits.take size.toNat
    let fraction := digits.drop size.toNat
    whole ++ List.replicate (size.toNat - digits.length) '0' ++
      '.' :: (if fraction.isEmpty then ['0'] else fraction)

/-- The digits of a decimal with an exponent for the first of them. -/
def exponentText (style : Style) (digits : List Char) (exponent : Int) : List Char :=
  let sign := if exponent < 0 then ['-'] else if style.plusSign then ['+'] else []
  let fraction := digits.drop 1
  digits.take 1 ++ (if fraction.isEmpty then [] else '.' :: fraction) ++
    'e' :: sign ++ Nat.toDigits 10 exponent.natAbs

def text (style : Style) (bits : UInt64) : String :=
  let d := shortest bits
  let digits := Nat.toDigits 10 d.digits
  let size := d.exponent + digits.length
  let sign := if 9223372036854775808 ≤ bits.toNat then ['-'] else []
  let body :=
    if style.leastPlain ≤ size - 1 ∧ size - 1 ≤ style.mostPlain then plainText digits size
    else exponentText style digits (size - 1)
  String.ofList (sign ++ body)

end SegmentedDownload.Decimal
