/-!
# SegmentedDownload.Url.Punycode

The part of a host name behind `xn--`: the ASCII characters of the name, a
hyphen, and then the other characters with their places, as numbers of digits
whose weight adapts to the numbers before.
-/

namespace SegmentedDownload.Punycode

/-- The value of a digit: letters first, then decimal digits. -/
def digitValue? (c : Char) : Option Nat :=
  let n := c.toNat
  if 97 ≤ n ∧ n ≤ 122 then some (n - 97)
  else if 65 ≤ n ∧ n ≤ 90 then some (n - 65)
  else if 48 ≤ n ∧ n ≤ 57 then some (n - 22)
  else none

/-- The least value of a digit that is followed by another one. -/
def threshold (place bias : Nat) : Nat := min (max (place - bias) 1) 26

/-- Divide a delta until it is small, and count the divisions in places. -/
def reduce (delta places : Nat) : Nat × Nat :=
  if 455 < delta then reduce (delta / 35) (places + 36) else (delta, places)
termination_by delta
decreasing_by exact Nat.div_lt_self (by omega) (by omega)

/-- The bias after a delta was read. -/
def adapt (delta count : Nat) (first : Bool) : Nat :=
  let delta := if first then delta / 700 else delta / 2
  let (delta, places) := reduce (delta + delta / count) 0
  places + 36 * delta / (delta + 38)

/-- The bound of the numbers and of the weights of their digits. -/
def numberBound : Nat := 0x100000000

/-- Add a number of digits, the least significant first, to `total`, and return
what follows it. -/
def number? (total bias place weight : Nat) : List Char → Option (Nat × List Char)
  | [] => none
  | c :: rest => do
    let digit ← digitValue? c
    let t := threshold place bias
    let total := total + digit * weight
    if numberBound ≤ total then none
    else if digit < t then return (total, rest)
    else if numberBound ≤ weight * (36 - t) then none
    else number? total bias (place + 36) (weight * (36 - t)) rest

/-- The list with `c` at a place. -/
def insertAt (cs : List Char) (place : Nat) (c : Char) : List Char :=
  cs.take place ++ c :: cs.drop place

/-- Insert the characters that the digits stand for. Each takes at least one
digit, so the length of the text bounds their number. -/
def insertAll? : Nat → (code place bias : Nat) → (first : Bool) → List Char → List Char →
    Option (List Char)
  | _, _, _, _, _, found, [] => some found
  | 0, _, _, _, _, _, _ => none
  | fuel + 1, code, place, bias, first, found, digits => do
    let (total, rest) ← number? place bias 36 1 digits
    let count := found.length + 1
    let code := code + total / count
    if h : code.isValidChar then
      insertAll? fuel code (total % count + 1) (adapt (total - place) count first) false
        (insertAt found (total % count) (Char.ofNatAux code h)) rest
    else none

/-- The text in front of the last hyphen, if there is one with a text in front of
it, and what follows it. -/
def splitLast (s : List Char) : List Char × List Char :=
  let digits := (s.reverse.takeWhile (· ≠ '-')).reverse
  let plain := s.take (s.length - digits.length - 1)
  if plain.isEmpty then ([], s) else (plain, digits)

/-- The name that an encoded name stands for. -/
def decode? (s : List Char) : Option (List Char) :=
  let (plain, digits) := splitLast s
  insertAll? digits.length 128 0 72 true plain digits

end SegmentedDownload.Punycode
