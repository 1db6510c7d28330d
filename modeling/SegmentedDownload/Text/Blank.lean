/-!
# SegmentedDownload.Text.Blank

The characters that Unicode counts as white space.
-/

namespace SegmentedDownload.Text

/-- The characters with the property `White_Space`. -/
def isBlank (c : Char) : Bool :=
  let n := c.toNat
  decide (9 ≤ n ∧ n ≤ 13) || n == 0x20 || n == 0x85 || n == 0xa0 || n == 0x1680 ||
    decide (0x2000 ≤ n ∧ n ≤ 0x200a) || n == 0x2028 || n == 0x2029 || n == 0x202f ||
    n == 0x205f || n == 0x3000

/-- The characters after leading blanks. -/
def trimStart (s : List Char) : List Char := s.dropWhile isBlank

/-- Whether there are only blanks. -/
def isAllBlank (s : List Char) : Bool := s.all isBlank

end SegmentedDownload.Text
