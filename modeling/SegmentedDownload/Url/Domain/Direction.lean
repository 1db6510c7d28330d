import SegmentedDownload.Text.CharTable

/-!
# SegmentedDownload.Url.Domain.Direction

Host names in which some characters are written from right to left.

If there is such a character in a name, each part of the name has to begin with a
letter, and it has to read in the direction of that letter: a part from left to
right holds no letters or numerals of the other direction, a part from right to
left holds no letters of the other direction and no mixed numerals, and both end
with a letter or a numeral, but for marks.
-/

namespace SegmentedDownload.Domain

open Text

/-- What a character does to the direction of a text. -/
inductive Direction
  /-- A letter written from left to right. -/
  | left
  /-- A letter written from right to left. -/
  | right
  /-- A numeral of the scripts written from right to left. -/
  | rightNumeral
  /-- Any other numeral. -/
  | numeral
  /-- A sign that takes the direction of its neighbours. -/
  | neutral
  /-- A mark, which takes the direction of its letter. -/
  | mark
  /-- A blank or the like. -/
  | separator
deriving Repr, DecidableEq

def directions : CharTable := .ofText
    "E9G5EeG5EfDaE27A1aE64A18E1A1c1E2A7EeA2E1cA1E11F71A4E2A7fE2A8bF8AffE7F2dB1F1B1F2B1F2B1F9B36E2
    B1E2B1E1B1E2FbB30F15CaE1C2B3F1B65F8E1F6B2F2E1F4B2DaB17F1B1eF1dB59FbB3aF9B2E4B3F1B18F4B1F9B1
    F3B1F7B29F5B39F9B2aF39A37F1A1F1A4F8A4F1A3FfA2F2A1dF1A3aF1A4F6A6F1A14F4AcE2A7E1A2F5A39F2A3F1b
    A14F2A3F1AbF2A39F1A4F8A4F3A12F4AbE8A1F8A3aF1A2F1A1F6A6FaAbF4A1cF1A3dF1AcF3A23EdF1A3F1A37F1A1
    F3A5F12AaF4A12E7A2F1A3aF1AfF9AdF4A1aF2A39F2A4F5A7F1A14F4A1bF1A48F5A3F6A59F1A2FbE1A7F8A62F1A2
    F9AbF8A48F2A1bF1A1F1A1F1E4A33FeA1F5A1F2A5F31A8F1A66F4A1F6A1F2A2F2A19F2A4F3A10F4AdF1A2F2A6F1
    AfF1A2bfF3A30E10A60E1A29aE5A72F3A1dF2A1eFeA12FeA37F7A8F1A2FbA7E1A1F3A10E20A75F2A22F1A76F3A4
    F2A9F1A6F7E6A98E22A17F2A2F3A38F1A1F9A1F1A2F8A6FdA30F54A30F1A1F5A1F1A5F1A28F9AcF2A20F4A2F2A1
    F3A38F1A1F2A3F1A1F3A3aF8A2F5A95F3A1FdA1F7A4F1A6F1A3F2Ac6F41A20bEc4F34E4aA3cE1acA45E1aA1E316
    A1E153A100E330Ab5E7A3F4A6E7A7fF1A60F20E205A3E19A9F4A2E1A6E4A2E4A58F4A3E1A5aE1Ac4E30A1bd0E40
    A5690E40A13dE3A5fF4E1FaE3A1dF2A50F2AeE23A65E1A79F1A3F1A4F1A19F2A1E4F4A8E8A34EcA44FaA12F12Ad
    F1A26F8A19FbA2eF3A30F1A2F4A2F2A27F1A43F6A2F2A2FbA3F1A8F1A2fF1A33F1A1F3A2F2A5F2A1F1A2aF2A8Fb
    A69E56A25F1A2F1A4F3A4f2eF94B11E25dF25E2eB18dA101E1A3eE4dA3E40A2dF83A60F1D1fA76FaA480B11fE1
    Be1FfB28F8Ba5F6B4eE7B1e4FcC1aB1fF5E1Bf1C20B2bF2B23E2aF6B46FbB31F4B7aA1F1A36FfAbE14AaF1A2F2Aa
    F3A31F4A2F2A7FeA30F3A24F5A1F9A3dF1AcF2A34F9AaF4A2F1A5fF3A2F1A1F2A6F1A2F3fA5fF1A3FdA10F2A39F2
    A3F1A25F1aA3bF7AcF1A1F1A1F1AeF1fA38F8A2F3A1F1A17F1A54F6A1F1A4F2A1F2AeeF6A4F2A1F2A1bF24A33F8
    A2F1A1F2A1fE20A2bF1A1F1A2F6A1F1A65F1A1F1A2F4A1F9AffF9A1F2A100F2A1F1A4F1A90F8A4F1A20F6A2F2A28
    F6A2F4A8F9A1F6A2F3A2eFdA1F2Ac6F1A1F3A1F1Ac9FeA54F17A1F7A1F2A1F4bA31F15A1F9A40F3A2F1A1F1A15b
    F2AbF2A34F8A2F1A1F1A17F56A25E2aA1441F1A6F19A2cbeFcA3F3A9c0F5A3bF7A418F1A3fF4A4fE1A1FcA4cadF2
    Af61E300F50A217F3A11F8A2F7A1eF4A3bE59F3E7bA40E60A6a0F37A4F32A8F1AeF1A16F465A100F100A30F7A177
    F12A2cF4AfE1d1A1cF4AfeF2Af3F1A2F1A7F2A5F9A102Bd0F52B22F7B5a5E260A1dE3A3dE39A7aEda0"

def direction (c : Char) : Direction :=
  match directions.value c with
  | 0 => .left
  | 1 => .right
  | 2 => .rightNumeral
  | 3 => .numeral
  | 4 => .neutral
  | 5 => .mark
  | _ => .separator

/-- Whether a character brings in the direction from right to left. -/
def isRightward (c : Char) : Bool :=
  decide (0x590 ≤ c.toNat) && [.right, .rightNumeral].contains (direction c)

/-- Whether the directions of a part of a name go together. -/
def directionsFit (part : List Direction) : Bool :=
  let core := (part.reverse.dropWhile (· = .mark)).reverse
  match part.head?, core.getLast? with
  | none, _ => true
  | some .left, last? =>
    last?.all ([.left, .numeral].contains ·) &&
      core.all ([.left, .numeral, .neutral, .mark].contains ·)
  | some .right, last? =>
    last?.all ([.right, .numeral, .rightNumeral].contains ·) &&
      core.all ([.right, .numeral, .rightNumeral, .neutral, .mark].contains ·) &&
      !(core.contains .numeral && core.contains .rightNumeral)
  | some _, _ => false

/-- Whether the directions in the parts of a name go together. -/
def isDirected (parts : List (List Char)) : Bool :=
  !parts.any (·.any isRightward) || parts.all fun part => directionsFit (part.map direction)

end SegmentedDownload.Domain
