import SegmentedDownload.Url.Domain.Mark

/-!
# SegmentedDownload.Url.Domain.Joiner

Where the two invisible joiners may stand in a part of a host name: behind a
virama, whose effect they change, and the one that keeps letters apart also
between two letters of a script whose letters join.
-/

namespace SegmentedDownload.Domain

open Text

/-- The sides on which a letter joins its neighbours. -/
inductive Joining
  | none
  | both
  | left
  | right
  /-- The neighbours join as if the character were not there. -/
  | transparent
deriving Repr, DecidableEq

def joinings : CharTable := .ofText
    "A300E71A112E8A106E2dA1E1A1E2A1E2A1E9A40EbA5B1A1D4B1D1B1D1B5D4BdA1B7D1B2E15AeB2E1D3A5BfD12B26
    D1B2D9B1D1B1D1B2D2A1D1E8A1E6A2E2A1E4D2AaB3A2B1A10D1E1B3D5B4D1B9D1B1D1B1D1B2D1E1dD1BbD3BfD2B4
    D1B1D2B3D2B6A26EbA19B21E9A9E1A18E4A1E9A1E3A1E7A10D1B5D2B1D1BaD1B1D3E5A2B1A1B4A1D1B1D1aA3B1A2
    B5D1B8E9BaD3A1D1B2D2B6D1BfA1E39A37E1A1E1A4E8A4E1A3EfA2E2A1dE1A3aE1A4E6A6E1A14E4A18E5A39E2A3
    E1bA14E2A3E1AbE2A39E1A4E8A4E3A12E4A14E8A3aE1A2E1A1E6A6EaAbE4A1cE1A3dE1AcE3A30E1A3E1A37E1A1E3
    A5E12AaE4A1bE1A3aE1A2E1A6E1A5E9AdE4A1aE2A39E2A4E5A7E1A14E4A1bE1A48E5A3E6A59E1A2EbA8E8A62E1A2
    E9AbE8A48E2A1bE1A1E1A1E1A37EeA1E5A1E2A5E31A8E1A66E4A1E6A1E2A2E2A19E2A4E3A10E4AdE1A2E2A6E1Af
    E1A2bfE3A3b2E3A1dE2A1eEeA12EeA37E7A8E1A2EbA9E3A27B1A18B60A5E2B22E1B6A70E3A4E2A9E1A6E7Ad7E2A2
    E3A38E1A1E9A1E1A2E8A6EdA30E54A30E1A1E5A1E1A5E1A28E9AcE2A20E4A2E2A1E3A38E1A1E2A3E1A1E3A3aE8A2
    E5A95E3A1EdA1E7A4E1A6E1A3E2Ac6E41A2cfE34AbebE4A8cE1A60E20A22aE4A6bE4A75d2E4A1EaA20E2A50E2
    A110E1A3E1A4E1A19E2A5E4A10B32C1A51EaA12E12AdE1A26E8A19EbA2eE3A30E1A2E4A2E2A27E1A43E6A2E2A2Eb
    A3E1A8E1A2fE1A33E1A1E3A2E2A5E2A1E1A2aE2A8EbAe4E1A2E1A4E3A4f2eE94A26eE25A3b8E83A60E1A95EaA681
    EfA28E8A80B5D1A1D1A1D2A2C1D5B4C1B5D1B3D1A2D1E6B4D1A90B1D1B1D3B3D1B2D1B1D2B1D8A10D4B2A151C1
    B21D1B1EcA39E5A13dE2A15D1B2A1BaA2aE6A30B3D1B11A1EbB3D1A1bB4D2BcE4A2aB1A1B2D3A1B1D2B2D1B2A1B1
    D2B1A4D1B1C15A21E1A36EfA29E1A2E2AaE3A31E4A2E2A7EeA30E3A24E5A1E9A3dE1AcE2A34E9AaE4A2E1A5fE3A2
    E1A1E2A6E1A2E3fA5fE1A3EdA10E2A39E2A3E1A25E1aA3bE7AcE1A1E1A1E1AeE1fA38E8A2E3A1E1A17E1A54E6A1
    E1A4E2A1E2AeeE6A4E2A1E2A1bE24A33E8A2E1A1E2A6aE1A1E1A2E6A1E1A65E1A1E1A2E4A1E9AffE9A1E2A100E2
    A1E1A4E1A90E8A4E1A20EaA28E6A2E4A8E9A1E6A2E3A2eEdA1E2Ac6E1A1E3A1E1Ac9EeA1E1A52E17A1E7A1E2A1
    E4bA31E15A1E9A40E3A2E1A1E1A15bE2AbE2A34E8A2E1A1E1A17E56A1490E1A6E19A2cbeEcA3E3A9c0E5A3bE7
    A418E1A3fE4A51EcA4cadE2A1261E50A217E3A11E8A2E7A1eE4A94E3A7bbE37A4E32A8E1AeE1A16E465A100E100
    A30E7A177E12A2cE4A1fcE4AfeE2Af3E1A2E1A7E2A5E9A1d2E52B22Ec"

def joining (c : Char) : Joining :=
  match joinings.value c with
  | 1 => .both
  | 2 => .left
  | 3 => .right
  | 4 => .transparent
  | _ => .none

/-- Whether the first character that is not transparent joins on a side. -/
def joinsOn (side : Joining) (s : List Char) : Bool :=
  match (s.map joining).find? (· ≠ .transparent) with
  | some sides => sides == side || sides == .both
  | none => false

def nonJoiner : Char := Char.ofNat 0x200c

def joiner : Char := Char.ofNat 0x200d

/-- Whether a character may stand between others, of which those in front come in
reverse order. -/
def joinerFits (before : List Char) (c : Char) (after : List Char) : Bool :=
  if c = nonJoiner then
    before.head?.any isVirama || (joinsOn .left before && joinsOn .right after)
  else c != joiner || before.head?.any isVirama

/-- Whether all joiners of a text may stand where they are, behind the characters
`before` in reverse order. -/
def joinersFit (before : List Char) : List Char → Bool
  | [] => true
  | c :: rest => joinerFits before c rest && joinersFit (c :: before) rest

end SegmentedDownload.Domain
