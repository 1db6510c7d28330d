import SegmentedDownload.Text.CharTable

/-!
# SegmentedDownload.Text.Quoted

A text between double quotes, as error messages show it: the quote and the
backslash are escaped, and a character that would not show by itself is written
as its code in braces.
-/

namespace SegmentedDownload.Text

/-- The characters that do not show by themselves, as a set: controls, formats,
separators other than the space, private characters, code points without a
character, fillers, and those that extend the character in front of them. -/
def hidden : CharTable := .ofText
    "B20A5fB22AcB1A252B70A8B2A6B4A7B1A1B1A14B1Ae0B7Aa6B1A26B2A32B2A3B2eA1B1A1B2A1B2A1B9A1bB4A6B11
    AaBbA1B1A2eB15A10B1A65B8A1B6A2B2A1B4A20B2A1B1A1eB1dA59BbA1BeA2bB9A7B3A18B4A1B9A1B3A1B7AfB1
    A19B5A1B1AbB5A20B10A2aB39A37B1A1B1A4B8A4B1A3B7AaB2A1dB1A2B1A8B2A2B2A16B1A7B1A1B3A4B3A1B1A2B6
    A2B2A2B1A1BdA2B1A3B4A18B5A1B1A6B4A2B2A16B1A7B1A2B1A2B1A2B4A3B18A4B1A1B7AaB2A3B1A1BcA1B1A9B1
    A3B1A16B1A7B1A2B1A5B3A4B8A1B1A2B3A1BfA2B4AcB7A1B8A2B1A8B2A2B2A16B1A7B1A2B1A5B3A1B2A1B6A2B2A2
    BfA2B1A3B4A12BbA1B1A6B3A3B1A4B3A2B1A1B1A2B3A2B3A3B3AcB5A1B1A2B3A3B1A3B3A1B15A15B6A3B1A8B1A3
    B1A17B1A10B3A1B3A4B13A3B1A2B2A2B4AaB7AaB1AbB1A3B1A17B1AaB1A5B3A2B2A1B1A2B17A3B1A2B4AaB1A3Be
    AbB1A3B1A29B2A1B1A2B5A3B1A3B1A2B4A3B1AaB4A1aB2A2B1A12B3A18B1A9B1A1B2A7B9A2B6A7B7AaB2A3BcA30
    B1A2BbA8B8AdB25A2B1A1B1A5B1A18B1A1B1AaB1A2B9A1B2A5B1A1B9AaB2A4B20A18B2A1bB1A1B1A1B1AeB1A24
    B12A1B5A1B2A5B31A8B1A6B1AdB25A2dB4A1B6A1B2A2B2A19B2A4B3A10B4AdB1A2B2A6B1AfB1A28B1A1B5A1B2A8f
    B2Ae8B1A4B2A7B1A1B1A4B2A29B1A4B2A21B1A4B2A7B1A1B1A4B2AfB1A39B1A4B2A43B5A1dB3A1aB6A56B2A6B2
    A280B1A1cB3A59B7A12BdA13B3A2B9A12BeAdB1A3BfA34B2A1B7A8B1A2BbA9B3AaB6AaB6AbB5AaB6A59B7A5B2A22
    B1A1B5A46BaA1fB4A4B2A3B4A2B1A6B7A1B3A2aB2A5BbA2cB4A1aB6AbB3A39B2A2B3A38B1A1B9A1B1A2B8A6BdAa
    B6AaB6AeB56A30BaA4B3A8B1A1dB9AcB2A20B4A2B6A38B1A1B2A3B1A1BdA30B8A2B5AfB3A3eB5A2bB2AbBbA1BdA1
    B7A4B1A6B1A3B2A1B5Ac0B40A116B2A6B2A26B2A6B2A8B1A1B1A1B1A1B1A1fB2A35B1AfB1AeB2A6B1A13B2A3B1A9
    B11A18B8A2fB11A2B2A1bB1AdB3A22B3eA8cB4A29aB16AbB15A714B2A179B3A2B5A2dB1A1B5A1B2A38B7A2BfA17
    B9A7B1A7B1A7B1A7B1A7B1A7B1A7B1A7B21A5eB22A1aB1A59BcAd6B1aA10B1A29B6A10B1A56B4A65B5A2bB1A33B1
    A2aB1A56B9A30B1A726dB3A37B9A15cB14A2fB4A1BaA20B2A50B2A6B8AddB14A11B1A3B1A4B1A19B2A5B4AaB6A38
    B8A44BaAcB18AdB1A26B8A19BbA1BcA1eB6A30B1A2B4A2B2A2B1AdB1AbB4A7B1A19B1A29B6A2B2A2BbA3B1A8B1A1
    B2AaB2A20B1A33B1A1B3A2B2A5B2A1B1A1B18A11B2A8BbA6B2A6B2A6B9A7B1A7B1A3cB4A75B1A2B1A4B3AaB6
    A2ba4BcA17B4A31B2104A16eB2A6aB26A7BcA5B5A1B1A18B1A5B1A1B1A2B1A2B1A28aB20A10B10AaB16A23B1A13
    B1A4B4A5B1A87B4A9dB3A1eB3A6B2A6B2A6B2A3B3A7B1A7BdA2B2AcB1A1aB1A13B1A2B1AfB2AeB22A7bB5A3B4A2d
    B3A58B1AdB3A1B2fA2dB83A1dB3A31B10A1bB4A24B9A1eB5A26BaA1eB1A25B4AeB2aA9eB2AaB6A24B4A24B4A28B8
    A34BbAcB1AfB1A7B1A2B1AbB1AfB1A7B1A2B3A34BcA137B9A16BaA8B18A6B1A2aB1A9B45A6B2A1B1A2cB1A2B3A1
    B2A17B1A48B8A9B30A13B1A2B5A21B3A1bB5A1bB26A38B4A14B2A2fBfA4B1A3B1A1dBaA9B7A9B7A40B20A25B6Ac
    B9A36B3A1dB2A1bB5A1aB7A4BcA7B50A49B37A33BdA33B7A2aBcAaB6A26B8A18B8A2Bd0A1fB1A2aB3A1B2A2B10A6
    B8A9B27A28B8A16BbA9B16A12B4A4B26A1cB14A17B9A1B1A36BfA7B4A1eB1A2B2A1BcA31B4A2B2A2B1A4BeA19B7
    AaB9A24B5A1B9A12B8A23B1A3BbA34B9A1B1A8B4A2B1A10B1A14BbA12B1A1cB3A2B4A6B1A2B3fA7B1A1B1A4B1Af
    B1AbB6A2fB1A3BdAaB8A2B1A8B2A2B2A16B1A7B1A2B1A5B3A1B1A1B1A4B2A2B2A2B3A1BcA7B1cAaB1A1B2A1B1A26
    B1A1B1A2BfA1B1A2B3A1B1A3B1A2B27A38B8A2B3A1B1A15B1A1B1A3B1eA30B1A2B6A1B1A2B1A1B2A1B2A4B8AaBa6
    A2fB1A2B6A4B2A1B2A1bB24A33B8A2B1A1B2A4BbAaB6AdB13A2bB1A1B1A2B8A2B6AaB6A14B1cA1bB3A1B1A2B4A1
    B9A17Bb9A2fB9A1B2A1B64A53BcA8B2A1B2A8B1A2B1A18B1A5B1A2B6A4B1A3B9AaB46A8B2A2aB8A4B1A4B1bA1Ba
    A28B6A2B4A8B9A1B6A2B3A2eBdA1B2A9BdA49B7AaB57A1B3A1B1A1B58A22BeAaB6A9B1A26BeA1B1A6BaA1dB3A20
    B19A1B7A1B2A1B4bA7B1A2B1A26B15A1B9AaB6A6B1A2B1A25B4A2B1A1B1A1B7AaB6A2cB4AaBf6A13B2A4B9AfB1
    A24B8A2B3A17B56A1BfA32BdA39bB66A6fB1A5BbAc4Ba4cA63BdA430B11A6B19Af9bB5A247B1ab9A1eBcA3B3Aa
    B6c6A239B7A1fB1AaB4A51B1AaB6A1eB7A1BaA30B7AfBaAaB1A7B1A15B5A13B1b0A3aBc6A5bB5A19B2A19B2cA4b
    B5A38BbAdB40A4BeA5B9A1cd6B29A20B61A73B21fdA4B1A7B1A2B1A123BfA1B1dA3B2A1BeA4B8A18cB904A6bB5Ad
    B3A9B7AaB2A1B2A1Bf60AfdB3A1b4B6A17BfA11B5fA74B3cAf6BaA27B2A3cB5A3B16A2B7A1eB4A3dB15A42B3A1
    B7aA14BcA14BcA57B9A19B87A55B1A47B1A2B2A1B2A2B2A4B1AcB1A1B1A7B1A41B1A4B2A8B1A7B1A1cB1A4B1A5B1
    A1B3A7B1A154B2A124B2A232B37A4B32A8B1AeB1A7B474A1fB6A6B105A3eB92A2dBaA7B2AaB4A2B140A1eB12A2c
    B4AaB5A1B1d0A1cB4AaBd6A1eB2AbB4A1Bc0A1fB1A3B1A2B1A7B2A5B9A2Be0A7B1A4B1A2B1AfB1Ac5B2A9B30A44
    B7A1B4AaB4A2B311A44B4cA3dBc2A4B1A1bB1A2B1A1B2A1B1AaB1A4B1A1B1A1B6A1B4A1B1A1B1A1B1A3B1A2B1A1
    B2A1B1A1B1A1B1A1B1A1B1A2B1A1B2A4B1A7B1A4B1A4B1A1B1AaB1A11B5A3B1A5B1A11B34A2B10eA2cB4A64BcAf
    B2AfB1AfB1A25BaAaeB38A1dBdA2cB4A9B7A2BeA6B9aA3d9B3A11B3AdB3AdaB6AcB4A1BfAcB4A38B8AaB6A28B8
    A1eB2AcB4A2BeA9B27A158B8AeB2AdB3AbB3A39B1A1B4A10B2AcB4AaB7A93B1A67B405Aa6e0B20A111eB2A168eB2
    A1d31BfA26eB9a2A21eB5e2A134bB5A212aBdcb86"

/-- Whether a character is written as its code. -/
def isHidden (c : Char) : Bool :=
  if c.toNat < 0x7f then decide (c.toNat < 0x20) else hidden.contains c

def quoteChar (c : Char) : List Char :=
  match c with
  | '"' => ['\\', '"']
  | '\\' => ['\\', '\\']
  | '\n' => ['\\', 'n']
  | '\r' => ['\\', 'r']
  | '\t' => ['\\', 't']
  | c =>
    if c.toNat = 0 then ['\\', '0']
    else if isHidden c then
      '\\' :: 'u' :: '\x7b' :: (Nat.toDigits 16 c.toNat ++ ['\x7d'])
    else [c]

def quoted (s : String) : String :=
  String.ofList ('"' :: s.toList.flatMap quoteChar ++ ['"'])

end SegmentedDownload.Text
