import SegmentedDownload.Text.CharTable

/-!
# SegmentedDownload.Url.Domain.Mark

The marks among the characters of host names. A mark combines with the character
in front of it, and marks of different combining classes may change places.
-/

namespace SegmentedDownload.Domain

open Text

def marks : CharTable := .ofText
    "A300B71A112B8A106B2dA1B1A1B2A1B2A1B9A40BbA30B15A10B1A65B8A1B6A2B2A1B4A23B1A1eB1dA59BbA3aB9A9
    B1A18B4A1B9A1B3A1B7A29B5A39B9A2aB3aA36B3A1B12A1BfA2B2A1dB4A37B1A1B10A9B9A2B4A18B7A37B20A14B2
    A3B1AbB4A37B1A1B12A12B4A14BbA37B1A1B21A3B4A1cB1A3bB12A7BfA1aB5A37B1A1B1aAaB4A1bB3A38B1A1B1e
    A6B4AdB11A37B2A1B10A9B1AaB4A1bB4A45B1cAcB2A3dB1A2BbA8B8A62B1A2B9AbB8A48B2A1bB1A1B1A1B1A4B2
    A31B14A1B2A5B31A8B1A64B14A17B4A4B3A1B3A2B7A3B4AdBcA1B1AaB4A2bfB3A3b2BdA13B3A1dBeA12BeA36B1e
    A9B3Aa5B2A22B1A76B20Ad7B7A37B2bA30B55A2fB11A26B9AcB3A1eBdA38B16A28B17A95B3A1B15A4B1A6B1A2B3
    Ac6B41A2cfB34AbebB4A8cB1A60B20A22aB6A69B4A75d2B4A1BaA20B2A50B2A110B1A3B1A4B1A17B5A4B4A50B2
    A32B1aA12B12AdB1A26B8A19B18A21B4A2fBeA24B1A43B17A3B1A8B4A2bB3A32B1A1B3A2B2A5B2A1B1A29B5A5Bc
    Ae2B8A1B4A4f2eB94A26eB25A3b8B83A60B1A95BaA681BfA28B8Aa5B6A239BcA39B5A13dB2A4dB6A46BbA31B4A7a
    B3A35BfA29B1A2B2AaB4A2dBbA7BeA30B3A24BfAfB2A2cB1AcB3A30BeA8B4A1B2A5cBcA6B1A2B3fA5fB11A10B5
    A36B2A1B12A7B6A5B1eA38B19A1B1AeB1fA35B12A17B1A51B14AebB12A1bB24A30B11A6aBdA65B13AfcBfAf5BfA1
    B1A1B2A8dB10A3B1cA1BaA28B7A1B4A8B9A1BbA2eB10Ac6B60A6fB11A52B6eA31B15A1B9A3aBeA15bB4A9B2A1B1
    A30BfA17B56A1490B1A6B19A2cbeB12A9c0B5A3bB7A418B1A1B42A51BeA4cabB2A1261B50A215B5A3B16A2B7A1e
    B4A94B3A7bbB37A4B32A8B1AeB1A16B465A100B100A30B7A177B12A2cB4A1fcB4AfeB2Af3B1A2B1A7B2A5B9A1d2
    B52A22B7"

def combiningClasses : CharTable := .ofText
    "A300IW15IY1IM4IY1II1IM5HU2IM4HU2IMbB5IM4IWaIM3IW3IM3IW3IM4IW1IY1IM2IW1IZ1JA2IZ1JA2IZ1IWeA112
    IW5A109IM1IW4IM1IW3IO1IM1IW6IM6IW2IM1IW2IO1IU1IW1K1L1M1N1O1P1Q1R1S1T2U1V1W1A1X1A1Y1Z1A1IW1
    IM1A1S9A40IW8BE1BF1BG1A30BB1BC1BD1BE1BF1BG1BH1BI1IW2IM2IW5IM1IW2IM1A10BJ1A65IW8A1IW4IM1IW1A2
    IW2A1IM1IW2IM1A23BK1A1eIW1IM1IW2IM1IW2IM3IW1IM2IW1IM1IW3IM1IW1IM1IW1IM1IW1IM1IW4A9eIW7IM1IW1
    A9IM1A18IW4A1IW9A1IW3A1IW7A29IM5A39IW2IM3IW4A2aIW5IM5IWfIM1IW2IM1IW2IM1IW3IM3BB1BC1BD1IW3IM1
    IW2IM2IW5A3cH1A10J1A3IW1IM1IW2A67H1A10J1A30IW3A3bH2AfJ4A6bH1A10J3A6cH1A10J8A78J3A6cH1A10J8
    DG1DN2A64H1A10J8A66J2A10J1A7cJ5A69DZ2J5A9ED4A6cEO2J1AdES4A4cIM2A1bIM1A1IM1A1II1A37EZ1FA2FC6
    FA4A2FA2IW2J1A1IW2A3eIM1A70H1A1J2A52IM1A2cfIW3A3b4JbA15J1A9dJ1AaIW3Ac9IU1A8fIO1IW1IM5Ad7IW1
    IM1A47J1A14IWaIM1A30IW5IM6IW2IM1A1IM2IW2IM2IW5IM1IW12IM3IW6IM1IW4JA15A34H1AfJ1A26IW1IM1IW7
    A36J2A3aH1AbJaA3bH4A95IW3A1B1IM5IW2IM4IW1A1B7A4IM1A6IW1A3IW2Ac6IW2IM1IW7IM1IW2JA1IG1IM1HU1
    IW25IY1IU2IM1IK1IW1IZ1IM1IW1IM2A2cfIW2B2IW4B3IW2A4IW1A3B2IW1IM1IW1B2IM4IW14AbebIW4A8cJ1A60
    IW20A22aIK1IU1IY1IO1IQ2A69I4A75d2IW1A4IWaA20IW2A50IW2A114J1A25J4A94J1A1bIW12A39IM3A25JcA54H1
    AcJ1AefIW1A1IW2IM1A2IW2A5IW2A1IW1A34JbAecJ3A4f2eBA94A26eIW7IM7IW17A3b8IM83A60IM1A95IWaA68d
    IM1A1IW1A28IW1B1IM5J1Aa5IW1IM5A239IWcA39IW5A13dIW2A4dIM2A1IM3A46IM2IW3IM1IW1IM4A31IW1IM1IW1
    IM1Ac0J1A29J1AeJ1A39J1H1A45IW3A30J3A3dH1A4cJ1A9H1A6aJ1H1Ab2H1J6A4bH2A10J3A16IW1aA4eJ3A71J1A3
    H1A17IW1A63J1H1AfbJ1H1A7eJ1A76J1H1A73J5A109J1H1A102J2A4H1A9cJ1A53J1A12J9A49J1A1a5J1A102H1A1
    J2A51J1A1a9J2A41ecJ1A9c0B5A3bIW7A4b9G2A4cacB1A14c6II2B3A3IS1IIdIM8A2IW5IM2A1eIW4A94IW3Adbb
    IW100A30IW7A177IW12A2cIW4A1fcIY2IM1IW1AfeIW1IM1Af3IW1A2IW1A7IW2A5IW9A1d2IM52A22IW6H1"

/-- Whether a character is a mark. There is none before U+0300. -/
def isMark (c : Char) : Bool := decide (0x300 ≤ c.toNat) && marks.contains c

/-- The combining class of a character; 0 for one that does not change places. -/
def combiningClass (c : Char) : Nat := if c.toNat < 0x300 then 0 else combiningClasses.value c

/-- Whether a character takes the vowel from the consonant in front of it. -/
def isVirama (c : Char) : Bool := combiningClass c == 9

end SegmentedDownload.Domain
