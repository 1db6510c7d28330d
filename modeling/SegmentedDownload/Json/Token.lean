import SegmentedDownload.Json.Error

/-!
# SegmentedDownload.Json.Token

The tokens of a JSON text.

A number or a text may stand where it is wanted, or where it is skipped because
nobody asks for it. Skipping is less strict: it does not mind a number that is
too large, nor halves of surrogate pairs. So these tokens carry both readings.
A token that cannot even be skipped is the last one.

Integers keep their value as long as they fit in a word of their sign; all other
numbers, and a negative zero, are binary64 numbers.
-/

namespace SegmentedDownload.Json

inductive Number
  | integer (value : Int)
  | floating (bits : UInt64)
deriving Repr, DecidableEq

inductive Token
  | openObject
  | closeObject
  | openList
  | closeList
  | colon
  | comma
  | null
  | boolean (value : Bool)
  | number (exact : Except SyntaxError Number) (skipped? : Option SyntaxError)
  | text (exact : Except SyntaxError String) (skipped? : Option SyntaxError)
  /-- A word that begins like `null`, `true` or `false`. -/
  | badWord (cause : SyntaxError)
  /-- A character that begins no token. -/
  | stray
deriving Repr

/-! ## Numbers -/

def digitValue (c : Char) : Nat := c.toNat - 48

def maxUnsigned : Nat := 18446744073709551615

/-- A significand that takes digits as long as it fits in a word. -/
structure Significand where
  value : Nat := 0
  /-- Whether a digit was left out, which ends the taking. -/
  full : Bool := false
  /-- Number of digits taken. -/
  taken : Nat := 0
  /-- Number of digits left out. -/
  dropped : Nat := 0
deriving Repr, DecidableEq

/-- The significand with one more digit. -/
def Significand.push (s : Significand) (c : Char) : Significand :=
  let next := s.value * 10 + digitValue c
  if s.full ∨ maxUnsigned < next then { s with full := true, dropped := s.dropped + 1 }
  else { s with value := next, taken := s.taken + 1 }

/-- The binary64 number near `value · 10^exponent`. Powers of ten beyond the
range of the format are applied in steps, and the result is refused when it is
too large. -/
def scale (value : Nat) (exponent : Int) : Except SyntaxError Float :=
  go 40 value.toUInt64.toFloat exponent
where
  go : Nat → Float → Int → Except SyntaxError Float
    | 0, x, _ => .ok x
    | fuel + 1, x, exponent =>
      if exponent.natAbs ≤ 308 then
        let power := Float.ofScientific 1 false exponent.natAbs
        if 0 ≤ exponent then
          let x := x * power
          if x.isInf then .error .numberOutOfRange else .ok x
        else .ok (x / power)
      else if x == 0.0 then .ok x
      else if 0 ≤ exponent then .error .numberOutOfRange
      else go fuel (x / 1e308) (exponent + 308)

/-- A binary64 number with its sign. -/
def signed (negative : Bool) (x : Float) : Number :=
  .floating (if negative then -x else x).toBits

/-- The largest exponent that is added up digit by digit. -/
def maxExponent : Nat := 2147483647

/-- The parts of a number as they are written. -/
structure Numeral where
  negative : Bool
  whole : List Char
  /-- The digits behind the point, if there is one. -/
  fraction? : Option (List Char)
  /-- Whether the exponent is negative, and its digits, if there is one. -/
  exponent? : Option (Bool × List Char)
  rest : List Char
deriving Repr

/-- Split a number, whose sign was taken off, into its parts. -/
def splitNumeral (negative : Bool) (s : List Char) : Numeral :=
  let whole := s.takeWhile Char.isDigit
  let s := s.dropWhile Char.isDigit
  let (fraction?, s) := match s with
    | '.' :: s => (some (s.takeWhile Char.isDigit), s.dropWhile Char.isDigit)
    | s => (none, s)
  -- a point without digits is an error, whatever follows
  if fraction? = some [] then { negative, whole, fraction?, exponent? := none, rest := s }
  else
    let exponent (s : List Char) : Bool × List Char := match s with
      | '-' :: s => (true, s)
      | '+' :: s => (false, s)
      | s => (false, s)
    match s with
    | c :: tail =>
      if c = 'e' ∨ c = 'E' then
        let (below, digits) := exponent tail
        { negative, whole, fraction?
          exponent? := some (below, digits.takeWhile Char.isDigit)
          rest := digits.dropWhile Char.isDigit }
      else { negative, whole, fraction?, exponent? := none, rest := s }
    | [] => { negative, whole, fraction?, exponent? := none, rest := s }

namespace Numeral

def wellFormed (n : Numeral) : Bool :=
  n.whole ≠ [] && (n.whole.head? ≠ some '0' || n.whole.length == 1) &&
    n.fraction? ≠ some [] && (n.exponent?.map (·.2)) ≠ some []

/-- What is wrong with a number that is not in order. A number that stops where a
digit has to follow is reported as such at the end of the text. -/
def fault (n : Numeral) : SyntaxError :=
  if n.whole.head? = some '0' ∧ n.whole.length ≠ 1 then .invalidNumber
  else if n.whole = [] ∧ (n.fraction?.isSome ∨ n.exponent?.isSome) then .invalidNumber
  else if n.rest = [] then .endInValue
  else .invalidNumber

def value (n : Numeral) : Except SyntaxError Number :=
  let whole := n.whole.foldl Significand.push {}
  if n.fraction?.isNone ∧ n.exponent?.isNone ∧ !whole.full then
    if n.negative then
      if whole.value = 0 ∨ 9223372036854775808 < whole.value then
        .ok (signed true whole.value.toUInt64.toFloat)
      else .ok (.integer (-whole.value))
    else .ok (.integer whole.value)
  else
    let all := (n.fraction?.getD []).foldl Significand.push
      { value := whole.value }
    let shift := (whole.dropped : Int) - all.taken
    match n.exponent? with
    | none => (scale all.value shift).map (signed n.negative)
    | some (below, digits) =>
      let exponent := digits.foldl (fun e c => e * 10 + digitValue c) 0
      if maxExponent < exponent then
        if all.value ≠ 0 ∧ !below then .error .numberOutOfRange
        else .ok (signed n.negative 0.0)
      else
        let exponent : Int := if below then -exponent else exponent
        (scale all.value (shift + exponent)).map (signed n.negative)

def token (n : Numeral) : Token :=
  if n.wellFormed then .number n.value none
  else .number (.error n.fault) (some .invalidNumber)

end Numeral

/-! ## Texts -/

def hexValue? (c : Char) : Option Nat :=
  if c.isDigit then some (c.toNat - 48)
  else if 'a' ≤ c ∧ c ≤ 'f' then some (c.toNat - 87)
  else if 'A' ≤ c ∧ c ≤ 'F' then some (c.toNat - 55)
  else none

/-- Why four hexadecimal digits cannot be read: there are not even four bytes
left, or they are something else. -/
def hexFault (s : List Char) : SyntaxError :=
  if (s.take 4).foldr (fun c n => c.utf8Size + n) 0 < 4 then .endInText else .invalidEscape

/-- The character of an escape with one letter. -/
def escape? : Char → Option Char
  | '"' => some '"'
  | '\\' => some '\\'
  | '/' => some '/'
  | 'b' => some '\x08'
  | 'f' => some '\x0c'
  | 'n' => some '\n'
  | 'r' => some '\r'
  | 't' => some '\t'
  | _ => none

/-- Whether a code unit is the first half of a surrogate pair. -/
def isLeading (n : Nat) : Bool := decide (0xd800 ≤ n ∧ n ≤ 0xdbff)

/-- Whether a code unit is the second half of a surrogate pair. -/
def isTrailing (n : Nat) : Bool := decide (0xdc00 ≤ n ∧ n ≤ 0xdfff)

/-- Four hexadecimal digits. -/
def hex4? (a b c d : Char) : Option Nat := do
  let a ← hexValue? a
  let b ← hexValue? b
  let c ← hexValue? c
  let d ← hexValue? d
  return ((a * 16 + b) * 16 + c) * 16 + d

/-- The contents of a text whose opening quote was taken off. `leading?` is the
first half of a surrogate pair whose second half comes next. -/
def unescape (leading? : Option Nat) : List Char → Except SyntaxError (List Char)
  | '\\' :: 'u' :: a :: b :: c :: d :: s =>
    match hex4? a b c d, leading? with
    | none, _ => .error (hexFault (a :: b :: c :: d :: s))
    | some n, none =>
      if isTrailing n then .error .loneSurrogate
      else if isLeading n then unescape (some n) s
      else (unescape none s).map (Char.ofNat n :: ·)
    | some n, some first =>
      if isTrailing n then
        (unescape none s).map
          (Char.ofNat (0x10000 + (first - 0xd800) * 0x400 + (n - 0xdc00)) :: ·)
      else .error .loneSurrogate
  | '\\' :: 'u' :: s => .error (hexFault s)
  | '\\' :: c :: s =>
    if leading?.isSome then .error .unpairedSurrogate
    else match escape? c with
      | some c => (unescape none s).map (c :: ·)
      | none => .error .invalidEscape
  | ['\\'] => .error .endInText
  | c :: s =>
    if leading?.isSome then .error .unpairedSurrogate
    else if c = '"' then .ok []
    else if c.toNat < 0x20 then .error .controlCharacter
    else (unescape none s).map (c :: ·)
  | [] => .error .endInText

/-- What follows a text whose opening quote was taken off, if the text can be
skipped. -/
def skipText : List Char → Except SyntaxError (List Char)
  | '\\' :: 'u' :: a :: b :: c :: d :: s =>
    match hex4? a b c d with
    | none => .error (hexFault (a :: b :: c :: d :: s))
    | some _ => skipText s
  | '\\' :: 'u' :: s => .error (hexFault s)
  | '\\' :: c :: s =>
    match escape? c with
    | some _ => skipText s
    | none => .error .invalidEscape
  | ['\\'] => .error .endInText
  | c :: s =>
    if c = '"' then .ok s
    else if c.toNat < 0x20 then .error .controlCharacter
    else skipText s
  | [] => .error .endInText

/-- The token of a text whose opening quote was taken off, and what follows it. -/
def textToken (s : List Char) : Token × List Char :=
  let exact := (unescape none s).map String.ofList
  match skipText s with
  | .ok rest => (.text exact none, rest)
  | .error cause => (.text exact (some cause), [])

/-! ## The token list -/

/-- Whether a character may stand between tokens. -/
def isSpace (c : Char) : Bool := c == ' ' || c == '\n' || c == '\t' || c == '\r'

/-- The token of a word that has to go on with the given letters. -/
def wordToken (letters : List Char) (token : Token) (s : List Char) : Token × List Char :=
  if letters.isPrefixOf s then (token, s.drop letters.length)
  else if s.isPrefixOf letters then (.badWord .endInValue, [])
  else (.badWord .expectedWord, [])

/-- The token that begins with a character, and what follows it. -/
def tokenAt (c : Char) (s : List Char) : Token × List Char :=
  match c with
  | '{' => (.openObject, s)
  | '}' => (.closeObject, s)
  | '[' => (.openList, s)
  | ']' => (.closeList, s)
  | ':' => (.colon, s)
  | ',' => (.comma, s)
  | 'n' => wordToken ['u', 'l', 'l'] .null s
  | 't' => wordToken ['r', 'u', 'e'] (.boolean true) s
  | 'f' => wordToken ['a', 'l', 's', 'e'] (.boolean false) s
  | '"' => textToken s
  | '-' => let n := splitNumeral true s; (n.token, n.rest)
  | c => if c.isDigit then let n := splitNumeral false (c :: s); (n.token, n.rest) else (.stray, [])

/-- Whether nothing can be read behind a token. -/
def Token.isLast : Token → Bool
  | .number _ skipped? => skipped?.isSome
  | .text _ skipped? => skipped?.isSome
  | .badWord _ | .stray => true
  | _ => false

/-- The tokens of a text of at most `fuel` characters. -/
def tokensWithin : Nat → List Char → List Token
  | 0, _ => []
  | _, [] => []
  | fuel + 1, c :: s =>
    if isSpace c then tokensWithin fuel s
    else
      let (token, rest) := tokenAt c s
      if token.isLast then [token] else token :: tokensWithin fuel rest

/-- The tokens of a text, up to the first that cannot be skipped. -/
def tokens (s : String) : List Token := tokensWithin s.length s.toList

end SegmentedDownload.Json
