import SegmentedDownload.Text.Blank

/-!
# SegmentedDownload.Timestamp

Moments of universal time, and their text in the date and time format of the
internet: `2024-01-02T03:04:05.678Z`.

Reading is relaxed: blanks may surround the parts, the year may have a sign and
then any number of digits, the letter between date and time may be small or a
blank, and the offset may be `Z`, `UTC` or hours and minutes with or without a
colon. A text is refused for the first part that does not fit. Writing uses as
few of three, six or nine places for the fraction of a second as it needs, and
none when it is zero. The sixtieth second of a minute with a leap second is kept
as the fifty-ninth with a fraction of a second or more.
-/

namespace SegmentedDownload

structure Day where
  year : Int
  month : Nat
  day : Nat
deriving Repr, DecidableEq, Inhabited

structure Timestamp where
  day : Day
  /-- Seconds since midnight. -/
  seconds : Nat
  nanoseconds : Nat
deriving Repr, DecidableEq, Inhabited

inductive TimestampError
  | outOfRange
  | impossible
  | invalid
  | tooShort
  | tooLong
deriving Repr, DecidableEq

def TimestampError.message : TimestampError → String
  | outOfRange => "input is out of range"
  | impossible => "no possible date and time matching input"
  | invalid => "input contains invalid characters"
  | tooShort => "premature end of input"
  | tooLong => "trailing input"

namespace Day

/-- Whether a year has a twenty-ninth of February. -/
def isLeap (year : Int) : Bool := year % 4 = 0 ∧ (year % 100 ≠ 0 ∨ year % 400 = 0)

def monthLength (year : Int) (month : Nat) : Nat :=
  if month = 2 then if isLeap year then 29 else 28
  else if month = 4 ∨ month = 6 ∨ month = 9 ∨ month = 11 then 30 else 31

/-- The earliest and the latest year of the calendar. -/
def minYear : Int := -262143
def maxYear : Int := 262142

def isValid (d : Day) : Bool :=
  decide (minYear ≤ d.year ∧ d.year ≤ maxYear ∧ 1 ≤ d.month ∧ d.month ≤ 12 ∧ 1 ≤ d.day ∧
    d.day ≤ monthLength d.year d.month)

/-- The day after, if it is in the calendar. -/
def next? (d : Day) : Option Day :=
  let d :=
    if d.day < monthLength d.year d.month then { d with day := d.day + 1 }
    else if d.month < 12 then { d with month := d.month + 1, day := 1 }
    else { year := d.year + 1, month := 1, day := 1 }
  if d.isValid then some d else none

/-- The day before, if it is in the calendar. -/
def previous? (d : Day) : Option Day :=
  let d :=
    if 1 < d.day then { d with day := d.day - 1 }
    else if 1 < d.month then
      { d with month := d.month - 1, day := monthLength d.year (d.month - 1) }
    else { year := d.year - 1, month := 12, day := 31 }
  if d.isValid then some d else none

end Day

namespace Timestamp

/-- What a part of the text stands for, and the characters behind it. -/
abbrev Part (α : Type) := Except TimestampError (α × List Char)

/-! ## Parts -/

def byteLength (s : List Char) : Nat := s.foldr (fun c n => c.utf8Size + n) 0

/-- The digits in front, at most `most` of them, as a number below `2^63`. -/
def number (most : Nat) (s : List Char) : Part Nat :=
  let digits := (s.take most).takeWhile Char.isDigit
  if s.isEmpty then .error .tooShort
  else if digits.isEmpty then .error .invalid
  else
    let n := digits.foldl (fun n c => n * 10 + (c.toNat - 48)) 0
    if 9223372036854775807 < n then .error .outOfRange else .ok (n, s.drop digits.length)

/-- The digits in front between two bounds, after blanks. -/
def field (lo hi : Nat) (s : List Char) : Part Nat :=
  match number 2 (Text.trimStart s) with
  | .error e => .error e
  | .ok (n, s) => if lo ≤ n ∧ n ≤ hi then .ok (n, s) else .error .outOfRange

/-- A year: four digits, or a sign and any number of digits. -/
def year (s : List Char) : Part Int :=
  let checked (sign : Int) : Part Nat → Part Int
    | .error e => .error e
    | .ok (n, s) =>
      let n := sign * n
      if -2147483648 ≤ n ∧ n ≤ 2147483647 then .ok (n, s) else .error .outOfRange
  match Text.trimStart s with
  | '-' :: s => checked (-1) (number s.length s)
  | '+' :: s => checked 1 (number s.length s)
  | s => checked 1 (number 4 s)

/-- The given character, after blanks. -/
def literal (c : Char) (s : List Char) : Except TimestampError (List Char) :=
  match Text.trimStart s with
  | [] => .error .tooShort
  | d :: s => if d = c then .ok s else .error .invalid

/-- The fraction of a second, in nanoseconds. Places behind the ninth are dropped. -/
def fraction (s : List Char) : Part Nat :=
  match s with
  | '.' :: s =>
    match number 9 s with
    | .error e => .error e
    | .ok (n, rest) =>
      let places := s.length - rest.length
      .ok (n * Nat.pow 10 (9 - places), rest.dropWhile Char.isDigit)
  | s => .ok (0, s)

def pair (s : List Char) : Except TimestampError (Char × Char × List Char) :=
  if byteLength s < 2 then .error .tooShort
  else match s with
    | a :: b :: s => if a.isDigit ∧ b.isDigit then .ok (a, b, s) else .error .invalid
    | _ => .error .invalid

def pairValue (a b : Char) : Nat := (a.toNat - 48) * 10 + (b.toNat - 48)

/-- The offset from universal time in seconds. -/
def offset (s : List Char) : Part Int :=
  let behindSign (sign : Int) (s : List Char) : Except TimestampError (Int × List Char) := do
    let (a, b, s) ← pair s
    let hours := pairValue a b
    let s := s.dropWhile fun c => c == ':' || Text.isBlank c
    if byteLength s < 2 then .error .tooShort
    else
      match s with
      | a :: b :: s =>
        if a.isDigit ∧ b.isDigit then
          if '6' ≤ a then .error .outOfRange
          else .ok (sign * (hours * 3600 + pairValue a b * 60 : Nat), s)
        else .error .invalid
      | _ => .error .invalid
  match s with
  | [] => .error .tooShort
  | 'Z' :: s | 'z' :: s => .ok (0, s)
  | '+' :: s => behindSign 1 s
  | '-' :: s | '−' :: s => behindSign (-1) s
  | _ => .error .invalid

/-- The zone: `UTC` in any case, or an offset. -/
def zone (s : List Char) : Part Int :=
  match s with
  | u :: t :: c :: rest =>
    if (u = 'U' ∨ u = 'u') ∧ (t = 'T' ∨ t = 't') ∧ (c = 'C' ∨ c = 'c') then .ok (0, rest)
    else offset s
  | s => offset s

/-! ## Reading and writing -/

/-- The moment at which clocks with an offset show a local time. -/
def ofLocal (day : Day) (seconds nanoseconds : Nat) (offset : Int) :
    Except TimestampError Timestamp :=
  let shifted : Int := seconds - offset
  if shifted < 0 then
    match day.previous? with
    | some day => .ok ⟨day, (shifted + 86400).toNat, nanoseconds⟩
    | none => .error .impossible
  else if 86400 ≤ shifted then
    match day.next? with
    | some day => .ok ⟨day, (shifted - 86400).toNat, nanoseconds⟩
    | none => .error .impossible
  else .ok ⟨day, shifted.toNat, nanoseconds⟩

def ofText (text : String) : Except TimestampError Timestamp := do
  let (year, s) ← year text.toList
  let s ← literal '-' s
  let (month, s) ← field 1 12 s
  let s ← literal '-' s
  let (day, s) ← field 1 31 s
  let s ← match s with
    | [] => .error .tooShort
    | c :: s => if c = 't' ∨ c = 'T' ∨ c = ' ' then .ok s else .error .invalid
  let (hour, s) ← field 0 23 s
  let s ← literal ':' s
  let (minute, s) ← field 0 59 s
  let s ← literal ':' s
  let (second, s) ← field 0 60 s
  let (nanoseconds, s) ← fraction s
  let (offset, s) ← zone (Text.trimStart s)
  if !Text.isAllBlank s then .error .tooLong
  else
    let day : Day := ⟨year, month, day⟩
    if !day.isValid then .error .outOfRange
    else if ¬ (-86400 < offset ∧ offset < 86400) then .error .outOfRange
    else
      let leap := second = 60
      ofLocal day (hour * 3600 + minute * 60 + if leap then 59 else second)
        (if leap then 1000000000 + nanoseconds else nanoseconds) offset

/-- A number with at least `width` digits. -/
def padded (width n : Nat) : String :=
  let digits := Nat.toDigits 10 n
  String.ofList (List.replicate (width - digits.length) '0' ++ digits)

def yearText (year : Int) : String :=
  if 0 ≤ year ∧ year ≤ 9999 then padded 4 year.toNat
  else (if year < 0 then "-" else "+") ++ padded 4 year.natAbs

def fractionText (nanoseconds : Nat) : String :=
  if nanoseconds = 0 then ""
  else if nanoseconds % 1000000 = 0 then "." ++ padded 3 (nanoseconds / 1000000)
  else if nanoseconds % 1000 = 0 then "." ++ padded 6 (nanoseconds / 1000)
  else "." ++ padded 9 nanoseconds

def toText (t : Timestamp) : String :=
  let second := t.seconds % 60 + t.nanoseconds / 1000000000
  yearText t.day.year ++ "-" ++ padded 2 t.day.month ++ "-" ++ padded 2 t.day.day ++ "T" ++
    padded 2 (t.seconds / 3600) ++ ":" ++ padded 2 (t.seconds / 60 % 60) ++ ":" ++
    padded 2 second ++ fractionText (t.nanoseconds % 1000000000) ++ "Z"

def epoch : Timestamp := ⟨⟨1970, 1, 1⟩, 0, 0⟩

end Timestamp

end SegmentedDownload
