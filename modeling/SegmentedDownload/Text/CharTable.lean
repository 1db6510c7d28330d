import SegmentedDownload.Text.Blank

/-!
# SegmentedDownload.Text.CharTable

Properties of characters as tables.

* A `CharTable` gives every character a number. It is written as runs of
  characters, one behind the other from code point 0 on: the number that the run
  has, in capital letters as digits of base 26, and its length, in small
  hexadecimal digits. `A300B70` gives 0 to the first 768 characters and 1 to the
  112 behind them. Blanks between runs do not count, and characters behind the
  last run have the number 0.
* A `CharMap` gives some characters a text. It is written as entries between
  blanks: the distance from the first character of the entry before, a colon, and
  the code points of the text between commas, all in hexadecimal digits. Between
  distance and colon there may be a count: `-3` says that the entry is also for
  the next two characters, whose texts follow one another in the same way, `+3`
  does so for every other character, and `=3` gives one text to all.
-/

namespace SegmentedDownload.Text

def hexDigitValue (c : Char) : Nat := if c.isDigit then c.toNat - 48 else c.toNat - 87

def hexValue (digits : List Char) : Nat := digits.foldl (fun n c => 16 * n + hexDigitValue c) 0

/-! ## Numbers -/

/-- Characters that follow one another and have the same number. -/
structure CharRun where
  value : Nat := 0
  length : Nat := 0
deriving Repr, DecidableEq

/-- A number for every character. -/
structure CharTable where
  runs : List CharRun
deriving Repr, DecidableEq

namespace CharTable

/-- The runs of a text, given what was read of the present one. -/
def readRuns (run : CharRun) : List Char → List CharRun
  | [] => [run]
  | c :: rest =>
    if c.isUpper then
      if run.length = 0 then readRuns { run with value := 26 * run.value + (c.toNat - 65) } rest
      else run :: readRuns { value := c.toNat - 65 } rest
    else if isBlank c then readRuns run rest
    else readRuns { run with length := 16 * run.length + hexDigitValue c } rest

def ofText (text : String) : CharTable := { runs := readRuns {} text.toList }

/-- The number at a distance from the beginning of some runs. -/
def valueAt (n : Nat) : List CharRun → Nat
  | [] => 0
  | run :: rest => if n < run.length then run.value else valueAt (n - run.length) rest

def value (table : CharTable) (c : Char) : Nat := valueAt c.toNat table.runs

/-- Whether a table, taken for a set, holds a character. -/
def contains (table : CharTable) (c : Char) : Bool := table.value c != 0

end CharTable

/-! ## Texts -/

/-- Texts for `count` characters, which are `step` apart from `first` on. The first
code point of a text grows by `growth` from one to the next. -/
structure CharMapEntry where
  first : Nat
  count : Nat := 1
  step : Nat := 1
  growth : Nat := 1
  text : List Nat
deriving Repr, DecidableEq

namespace CharMapEntry

/-- Read an entry, given the first character of the one before. -/
def read (previous : Nat) (word : List Char) : CharMapEntry :=
  let word := word.filter (!isBlank ·)
  let place := word.takeWhile (· ≠ ':')
  let text := ((word.drop (place.length + 1)).splitOn ',').map hexValue
  let distance := place.takeWhile Char.isAlphanum
  let first := previous + hexValue distance
  match place.drop distance.length with
  | '-' :: count => { first, count := hexValue count, text }
  | '+' :: count => { first, count := hexValue count, step := 2, growth := 2, text }
  | '=' :: count => { first, count := hexValue count, growth := 0, text }
  | _ => { first, text }

def get? (entry : CharMapEntry) (n : Nat) : Option (List Char) :=
  let index := (n - entry.first) / entry.step
  if entry.first ≤ n ∧ index < entry.count ∧ (n - entry.first) % entry.step = 0 then
    match entry.text with
    | [] => some []
    | head :: tail => some (((head + index * entry.growth) :: tail).map Char.ofNat)
  else none

end CharMapEntry

/-- A text for some characters. -/
structure CharMap where
  entries : List CharMapEntry
deriving Repr, DecidableEq

namespace CharMap

/-- The entries that words describe, given the first character of the entry before. -/
def readEntries (previous : Nat) : List (List Char) → List CharMapEntry
  | [] => []
  | word :: rest =>
    let entry := CharMapEntry.read previous word
    entry :: readEntries entry.first rest

def ofText (text : String) : CharMap :=
  { entries := readEntries 0 ((text.toList.splitOn ' ').filter (!·.isEmpty)) }

def get? (map : CharMap) (c : Char) : Option (List Char) :=
  map.entries.findSome? (·.get? c.toNat)

end CharMap

end SegmentedDownload.Text
