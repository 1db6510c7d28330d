import SegmentedDownload.Bytes

/-!
# SegmentedDownload.Certificate.Armor

Binary data in text files, between a line `-----BEGIN NAME-----` and a line
`-----END NAME-----`, in groups of four characters for three bytes.

* Lines before a block do not count, nor do blanks and bytes outside of ASCII at
  the end of a line, nor the rest of a line behind a NUL. A line of more than 254
  bytes is read in parts.
* A block may begin with headers, which an empty line ends. A colon shows that
  there are some; without a colon, what stands above an empty line is a header all
  the same. Below the empty line the lines have 64 characters, but for the last.
-/

namespace SegmentedDownload.Armor

/-! ## Groups of four characters -/

/-- The six bits that a character stands for. -/
def sixBits? (b : UInt8) : Option Nat :=
  let n := b.toNat
  if 65 ≤ n ∧ n ≤ 90 then some (n - 65)
  else if 97 ≤ n ∧ n ≤ 122 then some (n - 71)
  else if 48 ≤ n ∧ n ≤ 57 then some (n + 4)
  else if n = 43 then some 62
  else if n = 47 then some 63
  else none

/-- The bytes of a group whose last `missing` characters are only filling. -/
def group (value missing : Nat) : Bytes :=
  [UInt8.ofNat (value / 65536), UInt8.ofNat (value / 256), UInt8.ofNat value].take (3 - missing)

/-- The value of a group. -/
def value? (digits : Bytes) : Option Nat :=
  digits.foldlM (fun n b => (sixBits? b).map (64 * n + ·)) 0

/-- The bytes that some characters stand for. -/
def decode? : Bytes → Option Bytes
  | [] => some []
  | [a, b, 61, 61] => (value? [a, b, 65, 65]).map (group · 2)
  | [a, b, c, 61] => (value? [a, b, c, 65]).map (group · 1)
  | a :: b :: c :: d :: rest => do
    let value ← value? [a, b, c, d]
    return group value 0 ++ (← decode? rest)
  | _ => none

/-- The bytes that some lines stand for, up to the first hyphen. There is at least
one. -/
def decodeLines? (lines : List Bytes) : Option Bytes := do
  let characters := (lines.flatten.takeWhile (· ≠ 45)).filter fun b => b ≠ 32 ∧ b ≠ 9 ∧ b ≠ 13
  let data ← decode? characters
  if data.isEmpty then none else return data

/-! ## Lines -/

/-- A line of a file, or a part of one. -/
structure Line where
  /-- Its bytes without those at its end that do not count. -/
  bytes : Bytes
  /-- Whether a colon stands anywhere in it. -/
  hasColon : Bool
  /-- Whether another part of the line follows. -/
  isPart : Bool
deriving Repr, DecidableEq

/-- What stands in front of a NUL. -/
def beforeNul (bs : Bytes) : Bytes := bs.takeWhile (· ≠ 0)

/-- Most bytes of a line that are read at once. -/
def lineBound : Nat := 254

/-- Whether a byte does not count at the end of a line. -/
def isTrailing (b : UInt8) : Bool := decide (b ≤ 32) || decide (128 ≤ b)

def Line.ofBytes (bs : Bytes) (isPart : Bool) : Line :=
  { bytes := (bs.reverse.dropWhile isTrailing).reverse, hasColon := bs.contains 58, isPart }

/-- The lines of a file, given the bytes of the present one, the last one first. -/
def linesFrom (present : Bytes) : Bytes → List Line
  | [] => if present.isEmpty then [] else [.ofBytes present.reverse (present.length == lineBound)]
  | b :: rest =>
    if present.length = lineBound then
      .ofBytes present.reverse true ::
        (if b = 10 then .ofBytes [] false :: linesFrom [] rest else linesFrom [b] rest)
    else if b = 10 then .ofBytes present.reverse false :: linesFrom [] rest
    else linesFrom (b :: present) rest

def lines (file : Bytes) : List Line := linesFrom [] file

/-! ## Blocks -/

/-- The name of the block that a line begins. -/
def blockName? (line : Bytes) : Option Bytes :=
  let first := Bytes.ofText "-----BEGIN "
  let last := Bytes.ofText "-----"
  let name := (line.drop first.length).take (line.length - first.length - last.length)
  if line = first ++ name ++ last then some (beforeNul name) else none

structure Block where
  name : Bytes
  headers : List Bytes := []
  body : List Bytes := []
deriving Repr, DecidableEq

/-- Which part of a block a line belongs to. -/
inductive Place
  /-- The headers, or the body if no empty line follows. -/
  | start
  | headers
  | body
  /-- Behind the last line of the body. -/
  | done
deriving Repr, DecidableEq

/-- Most characters of a line of the body behind an empty line. -/
def bodyWidth : Nat := 64

/-- Read the rest of a block, given its headers and its body so far, with the last
lines first. Returns what follows it. -/
def readBlock (block : Block) (place : Place) (afterPart : Bool) :
    List Line → Option (Block × List Line)
  | [] => none
  | line :: rest =>
    let place := if place = .start ∧ line.hasColon then .headers else place
    if line.bytes.isEmpty then
      if afterPart then readBlock block place line.isPart rest
      else match place with
        | .start | .headers => readBlock block .body line.isPart rest
        | .body | .done => none
    else if (Bytes.ofText "-----END ").isPrefixOf line.bytes then
      if line.bytes = Bytes.ofText "-----END " ++ block.name ++ Bytes.ofText "-----" then
        match place with
        | .start => some ({ block with headers := [], body := block.headers.reverse }, rest)
        | _ => some ({ block with headers := block.headers.reverse, body := block.body.reverse },
                 rest)
      else none
    else match place with
      | .start | .headers =>
        readBlock { block with headers := beforeNul line.bytes :: block.headers } place
          line.isPart rest
      | .body =>
        if bodyWidth < line.bytes.length then none
        else readBlock { block with body := beforeNul line.bytes :: block.body }
          (if line.bytes.length < bodyWidth then .done else .body) line.isPart rest
      | .done => none

/-- The mark of a text file that may stand in front of everything. -/
def fileMark : Bytes := [0xef, 0xbb, 0xbf]

/-- The first block of some lines, and what follows it. -/
def nextBlock? (first : Bool) : List Line → Option (Block × List Line)
  | [] => none
  | line :: rest =>
    let isMarked := first && fileMark.isPrefixOf line.bytes
    match blockName? (if isMarked then line.bytes.drop fileMark.length else line.bytes) with
    | some name => readBlock { name } .start false rest
    | none => nextBlock? false rest

/-- The bytes of the first block with one of the given names and without headers.
Each block takes lines, so their number bounds that of the blocks. -/
def findFrom (names : List String) : (fuel : Nat) → List Line → Option Bytes
  | 0, _ => none
  | fuel + 1, lines => do
    let (block, rest) ← nextBlock? true lines
    let data ← decodeLines? block.body
    if names.any (Bytes.ofText · = block.name) then
      if block.headers.all (·.isEmpty) then return data else none
    else findFrom names fuel rest

/-- The bytes of the first block of a file with one of the given names. No block
in front of it is malformed, and it has no headers. -/
def find? (names : List String) (file : Bytes) : Option Bytes :=
  let lines := lines file
  findFrom names lines.length lines

end SegmentedDownload.Armor
