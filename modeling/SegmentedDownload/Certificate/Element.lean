import SegmentedDownload.Bytes

/-!
# SegmentedDownload.Certificate.Element

Nested binary elements: a tag, the length of the contents, the contents.

* A tag is a family and a number. A number above 30 is written behind the first
  byte, in groups of seven bits.
* A length below 128 is one byte, and a longer one is written behind the number
  of its bytes. The length of an element that is made of others may be left open:
  then two zero bytes mark the end of its contents.
* The contents of a text may come in pieces, each of them an element.

A `Reader` takes one element off the front of some bytes. A record is made of
fields in a fixed order (`readRecord`), a list of any number of equal items
(`readList`).
-/

namespace SegmentedDownload

/-! ## Headers -/

/-- What an element is. -/
structure Tag where
  /-- 0 for a type of all grammars, 2 for a meaning that depends on the place. -/
  family : Nat
  number : Nat
deriving Repr, DecidableEq

namespace Tag

/-- A type of all grammars. -/
def general (number : Nat) : Tag := { family := 0, number }

/-- A tag whose meaning depends on its place. -/
def contextual (number : Nat) : Tag := { family := 2, number }

def boolean : Tag := general 1
def integer : Tag := general 2
def bits : Tag := general 3
def bytes : Tag := general 4
def null : Tag := general 5
def identifier : Tag := general 6
def enumerated : Tag := general 10
def text : Tag := general 12
def record : Tag := general 16
def set : Tag := general 17
def shortMoment : Tag := general 23
def longMoment : Tag := general 24
def wideText : Tag := general 28
def doubleText : Tag := general 30

end Tag

/-- An element whose header was read. -/
structure Element where
  tag : Tag
  /-- Whether it is made of other elements. -/
  isNested : Bool
  /-- Whether the end of the contents is marked instead of counted. -/
  isMarked : Bool
  /-- The contents. If their end is marked, all that follows the header. -/
  contents : Bytes
  /-- What follows contents whose end is counted. -/
  rest : Bytes
deriving Repr, DecidableEq

/-- Take an element off the front of some bytes. -/
abbrev Reader := Bytes → Option Bytes

namespace Element

/-- The number that some bytes stand for, the most significant first. -/
def number (bs : Bytes) : Nat := bs.foldl (256 * · + ·.toNat) 0

/-- The number of a tag in groups of seven bits, and what follows it. -/
def tagNumber? (number : Nat) : Bytes → Option (Nat × Bytes)
  | [] => none
  | b :: rest =>
    let number := 128 * number + b.toNat % 128
    if b < 128 then some (number, rest)
    else if 0xffffff < number then none
    else tagNumber? number rest

/-- A tag with the bit that says whether the element is made of others, and what
follows them. -/
def tag? : Bytes → Option (Tag × Bool × Bytes)
  | [] => none
  | b :: rest =>
    let family := b.toNat / 64
    let isNested := b.toNat / 32 % 2 == 1
    if b.toNat % 32 < 31 then some ({ family, number := b.toNat % 32 }, isNested, rest)
    else (tagNumber? 0 rest).map fun (number, rest) => ({ family, number }, isNested, rest)

/-- A length, which may be left open, and what follows it. A long one is followed
by something. -/
def length? : Bytes → Option (Option Nat × Bytes)
  | [] => none
  | b :: rest =>
    if b < 128 then some (some b.toNat, rest)
    else if b = 128 then some (none, rest)
    else
      let size := b.toNat - 128
      let length := number (rest.take size)
      if size < rest.length ∧ length < 0x8000000000000000 then
        some (some length, rest.drop size)
      else none

/-- The element at the front of some bytes, which hold it whole. -/
def open? (bs : Bytes) : Option Element := do
  let (tag, isNested, rest) ← tag? bs
  let (length?, rest) ← length? rest
  match length? with
  | none =>
    if isNested then return { tag, isNested, isMarked := true, contents := rest, rest := [] }
    else none
  | some length =>
    if length ≤ rest.length then
      return { tag, isNested, isMarked := false, contents := rest.take length,
               rest := rest.drop length }
    else none

/-! ## Ends -/

/-- Whether some bytes begin with the mark that ends contents. -/
def isAtMark : Bytes → Bool
  | 0 :: 0 :: _ => true
  | _ => false

/-- Whether no further element begins some bytes. -/
def isAtEnd (bs : Bytes) : Bool := bs.isEmpty || isAtMark bs

/-- What follows an element, given what is left of its contents. -/
def finish (e : Element) (left : Bytes) : Option Bytes :=
  if e.isMarked then if isAtMark left then some (left.drop 2) else none
  else if left.isEmpty then some e.rest else none

/-- What follows the mark that ends contents inside of some more that end by a
mark. Each step takes bytes, so their number bounds that of the steps. -/
def skipMarked : (fuel more : Nat) → Bytes → Option Bytes
  | 0, _, _ => none
  | fuel + 1, more, bs =>
    if isAtMark bs then
      if more = 0 then some (bs.drop 2) else skipMarked fuel (more - 1) (bs.drop 2)
    else do
      let e ← open? bs
      if e.isMarked then skipMarked fuel (more + 1) e.contents else skipMarked fuel more e.rest

/-- What follows an element whose contents do not matter. -/
def skip (e : Element) : Option Bytes :=
  if e.isMarked then skipMarked e.contents.length 0 e.contents else some e.rest

/-! ## Contents without elements -/

/-- Most levels of pieces that are made of pieces. -/
def pieceDepth : Nat := 5

/-- The contents of all pieces in some bytes, and what is left behind them. Each
piece takes bytes, so their number bounds that of the steps. -/
def pieces? : (fuel depth : Nat) → Bytes → Option (Bytes × Bytes)
  | 0, _, bs => if isAtEnd bs then some ([], bs) else none
  | fuel + 1, depth, bs =>
    if isAtEnd bs then some ([], bs)
    else do
      let e ← open? bs
      let (data, rest) ←
        if e.isNested then
          match depth with
          | 0 => none
          | depth + 1 =>
            let (data, left) ← pieces? fuel depth e.contents
            pure (data, ← e.finish left)
        else some (e.contents, e.rest)
      let (more, left) ← pieces? fuel depth rest
      return (data ++ more, left)

/-- Whether the contents of a type cannot come in pieces. -/
def isWhole (tag : Tag) : Bool :=
  [.boolean, .integer, .null, .identifier, .enumerated].contains tag

/-- The contents of an element that is not made of others, and what follows it. -/
def data? (type : Tag) (e : Element) : Option (Bytes × Bytes) :=
  if e.isNested then
    if isWhole type then none
    else do
      let (data, left) ← pieces? e.contents.length pieceDepth e.contents
      return (data, ← e.finish left)
  else some (e.contents, e.rest)

/-- Whether an integer is written with as few bytes as possible. -/
def isShortInteger : Bytes → Bool
  | [] => false
  | [_] => true
  | a :: b :: _ => !(a == 0 && b < 128) && !(a == 255 && 128 ≤ b)

/-- Whether no number of an identifier begins with an empty group of bits. -/
def isShortIdentifier (first : Bool) : Bytes → Bool
  | [] => true
  | b :: rest => !(first && b == 128) && isShortIdentifier (b < 128) rest

/-- Whether some bytes can be the contents of a type. -/
def areContents (type : Tag) (data : Bytes) : Bool :=
  if type = .boolean then data.length == 1
  else if type = .integer ∨ type = .enumerated then isShortInteger data
  -- the first byte says how many bits the last one lacks
  else if type = .bits then data.head?.any (· ≤ 7)
  else if type = .null then data.isEmpty
  else if type = .identifier then
    data.getLast?.any (· < 128) && isShortIdentifier true data
  else if type = .shortMoment then decide (13 ≤ data.length)
  else if type = .longMoment then decide (15 ≤ data.length)
  else if type = .wideText then data.length % 4 == 0
  else if type = .doubleText then data.length % 2 == 0
  else true

/-- Read an element with a tag whose contents are those of a type, and check them. -/
def readData (tag type : Tag) (check : Bytes → Bool) : Reader := fun bs => do
  let e ← open? bs
  let (data, rest) ← if e.tag = tag then e.data? type else none
  if areContents type data && check data then return rest else none

def readType (type : Tag) : Reader := readData type type fun _ => true

def readAny : Reader := fun bs => do
  let e ← open? bs
  if e.tag.family ≠ 0 then e.skip
  else if e.tag = .record ∨ e.tag = .set then if e.isNested then e.skip else none
  else readType e.tag bs

/-! ## Contents made of elements -/

structure Field where
  read : Reader
  /-- The tag of a field that may be missing. -/
  optional? : Option Tag := none

def Field.isOptional (field : Field) : Bool := field.optional?.isSome

/-- Read the fields of a record up to its end, and return what is left. The last
field is not missing as long as anything is left. -/
def readFields : List Field → Reader
  | [], bs => some bs
  | field :: fields, bs =>
    if isAtEnd bs then
      if (field :: fields).all Field.isOptional then some bs else none
    else do
      let e ← open? bs
      if field.optional?.any (· ≠ e.tag) && !fields.isEmpty then readFields fields bs
      else readFields fields (← field.read bs)

def readRecord (fields : List Field) : Reader := fun bs => do
  let e ← open? bs
  if e.tag = .record ∧ e.isNested then e.finish (← readFields fields e.contents) else none

/-- Read items up to the end of their list, and return what is left. Each item
takes bytes, so their number bounds that of the items. -/
def readItems (item : Reader) : (fuel : Nat) → Reader
  | 0, bs => if isAtEnd bs then some bs else none
  | fuel + 1, bs => if isAtEnd bs then some bs else item bs >>= readItems item fuel

def readList (tag : Tag) (item : Reader) : Reader := fun bs => do
  let e ← open? bs
  if e.tag = tag then e.finish (← readItems item e.contents.length e.contents) else none

def readInside (tag : Tag) (inner : Reader) : Reader := fun bs => do
  let e ← open? bs
  if e.tag = tag ∧ e.isNested then e.finish (← inner e.contents) else none

end Element

end SegmentedDownload
