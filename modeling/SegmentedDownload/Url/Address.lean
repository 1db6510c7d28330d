import SegmentedDownload.Bytes

/-!
# SegmentedDownload.Url.Address

Numeric addresses of hosts.

* `v4?` reads one to four numbers between points. A number may be decimal,
  octal behind a `0` or hexadecimal behind `0x`; the last one fills all the
  bytes that the others leave.
* `isNumeric` tells whether a host name has to be such an address, because its
  last part is a number.
* `v6?` reads eight groups of up to four hexadecimal digits between colons. Two
  colons stand, once, for as many zero groups as are missing, and four decimal
  numbers between points may take the place of the last two groups.
-/

namespace SegmentedDownload.Address

def digitValue? (base : Nat) (c : Char) : Option Nat :=
  let n := c.toNat
  let value? :=
    if 48 ≤ n ∧ n ≤ 57 then some (n - 48)
    else if 65 ≤ n ∧ n ≤ 70 then some (n - 55)
    else if 97 ≤ n ∧ n ≤ 102 then some (n - 87)
    else none
  value?.filter (· < base)

def value? (base : Nat) (s : List Char) : Option Nat :=
  s.foldlM (fun n c => (digitValue? base c).map (base * n + ·)) 0

/-! ## Four bytes -/

/-- A number with the mark of its base. -/
def number? : List Char → Option Nat
  | [] => none
  | '0' :: 'x' :: digits | '0' :: 'X' :: digits => value? 16 digits
  | '0' :: d :: digits => value? 8 (d :: digits)
  | digits => value? 10 digits

/-- The parts of a name, less the empty one behind a point at its end. -/
def parts (name : List Char) : List (List Char) :=
  let parts := name.splitOn '.'
  if parts.getLast? = some [] then parts.dropLast else parts

/-- Whether the last part of a name is a number. -/
def isNumeric (name : List Char) : Bool :=
  match (parts name).getLast? with
  | some last => (!last.isEmpty && last.all Char.isDigit) || (number? last).isSome
  | none => false

def v4? (name : List Char) : Option Nat := do
  let numbers ← (parts name).mapM number?
  let last ← numbers.getLast?
  let front := numbers.dropLast
  if front.length ≤ 3 ∧ front.all (· < 256) = true ∧ last < Nat.pow 256 (4 - front.length) then
    return front.foldl (256 * · + ·) 0 * Nat.pow 256 (4 - front.length) + last
  else none

/-! ## Eight groups -/

/-- A decimal number below 256 that does not begin with a zero. -/
def byte? : List Char → Option Nat
  | [] => none
  | ['0'] => some 0
  | '0' :: _ => none
  | digits => (value? 10 digits).filter (· < 256)

/-- The two groups that four decimal numbers stand for. -/
def groupPair? (s : List Char) : Option (List Nat) := do
  match ← (s.splitOn '.').mapM byte? with
  | [a, b, c, d] => return [256 * a + b, 256 * c + d]
  | _ => none

/-- The groups of an address in the order of the text: those before the two
colons, and those behind if there are two colons. -/
structure Groups where
  front : List Nat := []
  back? : Option (List Nat) := none
deriving Repr, DecidableEq

namespace Groups

/-- Number of groups, where the two colons count for one. -/
def count (g : Groups) : Nat :=
  g.front.length + match g.back? with
    | none => 0
    | some back => back.length + 1

/-- Add groups at the end. -/
def add (g : Groups) (more : List Nat) : Groups :=
  match g.back? with
  | none => { g with front := g.front ++ more }
  | some back => { g with back? := some (back ++ more) }

/-- All eight groups. -/
def all? (g : Groups) : Option (List Nat) :=
  match g.back? with
  | none => if g.front.length = 8 then some g.front else none
  | some back => some (g.front ++ List.replicate (8 - g.front.length - back.length) 0 ++ back)

end Groups

/-- Read groups up to the end of a text. Every step takes a character off the
text, so its length bounds their number. -/
def groups? : Nat → Groups → List Char → Option Groups
  | _, g, [] => some g
  | 0, _, _ => none
  | fuel + 1, g, s =>
    if g.count = 8 then none
    else match s with
      | ':' :: rest =>
        if g.back?.isSome then none else groups? fuel { g with back? := some [] } rest
      | s => do
        let digits := (s.take 4).takeWhile fun c => (digitValue? 16 c).isSome
        let group ← value? 16 digits
        match s.drop digits.length with
        | [] => return g.add [group]
        | [':'] => none
        | ':' :: rest => groups? fuel (g.add [group]) rest
        | '.' :: _ =>
          if g.count ≤ 6 then return g.add (← groupPair? s) else none
        | _ => none

def v6? : List Char → Option (List Nat)
  | ':' :: ':' :: rest => groups? rest.length { back? := some [] } rest >>= Groups.all?
  | ':' :: _ => none
  | [] => none
  | [_] => none
  | s => groups? s.length {} s >>= Groups.all?

end SegmentedDownload.Address
