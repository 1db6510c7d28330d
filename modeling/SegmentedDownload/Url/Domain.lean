import SegmentedDownload.Url.Domain.Composition
import SegmentedDownload.Url.Domain.Direction
import SegmentedDownload.Url.Domain.Joiner
import SegmentedDownload.Url.Domain.Mapping
import SegmentedDownload.Url.Address
import SegmentedDownload.Url.Punycode

/-!
# SegmentedDownload.Url.Domain

Host names that may hold characters outside of ASCII.

`normalize?` brings a name into the form in which names are compared, and refuses
one

* with a character that a URL reserves, or that has no place in a name;
* with a part that begins with a mark, or that holds a joiner where it cannot
  join;
* with a part behind `xn--` that is no encoded name, or that encodes a name in
  another form;
* whose parts mix directions;
* with a part outside of ASCII that is too long.
-/

namespace SegmentedDownload.Domain

/-- ASCII characters that a host name cannot hold. -/
def isForbidden (c : Char) : Bool :=
  decide (c.toNat ≤ 0x20) || c.toNat == 0x7f ||
    ['%', '#', '/', ':', '<', '>', '?', '@', '[', '\\', ']', '^', '|'].contains c

def isAscii (c : Char) : Bool := decide (c.toNat < 0x80)

/-- The form of a text in a name. -/
def mapText? (s : List Char) : Option (List Char) := do
  let text := compose (← s.mapM mapChar?).flatten
  if text.any isForbidden then none else return text

/-- Most characters of a part that is not encoded. -/
def partBound : Nat := 1000

/-- Most characters of an encoded part behind its mark. -/
def encodedBound : Nat := 2000

/-- Whether a part of a name can stand. -/
def isPart (part : List Char) : Bool :=
  part.all isAscii ||
    (decide (part.length ≤ partBound) && !(part.head?.any isMark) && joinersFit [] part)

/-- Whether a text is in the form in which parts of names are encoded. -/
def isNormal (part : List Char) : Bool :=
  !part.contains '.' && mapText? part == some part

/-- The part of a name that a text stands for, which may be encoded. -/
def decodePart? : List Char → Option (List Char)
  | 'x' :: 'n' :: '-' :: '-' :: encoded =>
    if encoded.all isAscii && encoded.getLast?.any (· ≠ '-') &&
        decide (encoded.length ≤ encodedBound) then
      (Punycode.decode? encoded).filter isNormal
    else none
  | part => some part

/-- The form in which names are compared. -/
def normalize? (name : List Char) : Option (List Char) := do
  let name ← mapText? name
  let parts ← (name.splitOn '.').mapM decodePart?
  if parts.all isPart && isDirected parts then return name else none

end SegmentedDownload.Domain
