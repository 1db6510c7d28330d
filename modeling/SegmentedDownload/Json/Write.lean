/-!
# SegmentedDownload.Json.Write

Writing JSON texts, on one line or spread over several.

In a text, quote, backslash and control characters are escaped, the usual ones
by a letter and the others by their code; everything else stands for itself.
-/

namespace SegmentedDownload.Json

inductive Value
  | null
  | boolean (value : Bool)
  | integer (value : Int)
  | text (value : String)
  | object (members : List (String × Value))
deriving Repr

def hexDigit (n : Nat) : Char := if n < 10 then Char.ofNat (48 + n) else Char.ofNat (87 + n)

/-- One character of a text. -/
def escapeChar (c : Char) : List Char :=
  match c with
  | '"' => ['\\', '"']
  | '\\' => ['\\', '\\']
  | '\x08' => ['\\', 'b']
  | '\x0c' => ['\\', 'f']
  | '\n' => ['\\', 'n']
  | '\r' => ['\\', 'r']
  | '\t' => ['\\', 't']
  | c =>
    if c.toNat < 0x20 then
      ['\\', 'u', '0', '0', hexDigit (c.toNat / 16), hexDigit (c.toNat % 16)]
    else [c]

/-- A text between quotes. -/
def writeText (s : String) : List Char := '"' :: s.toList.flatMap escapeChar ++ ['"']

/-- Where a value is written: on one line, or with every member on a line of its
own, indented by the given number of levels. -/
inductive Layout
  | compact
  | spread (level : Nat)
deriving Repr, DecidableEq

namespace Layout

/-- What stands in front of a member of an object or, one level up, in front of
its closing brace. -/
def lineBreak : Layout → List Char
  | compact => []
  | spread level => '\n' :: List.replicate (2 * level) ' '

/-- What stands between a key and its value. -/
def afterKey : Layout → List Char
  | compact => [':']
  | spread _ => [':', ' ']

/-- The layout inside an object. -/
def inner : Layout → Layout
  | compact => compact
  | spread level => spread (level + 1)

end Layout

mutual

def write (layout : Layout) : Value → List Char
  | .null => ['n', 'u', 'l', 'l']
  | .boolean true => ['t', 'r', 'u', 'e']
  | .boolean false => ['f', 'a', 'l', 's', 'e']
  | .integer n => (toString n).toList
  | .text s => writeText s
  | .object [] => ['{', '}']
  | .object (member :: members) =>
    '{' :: writeMember layout.inner member ++ writeMembers layout.inner members ++
      layout.lineBreak ++ ['}']

def writeMember (layout : Layout) : String × Value → List Char
  | (key, value) =>
    layout.lineBreak ++ writeText key ++ layout.afterKey ++ write layout value

/-- The text of the other members of an object. -/
def writeMembers (layout : Layout) : List (String × Value) → List Char
  | [] => []
  | member :: members => ',' :: writeMember layout member ++ writeMembers layout members

end

/-- The text of a value on one line. -/
def Value.compact (v : Value) : String := String.ofList (write .compact v)

/-- The text of a value with every member on a line of its own. -/
def Value.pretty (v : Value) : String := String.ofList (write (.spread 0) v)

end SegmentedDownload.Json
