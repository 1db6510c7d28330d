import SegmentedDownload.Url.Percent

/-!
# SegmentedDownload.Url.Path

The path of a URL as a list of segments.

A segment of one dot stays where it is and one of two dots drops the segment
before it unless that one is a drive, also when a dot is written `%2e`. Behind a
slash at the end, and in place of a dot segment there, comes an empty segment.
-/

namespace SegmentedDownload.UrlPath

/-- What a URL's scheme decides about its path. -/
inductive Kind
  /-- A backslash separates segments like a slash. -/
  | web
  /-- As `web`, and the first segment may be a drive letter. -/
  | file
  | other
deriving Repr, DecidableEq

def isSeparator (kind : Kind) (c : Char) : Bool := c == '/' || (c == '\\' && kind != .other)

def isEnd (c : Char) : Bool := c == '?' || c == '#'

/-- Whether a character does not count anywhere in a URL. -/
def isSkipped (c : Char) : Bool := c == '\t' || c == '\n' || c == '\r'

/-- A segment with its encoded dots written as dots. -/
def plainDots : List Char → List Char
  | '%' :: '2' :: 'e' :: rest | '%' :: '2' :: 'E' :: rest => '.' :: plainDots rest
  | c :: rest => c :: plainDots rest
  | [] => []

/-- Whether a segment is a letter and a colon or a bar. -/
def isDrive : List Char → Bool
  | [letter, mark] => letter.isAlpha && (mark == ':' || mark == '|')
  | _ => false

/-- Whether two dots do not lead out of a segment: it is a drive, or a path of
its own on one. -/
def isRooted (segment : List Char) : Bool :=
  isDrive (segment.take 2) && (segment.drop 2).head?.all (· == '\\')

/-- The segments without the last one, unless that one is a drive. -/
def dropSegment (segments : List (List Char)) : List (List Char) :=
  if segments.getLast?.any isRooted then segments else segments.dropLast

/-- A segment as it is kept; a drive at the beginning is written with a colon. -/
def keptSegment (kind : Kind) (first : Bool) (segment : List Char) : List Char :=
  match segment with
  | [letter, '|'] =>
    if kind = .file ∧ first ∧ letter.isAlpha then [letter, ':'] else Percent.encode segment
  | _ => Percent.encode segment

/-- The segments so far with one more, of which `final` tells whether the path
ends with it. -/
def push (kind : Kind) (segments : List (List Char)) (segment : List Char) (final : Bool) :
    List (List Char) :=
  let tail : List (List Char) := if final then [[]] else []
  match plainDots segment with
  | ['.'] => segments ++ tail
  | ['.', '.'] => dropSegment segments ++ tail
  | _ => segments ++ [keptSegment kind segments.isEmpty segment]

/-- The present segment of a path that is being read. -/
structure Present where
  /-- Its characters so far, the last of them first. -/
  text : List Char := []
  /-- It is a drive, and a character that does not count stood behind it. -/
  isBroken : Bool := false
  /-- It follows a drive without a separator, and its dots are plain text. -/
  isLiteral : Bool := false
deriving Repr, DecidableEq

namespace Present

def close (kind : Kind) (segments : List (List Char)) (present : Present) (final : Bool) :
    List (List Char) :=
  if present.isLiteral then segments ++ [Percent.encode present.text.reverse]
  else push kind segments present.text.reverse final

/-- Pass over a character that does not count. Behind a drive with which the path
of a file begins, it separates like a slash. -/
def skip (kind : Kind) (segments : List (List Char)) (present : Present) : Present :=
  if kind = .file ∧ segments.isEmpty ∧ isDrive present.text.reverse ∧
      present.text.head? = some ':' then
    { present with isBroken := true }
  else present

end Present

/-- Read segments up to the end of the path, given the segments so far and the
present one. -/
def readFrom (kind : Kind) (segments : List (List Char)) (present : Present) :
    List Char → List (List Char)
  | [] => present.close kind segments true
  | c :: rest =>
    if isSkipped c then readFrom kind segments (present.skip kind segments) rest
    else if isSeparator kind c then
      readFrom kind (present.close kind segments false) {} rest
    else if isEnd c then present.close kind segments true
    else if present.isBroken then
      readFrom kind (segments ++ [present.text.reverse]) { text := [c], isLiteral := true } rest
    else readFrom kind segments { present with text := c :: present.text } rest

/-- The segments of a path whose leading slash was taken off. -/
def read (kind : Kind) (s : List Char) : List (List Char) := readFrom kind [] {} s

end SegmentedDownload.UrlPath
