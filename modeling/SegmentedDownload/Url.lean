import SegmentedDownload.Url.Host
import SegmentedDownload.Url.Path

/-!
# SegmentedDownload.Url

Reading URLs the way browsers do.

* Controls and blanks around the text, and tabs and line breaks in it, do not
  count. The scheme is read without regard to case, and there is no base that a
  relative URL could refer to.
* A scheme of the web is followed by a host behind any number of slashes and
  backslashes. Behind another scheme, two slashes begin a host, one begins a
  path, and anything else is an opaque path without segments.
* In front of the host there may be a user, up to the last `@`, and behind it a
  port.

`fileName` is the name that a download takes from its URL: the last segment that
is not empty.
-/

namespace SegmentedDownload

/-- A URL, as far as downloads need it. -/
structure Url where
  scheme : String
  /-- Segments of the path; none if there is no path that begins with a slash. -/
  segments? : Option (List (List Char))
deriving Repr, DecidableEq

namespace Url

/-! ## Scheme -/

def isSchemeChar (c : Char) : Bool := c.isAlphanum || c == '+' || c == '-' || c == '.'

/-- The characters of a text that count. -/
def significant (s : List Char) : List Char := s.filter (!UrlPath.isSkipped ·)

/-- The scheme in small letters, and what follows its colon. -/
def scheme? (s : List Char) : Option (List Char × List Char) :=
  let letters := significant (s.takeWhile (· ≠ ':'))
  match s.dropWhile (· ≠ ':') with
  | ':' :: rest =>
    if letters.head?.any Char.isAlpha && letters.all isSchemeChar then
      some (letters.map Char.toLower, rest)
    else none
  | _ => none

/-- What a scheme decides about the rest of its URL. -/
def kind (scheme : String) : UrlPath.Kind :=
  if scheme = "file" then .file
  else if ["http", "https", "ws", "wss", "ftp"].contains scheme then .web
  else .other

/-! ## Authority -/

def isAuthorityEnd (kind : UrlPath.Kind) (c : Char) : Bool :=
  UrlPath.isSeparator kind c || UrlPath.isEnd c

/-- What stands in front of the last `@` of the authority, if there is one, and
what follows it. -/
def splitUser? (kind : UrlPath.Kind) (s : List Char) : Option (List Char × List Char) :=
  let authority := s.takeWhile (!isAuthorityEnd kind ·)
  if authority.contains '@' then
    let host := (authority.reverse.takeWhile (· ≠ '@')).reverse
    let length := authority.length - host.length
    some (s.take (length - 1), s.drop length)
  else none

/-- Number of characters of the host; a colon between brackets belongs to it. -/
def hostLength (kind : UrlPath.Kind) (bracketed : Bool) : List Char → Nat
  | [] => 0
  | c :: rest =>
    if isAuthorityEnd kind c || (c == ':' && !bracketed) then 0
    else hostLength kind (c == '[' || (bracketed && c != ']')) rest + 1

/-- What follows the digits of a port. -/
def readPort (s : List Char) : Except UrlError (List Char) :=
  let digits := s.takeWhile Char.isDigit
  let rest := s.drop digits.length
  if 65535 < (Address.value? 10 digits).getD 0 then .error .invalidPort
  else if rest.head?.all fun c => c == '/' || c == '\\' || UrlPath.isEnd c then .ok rest
  else .error .invalidPort

/-- Check the host and the port, and return what follows them. Outside of the web
the host may be missing, unless a user or a port is given. -/
def readHost (kind : UrlPath.Kind) (named : Bool) (s : List Char) :
    Except UrlError (List Char) := do
  let length := hostLength kind false s
  let host := s.take length
  let rest := s.drop length
  if kind = .web then
    if host.isEmpty then throw .emptyHost
    let _ ← Host.ofText host
  else
    let _ ← Host.ofOpaque host
    if host.isEmpty && (named || rest.head? == some ':') then throw .emptyHost
  match rest with
  | ':' :: port => readPort port
  | _ => return rest

/-- Check the authority, and return what follows it. -/
def readAuthority (kind : UrlPath.Kind) (s : List Char) : Except UrlError (List Char) :=
  match splitUser? kind s with
  | none => readHost kind false s
  | some (user, rest) =>
    if user.isEmpty && rest.head?.any (isAuthorityEnd kind) then .error .emptyHost
    else readHost kind (user ≠ [] ∧ user ≠ [':']) rest

/-! ## Path -/

/-- The segments behind the authority of a web URL, which always has a path. -/
def webSegments (kind : UrlPath.Kind) : List Char → List (List Char)
  | c :: rest => UrlPath.read kind (if UrlPath.isSeparator kind c then rest else c :: rest)
  | [] => [[]]

/-- The segments behind the authority of any other URL. A slash in front of them
may be missing. -/
def otherSegments? : List Char → Option (List (List Char))
  | '/' :: rest => some (UrlPath.read .other rest)
  | c :: rest => if UrlPath.isEnd c then none else some (UrlPath.read .other (c :: rest))
  | [] => none

/-- The text without a separator at its front, if there is one. -/
def dropSeparator? (s : List Char) : Option (List Char) :=
  match s.dropWhile UrlPath.isSkipped with
  | c :: rest => if UrlPath.isSeparator .file c then some rest else none
  | [] => none

/-- The segments behind the scheme `file`, where two slashes begin a host unless
a drive follows them. The host `localhost` is as good as none. -/
def readFile (s : List Char) : Except UrlError (List (List Char)) :=
  match dropSeparator? s with
  | none => .ok (UrlPath.read .file s)
  | some path =>
    match dropSeparator? path with
    | none => .ok (UrlPath.read .file path)
    | some s => do
      let text := s.takeWhile (!isAuthorityEnd .file ·)
      let host := significant text
      -- a missing host leaves its slash to the path
      if host.isEmpty || UrlPath.isDrive host then return UrlPath.read .file s
      let rest := s.drop text.length
      if (← Host.ofText host) = .name "localhost".toList then return UrlPath.read .file rest
      return UrlPath.read .file ((dropSeparator? rest).getD rest)

def readSegments (kind : UrlPath.Kind) (s : List Char) :
    Except UrlError (Option (List (List Char))) :=
  match kind, s with
  | .file, s => (readFile s).map some
  | .web, s => do
    let rest ← readAuthority .web ((significant s).dropWhile (UrlPath.isSeparator .web))
    return some (webSegments .web rest)
  | .other, s =>
    match significant s with
    | '/' :: '/' :: rest => do
      let rest ← readAuthority .other rest
      return otherSegments? rest
    | '/' :: rest => .ok (otherSegments? ('/' :: rest))
    | _ => .ok none

/-! ## Whole URLs -/

/-- Whether a character does not count at either end of a text. -/
def isPadding (c : Char) : Bool := decide (c.toNat ≤ 0x20)

/-- The text without what does not count at its ends. -/
def trim (s : List Char) : List Char :=
  ((s.dropWhile isPadding).reverse.dropWhile isPadding).reverse

def ofText (text : String) : Except UrlError Url :=
  match scheme? (trim text.toList) with
  | none => .error .noBase
  | some (letters, rest) => do
    let scheme := String.ofList letters
    let segments? ← readSegments (kind scheme) rest
    return { scheme, segments? }

/-! ## File names -/

/-- The text of a segment; one whose bytes are not UTF-8 stays encoded. -/
def segmentName (segment : List Char) : String :=
  (Percent.decodeText? segment).getD (String.ofList segment)

/-- The last segment of a text's path that is not empty, if the text is a URL. -/
def lastSegment? (text : String) : Option (List Char) :=
  match ofText text with
  | .error _ => none
  | .ok url => ((url.segments?.getD []).filter (!·.isEmpty)).getLast?

/-- The name that a download takes from its URL. -/
def fileName (text : String) : String :=
  match lastSegment? text with
  | some segment => segmentName segment
  | none => "download"

end Url

end SegmentedDownload
