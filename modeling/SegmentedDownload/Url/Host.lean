import SegmentedDownload.Url.Domain
import SegmentedDownload.Url.Percent

/-!
# SegmentedDownload.Url.Host

The host of a URL. Where the scheme is one of the web, a host is a name or a
numeric address; elsewhere it is any text without reserved characters.
-/

namespace SegmentedDownload

inductive UrlError
  | noBase
  | emptyHost
  | invalidName
  | invalidCharacter
  | invalidV4
  | invalidV6
  | invalidPort
deriving Repr, DecidableEq

def UrlError.message : UrlError → String
  | noBase => "relative URL without a base"
  | emptyHost => "empty host"
  | invalidName => "invalid international domain name"
  | invalidCharacter => "invalid domain character"
  | invalidV4 => "invalid IPv4 address"
  | invalidV6 => "invalid IPv6 address"
  | invalidPort => "invalid port number"

inductive Host
  | name (text : List Char)
  | v4 (address : Nat)
  | v6 (groups : List Nat)
deriving Repr, DecidableEq

namespace Host

/-- The address between two brackets, the first of which was taken off. -/
def ofBracketed (s : List Char) : Except UrlError Host :=
  match s.getLast? with
  | some ']' =>
    match Address.v6? s.dropLast with
    | some groups => .ok (.v6 groups)
    | none => .error .invalidV6
  | _ => .error .invalidV6

def ofText : List Char → Except UrlError Host
  | '[' :: rest => ofBracketed rest
  | s =>
    match (Percent.decodeText? s).bind fun text => Domain.normalize? text.toList with
    | none => .error .invalidName
    | some text =>
      if text.isEmpty then .error .emptyHost
      else if Address.isNumeric text then
        match Address.v4? text with
        | some address => .ok (.v4 address)
        | none => .error .invalidV4
      else .ok (.name text)

/-- Whether a character is reserved in the host of any other URL. -/
def isReserved (c : Char) : Bool :=
  ['\x00', '\t', '\n', '\r', ' ', '#', '/', ':', '<', '>', '?', '@', '[', '\\', ']', '^',
    '|'].contains c

/-- The host of any other URL, which may be empty. -/
def ofOpaque : List Char → Except UrlError Host
  | '[' :: rest => ofBracketed rest
  | s => if s.any isReserved then .error .invalidCharacter else .ok (.name s)

end Host

end SegmentedDownload
