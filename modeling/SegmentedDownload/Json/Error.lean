import SegmentedDownload.Decimal.Shortest
import SegmentedDownload.Text.Quoted

/-!
# SegmentedDownload.Json.Error

Why a text could not be read as a JSON document of the wanted shape: the text is
malformed, or a value in it is not what was wanted at its place. The first cause
in the order of the text is reported.
-/

namespace SegmentedDownload.Json

/-- Why a text is no JSON document. -/
inductive SyntaxError
  | endInValue
  | endInObject
  | endInList
  | endInText
  | expectedValue
  | expectedWord
  | expectedColon
  | expectedListCommaOrEnd
  | expectedObjectCommaOrEnd
  | keyNotText
  | trailingComma
  | trailingCharacters
  | invalidNumber
  | numberOutOfRange
  | invalidEscape
  | loneSurrogate
  | unpairedSurrogate
  | controlCharacter
  | tooDeep
deriving Repr, DecidableEq

def SyntaxError.message : SyntaxError → String
  | endInValue => "EOF while parsing a value"
  | endInObject => "EOF while parsing an object"
  | endInList => "EOF while parsing a list"
  | endInText => "EOF while parsing a string"
  | expectedValue => "expected value"
  | expectedWord => "expected ident"
  | expectedColon => "expected \x60:\x60"
  | expectedListCommaOrEnd => "expected \x60,\x60 or \x60]\x60"
  | expectedObjectCommaOrEnd => "expected \x60,\x60 or \x60\x7d\x60"
  | keyNotText => "key must be a string"
  | trailingComma => "trailing comma"
  | trailingCharacters => "trailing characters"
  | invalidNumber => "invalid number"
  | numberOutOfRange => "number out of range"
  | invalidEscape => "invalid escape"
  | loneSurrogate => "lone leading surrogate in hex escape"
  | unpairedSurrogate => "unexpected end of hex escape"
  | controlCharacter => "control character (\\u0000-\\u001F) found while parsing a string"
  | tooDeep => "recursion limit exceeded"

/-- A value that is not of the wanted type. -/
inductive Found
  | null
  | boolean (value : Bool)
  | integer (value : Int)
  | floating (bits : UInt64)
  | text (value : String)
  | list
  | object
deriving Repr, DecidableEq

/-- Numbers in messages: without an exponent from five places behind the point
up to sixteen digits before it. -/
def numberStyle : Decimal.Style := { leastPlain := -5, mostPlain := 15, plusSign := true }

/-- A name between backticks. -/
def ticked (name : String) : String := "\x60" ++ name ++ "\x60"

def Found.message : Found → String
  | null => "null"
  | boolean value => "boolean " ++ ticked (if value then "true" else "false")
  | integer value => "integer " ++ ticked (toString value)
  | floating bits => "floating point " ++ ticked (Decimal.text numberStyle bits)
  | text value => "string " ++ Text.quoted value
  | list => "sequence"
  | object => "map"

/-- Why a text could not be read. -/
inductive Error
  | malformed (cause : SyntaxError)
  | wrongType (found : Found) (wanted : String)
  | wrongValue (found : Found) (wanted : String)
  | wrongLength (length : Nat) (wanted : String)
  | missingField (name : String)
  | duplicateField (name : String)
  | unknownVariant (name : String) (variants : List String)
  /-- A text value that does not follow its own format. -/
  | badText (reason : String)
deriving Repr, DecidableEq

/-- The variants of an enumeration in a message. -/
def variantsText : List String → String
  | [a, b] => ticked a ++ " or " ++ ticked b
  | names => "one of " ++ ", ".intercalate (names.map ticked)

def Error.message : Error → String
  | malformed cause => cause.message
  | wrongType found wanted => "invalid type: " ++ found.message ++ ", expected " ++ wanted
  | wrongValue found wanted => "invalid value: " ++ found.message ++ ", expected " ++ wanted
  | wrongLength length wanted => s!"invalid length {length}, expected {wanted}"
  | missingField name => "missing field " ++ ticked name
  | duplicateField name => "duplicate field " ++ ticked name
  | unknownVariant name variants =>
    "unknown variant " ++ ticked name ++ ", expected " ++ variantsText variants
  | badText reason => reason

end SegmentedDownload.Json
