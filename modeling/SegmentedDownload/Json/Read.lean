import SegmentedDownload.Json.Token

/-!
# SegmentedDownload.Json.Read

Reading values of a wanted shape off the front of a token list.

A reader returns the value and the tokens behind it. What it reports is decided
by the first token that it cannot go on with, so that the first fault of a text
wins whatever its kind.

* Scalars: `readText`, `readBoolean`, `readInteger`, `readOptional`.
* `skipValue` passes over a value that nobody asks for.
* `Record` describes a structure by its fields. It is read from an object, whose
  keys come in any order and may include unknown ones, or from a list of the
  fields in their order.
* `readVariant` reads a name out of an enumeration.
-/

namespace SegmentedDownload.Json

/-- A value and the tokens behind it. -/
abbrev Reading (α : Type) := Except Error (α × List Token)

/-- A fault of the text. -/
def malformed (cause : SyntaxError) : Except Error α := .error (.malformed cause)

/-- The error of a value that is not of the wanted type. -/
def mismatch (wanted : String) : List Token → Error
  | [] => .malformed .endInValue
  | .null :: _ => .wrongType .null wanted
  | .boolean b :: _ => .wrongType (.boolean b) wanted
  | .number (.ok (.integer n)) _ :: _ => .wrongType (.integer n) wanted
  | .number (.ok (.floating bits)) _ :: _ => .wrongType (.floating bits) wanted
  | .number (.error cause) _ :: _ => .malformed cause
  | .text (.ok s) _ :: _ => .wrongType (.text s) wanted
  | .text (.error cause) _ :: _ => .malformed cause
  | .openList :: _ => .wrongType .list wanted
  | .openObject :: _ => .wrongType .object wanted
  | .badWord cause :: _ => .malformed cause
  | .closeObject :: _ | .closeList :: _ | .colon :: _ | .comma :: _ | .stray :: _ =>
    .malformed .expectedValue

/-! ## Scalars -/

def readText (wanted : String) : List Token → Reading String
  | .text (.ok s) _ :: rest => .ok (s, rest)
  | ts => .error (mismatch wanted ts)

def readBoolean : List Token → Reading Bool
  | .boolean b :: rest => .ok (b, rest)
  | ts => .error (mismatch "a boolean" ts)

/-- An integer between two bounds. -/
def readInteger (lo hi : Int) (wanted : String) : List Token → Reading Int
  | .number (.ok (.integer n)) _ :: rest =>
    if lo ≤ n ∧ n ≤ hi then .ok (n, rest)
    else .error (.wrongValue (.integer n) wanted)
  | ts => .error (mismatch wanted ts)

def readSigned : List Token → Reading Int :=
  readInteger (-9223372036854775808) 9223372036854775807 "i64"

def readUnsigned (ts : List Token) : Reading Nat :=
  (readInteger 0 18446744073709551615 "u64" ts).map fun (n, rest) => (n.toNat, rest)

def readHalf (ts : List Token) : Reading Nat :=
  (readInteger 0 4294967295 "u32" ts).map fun (n, rest) => (n.toNat, rest)

def readOptional (read : List Token → Reading α) : List Token → Reading (Option α)
  | .null :: rest => .ok (none, rest)
  | .badWord cause :: _ => malformed cause
  | ts => (read ts).map fun (a, rest) => (some a, rest)

def readNull : List Token → Reading Unit
  | .null :: rest => .ok ((), rest)
  | ts => .error (mismatch "unit" ts)

/-! ## Passing over a value -/

/-- A list or an object that is not closed yet. -/
inductive Frame
  | list
  | object
deriving Repr, DecidableEq

/-- What may come next inside the innermost frame. -/
inductive Place
  /-- A value. -/
  | value
  /-- The first item or the end of the frame. -/
  | first
  /-- A comma or the end of the frame. -/
  | separator
  /-- A key, behind a comma. -/
  | key
  /-- A value, behind a comma of a list. -/
  | item
  /-- The colon behind a key. -/
  | colon
deriving Repr, DecidableEq

/-- How strictly a value is passed over. -/
inductive Care
  /-- Nobody asks for the value. -/
  | skip
  /-- The value is kept for later, inside this many lists and objects. -/
  | keep (depth : Nat)
deriving Repr, DecidableEq

namespace Care

/-- The fault of a number or a text under this care. -/
def fault? (care : Care) (exact : Except SyntaxError α) (skipped? : Option SyntaxError) :
    Option SyntaxError :=
  match care, exact with
  | skip, _ => skipped?
  | keep _, .error cause => some cause
  | keep _, .ok _ => none

/-- Whether one more list or object would be too deep. Values that are only
skipped may be as deep as they like. -/
def tooDeep (care : Care) (open_ : Nat) : Bool :=
  match care with
  | skip => false
  | keep depth => decide (128 ≤ depth + open_ + 1)

/-- The fault of a frame that ends right behind a comma. -/
def afterComma (care : Care) (frame : Frame) : SyntaxError :=
  match care, frame with
  | keep _, _ => .trailingComma
  | skip, .list => .expectedValue
  | skip, .object => .keyNotText

/-- The fault of a text that ends behind a comma of an object. -/
def endAfterComma : Care → SyntaxError
  | keep _ => .endInValue
  | skip => .endInObject

end Care

/-- The fault of a text that ends inside a frame. -/
def Frame.ended : Frame → SyntaxError
  | list => .endInList
  | object => .endInObject

/-- The fault of a frame that goes on without a comma. -/
def Frame.noComma : Frame → SyntaxError
  | list => .expectedListCommaOrEnd
  | object => .expectedObjectCommaOrEnd

/-- The token that closes a frame. -/
def Frame.isClosedBy : Frame → Token → Bool
  | list, .closeList => true
  | object, .closeObject => true
  | _, _ => false

/-- Pass over the rest of a value, given the frames around the present place. -/
def pass (care : Care) (frames : List Frame) (place : Place) :
    List Token → Except Error (List Token)
  | [] => malformed <| match place, frames with
    | .first, frame :: _ | .separator, frame :: _ => frame.ended
    | .key, _ => care.endAfterComma
    | .colon, _ => .endInObject
    | _, _ => .endInValue
  | t :: rest =>
    -- behind a whole value: done, or on to the separator of the frame around it
    let leave (frames : List Frame) : Except Error (List Token) :=
      if frames.isEmpty then .ok rest else pass care frames .separator rest
    let enter (frame : Frame) : Except Error (List Token) :=
      if care.tooDeep frames.length then malformed .tooDeep
      else pass care (frame :: frames) .first rest
    let value : Except Error (List Token) :=
      match t with
      | .null | .boolean _ => leave frames
      | .number exact skipped? =>
        match care.fault? exact skipped? with
        | some cause => malformed cause
        | none => leave frames
      | .text exact skipped? =>
        match care.fault? exact skipped? with
        | some cause => malformed cause
        | none => leave frames
      | .openList => enter .list
      | .openObject => enter .object
      | .badWord cause => malformed cause
      | _ => malformed .expectedValue
    let key : Except Error (List Token) :=
      match t with
      | .text exact skipped? =>
        match care.fault? exact skipped? with
        | some cause => malformed cause
        | none => pass care frames .colon rest
      | _ => malformed .keyNotText
    match place, frames with
    | .first, frame :: outer =>
      if frame.isClosedBy t then leave outer
      else match frame with
        | .list => value
        | .object => key
    | .separator, frame :: outer =>
      match t with
      | .comma => pass care frames (match frame with | .list => .item | .object => .key) rest
      | _ => if frame.isClosedBy t then leave outer else malformed frame.noComma
    | .key, frame :: _ => if frame.isClosedBy t then malformed (care.afterComma frame) else key
    | .item, frame :: _ => if frame.isClosedBy t then malformed (care.afterComma frame) else value
    | .colon, _ =>
      match t with
      | .colon => pass care frames .value rest
      | _ => malformed .expectedColon
    | _, _ => value

/-- Pass over a value that nobody asks for. -/
def skipValue (ts : List Token) : Except Error (List Token) := pass .skip [] .value ts

/-- The tokens behind a value that is kept for later, inside `depth` frames. -/
def keepValue (depth : Nat) (ts : List Token) : Except Error (List Token) :=
  pass (.keep depth) [] .value ts

/-! ## Objects and lists -/

/-- The tokens behind the colon of a member. -/
def readColon : List Token → Except Error (List Token)
  | .colon :: rest => .ok rest
  | [] => malformed .endInObject
  | _ => malformed .expectedColon

/-- The next key of an object and what follows it; none at the closing brace,
which stays. -/
def nextKey? (first : Bool) : List Token → Except Error (Option (String × List Token))
  | [] => malformed .endInObject
  | .closeObject :: _ => .ok none
  | .comma :: rest =>
    if first then malformed .keyNotText
    else match rest with
      | .text (.ok key) _ :: rest => .ok (some (key, rest))
      | .text (.error cause) _ :: _ => malformed cause
      | .closeObject :: _ => malformed .trailingComma
      | [] => malformed .endInValue
      | _ => malformed .keyNotText
  | .text exact _ :: rest =>
    if first then
      match exact with
      | .ok key => .ok (some (key, rest))
      | .error cause => malformed cause
    else malformed .expectedObjectCommaOrEnd
  | _ => malformed (if first then .keyNotText else .expectedObjectCommaOrEnd)

/-- The tokens of the next item of a list; none at the closing bracket, which
stays. -/
def nextItem? (first : Bool) : List Token → Except Error (Option (List Token))
  | [] => malformed .endInList
  | .closeList :: _ => .ok none
  | .comma :: rest =>
    if first then .ok (some (.comma :: rest))
    else match rest with
      | .closeList :: _ => malformed .trailingComma
      | [] => malformed .endInValue
      | _ => .ok (some rest)
  | ts => if first then .ok (some ts) else malformed .expectedListCommaOrEnd

/-- The tokens behind the end of a list, all of whose wanted items were read. -/
def closeList : List Token → Except Error (List Token)
  | .closeList :: rest => .ok rest
  | .comma :: .closeList :: _ => malformed .trailingComma
  | [] => malformed .endInList
  | _ => malformed .trailingCharacters

def closeObject : List Token → Except Error (List Token)
  | .closeObject :: rest => .ok rest
  | .comma :: _ => malformed .trailingComma
  | [] => malformed .endInObject
  | _ => malformed .trailingCharacters

/-! ## Records -/

/-- A field of a record that is collected in a draft. -/
structure Field (δ : Type) where
  name : String
  /-- Whether the field has to be there. -/
  required : Bool
  isSet : δ → Bool
  read : δ → List Token → Reading δ

/-- A field that is kept in one place of the draft. -/
def Field.of (name : String) (required : Bool) (get : δ → Option α) (set : δ → α → δ)
    (read : List Token → Reading α) : Field δ where
  name := name
  required := required
  isSet draft := (get draft).isSome
  read draft ts := (read ts).map fun (a, rest) => (set draft a, rest)

/-- Read the value of a member whose key was just read. -/
def readMember (fields : List (Field δ)) (draft : δ) (key : String) (ts : List Token) :
    Except Error (δ × List Token) :=
  match fields.find? (·.name == key) with
  | some field =>
    if field.isSet draft then .error (.duplicateField field.name)
    else do
      let ts ← readColon ts
      field.read draft ts
  | none => do
    let ts ← readColon ts
    let ts ← skipValue ts
    return (draft, ts)

/-- Read the members of an object up to its closing brace. Every member takes
tokens, so the length of the list bounds their number. -/
def readMembers (fields : List (Field δ)) :
    Nat → Bool → δ → List Token → Except Error (δ × List Token)
  | 0, _, _, _ => malformed .endInObject
  | fuel + 1, first, draft, ts => do
    match ← nextKey? first ts with
    | none => return (draft, ts)
    | some (key, ts) =>
      let (draft, ts) ← readMember fields draft key ts
      readMembers fields fuel false draft ts

/-- The first required field that is missing. -/
def missing? (fields : List (Field δ)) (draft : δ) : Option String :=
  (fields.find? fun field => field.required && !field.isSet draft).map (·.name)

/-- Read the fields of a list in their order. -/
def readItems (wanted : String) (total : Nat) :
    List (Field δ) → Nat → δ → List Token → Except Error (δ × List Token)
  | [], _, draft, ts => .ok (draft, ts)
  | field :: fields, index, draft, ts => do
    match ← nextItem? (index == 0) ts with
    | none =>
      if field.required then .error (.wrongLength index s!"{wanted} with {total} elements")
      else readItems wanted total fields (index + 1) draft ts
    | some ts =>
      let (draft, ts) ← field.read draft ts
      readItems wanted total fields (index + 1) draft ts

/-- Read the members of an object whose opening brace was taken off. -/
def readObject (fields : List (Field δ)) (empty : δ) (ts : List Token) :
    Except Error (δ × List Token) := do
  let (draft, ts) ← readMembers fields (ts.length + 1) true empty ts
  match missing? fields draft with
  | some name => .error (.missingField name)
  | none =>
    let ts ← closeObject ts
    return (draft, ts)

def readRecord (wanted : String) (fields : List (Field δ)) (empty : δ) :
    List Token → Except Error (δ × List Token)
  | .openObject :: ts => readObject fields empty ts
  | .openList :: ts => do
    let (draft, ts) ← readItems wanted fields.length fields 0 empty ts
    let ts ← closeList ts
    return (draft, ts)
  | ts => .error (mismatch wanted ts)

/-! ## Enumerations -/

/-- The member of an enumeration with a name. -/
def variant (variants : List (String × α)) (name : String) : Except Error α :=
  match variants.lookup name with
  | some a => .ok a
  | none => .error (.unknownVariant name (variants.map (·.1)))

/-- The key of an object that should have a single one. -/
def readVariantKey : List Token → Reading String
  | [] => malformed .endInObject
  | .text (.ok name) _ :: rest => .ok (name, rest)
  | .text (.error cause) _ :: _ => malformed cause
  | .closeObject :: _ => malformed .expectedValue
  | _ => malformed .keyNotText

/-- A name out of an enumeration, or an object with that name as its only key
and null as its value. -/
def readVariant (variants : List (String × α)) :
    List Token → Except Error (α × List Token)
  | [] => malformed .endInValue
  | .text (.ok name) _ :: rest => (variant variants name).map (·, rest)
  | .text (.error cause) _ :: _ => malformed cause
  | .openObject :: ts => do
    let (name, ts) ← readVariantKey ts
    let a ← variant variants name
    let ts ← readColon ts
    let ((), ts) ← readNull ts
    match ts with
    | .closeObject :: rest => return (a, rest)
    | [] => malformed .endInObject
    | _ => malformed .expectedValue
  | _ => malformed .expectedValue

/-- A name out of an enumeration that was kept for later. Here an object has to
have one key, whose value is null or an empty object. -/
def readKeptVariant (variants : List (String × α)) :
    List Token → Except Error (α × List Token)
  | .text (.ok name) _ :: rest => (variant variants name).map (·, rest)
  | .openObject :: .text (.ok name) _ :: ts => do
    let value ← readColon ts
    match ← skipValue value with
    | .closeObject :: rest =>
      let a ← variant variants name
      match value with
      | .null :: _ | .openObject :: .closeObject :: _ => return (a, rest)
      | _ => .error (mismatch "unit" value)
    | _ => .error (.wrongValue .object "map with a single key")
  | .openObject :: _ => .error (.wrongValue .object "map with a single key")
  | ts => .error (mismatch "string or map" ts)

/-! ## Whole texts -/

/-- Read a text that holds one value and nothing else. -/
def readAll (read : List Token → Reading α) (s : String) : Except Error α := do
  let (a, rest) ← read (tokens s)
  if rest.isEmpty then return a else malformed .trailingCharacters

end SegmentedDownload.Json
