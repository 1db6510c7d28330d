import SegmentedDownload.Event
import SegmentedDownload.Json.Read
import SegmentedDownload.Json.Write

/-!
# SegmentedDownload.Document.Event

States and events as JSON documents.

A state is its name. An event is an object with two members, `type` for its
variant and `payload` for the rest, or the list of the two. The members come in
either order; a payload in front of its type is kept until the type is known.
-/

namespace SegmentedDownload

namespace JobState

def names : List (String × JobState) :=
  [ready, running, finished, failed].map fun state => (state.name, state)

def toJson (s : JobState) : Json.Value := .text s.name

def ofJson (text : String) : Except Json.Error JobState :=
  Json.readAll (Json.readVariant names) text

end JobState

inductive EventType
  | progress
  | statusChanged
deriving Repr, DecidableEq

namespace EventType

def names : List (String × EventType) :=
  [("Progress", progress), ("StatusChanged", statusChanged)]

def name : EventType → String
  | progress => "Progress"
  | statusChanged => "StatusChanged"

/-- What a payload of a variant should be. -/
def wanted (t : EventType) : String := "struct variant TransferEvent::" ++ t.name

end EventType

namespace Event

def toJson : Event → Json.Value
  | progress name total transferred =>
    .object
      [("type", .text EventType.progress.name),
       ("payload", .object
         [("name", .text name), ("total", .integer total), ("transferred", .integer transferred)])]
  | statusChanged name state reason elapsed moment =>
    .object
      [("type", .text EventType.statusChanged.name),
       ("payload", .object
         [("name", .text name), ("state", state.toJson), ("reason", .text reason),
          ("elapsed_ms", .integer elapsed), ("at", .text moment.toText)])]

/-! ## Payloads -/

def readMoment (ts : List Json.Token) : Except Json.Error (Timestamp × List Json.Token) := do
  let (text, rest) ← Json.readText "an RFC 3339 formatted date and time string" ts
  match Timestamp.ofText text with
  | .ok moment => return (moment, rest)
  | .error cause => throw (.badText cause.message)

structure Draft where
  name? : Option String := none
  total? : Option Int := none
  transferred? : Option Int := none
  state? : Option JobState := none
  reason? : Option String := none
  elapsed? : Option Nat := none
  moment? : Option Timestamp := none

namespace Draft

/-- How the name is read. -/
def nameField : Json.Field Draft :=
  .of "name" true name? (fun d a => { d with name? := some a }) (Json.readText "a string")

/-- How the fields of a progress event are read. -/
def progressFields : List (Json.Field Draft) :=
  [nameField,
   .of "total" true total? (fun d a => { d with total? := some a }) Json.readSigned,
   .of "transferred" true transferred?
    (fun d a => { d with transferred? := some a }) Json.readSigned]

/-- How the fields of a change of state are read, given how its state is. -/
def statusFields (readState : List Json.Token → Json.Reading JobState) :
    List (Json.Field Draft) :=
  [nameField,
   .of "state" true state? (fun d a => { d with state? := some a }) readState,
   .of "reason" true reason? (fun d a => { d with reason? := some a })
    (Json.readText "a string"),
   .of "elapsed_ms" true elapsed? (fun d a => { d with elapsed? := some a }) Json.readUnsigned,
   .of "at" true moment? (fun d a => { d with moment? := some a }) readMoment]

def complete (d : Draft) : EventType → Event
  | .progress => .progress (d.name?.getD "") (d.total?.getD 0) (d.transferred?.getD 0)
  | .statusChanged =>
    .statusChanged (d.name?.getD "") (d.state?.getD default) (d.reason?.getD "")
      (d.elapsed?.getD 0) (d.moment?.getD Timestamp.epoch)

end Draft

/-- Read the payload of an event. It was kept for later if its type came behind
it. -/
def readPayload (kept : Bool) (type : EventType) :
    List Json.Token → Except Json.Error (Event × List Json.Token)
  | .openObject :: ts =>
    let readState :=
      if kept then Json.readKeptVariant JobState.names else Json.readVariant JobState.names
    let fields := match type with
      | .progress => Draft.progressFields
      | .statusChanged => Draft.statusFields readState
    (Json.readObject fields {} ts).map fun (d, rest) => (d.complete type, rest)
  | ts => .error (Json.mismatch type.wanted ts)

/-! ## Events -/

/-- A member of the object that stands for an event. -/
inductive Member
  | type
  | payload
deriving Repr, DecidableEq

/-- The next member with a meaning and the tokens behind its key, or no member and
the tokens of the closing brace. Every member takes tokens, so the length of the
list bounds their number. -/
def nextMember? : Nat → Bool → List Json.Token →
    Except Json.Error (Option Member × List Json.Token)
  | 0, _, _ => Json.malformed .endInObject
  | fuel + 1, first, ts => do
    match ← Json.nextKey? first ts with
    | none => return (none, ts)
    | some (key, ts) =>
      if key = "type" then return (some .type, ts)
      else if key = "payload" then return (some .payload, ts)
      else nextMember? fuel false (← Json.skipValue (← Json.readColon ts))

/-- Check that no member with a meaning comes behind the two that were read, and
return the tokens behind the object. -/
def endMembers (fuel : Nat) (ts : List Json.Token) : Except Json.Error (List Json.Token) := do
  match ← nextMember? fuel false ts with
  | (some .type, _) => throw (.duplicateField "type")
  | (some .payload, _) => throw (.duplicateField "payload")
  | (none, ts) => Json.closeObject ts

/-- Read the type of an event behind the key of its member. -/
def readType (ts : List Json.Token) : Except Json.Error (EventType × List Json.Token) := do
  let ts ← Json.readColon ts
  Json.readVariant EventType.names ts

/-- Read an event from an object whose opening brace was taken off. -/
def readObject (ts : List Json.Token) : Except Json.Error (Event × List Json.Token) := do
  let fuel := ts.length + 1
  match ← nextMember? fuel true ts with
  | (none, _) => throw (.missingField "type")
  | (some .type, ts) =>
    let (type, ts) ← readType ts
    match ← nextMember? fuel false ts with
    | (none, _) => throw (.missingField "payload")
    | (some .type, _) => throw (.duplicateField "type")
    | (some .payload, ts) =>
      let (event, ts) ← readPayload false type (← Json.readColon ts)
      return (event, ← endMembers fuel ts)
  | (some .payload, ts) =>
    let payload ← Json.readColon ts
    let ts ← Json.keepValue 1 payload
    match ← nextMember? fuel false ts with
    | (none, _) => throw (.missingField "type")
    | (some .payload, _) => throw (.duplicateField "payload")
    | (some .type, ts) =>
      let (type, ts) ← readType ts
      let (event, _) ← readPayload true type payload
      return (event, ← endMembers fuel ts)

/-- What an event should be. -/
def wanted : String := "adjacently tagged enum TransferEvent"

/-- Read an event from a list whose opening bracket was taken off. -/
def readList (ts : List Json.Token) : Except Json.Error (Event × List Json.Token) := do
  match ← Json.nextItem? true ts with
  | none => throw (.wrongLength 0 wanted)
  | some ts =>
    let (name, ts) ← Json.readText "variant identifier" ts
    let type ← Json.variant EventType.names name
    match ← Json.nextItem? false ts with
    | none => throw (.wrongLength 1 wanted)
    | some ts =>
      let (event, ts) ← readPayload false type ts
      return (event, ← Json.closeList ts)

def read : List Json.Token → Except Json.Error (Event × List Json.Token)
  | .openObject :: ts => readObject ts
  | .openList :: ts => readList ts
  | ts => .error (Json.mismatch wanted ts)

def ofJson (text : String) : Except Json.Error Event := Json.readAll read text

end Event

end SegmentedDownload
