import SegmentedDownload.Config
import SegmentedDownload.Json.Read
import SegmentedDownload.Json.Write

/-!
# SegmentedDownload.Document.Config

Configurations as JSON documents.

Only the URL and the base name have to be there; the other fields have default
values, and unknown ones are passed over. The default directory is that of the
system for downloads, if it has one. A configuration that was loaded from a file
is also checked.
-/

namespace SegmentedDownload.Config

/-- The value that stands for a text that may be missing. -/
def optionalText : Option String → Json.Value
  | none => .null
  | some s => .text s

def toJson (c : Config) : Json.Value :=
  .object
    [("url", .text c.url),
     ("directory", .text c.directory),
     ("base_name", .text c.baseName),
     ("extension", .text c.extension),
     ("worker_count", .integer c.workers),
     ("resume", .boolean c.resume),
     ("expected_hash", optionalText c.expectedHash?),
     ("connect_timeout_ms", .integer c.connectTimeout),
     ("read_timeout_ms", .integer c.readTimeout),
     ("ca_bundle", optionalText c.certificates?),
     ("progress_interval_ms", .integer c.progressInterval)]

/-- The fields of a configuration that were read so far. -/
structure Draft where
  url? : Option String := none
  directory? : Option String := none
  baseName? : Option String := none
  extension? : Option String := none
  workers? : Option Nat := none
  resume? : Option Bool := none
  expectedHash? : Option (Option String) := none
  connectTimeout? : Option Nat := none
  readTimeout? : Option Nat := none
  certificates? : Option (Option String) := none
  progressInterval? : Option Nat := none
deriving Repr, DecidableEq, Inhabited

namespace Draft

/-- How each field is read. -/
def fields : List (Json.Field Draft) :=
  let text := Json.readText "a string"
  let path := Json.readText "path string"
  [.of "url" true url? (fun d a => { d with url? := some a }) text,
   .of "directory" false directory? (fun d a => { d with directory? := some a }) path,
   .of "base_name" true baseName? (fun d a => { d with baseName? := some a }) text,
   .of "extension" false extension? (fun d a => { d with extension? := some a }) text,
   .of "worker_count" false workers? (fun d a => { d with workers? := some a }) Json.readHalf,
   .of "resume" false resume? (fun d a => { d with resume? := some a }) Json.readBoolean,
   .of "expected_hash" false expectedHash? (fun d a => { d with expectedHash? := some a })
    (Json.readOptional text),
   .of "connect_timeout_ms" false connectTimeout?
    (fun d a => { d with connectTimeout? := some a }) Json.readUnsigned,
   .of "read_timeout_ms" false readTimeout?
    (fun d a => { d with readTimeout? := some a }) Json.readUnsigned,
   .of "ca_bundle" false certificates? (fun d a => { d with certificates? := some a })
    (Json.readOptional path),
   .of "progress_interval_ms" false progressInterval?
    (fun d a => { d with progressInterval? := some a }) Json.readUnsigned]

/-- The configuration with default values for the fields that are missing. -/
def complete (d : Draft) (downloads? : Option String) : Config :=
  let c := empty downloads?
  { url := d.url?.getD c.url
    directory := d.directory?.getD c.directory
    baseName := d.baseName?.getD c.baseName
    extension := d.extension?.getD c.extension
    workers := d.workers?.getD c.workers
    resume := d.resume?.getD c.resume
    expectedHash? := d.expectedHash?.getD c.expectedHash?
    connectTimeout := d.connectTimeout?.getD c.connectTimeout
    readTimeout := d.readTimeout?.getD c.readTimeout
    certificates? := d.certificates?.getD c.certificates?
    progressInterval := d.progressInterval?.getD c.progressInterval }

end Draft

def read (downloads? : Option String) (ts : List Json.Token) :
    Except Json.Error (Config × List Json.Token) :=
  (Json.readRecord "struct TransferConfig" Draft.fields {} ts).map fun (d, rest) =>
    (d.complete downloads?, rest)

def ofJson (text : String) (downloads? : Option String := none) : Except Json.Error Config :=
  Json.readAll (read downloads?) text

/-! ## Files -/

/-- The contents of a file with a configuration. -/
def save (c : Config) : Bytes := Bytes.ofText c.toJson.pretty

/-- Load a configuration from the contents of a file, which may not be readable. -/
def load (path : String) (contents : Except IoError Bytes) (downloads? : Option String := none) :
    Except DownloadError Config :=
  match contents with
  | .error cause => .error (.io cause)
  | .ok data =>
    match Bytes.toText? data with
    | none => .error (.io .notText)
    | some text =>
      match ofJson text downloads? with
      | .error cause => .error (.config (.unreadable path cause))
      | .ok c =>
        match c.validate with
        | .error cause => .error (.config cause)
        | .ok () => .ok c

end SegmentedDownload.Config
