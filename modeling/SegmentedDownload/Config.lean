import SegmentedDownload.Digest
import SegmentedDownload.Text.Blank
import SegmentedDownload.Url

/-!
# SegmentedDownload.Config

What one download is asked to do.

The file name is kept in two parts: `extension` is the last point of the name
and what follows it, so that a number can be put in front of it. A name that
begins with its only point is all base. `Config.new` takes the name from the
URL, and `validate` refuses a configuration for the first fault that it finds.

Where no directory is given, the system has its say: it may have a directory for
downloads, which is a parameter here.
-/

namespace SegmentedDownload

/-- The configuration of one download. Times are in milliseconds. -/
structure Config where
  url : String
  /-- The directory of the partial and of the finished file. -/
  directory : String
  baseName : String
  /-- The last point of the name and what follows it, or nothing. -/
  extension : String := ""
  /-- Number of connections. -/
  workers : Nat := 4
  /-- Whether the partial file keeps a header from which a later run continues. -/
  resume : Bool := true
  /-- The digest of the finished file in hexadecimal digits. -/
  expectedHash? : Option String := none
  connectTimeout : Nat := 3000
  /-- The longest pause inside a response. -/
  readTimeout : Nat := 30000
  /-- A file with a certificate to be trusted. -/
  certificates? : Option String := none
  /-- The least time between two reports of progress. -/
  progressInterval : Nat := 500
deriving Repr, DecidableEq, Inhabited

namespace Config

/-! ## Names -/

/-- A file name in front of its last point, and the rest. A point that begins
the name does not count. -/
def splitName (name : String) : String × String :=
  let chars := name.toList
  let tail := (chars.reverse.takeWhile (· ≠ '.')).reverse
  let place := chars.length - tail.length - 1
  if tail.length < chars.length ∧ 0 < place then
    (String.ofList (chars.take place), String.ofList (chars.drop place))
  else (name, "")

def fileName (c : Config) : String := c.baseName ++ c.extension

/-- The directory where none is given: that for downloads, if the system has one. -/
def defaultDirectory (downloads? : Option String) : String := downloads?.getD "."

/-- A configuration of nothing yet, all other fields of which have default values. -/
def empty (downloads? : Option String := none) : Config :=
  { url := "", directory := defaultDirectory downloads?, baseName := "" }

/-- The configuration that downloads a URL into a directory, under the name
that the URL ends in. -/
def new (url directory : String) : Config :=
  let (baseName, extension) := splitName (Url.fileName url)
  { url, directory, baseName, extension }

/-! ## Validity -/

def checkUrl (url : String) : Except ConfigError Unit :=
  if Text.isAllBlank url.toList then .error .emptyUrl
  else match Url.ofText url with
    | .error cause => .error (.invalidUrl url cause)
    | .ok parsed =>
      if parsed.scheme = "http" ∨ parsed.scheme = "https" then .ok ()
      else .error (.unsupportedScheme parsed.scheme)

def checkHash : Option String → Except ConfigError Unit
  | none => .ok ()
  | some hash => if (Digest.ofHex? hash).isSome then .ok () else .error (.invalidHash hash)

def validate (c : Config) : Except ConfigError Unit := do
  checkUrl c.url
  if c.directory.isEmpty then throw .emptyDirectory
  if c.baseName.isEmpty then throw .emptyName
  if c.workers = 0 then throw .noWorkers
  checkHash c.expectedHash?

end Config

end SegmentedDownload
