import SegmentedDownload.Json.Error
import SegmentedDownload.ResumeHeader
import SegmentedDownload.Url.Host

/-!
# SegmentedDownload.Error

Why a download, or a part of it, failed. Each cause belongs to one kind, and the
text of an error is the phrase of its kind around the detail of its cause.
-/

namespace SegmentedDownload

/-- Why a configuration cannot be used. -/
inductive ConfigError
  | emptyUrl
  | invalidUrl (url : String) (cause : UrlError)
  | unsupportedScheme (scheme : String)
  | emptyDirectory
  | emptyName
  | noWorkers
  | invalidHash (hash : String)
  /-- A hash whose kind is not known. -/
  | unsupportedHash (hash : String)
  /-- A file that holds no configuration. -/
  | unreadable (path : String) (cause : Json.Error)
  /-- A file that holds no certificate. -/
  | invalidCertificate (path : String)
deriving Repr, DecidableEq

def ConfigError.message : ConfigError → String
  | emptyUrl => "url is empty"
  | invalidUrl url cause => "invalid url " ++ url ++ ": " ++ cause.message
  | unsupportedScheme scheme => "unsupported scheme: " ++ scheme
  | emptyDirectory => "directory is empty"
  | emptyName => "file name is empty"
  | noWorkers => "worker count must be at least 1"
  | invalidHash hash => "expected hash must be 32 (MD5) or 64 (SHA-256) hex digits: " ++ hash
  | unsupportedHash hash => "unsupported hash: " ++ hash
  | unreadable path cause => path ++ ": " ++ cause.message
  | invalidCertificate path => "invalid CA bundle " ++ path ++ ": builder error"

/-- Why a server did not tell the size of a file. -/
inductive SizeError
  | status (code : Nat)
  | noLength
deriving Repr, DecidableEq

def SizeError.message : SizeError → String
  | status code => s!"HEAD returned status {code}"
  | noLength => "no Content-Length in response"

inductive ErrorKind
  | config
  | sizeQuery
  | corruptHeader
  | rangeUnsupported
  | transport
  | server
  | io
  | hashMismatch
  | alreadyRunning
deriving Repr, DecidableEq

/-- The text of an error of some kind with the given detail. -/
def ErrorKind.phrase : ErrorKind → String → String
  | config, detail => "Invalid configuration: " ++ detail
  | sizeQuery, detail => "Size query failed: " ++ detail
  | corruptHeader, detail => "Resume header is corrupt: " ++ detail
  | rangeUnsupported, detail => "Server ignored the range request for segment " ++ detail
  | transport, detail => "Network error: " ++ detail
  | server, detail => "Server error: " ++ detail
  | io, detail => "IO error: " ++ detail
  | hashMismatch, _ => "hash mismatch"
  | alreadyRunning, _ => "Download is already running"

/-- The cause of a failed download. -/
inductive DownloadError
  | config (cause : ConfigError)
  | sizeQuery (cause : SizeError)
  | corruptHeader (cause : HeaderError)
  /-- The server sent the whole file in place of a segment. -/
  | rangeUnsupported (index : Nat)
  /-- The connection failed. -/
  | transport
  | server (status : Nat)
  | io (cause : IoError)
  | hashMismatch (expected actual : String)
  | alreadyRunning
deriving Repr, DecidableEq

namespace DownloadError

def kind : DownloadError → ErrorKind
  | config _ => .config
  | sizeQuery _ => .sizeQuery
  | corruptHeader _ => .corruptHeader
  | rangeUnsupported _ => .rangeUnsupported
  | transport => .transport
  | server _ => .server
  | io _ => .io
  | hashMismatch _ _ => .hashMismatch
  | alreadyRunning => .alreadyRunning

/-- What the text of an error says beside its kind. -/
def detail : DownloadError → String
  | config cause => cause.message
  | sizeQuery cause => cause.message
  | corruptHeader cause => cause.message
  | rangeUnsupported index => toString index
  | transport => "connection failed"
  | server status => toString status
  | io cause => cause.message
  | hashMismatch expected _ => expected
  | alreadyRunning => ""

def message (e : DownloadError) : String := e.kind.phrase e.detail

/-- The error of a header that could not be read: a fault of the medium counts
as one of the file, and not of its header. -/
def ofHeader : HeaderError → DownloadError
  | .io cause => .io cause
  | cause => .corruptHeader cause

end DownloadError

end SegmentedDownload
