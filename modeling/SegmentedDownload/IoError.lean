/-!
# SegmentedDownload.IoError

Why an operation on a file failed. `IoError.message` is the text shown to
users; the causes that the operating system reports end in its error number.
-/

namespace SegmentedDownload

/-- The cause of a failed file operation. -/
inductive IoError
  | notFound
  | badDescriptor
  | alreadyExists
  | notADirectory
  | isADirectory
  | invalidArgument
  | noSpace
  | nameTooLong
  /-- A path that holds a NUL character. -/
  | nulInPath
  /-- The medium took fewer bytes than offered. -/
  | shortWrite
  /-- The medium refused to be read at a position. -/
  | unreadable
  /-- A length that does not fit in a signed word. -/
  | lengthTooLarge
  /-- A position whose distance from the start of the file is no word. -/
  | positionOverflow
  /-- Contents that are not text. -/
  | notText
  /-- The body of a response ended before its segment was filled. -/
  | segmentEnded (index : Nat) (received expected : Int)
  /-- A file held fewer bytes than were to be copied from it. -/
  | shortCopy (copied expected : Nat)
  | other (text : String)
deriving Repr, DecidableEq

/-- The text of an error reported by the operating system. -/
private def systemText (text : String) (number : Nat) : String :=
  s!"{text} (os error {number})"

def IoError.message : IoError → String
  | notFound => systemText "No such file or directory" 2
  | badDescriptor => systemText "Bad file descriptor" 9
  | alreadyExists => systemText "File exists" 17
  | notADirectory => systemText "Not a directory" 20
  | isADirectory => systemText "Is a directory" 21
  | invalidArgument => systemText "Invalid argument" 22
  | noSpace => systemText "No space left on device" 28
  | nameTooLong => systemText "File name too long" 36
  | nulInPath => "file name contained an unexpected NUL byte"
  | shortWrite => "failed to write whole buffer"
  | unreadable => "injected read failure"
  | lengthTooLarge => "number too large to fit in target type"
  | positionOverflow => "position out of range"
  | notText => "stream did not contain valid UTF-8"
  | segmentEnded index received expected =>
    s!"segment {index} ended after {received} of {expected} bytes"
  | shortCopy copied expected => s!"copied {copied} of {expected} bytes"
  | other text => text

end SegmentedDownload
