import SegmentedDownload.Certificate
import SegmentedDownload.Naming
import SegmentedDownload.Probe
import SegmentedDownload.Transfer

/-!
# SegmentedDownload.Download

One download from the size query to the finished file.

1. The certificate is checked and the size asked for.
2. The directory is made, and the partial file opened. It can be resumed only if
   the size is known; then its header is adopted if it fits.
3. The transfer runs.
4. The payload of a complete partial file becomes a file of its own under the
   first free name (`finalize`). A partial file without a header is given the new
   name; one with a header is copied, so that the header stays as long as
   anything can fail.
5. The digest of the finished file is checked, if one is expected.
-/

namespace SegmentedDownload

/-- What the outside world does during a download. -/
structure World where
  /-- The replies to the size queries; none if a stop is noticed before them. -/
  sizes? : Option (List SizeReply)
  course : Course
  /-- How writes to the partial file go. -/
  faults : List (Option Nat) := []
deriving Repr, DecidableEq

/-- A download and what it leaves behind. -/
structure Download where
  files : FileSystem
  progress : Snapshot := {}
  /-- What the observer heard of, in order. -/
  callbacks : List Snapshot := []
  /-- The path of the finished file. -/
  output? : Option String := none
deriving Repr, DecidableEq

namespace Download

/-! ## The finished file -/

/-- Copy the payload of a partial file to a new file. -/
def copyPayload (files : FileSystem) (contents : Bytes) (headerSize length : Nat)
    (target : String) : FileSystem × Option IoError :=
  match files.createNew target with
  | (files, some fault) => (files, some fault)
  | (files, none) =>
    let payload := contents.slice headerSize length
    match files.write target payload with
    | (files, some fault) => (files, some fault)
    | (files, none) =>
      (files, if payload.length = length then none else some (.shortCopy payload.length length))

/-- Make the payload of a complete partial file a file of its own. -/
def finalize (files : FileSystem) (c : Config) (partialPath : String) (place : Place)
    (file : OpenFile) (headerSize length : Nat) : FileSystem × Except IoError String :=
  match file.setLength (headerSize + length) with
  | (_, some fault) => (files, .error fault)
  | (file, none) =>
    let files := files.put place (.file file.contents)
    let target := Naming.destination files c
    let (files, fault?) :=
      if headerSize = 0 then files.rename partialPath target
      else match copyPayload files file.contents headerSize length target with
        | (files, some fault) => (files, some fault)
        | (files, none) => files.remove partialPath
    (files, match fault? with | some fault => .error fault | none => .ok target)

def verify (files : FileSystem) (c : Config) (target : String) : Except DownloadError Unit :=
  match c.expectedHash? with
  | none => .ok ()
  | some hash => Digest.verify (files.read target) hash

/-- Finish a download whose transfer is complete. -/
def finish (d : Download) (c : Config) (partialPath : String) (place : Place) (file : OpenFile)
    (headerSize length : Nat) : Except DownloadError Outcome × Download :=
  match finalize d.files c partialPath place file headerSize length with
  | (files, .error fault) => (.error (.io fault), { d with files })
  | (files, .ok target) =>
    let d := { d with files, output? := some target }
    ((verify files c target).map fun _ => .completed length, d)

/-! ## The transfer -/

def table (c : Config) (size? : Option Int) (file : OpenFile) : Table :=
  match size? with
  | some size =>
    if c.resume then Table.load file size c.workers else Table.fresh size? c.workers false
  | none => Table.fresh size? c.workers false

/-- Transfer the file into a partial file that was opened. -/
def transfer (d : Download) (c : Config) (size? : Option Int) (partialPath : String)
    (place : Place) (contents : Bytes) (world : World) :
    Except DownloadError Outcome × Download :=
  let file : OpenFile := { contents, faults := world.faults }
  let table := table c size? file
  let reporter := Reporter.new table.size? c.progressInterval d.progress
  let (outcome, t) := Transfer.run table { file } reporter world.course
  let file := t.file.file
  let d :=
    { d with
      files := d.files.put place (.file file.contents)
      progress := t.reporter.snapshot
      callbacks := t.callbacks }
  match outcome with
  | .ok (.completed length) => d.finish c partialPath place file t.table.headerSize length
  | outcome => (outcome, d)

/-- Download a file whose size is known or not. -/
def fetch (d : Download) (c : Config) (size? : Option Int) (world : World) :
    Except DownloadError Outcome × Download :=
  match d.files.createDirectory c.directory with
  | (files, some fault) => (.error (.io fault), { d with files })
  | (files, none) =>
    let partialPath := Naming.partialPath files c size? (c.resume && size?.isSome)
    match files.openFile partialPath with
    | (files, .error fault) => (.error (.io fault), { d with files })
    | (files, .ok (place, contents)) =>
      transfer { d with files } c size? partialPath place contents world

def run (c : Config) (files : FileSystem) (world : World) :
    Except DownloadError Outcome × Download :=
  let d : Download := { files }
  match Certificate.check c files.read with
  | .error e => (.error e, d)
  | .ok () =>
    match world.sizes? with
    | none => (.ok .interrupted, d)
    | some replies => d.fetch c (Probe.settled replies) world

end Download

end SegmentedDownload
