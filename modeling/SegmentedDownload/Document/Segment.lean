import SegmentedDownload.Json.Read
import SegmentedDownload.Json.Write
import SegmentedDownload.Progress
import SegmentedDownload.Segment

/-!
# SegmentedDownload.Document.Segment

Segments and snapshots of progress as JSON documents. All their fields are
signed words and have to be there.
-/

namespace SegmentedDownload

namespace Segment

def toJson (s : Segment) : Json.Value :=
  .object
    [("start", .integer s.start),
     ("end", .integer s.last),
     ("committed_downloaded", .integer s.committed),
     ("session_downloaded", .integer s.session)]

structure Draft where
  start? : Option Int := none
  last? : Option Int := none
  committed? : Option Int := none
  session? : Option Int := none

def Draft.fields : List (Json.Field Draft) :=
  [.of "start" true start? (fun d a => { d with start? := some a }) Json.readSigned,
   .of "end" true last? (fun d a => { d with last? := some a }) Json.readSigned,
   .of "committed_downloaded" true committed?
    (fun d a => { d with committed? := some a }) Json.readSigned,
   .of "session_downloaded" true session?
    (fun d a => { d with session? := some a }) Json.readSigned]

def Draft.complete (d : Draft) : Segment :=
  { start := d.start?.getD 0
    last := d.last?.getD 0
    committed := d.committed?.getD 0
    session := d.session?.getD 0 }

def ofJson (text : String) : Except Json.Error Segment :=
  (Json.readAll (Json.readRecord "struct SegmentRecord" Draft.fields {}) text).map Draft.complete

end Segment

namespace Snapshot

def toJson (s : Snapshot) : Json.Value :=
  .object [("total", .integer s.total), ("transferred", .integer s.transferred)]

structure Draft where
  total? : Option Int := none
  transferred? : Option Int := none

def Draft.fields : List (Json.Field Draft) :=
  [.of "total" true total? (fun d a => { d with total? := some a }) Json.readSigned,
   .of "transferred" true transferred?
    (fun d a => { d with transferred? := some a }) Json.readSigned]

def Draft.complete (d : Draft) : Snapshot :=
  { total := d.total?.getD 0, transferred := d.transferred?.getD 0 }

def ofJson (text : String) : Except Json.Error Snapshot :=
  (Json.readAll (Json.readRecord "struct ProgressSnapshot" Draft.fields {}) text).map
    Draft.complete

end Snapshot

end SegmentedDownload
