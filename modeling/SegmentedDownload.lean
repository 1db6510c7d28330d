import SegmentedDownload.Bytes
import SegmentedDownload.Word
import SegmentedDownload.IoError
import SegmentedDownload.OpenFile
import SegmentedDownload.Plan
import SegmentedDownload.ResumeHeader
import SegmentedDownload.Segment
import SegmentedDownload.Table
import SegmentedDownload.PartialFile
import SegmentedDownload.Worker
import SegmentedDownload.Progress
import SegmentedDownload.Json.Token
import SegmentedDownload.Json.Read
import SegmentedDownload.Json.Write
import SegmentedDownload.Text.Blank
import SegmentedDownload.Text.CharTable
import SegmentedDownload.Url.Domain.Composition
import SegmentedDownload.Url.Domain.Direction
import SegmentedDownload.Url.Domain.Joiner
import SegmentedDownload.Url.Domain.Mapping
import SegmentedDownload.Url.Domain.Mark
import SegmentedDownload.Timestamp
import SegmentedDownload.Url.Percent
import SegmentedDownload.Url.Address
import SegmentedDownload.Url.Punycode
import SegmentedDownload.Url
import SegmentedDownload.Error
import SegmentedDownload.Digest
import SegmentedDownload.Config
import SegmentedDownload.Document.Config
import SegmentedDownload.Document.Segment
import SegmentedDownload.Event
import SegmentedDownload.Document.Event
import SegmentedDownload.FileSystem
import SegmentedDownload.Naming
import SegmentedDownload.Channel
import SegmentedDownload.Certificate
import SegmentedDownload.Transfer
import SegmentedDownload.Probe
import SegmentedDownload.Download
import SegmentedDownload.Job
import SegmentedDownload.Lifecycle
import SegmentedDownload.Proofs.Contents
import SegmentedDownload.Proofs.Medium
import SegmentedDownload.Proofs.Partition
import SegmentedDownload.Proofs.Header
import SegmentedDownload.Proofs.Buffering
import SegmentedDownload.Proofs.Streaming
import SegmentedDownload.Proofs.Faults
import SegmentedDownload.Proofs.Setup
import SegmentedDownload.Proofs.Closing
import SegmentedDownload.Proofs.Records
import SegmentedDownload.Proofs.Completion
import SegmentedDownload.Proofs.Confinement
import SegmentedDownload.Proofs.Resume
import SegmentedDownload.Proofs.Arrival
import SegmentedDownload.Proofs.Delivery
import SegmentedDownload.Proofs.FreeNames
import SegmentedDownload.Proofs.LastNames
import SegmentedDownload.Proofs.EndToEnd
import SegmentedDownload.Proofs.HeaderImage
import SegmentedDownload.Proofs.TornCheckpoint
import SegmentedDownload.Proofs.ShortBody
import SegmentedDownload.Proofs.FailedFinish
import SegmentedDownload.Proofs.OnDisk
import SegmentedDownload.Proofs.FinalUpdate
import SegmentedDownload.Proofs.Sparing
import SegmentedDownload.Proofs.Escapes
import SegmentedDownload.Proofs.UrlNames
import SegmentedDownload.Proofs.OneRun
import SegmentedDownload.Proofs.Stopping
import SegmentedDownload.Proofs.NoDeadlock
import SegmentedDownload.Proofs.Orderly
import SegmentedDownload.Proofs.Undisturbed
import SegmentedDownload.Proofs.SetupDecision
import SegmentedDownload.Proofs.WriteOrder
import SegmentedDownload.Proofs.FailedStart
import SegmentedDownload.Proofs.Accord
import SegmentedDownload.Proofs.Endings
import SegmentedDownload.Proofs.DirectWriting
import SegmentedDownload.Proofs.Accounting
import SegmentedDownload.Proofs.Readoption
import SegmentedDownload.Proofs.JsonText
import SegmentedDownload.Proofs.ConfigDocument
import SegmentedDownload.Proofs.FreshPlan
import SegmentedDownload.Proofs.Requests
import SegmentedDownload.Proofs.Collapse
import SegmentedDownload.Proofs.Saving
import SegmentedDownload.Proofs.NameSearch
import SegmentedDownload.Proofs.Throttling
import SegmentedDownload.Proofs.DerivedNames
import SegmentedDownload.Proofs.WordArithmetic
import SegmentedDownload.Proofs.DigestCheck
import SegmentedDownload.Proofs.Covering
