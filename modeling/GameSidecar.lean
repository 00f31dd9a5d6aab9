import GameSidecar.Allocation
import GameSidecar.Api
import GameSidecar.Bootstrap
import GameSidecar.Bootstrap.Descriptor
import GameSidecar.Bootstrap.Disk
import GameSidecar.Bootstrap.Entry
import GameSidecar.Bootstrap.FileTree
import GameSidecar.Bootstrap.Metadata
import GameSidecar.Bootstrap.Path
import GameSidecar.Bootstrap.Port
import GameSidecar.Bootstrap.Settings
import GameSidecar.Decimal
import GameSidecar.Double
import GameSidecar.Endpoint
import GameSidecar.Failure
import GameSidecar.Fault
import GameSidecar.GameState
import GameSidecar.Heartbeat.Request
import GameSidecar.Heartbeat.Service
import GameSidecar.Heartbeat.Tracker
import GameSidecar.Json
import GameSidecar.Json.Lookup
import GameSidecar.Json.MergePatch
import GameSidecar.Json.Number
import GameSidecar.Json.Reader
import GameSidecar.Json.Token
import GameSidecar.Json.Writer
import GameSidecar.Launch
import GameSidecar.Log
import GameSidecar.OrderedMap
import GameSidecar.Reconciler
import GameSidecar.Record
import GameSidecar.Rehearsal
import GameSidecar.Rehearsal.Cluster
import GameSidecar.Rehearsal.Script
import GameSidecar.Rehearsal.World
import GameSidecar.Retry
import GameSidecar.Session
import GameSidecar.Settings
import GameSidecar.Settings.Field
import GameSidecar.Settings.Level
import GameSidecar.Settings.Numeral
import GameSidecar.Text.Blank
import GameSidecar.Text.Capital
import GameSidecar.Text.Printable
import GameSidecar.Text.Quoted
import GameSidecar.Text.Split
import GameSidecar.Watch
import GameSidecar.Watch.Known
import GameSidecar.Main
import GameSidecar.Proofs.Machine
import GameSidecar.Proofs.Observation
import GameSidecar.Proofs.ReferenceCache
import GameSidecar.Proofs.Deliveries
import GameSidecar.Proofs.ChangeLog
import GameSidecar.Proofs.Edge
import GameSidecar.Proofs.Handover
import GameSidecar.Proofs.Forward
import GameSidecar.Proofs.Resumption
import GameSidecar.Proofs.Ending
import GameSidecar.Proofs.Waiting
import GameSidecar.Proofs.Closing
import GameSidecar.Proofs.Stopping
import GameSidecar.Proofs.Cycles
import GameSidecar.Proofs.Patching
import GameSidecar.Proofs.Tracking
import GameSidecar.Proofs.Mirroring
import GameSidecar.Proofs.Serialisation
import GameSidecar.Proofs.Checking
import GameSidecar.Proofs.Entries
import GameSidecar.Proofs.FatalExits
import GameSidecar.Proofs.Classifying
import GameSidecar.Proofs.Answering
import GameSidecar.Proofs.Replying
import GameSidecar.Proofs.Pairs
import GameSidecar.Proofs.Grammar
import GameSidecar.Proofs.Reading
import GameSidecar.Proofs.Writing
import GameSidecar.Proofs.Describing
import GameSidecar.Proofs.Spelling
import GameSidecar.Proofs.Decoding
import GameSidecar.Proofs.PortGrammar
import GameSidecar.Proofs.Growing
import GameSidecar.Proofs.Merging
import GameSidecar.Proofs.OwnFields
import GameSidecar.Proofs.Placing
import GameSidecar.Proofs.Segments
import GameSidecar.Proofs.PortListing
import GameSidecar.Proofs.MetadataMap
import GameSidecar.Proofs.Queueing
import GameSidecar.Proofs.ReportedErrors
import GameSidecar.Proofs.HandlerFailures
import GameSidecar.Proofs.Passage
import GameSidecar.Proofs.Streaming
import GameSidecar.Proofs.Retrying
import GameSidecar.Proofs.Sleeping
import GameSidecar.Proofs.Reaching
import GameSidecar.Proofs.Wrapping
import GameSidecar.Proofs.Rostering
