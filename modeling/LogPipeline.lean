import LogPipeline.Appender.Build
import LogPipeline.Appender.Crew
import LogPipeline.Appender.Mixed
import LogPipeline.Appender.Output
import LogPipeline.Appender.Set
import LogPipeline.Calendar
import LogPipeline.Config.Basic
import LogPipeline.Config.Check
import LogPipeline.Config.Codec
import LogPipeline.Context
import LogPipeline.Device.FileTree
import LogPipeline.Device.Path
import LogPipeline.Device.Record
import LogPipeline.Devices
import LogPipeline.Dict
import LogPipeline.Dispatcher
import LogPipeline.Error
import LogPipeline.Event
import LogPipeline.Filter
import LogPipeline.Formatter
import LogPipeline.Inspect
import LogPipeline.Json.Access
import LogPipeline.Json.Basic
import LogPipeline.Json.Decode
import LogPipeline.Json.Parser
import LogPipeline.Json.Range
import LogPipeline.Level
import LogPipeline.Logger.Basic
import LogPipeline.Logger.Build
import LogPipeline.Marker
import LogPipeline.Message
import LogPipeline.Metrics
import LogPipeline.Output.Manager
import LogPipeline.Output.Registry
import LogPipeline.Output.Sink
import LogPipeline.Property
import LogPipeline.Rehearsal.Appender
import LogPipeline.Rehearsal.DispatcherBench
import LogPipeline.Rehearsal.Held
import LogPipeline.Rehearsal.LoggerBench
import LogPipeline.Rehearsal.OutputBench
import LogPipeline.Rehearsal.Plan
import LogPipeline.Rehearsal.Producers
import LogPipeline.Rehearsal.Reader
import LogPipeline.Rehearsal.RegistryBench
import LogPipeline.Rehearsal.RingBench
import LogPipeline.Rehearsal.Script
import LogPipeline.Rehearsal.Sinks
import LogPipeline.Ring.Basic
import LogPipeline.Ring.Cells
import LogPipeline.Status
import LogPipeline.Text.Column
import LogPipeline.Text.Duration
import LogPipeline.Text.Hex
import LogPipeline.Text.Lossy
import LogPipeline.Text.Name
import LogPipeline.Timestamp
import LogPipeline.Timestamp.Pattern
import LogPipeline.Proofs.Ring.Tracks
import LogPipeline.Proofs.Ring.Consumer
import LogPipeline.Proofs.Ring.Delivery
import LogPipeline.Proofs.Output.Conservation
import LogPipeline.Proofs.Dispatcher.Calls
import LogPipeline.Proofs.Dispatcher.Accounts
import LogPipeline.Proofs.Dispatcher.Shutdown
import LogPipeline.Proofs.Output.Outlets
import LogPipeline.Proofs.Output.Streams
import LogPipeline.Proofs.Appender.Batching
import LogPipeline.Proofs.Appender.Crews
import LogPipeline.Proofs.Logger.Batching
import LogPipeline.Proofs.Logger.Asynchronous
import LogPipeline.Proofs.Ring.Batches
import LogPipeline.Proofs.Dispatcher.Following
import LogPipeline.Proofs.Dispatcher.Rest
import LogPipeline.Proofs.Appender.Idle
import LogPipeline.Proofs.Logger.Settling
import LogPipeline.Proofs.Logger.Answers
import LogPipeline.Proofs.Output.Tracing
import LogPipeline.Proofs.Output.Desks
import LogPipeline.Proofs.Output.Leases
import LogPipeline.Proofs.Output.Releases
import LogPipeline.Proofs.Output.Sharing
import LogPipeline.Proofs.Formatter.Lines
import LogPipeline.Proofs.Json.Reading
import LogPipeline.Proofs.Formatter.Records
import LogPipeline.Proofs.Ring.Ownership
import LogPipeline.Proofs.Dispatcher.Balance
import LogPipeline.Proofs.Logger.Moves
import LogPipeline.Proofs.Logger.Accounting
import LogPipeline.Proofs.Json.Fields
import LogPipeline.Proofs.Config.RoundTrip
import LogPipeline.Proofs.Config.Building
import LogPipeline.Proofs.Output.References
import LogPipeline.Proofs.Output.Borrowing
import LogPipeline.Proofs.Logger.Undoing
import LogPipeline.Proofs.Filter.Verdicts
import LogPipeline.Proofs.Appender.Isolation
import LogPipeline.Proofs.Logger.Mirroring
import LogPipeline.Proofs.Logger.Guarding
import LogPipeline.Proofs.Ring.Closing
import LogPipeline.Proofs.Appender.Careers
import LogPipeline.Proofs.Appender.Lending
import LogPipeline.Proofs.Logger.Staffing
import LogPipeline.Proofs.Logger.Stopping
import LogPipeline.Proofs.Property.Merging
import LogPipeline.Proofs.Output.Packing
import LogPipeline.Proofs.Appender.Workshop
import LogPipeline.Proofs.Appender.MemoryRecords
import LogPipeline.Proofs.Appender.DefaultNames
import LogPipeline.Proofs.Context.Guards
import LogPipeline.Proofs.Property.Substitution
import LogPipeline.Proofs.Status.Reporting
import LogPipeline.Proofs.Logger.Severity
import LogPipeline.Proofs.Message.Placeholders
import LogPipeline.Proofs.Dispatcher.Flushing
import LogPipeline.Proofs.Device.Trees
import LogPipeline.Proofs.Device.Files
import LogPipeline.Proofs.Appender.FileSessions
import LogPipeline.Proofs.Message.JsonMaps
import LogPipeline.Proofs.Text.Spelling
import LogPipeline.Proofs.Config.Names
import LogPipeline.Proofs.Timestamp.Gregorian
import LogPipeline.Proofs.Text.Numerals
import LogPipeline.Proofs.Timestamp.Instants
