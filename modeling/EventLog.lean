import EventLog.Text.Fields
import EventLog.Decimal.Shortest
import EventLog.Decimal.Fixed
import EventLog.Hex
import EventLog.Record.Binary
import EventLog.Allocator
import EventLog.Assertions
import EventLog.Scale.Basic
import EventLog.Named
import EventLog.Json.Number
import EventLog.Json.Reader
import EventLog.Json.Printer
import EventLog.Json.Shape
import EventLog.Signal.Codec
import EventLog.Signal.Bus
import EventLog.Line
import EventLog.Disk.Basic
import EventLog.Sink.Journal
import EventLog.Sink.Service
import EventLog.Pipeline
import EventLog.Peer.Registry
import EventLog.Monitor.Set
import EventLog.Message.Codec
import EventLog.Config.Reader
import EventLog.Daemon.Serve
import EventLog.Daemon.Launch
import EventLog.Session
import EventLog.Main
import EventLog.Client.Run
import EventLog.Proofs.Time.Calendar
import EventLog.Proofs.Time.Timestamp
import EventLog.Proofs.Line
import EventLog.Proofs.Disk.Path
import EventLog.Proofs.Step
import EventLog.Proofs.Disk.Files
import EventLog.Proofs.Disk.Beside
import EventLog.Proofs.Disk.Frame
import EventLog.Proofs.Store.Lines
import EventLog.Proofs.Store.Names
import EventLog.Proofs.Store.Table
import EventLog.Proofs.Store.Rotation
import EventLog.Proofs.Store.Removal
import EventLog.Proofs.Store.Run
import EventLog.Proofs.Store.Shelf
import EventLog.Proofs.Store.Retention
import EventLog.Proofs.Allocator
import EventLog.Proofs.Allocator.Account
import EventLog.Proofs.Store.Ledger
import EventLog.Proofs.Store.Numbering
import EventLog.Proofs.Store.Reuse
import EventLog.Proofs.Assertions
import EventLog.Proofs.Monitor.Observation
import EventLog.Proofs.Monitor.Verdict
import EventLog.Proofs.Monitor.Routing
import EventLog.Proofs.Monitor.Episodes
import EventLog.Proofs.Monitor.Alternation
import EventLog.Proofs.Monitor.DontLog
import EventLog.Proofs.Store.Acknowledged
import EventLog.Proofs.Store.Growth
import EventLog.Proofs.Pipeline
import EventLog.Proofs.Monitor.Relay
import EventLog.Proofs.Monitor.Raised
import EventLog.Proofs.Daemon.Reach
import EventLog.Proofs.Daemon.Publish
import EventLog.Proofs.Json.Reader
import EventLog.Proofs.Json.Shape
import EventLog.Proofs.Time.Message
import EventLog.Proofs.Message.Codec
import EventLog.Proofs.Message.Size
import EventLog.Proofs.Daemon.Answer
import EventLog.Proofs.Message.Frame
import EventLog.Proofs.Signal.Delivery
import EventLog.Proofs.Store.Clearing
import EventLog.Proofs.Message.Request
import EventLog.Proofs.Monitor.Separation
import EventLog.Proofs.Store.Deletion
import EventLog.Proofs.Daemon.Start
import EventLog.Proofs.Daemon.Lock
import EventLog.Proofs.Daemon.Rivals
import EventLog.Proofs.Time.Reader
import EventLog.Proofs.Store.Readers
import EventLog.Proofs.Store.Leftover
import EventLog.Proofs.Scale.Line
import EventLog.Proofs.Scale.Deviation
import EventLog.Proofs.Scale.Normal
import EventLog.Proofs.Named
import EventLog.Proofs.Hex
import EventLog.Proofs.Signal.Pattern
import EventLog.Proofs.Record.Binary
import EventLog.Proofs.Peer.Registry
