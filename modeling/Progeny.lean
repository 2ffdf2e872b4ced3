import Progeny.Bytes
import Progeny.Cli.Disk
import Progeny.Cli.Options
import Progeny.Cli.Outcome
import Progeny.Config
import Progeny.Digest.Sha256
import Progeny.Error
import Progeny.Event
import Progeny.Handle
import Progeny.Host
import Progeny.Instance.Table
import Progeny.Journal
import Progeny.Json.Basic
import Progeny.Json.Decode
import Progeny.Json.Magnitude
import Progeny.Json.Numeral
import Progeny.Json.Printer
import Progeny.Json.Reader
import Progeny.Lifecycle
import Progeny.Main
import Progeny.Pipe.Basic
import Progeny.Pipe.Progress
import Progeny.Pipe.Registry
import Progeny.Program.Descriptor
import Progeny.Program.Registry
import Progeny.Proofs.Instance.Depths
import Progeny.Proofs.Instance.Genealogy
import Progeny.Proofs.Instance.Lineage
import Progeny.Proofs.Instance.Records
import Progeny.Proofs.Pipe.Bookkeeping
import Progeny.Proofs.Pipe.Calls
import Progeny.Proofs.Pipe.Directions
import Progeny.Proofs.Pipe.Gifts
import Progeny.Proofs.Pipe.Holdings
import Progeny.Proofs.Pipe.Independence
import Progeny.Proofs.Pipe.Owners
import Progeny.Proofs.Pipe.Queues
import Progeny.Proofs.Pipe.Signals
import Progeny.Proofs.Pipe.Streams
import Progeny.Proofs.Pipe.Wakeups
import Progeny.Proofs.Random.Draw
import Progeny.Proofs.Session.Answers
import Progeny.Proofs.Session.Attempts
import Progeny.Proofs.Session.Budgets
import Progeny.Proofs.Session.Capabilities
import Progeny.Proofs.Session.Captures
import Progeny.Proofs.Session.Chronicles
import Progeny.Proofs.Session.Conduct
import Progeny.Proofs.Session.Counts
import Progeny.Proofs.Session.Deadlock
import Progeny.Proofs.Session.Deliveries
import Progeny.Proofs.Session.Flows
import Progeny.Proofs.Session.History
import Progeny.Proofs.Session.Joins
import Progeny.Proofs.Session.Ledger
import Progeny.Proofs.Session.Lifecycles
import Progeny.Proofs.Session.Limits
import Progeny.Proofs.Session.Memoirs
import Progeny.Proofs.Session.Moves
import Progeny.Proofs.Session.Parentage
import Progeny.Proofs.Session.Portions
import Progeny.Proofs.Session.Posthumous
import Progeny.Proofs.Session.Releases
import Progeny.Proofs.Session.Replies
import Progeny.Proofs.Session.RoundRobin
import Progeny.Proofs.Session.Spans
import Progeny.Proofs.Session.Spawning
import Progeny.Proofs.Session.Teardown
import Progeny.Proofs.Session.Thresholds
import Progeny.Proofs.Session.Traffic
import Progeny.Proofs.Session.Views
import Progeny.Proofs.Snapshot.Fingerprint
import Progeny.Proofs.Snapshot.RoundTrip
import Progeny.Proofs.Text.Base64
import Progeny.Proofs.Text.Plain
import Progeny.Proofs.Workload.Arguments
import Progeny.Proofs.Workload.Births
import Progeny.Proofs.Workload.Certificate
import Progeny.Proofs.Workload.Chronicle
import Progeny.Proofs.Workload.Completion
import Progeny.Proofs.Workload.Handovers
import Progeny.Proofs.Workload.Inheritance
import Progeny.Proofs.Workload.RoundTrip
import Progeny.Proofs.Workload.Search
import Progeny.Proofs.Workload.Shape
import Progeny.Proofs.Workload.Stepping
import Progeny.Proofs.Workload.Testimony
import Progeny.Random.Draw
import Progeny.Random.Stream
import Progeny.Script.Interpreter
import Progeny.Script.State
import Progeny.Script.Statement
import Progeny.Session.Basic
import Progeny.Session.Behaviour
import Progeny.Session.Call
import Progeny.Session.Outcome
import Progeny.Session.Poll
import Progeny.Session.Run
import Progeny.Session.Signals
import Progeny.Session.Summary
import Progeny.Session.Tables
import Progeny.Snapshot.Basic
import Progeny.Snapshot.Capture
import Progeny.Text.Base64
import Progeny.Text.Blank
import Progeny.Text.Decimal
import Progeny.Text.Hex
import Progeny.Text.Printable
import Progeny.Text.Quoted
import Progeny.Text.Utf8
import Progeny.Timestamp.Calendar
import Progeny.Timestamp.Text
import Progeny.Uuid
import Progeny.Workload.Actor
import Progeny.Workload.Arguments
import Progeny.Workload.Basic
import Progeny.Workload.Generate
import Progeny.Workload.Reach
import Progeny.Workload.Run
