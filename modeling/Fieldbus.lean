import Fieldbus.Library.Machine
import Fieldbus.Library.Footprint
import Fieldbus.Library.Rounding
import Fieldbus.Library.Occupancy
import Fieldbus.Library.Binary64
import Fieldbus.Library.ByteLines
import Fieldbus.Library.Utf8
import Fieldbus.Library.NestedMap
import Fieldbus.Library.LineCodec
import Fieldbus.Library.Json
import Fieldbus.Library.Document
import Fieldbus.Library.Sha256
import Fieldbus.Library.Text
import Fieldbus.Library.DebugText
import Fieldbus.Library.Crc
import Fieldbus.Library.OrderStatistic
import Fieldbus.Library.Planar
import Fieldbus.Library.Tally
import Fieldbus.Library.Fallible
import Fieldbus.Library.Monitor
import Fieldbus.Library.Progress
import Fieldbus.Library.Contraction
import Fieldbus.Core.J1939
import Fieldbus.Core.Validation
import Fieldbus.Core.Sequence
import Fieldbus.Core.Gap
import Fieldbus.Core.Watchdog
import Fieldbus.Core.Arithmetic
import Fieldbus.Core.Control
import Fieldbus.Core.Node
import Fieldbus.Core.Latch
import Fieldbus.Core.Staleness
import Fieldbus.Core.Noninterference
import Fieldbus.Core.Reset
import Fieldbus.Core.Startup
import Fieldbus.Core.Telemetry
import Fieldbus.Core.Language
import Fieldbus.Core.Codec
import Fieldbus.Core.Corruption
import Fieldbus.Core.AntiWindup
import Fieldbus.Core.Percentiles
import Fieldbus.Core.Budget
import Fieldbus.Core.Counters
import Fieldbus.Host.Bus
import Fieldbus.Host.Faults
import Fieldbus.Host.Runner
import Fieldbus.Host.Latch
import Fieldbus.Host.ClosedLoop
import Fieldbus.Host.Attribution
import Fieldbus.Host.CleanRun
import Fieldbus.Host.Deadlines
import Fieldbus.Host.Silence
import Fieldbus.Host.Commands
import Fieldbus.Host.Report
import Fieldbus.Host.Verdicts
import Fieldbus.Host.Gate
import Fieldbus.Host.Virtual
import Fieldbus.Host.VirtualVerdicts
import Fieldbus.Host.Regulation
import Fieldbus.Host.Settling
import Fieldbus.Host.SocketCan
import Fieldbus.Host.Receiving
import Fieldbus.Host.Hog
import Fieldbus.Host.Wakeup
import Fieldbus.Host.Teardown
import Fieldbus.Host.Manifest
import Fieldbus.Host.Execution
import Fieldbus.Host.Evidence
import Fieldbus.Host.CommandLine
import Fieldbus.Host.Program
import Fieldbus.Host.ResultFile
import Fieldbus.Host.Session
import Fieldbus.Host.Rehearsal
import Fieldbus.Host.Completion
import Fieldbus.Host.Consistency
import Fieldbus.Host.Provenance
import Fieldbus.Cloud.Protocol
import Fieldbus.Cloud.Signature
import Fieldbus.Cloud.Store
import Fieldbus.Cloud.Numbers
import Fieldbus.Cloud.Values
import Fieldbus.Cloud.Json
import Fieldbus.Cloud.Calls
import Fieldbus.Cloud.Review
import Fieldbus.Cloud.Replay
import Fieldbus.Cloud.Ingest
import Fieldbus.Cloud.Credentials
import Fieldbus.Cloud.Rotation
import Fieldbus.Cloud.Confluence
import Fieldbus.Cloud.Contents
import Fieldbus.Cloud.Crash
import Fieldbus.Cloud.Torn
import Fieldbus.Cloud.Failure
import Fieldbus.Cloud.Resume
import Fieldbus.Cloud.Retry
import Fieldbus.Cloud.Device
import Fieldbus.Cloud.Delivery
import Fieldbus.Cloud.Drain
import Fieldbus.Cloud.Health
import Fieldbus.Cloud.Position
import Fieldbus.Cloud.Http
import Fieldbus.Cloud.Admin
import Fieldbus.Cloud.Framing
import Fieldbus.Cloud.Balance
import Fieldbus.Cloud.Secrets
import Fieldbus.Cloud.Serving
import Fieldbus.Cloud.Secrecy
import Fieldbus.Cloud.Answers
import Fieldbus.Cloud.Dashboard
import Fieldbus.Wasm.Demo
