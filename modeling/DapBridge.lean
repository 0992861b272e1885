import DapBridge.Number.Double
import DapBridge.Number.Shortest
import DapBridge.Number.Decimal
import DapBridge.Number.Numeric
import DapBridge.Text.Units
import DapBridge.Text.Utf8
import DapBridge.Text.Hex
import DapBridge.Text.Blank
import DapBridge.Json.Value
import DapBridge.Json.Read
import DapBridge.Json.Write
import DapBridge.Ipc.Frame
import DapBridge.Ipc.Line
import DapBridge.Ipc.Framing
import DapBridge.Schema.Basic
import DapBridge.Schema.Check
import DapBridge.Schema.Laws
import DapBridge.Error
import DapBridge.Table
import DapBridge.Json.Coercion
import DapBridge.Config.Values
import DapBridge.Message.Codec
import DapBridge.Wire
import DapBridge.Ipc.Address
import DapBridge.Ipc.Endpoint
import DapBridge.Config.Session
import DapBridge.Diagnostics
import DapBridge.Child.Invocation
import DapBridge.Child.Watcher
import DapBridge.Child.Launcher
import DapBridge.Path
import DapBridge.Path.Host
import DapBridge.Protocol.Objects
import DapBridge.Probe.Report
import DapBridge.Number.Index
import DapBridge.Session.Registry
import DapBridge.Session.Tasks
import DapBridge.Session.Breakpoints
import DapBridge.Cli.Spec
import DapBridge.Cli.Suggest
import DapBridge.Cli.Help
import DapBridge.Cli.Parse
import DapBridge.Cli.Command
import DapBridge.Loop.Machine
import DapBridge.Protocol.Arguments
import DapBridge.Session.World
import DapBridge.Session.Core
import DapBridge.Ipc.Channel
import DapBridge.Session.Control
import DapBridge.Session.Peer
import DapBridge.Session.Engine
import DapBridge.Session.Dispatch
import DapBridge.Session.Server
import DapBridge.Session.Resume
import DapBridge.Session.Rig
import DapBridge.Session.Bench
import DapBridge.Main
import DapBridge.Proofs.Loop
import DapBridge.Proofs.Effects
import DapBridge.Proofs.Settlement
import DapBridge.Proofs.Scheduling
import DapBridge.Proofs.Controller
import DapBridge.Proofs.Machine
import DapBridge.Proofs.Lifecycle
import DapBridge.Proofs.Requests
import DapBridge.Proofs.Utf8
import DapBridge.Proofs.Frames
import DapBridge.Proofs.Lines
import DapBridge.Proofs.JsonText
import DapBridge.Proofs.Transport
import DapBridge.Proofs.Rounding
import DapBridge.Proofs.References
import DapBridge.Proofs.Shortest
import DapBridge.Proofs.NumberText
import DapBridge.Proofs.JsonRoundTrip
import DapBridge.Proofs.Fields
import DapBridge.Proofs.Validation
import DapBridge.Proofs.Messages
import DapBridge.Proofs.ProbeChannel
import DapBridge.Proofs.ChannelDelivery
import DapBridge.Proofs.Numbering
import DapBridge.Proofs.FrameIndex
import DapBridge.Proofs.Resuming
import DapBridge.Proofs.BadFrames
import DapBridge.Proofs.Windows
import DapBridge.Proofs.Inspection
import DapBridge.Proofs.TaskThreads
import DapBridge.Proofs.ThreadList
import DapBridge.Proofs.Launching
import DapBridge.Proofs.PathKeys
import DapBridge.Proofs.DataIds
import DapBridge.Proofs.BookSetters
import DapBridge.Proofs.Expansion
import DapBridge.Proofs.Takeover
import DapBridge.Proofs.ChildRegistry
import DapBridge.Proofs.ChildWatching
import DapBridge.Proofs.SchemaKinds
import DapBridge.Proofs.Configuration
import DapBridge.Proofs.RequestHandlers
import DapBridge.Proofs.Durations
import DapBridge.Proofs.Ports
import DapBridge.Proofs.ClientView
import DapBridge.Proofs.ProbeFrame
import DapBridge.Proofs.EngineFrame
import DapBridge.Proofs.FrontEnd
import DapBridge.Proofs.Discipline
