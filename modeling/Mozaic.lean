import Mozaic.Rust.Outcome
import Mozaic.Rust.Panic
import Mozaic.Rust.HashMap
import Mozaic.Rust.SwapRemove
import Mozaic.Protocol
import Mozaic.Rules.Basic
import Mozaic.Rules.Config
import Mozaic.Rules.Serializer
import Mozaic.Rules.Arrivals
import Mozaic.Rules.Combat
import Mozaic.Rules.Expeditions
import Mozaic.Rules.Step
import Mozaic.Network.Handle
import Mozaic.Rust.BinaryHeap
import Mozaic.Rust.Loop
import Mozaic.Network.TimeoutHeap
import Mozaic.Network.MessageHandler
import Mozaic.Network.Requests
import Mozaic.Game.Basic
import Mozaic.Game.Orders
import Mozaic.Game.Execution
import Mozaic.Rules.Growth
import Mozaic.Game.Invariant
import Mozaic.Game.Turn
import Mozaic.Game.Elimination
import Mozaic.Game.ShipAccounting
import Mozaic.Rules.Chart
import Mozaic.Game.DrainOrder
import Mozaic.Controller.Basic
import Mozaic.Game.View
import Mozaic.Controller.Turn
import Mozaic.Controller.System
import Mozaic.Controller.LockStep
import Mozaic.Controller.Events
import Mozaic.Controller.Reachable
import Mozaic.Controller.Deserted
import Mozaic.Controller.ShipBound
import Mozaic.Controller.Streams
import Mozaic.Controller.FinalState
import Mozaic.Desktop.MatchLog
import Mozaic.Desktop.Alignment
import Mozaic.Controller.Seating
import Mozaic.Controller.Chronicle
import Mozaic.Controller.Routing
import Mozaic.Json
import Mozaic.Desktop.Outcome
import Mozaic.Desktop.Importer
import Mozaic.Desktop.SlotManager
import Mozaic.Desktop.Registration
import Mozaic.Desktop.PlayerNumbers
import Mozaic.Desktop.Answers
import Mozaic.Desktop.Prospect
import Mozaic.Desktop.Orderly
import Mozaic.Desktop.Quiescence
import Mozaic.Framing.Leb128
import Mozaic.Framing.Incremental
import Mozaic.Network.LengthDelimited
import Mozaic.Network.MalformedHeader
import Mozaic.Framing.Frames
import Mozaic.Framing.Protobuf
import Mozaic.Network.ClientHandler
import Mozaic.Network.Connection
import Mozaic.MozaicClient.ProtobufReader
import Mozaic.MozaicClient.BotRunner
import Mozaic.MozaicClient.WireFormat
import Mozaic.MozaicClient.Pairing
import Mozaic.Controller.Reports
import Mozaic.Desktop.Dialogue
import Mozaic.Desktop.CommandLog
import Mozaic.Desktop.Play
import Mozaic.Text.Lines
import Mozaic.Desktop.LogFile
import Mozaic.Desktop.Connections
import Mozaic.JavaScript.Dict
import Mozaic.Desktop.Migration
import Mozaic.Desktop.MigratedResults
import Mozaic.Rules.Attrition
import Mozaic.Rules.Deliveries
import Mozaic.Game.Commands
import Mozaic.Game.Flight
import Mozaic.Controller.Orders
import Mozaic.Game.Loading
import Mozaic.Network.Agenda
import Mozaic.Text.Words
import Mozaic.Desktop.CommandLine
import Mozaic.Network.Cancellation
import Mozaic.Rust.Random
import Mozaic.Rust.Casts
import Mozaic.MapGenerator.CreateMap
import Mozaic.MapGenerator.Ownership
import Mozaic.JavaScript.Component
import Mozaic.Visualizer.Player
import Mozaic.Visualizer.Cursor
import Mozaic.Desktop.MatchView
import Mozaic.Desktop.ShownLog
import Mozaic.Network.OpenRequests
import Mozaic.Controller.Tasks
import Mozaic.Controller.InFlight
import Mozaic.Controller.Rounds
import Mozaic.Network.Tcp
import Mozaic.MozaicClient.Connection
import Mozaic.MozaicClient.CoreFormat
import Mozaic.MozaicClient.Handshake
import Mozaic.MozaicClient.Admission
import Mozaic.Game.Symmetry
import Mozaic.Controller.ControlClient
import Mozaic.MozaicClient.MatchRunner
import Mozaic.Game.Modest
import Mozaic.Bots.Shipped
import Mozaic.JavaScript.WriteBehind
import Mozaic.Desktop.Database
import Mozaic.Desktop.Restart
import Mozaic.Desktop.MatchLife
