import ZeldaServer.Lib.Framing
import ZeldaServer.Proof.Recv
import ZeldaServer.Proof.Stream
import ZeldaServer.Proof.SendToken
import ZeldaServer.Proof.SendPipe
import ZeldaServer.Spec.Protocol
import ZeldaServer.Spec.Session
import ZeldaServer.Proof.Registry
import ZeldaServer.Lib.RangeFor
import ZeldaServer.Spec.FindPath
import ZeldaServer.Spec.GameObject
import ZeldaServer.Spec.GameRoom
import ZeldaServer.Spec.Outbox
import ZeldaServer.Proof.Stage
import ZeldaServer.Proof.Core
import ZeldaServer.Proof.Counted
import ZeldaServer.Proof.RoomSpec
import ZeldaServer.Proof.FindPath
import ZeldaServer.Proof.Creatures
import ZeldaServer.Proof.Monsters
import ZeldaServer.Proof.Broadcasts
import ZeldaServer.Proof.Delivery
import ZeldaServer.Proof.RoomRun
import ZeldaServer.Proof.Representation
import ZeldaServer.Proof.Feed
import ZeldaServer.Proof.Clients
import ZeldaServer.Proof.Replicas
import ZeldaServer.Proof.Combat
import ZeldaServer.Proof.Progress
import ZeldaServer.Proof.Wrap
import ZeldaServer.Proof.Duel
import ZeldaServer.Proof.Packets
import ZeldaServer.Proof.Sizes
import ZeldaServer.Spec.Release
import ZeldaServer.Proof.Release
import ZeldaServer.Proof.Cap
import ZeldaServer.Proof.Cells
import ZeldaServer.Spec.GameServer
import ZeldaServer.Proof.Ownership
import ZeldaServer.Proof.Contract
import ZeldaServer.Proof.Shortest
import ZeldaServer.Proof.Plan
import ZeldaServer.Proof.Pursuit
import ZeldaServer.Lib.Revisit
import ZeldaServer.Proof.Opposite
import ZeldaServer.Proof.Termination
import ZeldaServer.Proof.Presence
import ZeldaServer.Proof.Attendance
import ZeldaServer.Proof.Nested
import ZeldaServer.Proof.Orderly
import ZeldaServer.Proof.Copied
import ZeldaServer.Proof.Turns
import ZeldaServer.Proof.Strides
import ZeldaServer.Lib.Cooldown
import ZeldaServer.Proof.Chronicle
import ZeldaServer.Proof.Pacing
import ZeldaServer.Proof.Assault
import ZeldaServer.Lib.FirstLeast
import ZeldaServer.Proof.Closest
import ZeldaServer.Proof.Quarry
import ZeldaServer.Proof.Front
import ZeldaServer.Spec.Parse
import ZeldaServer.Proof.Malformed
import ZeldaServer.Spec.Completion
import ZeldaServer.Proof.Completions
import ZeldaServer.Lib.Words
import ZeldaServer.Spec.TileFile
import ZeldaServer.Proof.Tiles
import ZeldaServer.Proof.TileText
import ZeldaServer.Lib.Cursor
import ZeldaServer.Spec.Buffer
import ZeldaServer.Proof.Buffers
import ZeldaServer.Lib.Base128
import ZeldaServer.Lib.WireFormat
import ZeldaServer.Spec.Decode
import ZeldaServer.Proof.Wire
import ZeldaServer.Proof.Unknown
import ZeldaServer.Proof.Merge
import ZeldaServer.Proof.RoundTrip
import ZeldaServer.Proof.Accepted
import ZeldaServer.Lib.Simulation
import ZeldaServer.Proof.Simulate
import ZeldaServer.Proof.World
import ZeldaServer.Proof.Streams
import ZeldaServer.Proof.Refines
import ZeldaServer.Proof.EndToEnd
import ZeldaServer.Lib.Countdown
import ZeldaServer.Proof.Hunt
import ZeldaServer.Proof.Requests
import ZeldaServer.Proof.Views
import ZeldaServer.Lib.Utf8
import ZeldaServer.Spec.StructurallyValid
import ZeldaServer.Proof.Utf8
import ZeldaServer.Proof.StructurallyValid
import ZeldaServer.Lib.Fuel
import ZeldaServer.Proof.Returns
import ZeldaServer.Proof.Uptime
