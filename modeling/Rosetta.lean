import Rosetta.Lib.Window
import Rosetta.Lib.Run
import Rosetta.CycleBuffer.Basic
import Rosetta.CycleBuffer.Refine
import Rosetta.Frame.Basic
import Rosetta.CycleBuffer.Queue
import Rosetta.Frame.RoundTrip
import Rosetta.Connection.Basic
import Rosetta.Connection.Direction
import Rosetta.Connection.FrameReader
import Rosetta.Connection.Halves
import Rosetta.Connection.Flow
import Rosetta.Connection.Writen
import Rosetta.Channel.MsgId
import Rosetta.Channel.HexBuffer
import Rosetta.Channel.Streams
import Rosetta.Channel.Isolation
import Rosetta.Pool.Basic
import Rosetta.Pool.Reuse
import Rosetta.Connection.Progress
import Rosetta.Link.Basic
import Rosetta.Link.Locks
import Rosetta.Link.Deadlock
import Rosetta.Nodes.Basic
import Rosetta.Nodes.Together
import Rosetta.Nodes.SameConn
import Rosetta.Channel.Create
import Rosetta.Lib.Assoc
import Rosetta.Channel.Lifetime
import Rosetta.Channel.Handles
import Rosetta.Pool.Dial
import Rosetta.Connection.Packet
import Rosetta.Link.Tally
import Rosetta.Config.Basic
import Rosetta.Config.Topology
import Rosetta.Connection.Tasks
import Rosetta.Pool.Stranded
import Rosetta.Pool.Epoll
import Rosetta.Pool.Polled
import Rosetta.Connection.Queued
import Rosetta.Server.Accept
import Rosetta.Server.Stop
import Rosetta.Server.Listener
import Rosetta.Lib.Waiting
import Rosetta.Server.Handover
import Rosetta.Config.Roles
import Rosetta.Client.Dial
import Rosetta.Client.Connect
import Rosetta.Lib.Ledger
import Rosetta.Channel.Pairing
import Rosetta.Connection.Worker
import Rosetta.Connection.Receive
import Rosetta.Connection.Flush
import Rosetta.Connection.Outcome
import Rosetta.Pool.Descriptors
import Rosetta.Config.Partition
import Rosetta.Lib.Needs
import Rosetta.Config.Kinds
import Rosetta.Config.Ids
import Rosetta.Client.Deadline
import Rosetta.Connection.Script
import Rosetta.Server.Hello
import Rosetta.Server.Teardown
import Rosetta.Lib.Heap
import Rosetta.Channel.Memory
import Rosetta.Channel.Encode
import Rosetta.Channel.Decode
import Rosetta.Channel.Delete
import Rosetta.Channel.Answers
import Rosetta.Lib.Diamond
import Rosetta.Lib.Process
import Rosetta.Connection.Delivered
import Rosetta.Nodes.Network
import Rosetta.Nodes.Schedule
import Rosetta.Mesh.Basic
import Rosetta.Mesh.Agreement
import Rosetta.Mesh.Complete
import Rosetta.Mesh.Hung
import Rosetta.Mesh.Config
import Rosetta.Mesh.Programs
import Rosetta.Server.Reading
import Rosetta.Server.ReadAll
import Rosetta.Nodes.Epoll
import Rosetta.Connection.Handshake
import Rosetta.Client.Host
