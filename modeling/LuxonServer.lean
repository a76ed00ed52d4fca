import LuxonServer.Lib.Run
import LuxonServer.Lib.ListSet
import LuxonServer.Lib.Network
import LuxonServer.Lib.BoundedQueue
import LuxonServer.Lib.Limit
import LuxonServer.Value
import LuxonServer.Peer
import LuxonServer.Game.State
import LuxonServer.Game.Reservations
import LuxonServer.Game.PartyAgreement
import LuxonServer.Game.Peers
import LuxonServer.Game.Creation
import LuxonServer.Game.Props
import LuxonServer.Game.Admission
import LuxonServer.Game.Replica
import LuxonServer.Game.Echo
import LuxonServer.Game.Room
import LuxonServer.Game.Broadcast
import LuxonServer.Game.Exclusive
import LuxonServer.Game.Valid
import LuxonServer.Game.Allocation
import LuxonServer.Game.Representation
import LuxonServer.Game.Joining
import LuxonServer.Game.Seats
import LuxonServer.Game.Generations
import LuxonServer.Game.Master
import LuxonServer.Game.Revision
import LuxonServer.Game.Insertion
import LuxonServer.Game.PropertyTable
import LuxonServer.Game.SetProperties
import LuxonServer.Game.NullProps
import LuxonServer.Game.Matching
import LuxonServer.Game.Mirror
import LuxonServer.Registry
import LuxonServer.Game.Lease
import LuxonServer.Game.Rollback
import LuxonServer.Game.Restart
import LuxonServer.Game.EventCache
import LuxonServer.Game.LateJoin
import LuxonServer.Game.Delivery
import LuxonServer.Game.ReusableEvent
import LuxonServer.Game.InterestGroups
import LuxonServer.Game.Leaving
import LuxonServer.Game.JoinRollback
import LuxonServer.Process
import LuxonServer.Replication
import LuxonServer.Convergence
import LuxonServer.Tokens
import LuxonServer.Records
import LuxonServer.SingleUse
import LuxonServer.Lobby.GameList
import LuxonServer.Lobby.Pointers
import LuxonServer.Lobby.World
import LuxonServer.Lobby.Isolation
import LuxonServer.Lobby.Watch
import LuxonServer.Lobby.Listing
import LuxonServer.Lobby.View
import LuxonServer.Lobby.Batch
import LuxonServer.Lobby.Selection
import LuxonServer.Ipc
import LuxonServer.DataModel
import LuxonServer.DataModel.RoundTrip
import LuxonServer.Authentication
import LuxonServer.Config.Manager
import LuxonServer.Config.Subprocess
import LuxonServer.Matchmaking.Routing
import LuxonServer.Matchmaking.Entering
import LuxonServer.Matchmaking.Seats
import LuxonServer.Matchmaking.Capacity
import LuxonServer.Matchmaking.Requests
import LuxonServer.Matchmaking.Agreement
import LuxonServer.Matchmaking.Choice
import LuxonServer.Matchmaking.Rejection
import LuxonServer.Matchmaking.Pending
import LuxonServer.Matchmaking.Held
import LuxonServer.Matchmaking.FindFriends
import LuxonServer.Hosting.Host
import LuxonServer.Hosting.Unsolicited
import LuxonServer.Hosting.Ownership
import LuxonServer.Hosting.Lifetime
import LuxonServer.Hosting.Caps
import LuxonServer.Ipc.Stream
import LuxonServer.Ipc.Close
import LuxonServer.Ipc.Star
import LuxonServer.Ipc.Separation
import LuxonServer.Pfr.RoundTrip
import LuxonServer.Config.Reading
import LuxonServer.Tasks
import LuxonServer.Metrics
import LuxonServer.OffsetMap.Refinement
import LuxonServer.Invitation
import LuxonServer.Plugin.Admission
import LuxonServer.Plugin.CurrentGame
import LuxonServer.Plugin.Evaluation
import LuxonServer.Http.Route
import LuxonServer.Http.Batch
import LuxonServer.Http.Template
import LuxonServer.Wasm.Confinement
import LuxonServer.Coro.Ownership
import LuxonServer.Coro.Handshake
import LuxonServer.Wasm.Select
import LuxonServer.Wasm.Resolution
import LuxonServer.Http.Connections
import LuxonServer.Rotation
import LuxonServer.Hosting.Handlers
import LuxonServer.Ipc.WireRun
