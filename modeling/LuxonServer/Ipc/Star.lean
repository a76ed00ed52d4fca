import LuxonServer.Hosting.Host
import LuxonServer.Ipc
import LuxonServer.Lib.Network

/-! Several processes in a star: a parent and its subprocesses, with the rooms that their clients
are in, and the messages about rooms that are on their way between them. -/

namespace LuxonServer

/-- A process: the parent, or the subprocess for a port. -/
abbrev Node := Option UInt16

namespace IpcLink

/-- The link to a process. -/
def toward : Node → IpcLink
  | none => .parent
  | some port => .child port

/-- The process at the other end of a link. -/
def target : IpcLink → Node
  | .parent => none
  | .child port => some port

end IpcLink

/-- The id of the room that a message is about. -/
def IpcMessage.roomId : IpcMessage → Option String
  | .gameUpdate message => some message.info.id
  | .gameDelete info => some info.id
  | .token _ => none

/-- A message on its way.  `owner`, which the message does not tell, is the process whose room it is
about. -/
structure Parcel where
  owner : Node
  message : IpcMessage

/-- A process of the star with the rooms of its GameServer's clients. -/
structure Site where
  manager : ServerManager
  /-- `current_game_` of the connections. -/
  bound : AList (fun _ : PeerRef => GameRef) := ∅
  /-- The process whose room it is, or mirrors, from when a client is bound to it or it is put into
  `external_games_`; no variable of the process has it. -/
  owner : GameRef → Option Node := fun _ => none

/-- What happens in a process by itself. -/
inductive SiteOp where
  | connection (peer : PeerRef) (slot : PeerSlot)
  /-- A request for a room makes it, or finds it. -/
  | createGame (lobby : LobbyId) (id address : String) (orGet : Bool)
  /-- A MasterServer or a task changes the reservations of a room. -/
  | reserve (ref : GameRef) (op : RoomOp)
  /-- A client with an invitation authenticates on the GameServer. -/
  | authenticate (peer : PeerRef) (invitation : GameInfo)
  /-- A client's request changes the room that it is bound to; `trigger` tells whether
  `trigger_lobby_update` follows. -/
  | play (peer : PeerRef) (op : RoomOp) (trigger : Bool)
  /-- The handler drops its pointer to the room. -/
  | disconnect (peer : PeerRef)
  /-- The last pointer to a room is dropped. -/
  | dropGame (ref : GameRef)

/-- What happens in the star. -/
inductive StarOp where
  /-- The next message on a link arrives; `released` tells whether the replica that a `GameDelete`
  is about loses its last pointer with it. -/
  | deliver (sender receiver : Node) (released : Bool)
  | act (node : Node) (op : SiteOp)

/-- The operations with which a MasterServer and the tasks change a room. -/
def RoomOp.isReservation : RoomOp → Bool
  | .reserveExpectedUser _ _ | .removeExpectedUser _ | .removeExpectedUserIfGeneration _ _ => true
  | .runScheduledTask _ => true
  | _ => false

namespace Site

/-- The rooms of the process. -/
def app (site : Site) : App := site.manager.process.app

/-- What a process sends about a room of `owner`. -/
def parcels (owner : Node) (sent : List (IpcLink × IpcMessage)) : List (Node × Parcel) :=
  sent.map fun entry => (entry.1.target, ⟨owner, entry.2⟩)

/-- A message arrives from `sender`. -/
def receive (sender : Node) (parcel : Parcel) (released : Bool) (site : Site) :
    Site × List (Node × Parcel) :=
  match parcel.message with
  | .gameUpdate m =>
    let (manager, activity) := site.manager.processIpcMessage (.toward sender) (.gameUpdate m) []
    let owner := match site.manager.process.tracked m.info, manager.process.tracked m.info with
      | none, some ref => Function.update site.owner ref (some parcel.owner)
      | _, _ => site.owner
    ({ site with manager, owner }, parcels parcel.owner activity.sent)
  | .gameDelete info =>
    let tracked := site.manager.process.tracked info
    let (manager, activity) := site.manager.processIpcMessage (.toward sender) (.gameDelete info)
      (if released then tracked.toList else [])
    ({ site with manager }, parcels ((tracked.bind site.owner).getD parcel.owner) activity.sent)
  | .token message =>
    let (manager, _) := site.manager.processIpcMessage (.toward sender) (.token message) []
    ({ site with manager }, [])

/-- `Authenticate` on the GameServer, which turns its client away from the room of another
process. -/
def authenticate (node : Node) (peer : PeerRef) (invitation : GameInfo) (site : Site) : Site :=
  match Host.getGame (some invitation) site.app with
  | (none, app) => { site with manager := site.manager.setApp app }
  | (some ref, app) =>
    if ref ∈ site.manager.process.externalGames then
      { site with manager := site.manager.setApp app }
    else
      { manager := site.manager.setApp app
        bound := site.bound.insert peer ref
        owner := Function.update site.owner ref (some node) }

/-- A request on the room that the client is bound to. -/
def play (node : Node) (peer : PeerRef) (op : RoomOp × Bool) (site : Site) :
    Site × List (Node × Parcel) :=
  match (site.bound.lookup peer).bind fun ref => (site.app.live.lookup ref).map (ref, ·) with
  | none => (site, [])
  | some (ref, g) =>
    let manager := { site.manager with ipcBroadcastSkip := none }
    let messages := Room.messages site.app.settings ⟨manager.heap, g, manager.handedOut ref⟩ op
    ({ site with manager := manager.step (.room ref op.1) },
      parcels node (messages.flatMap fun m => manager.ipcBroadcast (.gameUpdate m)))

/-- What happens in a process by itself. -/
def perform (node : Node) (site : Site) : SiteOp → Site × List (Node × Parcel)
  | .connection peer slot =>
    ({ site with manager := site.manager.step (.connection peer slot) }, [])
  | .createGame lobby id address orGet =>
    ({ site with manager := site.manager.step (.createGame lobby id address orGet) }, [])
  | .reserve ref op =>
    if op.isReservation then
      ({ site with manager := site.manager.step (.room ref op) }, [])
    else (site, [])
  | .authenticate peer invitation => (site.authenticate node peer invitation, [])
  | .play peer op trigger => if op.isLocal then site.play node peer (op, trigger) else (site, [])
  | .disconnect peer => ({ site with bound := site.bound.erase peer }, [])
  | .dropGame ref =>
    if ref ∈ site.bound.entries.map Sigma.snd then (site, [])
    else
      let (manager, activity) := { site.manager with ipcBroadcastSkip := none }.dropGame ref
      ({ site with manager }, parcels ((site.owner ref).getD node) activity.sent)

end Site

/-- The processes, and the messages on their way. -/
abbrev Star := Network Node Site Parcel

namespace Star

/-- A process changes and sends. -/
def act (node : Node) (change : Site → Site × List (Node × Parcel)) (s : Star) : Star :=
  (s.modify node fun site => (change site).1).post node (change (s.node node)).2

def step (s : Star) : StarOp → Star
  | .deliver sender receiver released =>
    match s.queue sender receiver with
    | [] => s
    | parcel :: _ =>
      Star.act receiver (Site.receive sender parcel released) (s.advance sender receiver)
  | .act node op => s.act node fun site => site.perform node op

/-- The processes have just started: the subprocesses have links to the parent only, and the parent
to none above it. -/
structure IsFresh (s : Star) : Prop where
  fresh : ∀ node, (s.node node).manager.IsFresh
  app : ∀ node, (s.node node).app.id = (s.node none).app.id ∧
    (s.node node).app.version = (s.node none).app.version
  bound : ∀ node, (s.node node).bound = ∅
  owner : ∀ node, (s.node node).owner = fun _ => none
  parent : (s.node none).manager.parentIpc = false
  children : ∀ port, (s.node (some port)).manager.subprocesses = ∅
  quiet : s.Quiet

end Star

end LuxonServer
