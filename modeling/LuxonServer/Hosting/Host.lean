import LuxonServer.Tasks
import LuxonServer.Tokens
import LuxonServer.Matchmaking.Requests

/-! A single process with its connections: the handlers, the records of clients that go from one
connection to the next, the rooms, and the tasks that are scheduled.  A room lives as long as a
shared pointer to it is left, and its deleter runs before anything else happens.  The process has
one app, whose clients it authenticates all. -/

namespace LuxonServer

namespace PeerPersistent

/-- `reset_game`. -/
def resetGame (pp : PeerPersistent) : PeerPersistent :=
  { pp with invitation := none, ownedGame := none }

/-- `reset_owned_game_if_created`. -/
def resetOwnedGameIfCreated (app : App) (pp : PeerPersistent) : PeerPersistent :=
  if (pp.ownedGame.bind app.live.lookup).any fun g => g.isCreated && !g.isCreating then
    { pp with ownedGame := none }
  else pp

/-- `invite`, with the room's `get_game_info`. -/
def invite (info : GameInfo) (ref : GameRef) (isCreating : Bool) (pp : PeerPersistent) :
    PeerPersistent :=
  { pp with
    invitation := some info
    ownedGame := if isCreating then some ref else pp.ownedGame }

/-- `owns`. -/
def owns (ref : GameRef) (pp : PeerPersistent) : Bool := pp.ownedGame == some ref

end PeerPersistent

/-- The loop of `reset_persistent_peer_game_ownership`: it ends at the first owner. -/
def resetFirstOwner (ref : GameRef) : List PeerPersistent → List PeerPersistent
  | [] => []
  | pp :: rest =>
    if pp.owns ref then { pp with ownedGame := none } :: rest
    else pp :: resetFirstOwner ref rest

/-- The handler of a connection, with the shared pointers to rooms that it has. -/
inductive Handler where
  | nameServer
  | masterServer (pendingJoin : Option GameRef := none)
  | gameServer (allowUnsolicited : Bool) (currentGame pendingJoin : Option GameRef := none)
  deriving DecidableEq, Repr

/-- The rooms that a handler is attached to. -/
def Handler.games : Handler → List GameRef
  | .nameServer => []
  | .masterServer pendingJoin => pendingJoin.toList
  | .gameServer _ currentGame pendingJoin => currentGame.toList ++ pendingJoin.toList

structure Connection where
  handler : Handler
  persistent : Option PeerPersistent := none

/-- How long a task waits. -/
def ScheduledTask.ttlMs : ScheduledTask → Nat
  | .expireReservation ttlMs _ _ => ttlMs
  | .keepAlive ttlMs => ttlMs

/-- An entry of `scheduled_tasks_` that has a shared pointer to a room. -/
structure RoomTask where
  executionTime : UInt32
  game : GameRef
  task : ScheduledTask
  deriving DecidableEq, Repr

/-- What a client authenticates with. -/
inductive Credentials where
  /-- A token, and the one that it gets instead if the server refreshes it. -/
  | token (token fresh : String)
  /-- No token: a new record with a new token. -/
  | standard (userId token : String)

/-- The process.  `now` is its uptime, and `wide` is whether `startup_time_` counts it beyond 32
bits. -/
structure Host where
  app : App
  now : Nat := 0
  wide : Bool := true
  tokens : TokenStore := {}
  nextPeer : PeerRef := 0
  connections : AList (fun _ : PeerRef => Connection) := ∅
  handedOut : GameRef → List GamePeer := fun _ => []
  tasks : List RoomTask := []
  /-- When reservations of a room were made. -/
  reservedAt : GameRef → List Nat := fun _ => []
  /-- When the last peer of a room left it. -/
  emptied : GameRef → Nat := fun _ => 0
  /-- The ends of the times for which rooms are to be kept after their last peer has left. -/
  keptUntil : List (GameRef × Nat) := []

/-- What happens in the process. -/
inductive HostOp where
  | tick (ms : Nat)
  | runScheduledTask (task : RoomTask)
  /-- The time of a stored record is over. -/
  | expireRecord (task : RecordExpiry)
  | connect (handler : Handler)
  | authenticate (peer : PeerRef) (credentials : Credentials)
  /-- A request to the MasterServer that asks for a room. -/
  | route (peer : PeerRef) (request : RouteRequest)
  /-- A `CreateGame` or `JoinGame` from a client whom no MasterServer has sent. -/
  | unsolicited (peer : PeerRef) (call : EnterCall)
  /-- An operation on a room. -/
  | room (ref : GameRef) (op : RoomOp)
  /-- A GameServer keeps a join, with its room, until the room is created. -/
  | retainJoin (peer : PeerRef)
  /-- A kept join is over. -/
  | releaseJoin (peer : PeerRef)
  /-- `HandleDisconnect` drops the handler's pointers. -/
  | handleDisconnect (peer : PeerRef)
  /-- The handler is destroyed. -/
  | close (peer : PeerRef)
  | resetOwnership (ref : GameRef)

/-- The operations on a room that are its own: not those of the connections, the clock or another
process.  No caller of `reserve_expected_user` gives a TTL, so it is the default one. -/
def RoomOp.isHandled : RoomOp → Bool
  | .connect _ | .setPersistent _ _ | .disconnect _ => false
  | .runScheduledTask _ | .receiveUpdate _ _ => false
  | .reserveExpectedUser _ ttlMs => ttlMs == 30000
  | _ => true

/-- Whether an operation takes the last peer out of the room. -/
def Room.isEmptiedBy (s : Room) : RoomOp → Bool
  | .removePeer peer =>
    s.heap.lock peer == peer && (s.game.removePeer s.heap peer).1 &&
      (s.game.removePeer s.heap peer).2.peers.isEmpty
  | _ => false

/-- How many reservations a room has made. -/
def App.reservations (ref : GameRef) (app : App) : Nat :=
  ((app.live.lookup ref).map (·.nextExpectedUserGeneration)).getD 0

namespace Host

/-- `startup_time_.get()`. -/
def getTime (w : Host) : Nat := TaskQueue.getTime w.wide w.now

/-- The connections as the rooms see them. -/
def heap (w : Host) : PeerHeap := fun peer =>
  match w.connections.lookup peer with
  | none => if peer < w.nextPeer then .dead else .unused
  | some connection => .live { persistent := connection.persistent }

/-- The records of clients: those in the store, and those that are attached to a connection. -/
def persistents (w : Host) : List PeerPersistent :=
  w.tokens.stored ++ w.connections.entries.filterMap fun entry => entry.2.persistent

/-- The rooms that a client owns, once for each owner. -/
def owners (w : Host) : List GameRef := w.persistents.filterMap (·.ownedGame)

/-- The rooms that a handler is attached to. -/
def attached (w : Host) : List GameRef :=
  w.connections.entries.flatMap fun entry => entry.2.handler.games

/-- Whether a shared pointer to a room is left. -/
def isHeld (w : Host) (ref : GameRef) : Bool :=
  ref ∈ w.owners || ref ∈ w.attached || w.tasks.any fun task => task.game == ref

/-- The deleters of the rooms without a pointer run. -/
def collect (w : Host) : Host :=
  { w with
    app := (w.app.live.keys.filter fun ref => !w.isHeld ref).foldl
      (fun app ref => (app.dropGame ref).1) w.app }

def modify (peer : PeerRef) (change : Connection → Connection) (w : Host) : Host :=
  match w.connections.lookup peer with
  | none => w
  | some connection => { w with connections := w.connections.insert peer (change connection) }

/-- `store_persistent_peer`; without an app the record stays where it is. -/
def storePersistentPeer (pp : PeerPersistent) (w : Host) : Host :=
  if pp.app = none then w
  else { w with tokens := w.tokens.storePersistentPeer (pp.resetOwnedGameIfCreated w.app) }

/-- `authenticate`: the client's record, from the store or a new one. -/
def credential (credentials : Credentials) (refreshToken : Bool) (w : Host) :
    Option PeerPersistent × Host :=
  match credentials with
  | .token token fresh =>
    let (found, tokens, _) :=
      w.tokens.loadPersistentPeer token (if refreshToken then some fresh else none)
    (found, { w with tokens })
  | .standard userId token =>
    (some { userId, token, app := some (w.app.id, w.app.version) }, w)

/-- `get_game` for an invitation: the room, which is made if it is not there. -/
def getGame (invitation : Option GameInfo) (app : App) : Option GameRef × App :=
  match invitation with
  | none => (none, app)
  | some info =>
    let lobby := (info.lobbyName, info.lobbyType)
    let (result, app, _) := (app.getLobby lobby).createGame lobby info.id info.serverAddress true
    (result.toOption.join, app.releaseLobby lobby)

/-- The requests `Authenticate` and `AuthenticateOnce`. -/
def authenticate (peer : PeerRef) (credentials : Credentials) (w : Host) : Host :=
  match w.connections.lookup peer with
  | none => w
  | some connection =>
    if connection.persistent.isSome then w
    else
      match connection.handler with
      | .nameServer =>
        let (persistent, w) := w.credential credentials true
        w.modify peer fun connection => { connection with persistent }
      | .masterServer _ =>
        let (persistent, w) := w.credential credentials true
        w.modify peer fun connection =>
          { connection with persistent := persistent.map PeerPersistent.resetGame }
      | .gameServer allowUnsolicited _ pendingJoin =>
        match w.credential credentials false with
        | (none, w) => w
        | (some pp, w) =>
          match getGame pp.invitation w.app with
          | (none, app) =>
            { w with app }.modify peer fun connection =>
              { connection with persistent := some pp.resetGame }
          | (some ref, app) =>
            { w with app }.modify peer fun _ =>
              { handler := .gameServer allowUnsolicited (some ref) pendingJoin
                persistent := some (pp.resetOwnedGameIfCreated app) }

def route (peer : PeerRef) (request : RouteRequest) (w : Host) : Host :=
  match w.connections.lookup peer with
  | some { handler := .masterServer pendingJoin, persistent := some pp } =>
    let ⟨answer, app, _⟩ := w.app.route w.heap pp.userId request
    let w := { w with app }
    match answer with
    | .refused _ _ => w
    | .pending =>
      match request, pendingJoin with
      | .joinGame request, none =>
        w.modify peer fun connection =>
          { connection with handler := .masterServer (app.games.lookup request.gameId) }
      -- The handler keeps another request already, and refuses this one.
      | _, _ => w
    | .routed ref isNew =>
      match app.live.lookup ref with
      | none => w
      | some g =>
        let pp := pp.invite g.info ref isNew
        (w.modify peer fun connection =>
          { connection with persistent := if pp.app = none then some pp else none
            }).storePersistentPeer pp
  | _ => w

/-- The room that an unsolicited request names: the one with the id, or a new one. -/
def unsolicitedGame (call : EnterCall) (app : App) : Option GameRef × App :=
  match app.games.lookup call.gameId with
  | some weak => (app.lock weak, app)
  | none =>
    if call.operation = .createGame ∨ call.createIfNotExists ≠ 0 then
      let (result, app, _) := (app.getLobby ("", 0)).createGame ("", 0) call.gameId "" true
      (result.toOption.join, app.releaseLobby ("", 0))
    else (none, app)

/-- An unsolicited `CreateGame` or `JoinGame` on a GameServer. -/
def unsolicited (peer : PeerRef) (call : EnterCall) (w : Host) : Host :=
  match w.connections.lookup peer with
  | some { handler := .gameServer true none pendingJoin, persistent := some pp } =>
    match unsolicitedGame call w.app with
    | (none, app) => { w with app }
    | (some ref, app) =>
      match app.live.lookup ref with
      | none => { w with app }
      | some g =>
        { w with app }.modify peer fun _ =>
          { handler := .gameServer false none pendingJoin
            persistent :=
              some (pp.invite g.info ref (call.operation == EnterOperation.createGame)) }
  | _ => w

/-- An operation on a room. -/
def onRoom (ref : GameRef) (op : RoomOp) (w : Host) : Host :=
  match w.app.live.lookup ref with
  | none => w
  | some g =>
    if op.isHandled then
      let room : Room := ⟨w.heap, g, w.handedOut ref⟩
      let s := room.step w.app.settings op
      { w with
        app := { w.app with live := w.app.live.insert ref s.game }
        handedOut := Function.update w.handedOut ref s.handedOut
        emptied :=
          if g.peers ≠ [] ∧ s.game.peers = [] then Function.update w.emptied ref w.now
          else w.emptied
        keptUntil :=
          if room.isEmptiedBy op ∧ g.emptyGameTtl > 0 then
            w.keptUntil ++ [(ref, w.now + g.emptyGameTtl.toNat)]
          else w.keptUntil }
    else w

/-- `HandleDisconnect`, as far as the handler's pointers are concerned. -/
def dropPointers : Handler → Handler
  | .nameServer => .nameServer
  | .masterServer _ => .masterServer none
  | .gameServer allowUnsolicited _ _ => .gameServer allowUnsolicited none none

/-- What an operation does, apart from the tasks that it schedules. -/
def perform (w : Host) : HostOp → Host
  | .tick ms => { w with now := w.now + ms }
  | .runScheduledTask task =>
    if task ∈ w.tasks ∧ task.executionTime.toNat < w.getTime then
      { w with
        tasks := w.tasks.erase task
        app := w.app.modifyGame task.game (Game.runScheduledTask task.task) }
    else w
  | .expireRecord task => { w with tokens := w.tokens.expire task }
  | .connect handler =>
    { w with
      nextPeer := w.nextPeer + 1
      connections := w.connections.insert w.nextPeer { handler := dropPointers handler } }
  | .authenticate peer credentials => w.authenticate peer credentials
  | .route peer request => w.route peer request
  | .unsolicited peer call => w.unsolicited peer call
  | .room ref op => w.onRoom ref op
  | .retainJoin peer =>
    w.modify peer fun connection =>
      match connection.handler with
      | .gameServer allowUnsolicited currentGame none =>
        { connection with handler := .gameServer allowUnsolicited currentGame currentGame }
      | _ => connection
  | .releaseJoin peer =>
    w.modify peer fun connection =>
      match connection.handler with
      | .gameServer allowUnsolicited currentGame _ =>
        { connection with handler := .gameServer allowUnsolicited currentGame none }
      | handler => { connection with handler := dropPointers handler }
  | .handleDisconnect peer =>
    w.modify peer fun connection =>
      { connection with handler := dropPointers connection.handler }
  | .close peer =>
    match w.connections.lookup peer with
    | none => w
    | some connection =>
      let w := { w with connections := w.connections.erase peer }
      match connection.persistent with
      | none => w
      | some pp => w.storePersistentPeer pp
  | .resetOwnership ref =>
    { w with tokens := { w.tokens with stored := resetFirstOwner ref w.tokens.stored } }

/-- The tasks that rooms have scheduled since `before`; a room adds its tasks at the back. -/
def arrivals (before : App) (w : Host) : List RoomTask :=
  w.app.live.entries.flatMap fun entry =>
    let old := (before.live.lookup entry.1).elim 0 fun g => g.scheduled.length
    (entry.2.scheduled.drop old).map fun task =>
      { executionTime := UInt32.ofNat (w.getTime + task.ttlMs), game := entry.1, task }

/-- A step of the process. -/
def step (w : Host) (op : HostOp) : Host :=
  let before := w.collect
  let w := before.perform op
  { w with
    tasks := w.tasks ++ w.arrivals before.app
    reservedAt := fun ref =>
      if before.app.reservations ref < w.app.reservations ref then w.reservedAt ref ++ [w.now]
      else w.reservedAt ref }

/-- A process that has just started. -/
def IsFresh (w : Host) : Prop :=
  w.app.IsEmpty ∧ w.tokens.stored = [] ∧ w.connections = ∅ ∧ w.tasks = [] ∧
    (∀ ref, w.reservedAt ref = []) ∧ w.keptUntil = []

/-- A process that has just started. -/
def start : Host where
  app := { id := "app", version := "1.0" }

/-- The states that a process can be in. -/
def Reachable : Host → Prop := Transition.Reachable step IsFresh fun _ _ => True

/-- What every deleter of a room keeps. -/
theorem collect_induction {P : App → Prop} {w : Host} (hP : P w.app)
    (hdrop : ∀ app ref, P app → P (app.dropGame ref).1) : P w.collect.app := by
  unfold collect
  exact List.foldlRecOn _ _ hP fun app happ ref _ => hdrop app ref happ

end Host

end LuxonServer
