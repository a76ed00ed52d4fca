import LuxonServer.Matchmaking.Routing

/-! The requests with which clients enter rooms on the GameServer, in a process that also routes
them.  Such a request waits for plugins on its way, so that it is a coroutine here: a record of its
locals, and a step for each part between two awaits. -/

namespace LuxonServer

/-- The request `CreateGame` or `JoinGame` of the GameServer; `canCreate` is set for the former, and
for the latter with `CreateIfNotExists = 1`. -/
structure EnterRequest where
  canCreate : Bool := false
  expectedUsers : List String := []
  settings : CreationSettings := {}
  gameProperties : Option Hashtable := none
  actorProperties : Option Hashtable := none

/-- The settings that the creator's request carries; `MaxPlayers` is among the game properties. -/
def EnterRequest.creationSettings (request : EnterRequest) : CreationSettings :=
  { request.settings with
    maxPlayers := request.gameProperties.bind (AList.lookup (.byte GameProp.maxPlayers.code)) }

/-- What a request to enter does next. -/
inductive EnterStage where
  | settings
  | admission
  | properties
  | commit
  deriving DecidableEq, Repr

/-- The locals of a request to enter: `generation` is the lease of a creator, and `added` are
`added_expected_users`. -/
structure Entering where
  game : GameRef
  request : EnterRequest
  generation : Option Nat
  stage : EnterStage
  added : List (String × Nat) := []

namespace Game

/-- `rollback_join`: a creator's attempt is aborted; anyone else's peer is removed, with the
reservations of the request. -/
def rollbackJoin (h : PeerHeap) (peer : PeerRef) (entering : Entering) (g : Game) : Game :=
  match entering.generation with
  | some generation => (g.abortCreationTransaction h (some peer) generation).2
  | none =>
    let g := if entering.stage = .properties then (g.removePeer h (some peer)).2 else g
    entering.added.foldl (fun g seat => (g.removeExpectedUserIfGeneration seat.1 seat.2).2) g

/-- Whether a creator has lost its lease, or the peer its place in the room. -/
def hasLost (h : PeerHeap) (peer : PeerRef) (entering : Entering) (g : Game) : Bool :=
  g.leaseLost h (some peer) entering.generation || (g.actorIdForPeer h (some peer)).isNone

/-- The properties of a request that has joined. -/
def insertEntering (h : PeerHeap) (settings : AppSettings) (peer : PeerRef) (entering : Entering)
    (g : Game) : Game :=
  let actorId := (g.actorIdForPeer h (some peer)).getD 0
  let g :=
    match entering.request.actorProperties with
    | none => g
    | some props => (g.insertActorProps actorId props).2
  match entering.generation, entering.request.gameProperties with
  | some _, some props => (g.insertGameProps settings props).1
  | _, _ => g

/-- The next part of a request: the room after it, and the locals if the request goes on. -/
def continueEntering (h : PeerHeap) (settings : AppSettings) (peer : PeerRef) (userId : String)
    (entering : Entering) (g : Game) : Game × Option Entering :=
  let owner := some peer
  let rolledBack := (g.rollbackJoin h peer entering, none)
  match entering.stage, entering.generation with
  | .settings, some generation =>
    match g.applyCreationSettings h owner generation entering.request.creationSettings with
    | (true, g) => (g, some { entering with stage := .admission })
    | (false, _) => rolledBack
  | .admission, lease =>
    match g.admitJoin h settings owner userId entering.request.expectedUsers lease with
    -- A join that `validate_join` accepts is not refused later, so there is no more to roll back.
    | .leaseLost | .refused .. => rolledBack
    | .joined added g => (g, some { entering with stage := .properties, added })
  | .properties, lease =>
    if g.hasLost h peer entering then rolledBack
    else
      (g.insertEntering h settings peer entering,
        if lease.isSome then some { entering with stage := .commit } else none)
  | .commit, some generation =>
    match g.commitCreation h owner generation with
    | (true, g) => (g, none)
    | (false, _) => rolledBack
  | _, none => (g, none)

/-- The first part of a request to enter, up to the first await. -/
def beginEntering (h : PeerHeap) (settings : AppSettings) (ref : GameRef) (peer : PeerRef)
    (userId : String) (request : EnterRequest) (g : Game) : Game × Option Entering :=
  if (g.actorIdForPeer h (some peer)).isSome then (g, none)
  -- The request is kept until the attempt is over, and then made again.
  else if g.isCreating then (g, none)
  else if ¬g.isCreated ∧ ¬request.canCreate then (g, none)
  else
    match g.tryBeginCreation (some peer) with
    | (0, _) =>
      if ¬g.isCreated then (g, none)
      else if (g.validateJoin h settings userId 0 false).1 ≠ .ok then (g, none)
      else (g, some { game := ref, request, generation := none, stage := .admission })
    | (generation, g) =>
      (g, some { game := ref, request, generation := some generation, stage := .settings })

end Game

/-- The process: the connections, the rooms, and the requests to enter that are under way, each by
its connection. -/
structure SeatWorld where
  heap : PeerHeap
  app : App
  entering : AList fun _ : PeerRef => Entering := ∅

/-- What happens in the process. -/
inductive SeatOp where
  /-- A connection appears, gets or loses its persistent part, or goes. -/
  | connection (peer : PeerRef) (slot : PeerSlot)
  /-- A client of the MasterServer asks for a room. -/
  | route (client : PeerRef) (request : RouteRequest)
  /-- A client of the GameServer asks to enter a room. -/
  | enter (peer : PeerRef) (game : GameRef) (request : EnterRequest)
  /-- A request to enter is resumed. -/
  | resume (peer : PeerRef)
  /-- A request to enter ends early, as a plugin refuses it or its connection breaks. -/
  | cancel (peer : PeerRef)
  /-- A client leaves. -/
  | leave (peer : PeerRef) (game : GameRef)
  /-- A task of a room runs. -/
  | runScheduledTask (game : GameRef) (task : ScheduledTask)
  /-- An actor sets properties of its room. -/
  | setProperties (peer : PeerRef) (game : GameRef) (update : Hashtable)
    (expected : Option Hashtable)
  /-- The last pointer to a room is dropped. -/
  | dropGame (game : GameRef)

namespace SeatWorld

/-- A connection that is gone does not come back. -/
def connection (peer : PeerRef) (slot : PeerSlot) (w : SeatWorld) : SeatWorld :=
  if w.heap peer = .dead ∨ slot = .unused then w
  else { w with heap := Function.update w.heap peer slot }

/-- A client is routed; its persistent part goes to the store with it. -/
def route (client : PeerRef) (request : RouteRequest) (w : SeatWorld) : SeatWorld :=
  match w.heap.userId (some client) with
  | none => w
  | some userId =>
    let ⟨answer, app, _⟩ := w.app.route w.heap userId request
    match answer with
    | .routed .. =>
      { w with app, heap := Function.update w.heap client (.live { persistent := none }) }
    | _ => { w with app }

/-- The next part of what a connection does in a room. -/
def advance (peer : PeerRef) (ref : GameRef) (next : Game → Game × Option Entering)
    (w : SeatWorld) : SeatWorld :=
  match w.app.live.lookup ref with
  | none => { w with entering := w.entering.erase peer }
  | some g =>
    let (g, entering) := next g
    { w with
      app := { w.app with live := w.app.live.insert ref g }
      entering := entering.elim (w.entering.erase peer) fun e => w.entering.insert peer e }

/-- A step of the process.  While a connection has a request under way, it takes no other. -/
def step (w : SeatWorld) : SeatOp → SeatWorld
  | .connection peer slot => w.connection peer slot
  | .route client request => w.route client request
  | .enter peer ref request =>
    match w.heap.userId (some peer) with
    | none => w
    | some userId =>
      if peer ∈ w.entering then w
      else w.advance peer ref (Game.beginEntering w.heap w.app.settings ref peer userId request)
  | .resume peer =>
    match w.entering.lookup peer, w.heap.userId (some peer) with
    | some e, some userId =>
      w.advance peer e.game (Game.continueEntering w.heap w.app.settings peer userId e)
    | _, _ => w
  | .cancel peer =>
    match w.entering.lookup peer with
    | none => w
    | some e => w.advance peer e.game fun g => (g.rollbackJoin w.heap peer e, none)
  | .leave peer ref =>
    if peer ∈ w.entering then w
    else w.advance peer ref fun g => ((g.removePeer w.heap (some peer)).2, none)
  | .runScheduledTask ref task =>
    { w with app := w.app.modifyGame ref (Game.runScheduledTask task) }
  | .setProperties peer ref update expected =>
    { w with
      app := w.app.modifyGame ref fun g =>
        if peer ∈ w.entering ∨ (g.findPeer w.heap (some peer)).isNone then g
        else (g.applyGameProps w.app.settings update expected).2.1 }
  | .dropGame ref => { w with app := (w.app.dropGame ref).1 }

/-- A process that has just started. -/
def start : SeatWorld where
  heap := fun _ => .unused
  app := { id := "app", version := "1.0" }

/-- A process without rooms, in which no one enters any. -/
def IsFresh (w : SeatWorld) : Prop := w.app.IsEmpty ∧ w.entering = ∅

end SeatWorld

end LuxonServer
