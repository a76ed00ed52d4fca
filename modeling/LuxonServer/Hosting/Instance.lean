import LuxonServer.Authentication
import LuxonServer.Config.Manager
import LuxonServer.Game.LateJoin
import LuxonServer.Game.Representation
import LuxonServer.Hosting.Host
import LuxonServer.Lobby.World
import LuxonServer.Matchmaking.Seats

/-! A single process with several apps: its connections, the identities of their clients, the stored
tokens, and the rooms that the clients are in.  The settings of an app do not change while the
process runs. -/

namespace LuxonServer

/-- The id and the version of an app. -/
abbrev AppKey := String × String

/-- `has_persistent_peer`. -/
def TokenStore.hasPersistentPeer (token : String) (ts : TokenStore) : Bool :=
  ts.stored.any fun pp => pp.token == token

def PeerPersistent.invitedTo (pp : PeerPersistent) : AppKey :=
  (pp.invitation.map fun info => (info.appId, info.appVersion)).getD ("", "")

/-- A connection with its handler. -/
structure Client where
  server : ServerType
  persistent : Option PeerPersistent := none
  /-- `current_game_`, which is a room of the app of the invitation. -/
  currentGame : Option (AppKey × GameRef) := none
  /-- The transport is disconnected, and `HandleDisconnect` has run. -/
  disconnected : Bool := false
  /-- Whether the handler is in `connections_`. -/
  listed : Bool := true

namespace Client

/-- Whether the client has an identity of the app. -/
def isOf (key : AppKey) (client : Client) : Bool :=
  client.persistent.any fun pp => pp.app == some key

end Client

/-- The process.  `clients` are the handlers that are alive; an authentication that waits for its
plugin keeps its handler alive. -/
structure Instance where
  maxConnections : Nat := 0
  settings : AppKey → Option AuthSettings
  getAuthProvider : String → UInt8 → Option AuthProviderSettings := fun _ _ => none
  apps : AppKey → App := fun key => { id := key.1, version := key.2 }
  tokens : TokenStore := {}
  nextPeer : PeerRef := 0
  clients : AList (fun _ : PeerRef => Client) := ∅
  pending : List (PeerRef × PendingAuth) := []

/-- What happens in the process. -/
inductive InstanceOp (otherName : UInt8 → String) where
  | connect (server : ServerType)
  /-- A client that is not authenticated asks to be. -/
  | authenticate (peer : PeerRef) (req : AuthRequest otherName) (random : AuthRandom)
  /-- A plugin answers. -/
  | answer (index : Nat) (result : PluginResult)
  /-- The MasterServer sends a client to a room, and stores its token. -/
  | route (peer : PeerRef) (ref : GameRef) (isNew : Bool)
  /-- A room or a lobby of an app comes or goes. -/
  | app (key : AppKey) (op : AppOp)
  /-- An operation on a room that lets no one in. -/
  | room (key : AppKey) (ref : GameRef) (op : RoomOp)
  /-- A client of the GameServer enters its room. -/
  | join (peer : PeerRef) (expectedUsers : List String) (lease : Option Nat)
  | disconnect (peer : PeerRef)
  /-- The task that takes the handler out of `connections_`. -/
  | unlist (peer : PeerRef)
  /-- The last pointer to the handler goes. -/
  | destroy (peer : PeerRef)
  /-- The time of a stored token is over. -/
  | expire (task : RecordExpiry)

/-- The operations of a room that let no one in and that come from within the process. -/
def RoomOp.isInternal : RoomOp → Bool
  | .connect _ | .setPersistent _ _ | .disconnect _ => false
  | .addPeer _ | .addPeerForCreation _ _ _ | .receiveUpdate _ _ => false
  | _ => true

/-- The request as `authenticate` gets it: the GameServer's look at the token has left one in it. -/
def ServerType.sees {otherName : UInt8 → String} (server : ServerType)
    (req : AuthRequest otherName) : AuthRequest otherName :=
  if server = .gameServer ∧ 221 ∉ req.parameters then
    { req with parameters := req.parameters.insert 221 Value.null }
  else req

namespace Instance

variable {otherName : UInt8 → String}

/-- The connections as the rooms see them. -/
def heap (w : Instance) : PeerHeap := fun peer =>
  match w.clients.lookup peer with
  | none => if peer < w.nextPeer then .dead else .unused
  | some client => .live { persistent := client.persistent }

/-- `get_connection_count`. -/
def getConnectionCount (w : Instance) : Nat := w.clients.entries.countP fun entry => entry.2.listed

def storedCount (key : AppKey) (w : Instance) : Nat :=
  w.tokens.stored.countP fun pp => pp.app == some key

end Instance

/-- The nodes that `get_peer_count` of the lobbies counts, by their connections. -/
def App.players (app : App) : List (Option PeerRef) :=
  app.lobbies.entries.flatMap fun entry => entry.2.games.flatMap fun weak =>
    (app.live.lookup weak).elim [] Game.connections

/-- `get_peer_count` of a lobby. -/
def Lobby.getPeerCount (app : App) (lobby : Lobby) : Nat :=
  lobby.games.foldl (fun fres weak => fres + (app.live.lookup weak).elim 0 Game.activePeerCount) 0

namespace Instance

/-- `get_peer_count` of an app. -/
def getPeerCount (key : AppKey) (w : Instance) : Nat :=
  (w.apps key).lobbies.entries.foldl
    (fun fres entry => fres + entry.2.getPeerCount (w.apps key)) (w.storedCount key)

/-- What an authentication asks the process. -/
def authServer (w : Instance) : AuthServer where
  maxConnections := w.maxConnections
  connectionCount := w.getConnectionCount
  getApp id version :=
    (w.settings (id, version)).map fun settings => (settings, w.getPeerCount (id, version))
  getAuthProvider := w.getAuthProvider

/-- Whether the GameServer keeps the request until its token comes. -/
def keepsWaiting (server : ServerType) (req : AuthRequest otherName) (w : Instance) : Bool :=
  server == .gameServer &&
    ((req.parameters.lookup 221).bind (Value.getPtr .string)).any fun token =>
      !w.tokens.hasPersistentPeer token

/-- A change of a connection. -/
def modify (peer : PeerRef) (change : Client → Client) (w : Instance) : Instance :=
  match w.clients.lookup peer with
  | none => w
  | some client => { w with clients := w.clients.insert peer (change client) }

/-- The connection of a client who may authenticate, and what `authenticate` gives it. -/
def request (peer : PeerRef) (req : AuthRequest otherName) (random : AuthRandom) (w : Instance) :
    Option (Client × AuthProgress × AuthState) :=
  (w.clients.lookup peer).bind fun client =>
    if client.disconnected ∨ client.persistent.isSome ∨ w.keepsWaiting client.server req then none
    else
      some (client, (client.server.sees req).authenticate w.authServer
        (client.server != .gameServer) random { persistent := none, tokens := w.tokens })

/-- What the handler does with the identity that its client has after `authenticate`. -/
def settle (peer : PeerRef) (client : Client) (w : Instance) : Instance :=
  match client.server, client.persistent with
  | .masterServer, some pp =>
    { w with clients := w.clients.insert peer { client with persistent := some pp.resetGame } }
  | .gameServer, some pp =>
    match Host.getGame pp.invitation (w.apps pp.invitedTo) with
    | (none, app) =>
      { w with
        apps := Function.update w.apps pp.invitedTo app
        clients := w.clients.insert peer { client with persistent := some pp.resetGame } }
    | (some ref, app) =>
      { w with
        apps := Function.update w.apps pp.invitedTo app
        clients := w.clients.insert peer
          { client with
            persistent := some (pp.resetOwnedGameIfCreated app)
            currentGame := some (pp.invitedTo, ref) } }
  | _, _ => { w with clients := w.clients.insert peer client }

/-- `Authenticate` and `AuthenticateOnce`, up to a plugin call. -/
def authenticate (peer : PeerRef) (req : AuthRequest otherName) (random : AuthRandom)
    (w : Instance) : Instance :=
  match w.request peer req random with
  | none => w
  | some (client, progress, st) =>
    let w := { w with tokens := st.tokens }
    match progress with
    | .returned _ => w.settle peer { client with persistent := st.persistent }
    | .awaiting pending => { w with pending := w.pending ++ [(peer, pending)] }

/-- The rest of an authentication, from its plugin's answer on. -/
def answer (index : Nat) (result : PluginResult) (w : Instance) : Instance :=
  match w.pending[index]? with
  | none => w
  | some (peer, pending) =>
    let w := { w with pending := w.pending.eraseIdx index }
    match w.clients.lookup peer with
    | none => w
    | some client =>
      let (_, st) := pending.resume result { persistent := client.persistent, tokens := w.tokens }
      w.settle peer { client with persistent := st.persistent }

/-- `store_persistent_peer`. -/
def storePersistentPeer (pp : PeerPersistent) (w : Instance) : Instance :=
  match pp.app with
  | none => w
  | some key =>
    { w with tokens := w.tokens.storePersistentPeer (pp.resetOwnedGameIfCreated (w.apps key)) }

/-- A room after a change. -/
def setGame (key : AppKey) (ref : GameRef) (g : Game) (w : Instance) : Instance :=
  { w with
    apps := Function.update w.apps key
      { w.apps key with live := (w.apps key).live.insert ref g } }

/-- The end of a routing request that has found its room: the client is invited, and its token
stored. -/
def route (peer : PeerRef) (ref : GameRef) (isNew : Bool) (w : Instance) : Instance :=
  match w.clients.lookup peer with
  | none => w
  | some client =>
    match client.server, client.persistent with
    | .masterServer, some pp =>
      match pp.app.bind fun key => ((w.apps key).live.lookup ref).map fun g => (key, g) with
      | none => w
      | some ((appId, appVersion), g) =>
        { w with
          clients := w.clients.insert peer { client with persistent := none }
        }.storePersistentPeer (pp.invite { g.info with appId, appVersion } ref isNew)
    | _, _ => w

/-- Whether a handler has a pointer to the room. -/
def isAttached (key : AppKey) (ref : GameRef) (w : Instance) : Bool :=
  w.clients.entries.any fun entry => entry.2.currentGame == some (key, ref)

/-- Whether a room cannot be dropped, as a handler is attached to it. -/
def isKept (key : AppKey) (w : Instance) : AppOp → Bool
  | .dropGame ref => w.isAttached key ref
  | _ => false

/-- A lobby or a room comes or goes. -/
def onApp (key : AppKey) (op : AppOp) (w : Instance) : Instance :=
  if w.isKept key op then w
  else { w with apps := Function.update w.apps key ((w.apps key).step op) }

/-- An operation on a room. -/
def onRoom (key : AppKey) (ref : GameRef) (op : RoomOp) (w : Instance) : Instance :=
  match (w.apps key).live.lookup ref with
  | none => w
  | some g =>
    if op.isInternal then
      w.setGame key ref ((⟨w.heap, g, []⟩ : Room).step (w.apps key).settings op).game
    else w

/-- The part of a join in which the client gets into the room. -/
def join (peer : PeerRef) (expectedUsers : List String) (lease : Option Nat) (w : Instance) :
    Instance :=
  match w.clients.lookup peer with
  | some { persistent := some pp, currentGame := some (key, ref), .. } =>
    match (w.apps key).live.lookup ref with
    | none => w
    | some g =>
      -- `ensure_joined_state`, at the start of the join.
      if (g.actorIdForPeer w.heap (some peer)).isSome then w
      else
        match g.admitJoin w.heap (w.apps key).settings (some peer) pp.userId expectedUsers lease with
        | .joined _ g => w.setGame key ref g
        | _ => w
  | _ => w

/-- `HandleDisconnect`: the client leaves its room. -/
def disconnect (peer : PeerRef) (w : Instance) : Instance :=
  let left :=
    match (w.clients.lookup peer).bind fun client => client.currentGame with
    | none => w
    | some (key, ref) =>
      match (w.apps key).live.lookup ref with
      | none => w
      | some g => w.setGame key ref (g.removePeer w.heap (some peer)).2
  left.modify peer fun client => { client with currentGame := none, disconnected := true }

/-- The destructor of a handler, which stores its client's token. -/
def destroy (peer : PeerRef) (w : Instance) : Instance :=
  match w.clients.lookup peer with
  | none => w
  | some client =>
    if client.listed ∨ w.pending.any fun entry => entry.1 == peer then w
    else
      let w := { w with clients := w.clients.erase peer }
      match client.persistent with
      | none => w
      | some pp => w.storePersistentPeer pp

/-- A step of the process. -/
def step (w : Instance) : InstanceOp otherName → Instance
  | .connect server =>
    { w with
      nextPeer := w.nextPeer + 1
      clients := w.clients.insert w.nextPeer { server } }
  | .authenticate peer req random => w.authenticate peer req random
  | .answer index result => w.answer index result
  | .route peer ref isNew => w.route peer ref isNew
  | .app key op => w.onApp key op
  | .room key ref op => w.onRoom key ref op
  | .join peer expectedUsers lease => w.join peer expectedUsers lease
  | .disconnect peer => w.disconnect peer
  | .unlist peer =>
    w.modify peer fun client => { client with listed := client.listed && !client.disconnected }
  | .destroy peer => w.destroy peer
  | .expire task => { w with tokens := w.tokens.expire task }

/-- A process that has just started. -/
structure IsFresh (w : Instance) : Prop where
  apps : ∀ key, (w.apps key).IsEmpty
  stored : w.tokens.stored = []
  clients : w.clients = ∅
  pending : w.pending = []

end Instance

namespace Game

/-- What keeps a room's tables and actors sound, whoever is connected. -/
structure TablesSound (g : Game) : Prop where
  seats : g.SeatsSound
  actors : g.ActorsSound

/-- What an operation of a room does that lets no one in. -/
structure Loses (g g' : Game) : Prop where
  info : g'.info = g.info
  sound : g'.TablesSound
  connections : g'.connections.Sublist g.connections

variable {g g' : Game} {h : PeerHeap}

theorem TablesSound.valid (hg : g.TablesSound) (h : PeerHeap) : (⟨h, g, []⟩ : Room).Valid where
  seats := hg.seats
  actors := hg.actors
  handed := by simp

theorem tablesSound_newGame (app : App) (lobby : LobbyId) (id address : String) :
    (app.newGame lobby id address).TablesSound := by
  have hvalid := Room.valid_of_isNew (Room.isNew_create (app.newGame lobby id address).info)
  exact ⟨hvalid.seats, hvalid.actors⟩

theorem TablesSound.removePeer (hg : g.TablesSound) (h : PeerHeap) (r : PeerRef) :
    g.Loses (g.removePeer h (some r)).2 := by
  have hvalid := (hg.valid h).perform {} (.removePeer (some r))
  refine ⟨?_, ⟨hvalid.seats, hvalid.actors⟩, connections_removePeer h (some r) g⟩
  obtain ⟨_, _, _, heq⟩ := removePeer_eq h r g
  rw [heq]

/-- No node of the connection is left, nor one whose connection is gone. -/
theorem not_mem_connections_removePeer (h : PeerHeap) (r : PeerRef) (g : Game) :
    some r ∉ (g.removePeer h (some r)).2.connections := by
  obtain ⟨_, _, _, heq⟩ := removePeer_eq h r g
  rw [heq]
  intro hmem
  obtain ⟨gp, hgp, hpeer⟩ := List.mem_map.mp hmem
  have hstays := (List.mem_filter.mp hgp).2
  unfold stays at hstays
  rw [hpeer] at hstays
  rcases h.lock_eq_self_or_none (some r) with hlock | hlock
  · rw [hlock] at hstays
    simp at hstays
  · rw [hlock] at hstays
    cases hstays

theorem actorIdForPeer_isSome (hg : g.ActorsSound) {r : PeerRef} (hlive : h.lock (some r) = some r)
    (hmem : some r ∈ g.connections) : (g.actorIdForPeer h (some r)).isSome = true := by
  obtain ⟨gp, hgp, hpeer⟩ := List.mem_map.mp hmem
  have hfind : (g.findPeer h (some r)).isSome = true := by
    unfold findPeer
    rw [List.find?_isSome]
    exact ⟨gp, hgp, by simp [hg.active gp hgp, hpeer, hlive]⟩
  unfold actorIdForPeer
  rw [if_neg (by simp), Option.isSome_map, hfind]

/-- A client that is let in has a new node, and everyone else stays. -/
theorem TablesSound.admitJoin (hg : g.TablesSound) {settings : AppSettings} {r : PeerRef}
    {userId : String} {users : List String} {lease : Option Nat} {added : List (String × Nat)}
    (huser : h.userId (some r) = some userId)
    (hjoin : g.admitJoin h settings (some r) userId users lease = .joined added g') :
    g'.info = g.info ∧ g'.TablesSound ∧ g'.connections = g.connections ++ [some r] := by
  obtain ⟨-, -, g₁, g₂, gp, hreserved, hcreated, hnode, hpeer, hfree, rfl⟩ :=
    admitJoin_eq_joined huser hjoin
  obtain ⟨hseats, -⟩ := reserveAllForJoin_mem h (some r) userId users g
  have hsound : (g.reserveAllForJoin h (some r) userId users).2.SeatsSound := by
    refine List.foldlRecOn (motive := fun st : List (String × Nat) × Game => st.2.SeatsSound)
      users _ hg.seats ?_
    rintro ⟨added, g⟩ hst user -
    have hreserve := seatsSound_invariant.reserve user 30000 hst
    simp only [reserveForJoin]
    generalize g.reserveExpectedUserWithGeneration user 30000 = reserved at hreserve ⊢
    obtain ⟨generation, g'⟩ := reserved
    split
    · exact hst
    · cases generation <;> exact hreserve
  simp only [hreserved] at hseats hsound
  have hactors := hg.actors.seatsOnly hseats
  have hgame := createPeer_game h (some r) g₁
  have hcreate := hactors.createPeer (h := h) (some r)
  have hvalid := @ActorsSound.createPeer_valid _ h hactors (some r)
  rw [hcreated] at hgame hcreate hvalid
  have hsame : g₂.info = g₁.info ∧ g₂.connections = g₁.connections ∧ g₂.SeatsSound := by
    rcases hgame with heq | heq
    · simp only at heq
      subst heq
      exact ⟨rfl, rfl, hsound⟩
    · simp only at heq
      subst heq
      exact ⟨rfl, rfl, seatsSound_invariant.congr hsound rfl rfl rfl⟩
  obtain ⟨hinfo, hconnections, hseats₂⟩ := hsame
  have hinfo₁ : g₁.info = g.info := by
    obtain ⟨_, _, _, _, _, _, heq⟩ := hseats
    rw [heq]
  refine ⟨?_, ⟨?_, ?_⟩, ?_⟩
  · rw [emplacePeer_eq, ← hinfo₁, ← hinfo]
  · exact seatsSound_invariant.emplacePeer gp userId hseats₂
  · exact hcreate.emplacePeer userId (hvalid hnode).1 (hvalid hnode).2 hfree
  · rw [← hseats.connections, ← hconnections]
    simp [connections, emplacePeer_eq, hpeer]

end Game

namespace Room

open Game

theorem connections_perform_sublist (settings : AppSettings) (s : Room) {op : RoomOp}
    (hop : op.isInternal = true) :
    (s.perform settings op).game.connections.Sublist s.game.connections := by
  cases hlocal : (SessionOp.room op).isLocal with
  | false =>
    cases op with
    | editEventCache edit => exact List.Sublist.refl _
    | receiveUpdate isNew message => cases hop
    | _ => cases hlocal
  | true =>
    rcases perform_sameRoster settings s hlocal with hsame | ⟨index, rfl⟩ |
      ⟨index, owner, generation, rfl⟩ | ⟨peer, rfl⟩ | ⟨owner, rfl⟩ | ⟨owner, generation, rfl⟩ |
      ⟨owner, generation, rfl⟩
    · rw [hsame.connections]
    · cases hop
    · cases hop
    · exact connections_removePeer s.heap peer s.game
    · rcases tryBeginCreation_cases owner s.game with heq | ⟨-, -, -, -, heq⟩
      · simp only [perform, heq]
        exact List.Sublist.refl _
      · simp only [perform, heq]
        exact List.Sublist.refl _
    · rcases commitCreation_cases s.heap owner generation s.game with heq | ⟨-, -, heq⟩
      · simp only [perform, heq]
        exact List.Sublist.refl _
      · simp only [perform, heq]
        exact List.Sublist.refl _
    · exact connections_abort s.heap owner generation s.game

theorem loses_step {g : Game} (hg : g.TablesSound) (settings : AppSettings) (h : PeerHeap)
    {op : RoomOp} (hop : op.isInternal = true) :
    g.Loses ((⟨h, g, []⟩ : Room).step settings op).game := by
  refine ⟨info_step settings _ op, ?_, ?_⟩
  · have hvalid : ((⟨h, g, []⟩ : Room).step settings op).Valid :=
      step_induction (hg.valid h) fun _ => (hg.valid h).perform settings op
    exact ⟨hvalid.seats, hvalid.actors⟩
  · rcases step_cases settings ⟨h, g, []⟩ op with heq | ⟨-, heq⟩
    · rw [heq]
    · rw [heq]
      exact connections_perform_sublist settings _ hop

end Room

/-- An identity is invited to a room of its app. -/
def PeerPersistent.OfApp (pp : PeerPersistent) : Prop :=
  ∀ info ∈ pp.invitation, pp.app = some (info.appId, info.appVersion)

/-- What holds of a client by itself: it plays in its app's room on the GameServer, and it is in the
list while it is connected. -/
structure Client.Sound (client : Client) : Prop where
  playing : ∀ key ref, client.currentGame = some (key, ref) →
    client.isOf key = true ∧ client.server = .gameServer ∧ client.disconnected = false
  invited : ∀ pp ∈ client.persistent, pp.OfApp
  listed : client.disconnected = false → client.listed = true

namespace Instance

variable {otherName : UInt8 → String}

/-- The connections of a room are clients who play in it, each once. -/
def Placed (w : Instance) (key : AppKey) (ref : GameRef) (g : Game) : Prop :=
  g.connections.Nodup ∧ ∀ c ∈ g.connections, ∃ peer client, c = some peer ∧
    w.clients.lookup peer = some client ∧ client.currentGame = some (key, ref)

/-- What holds in every state of the process. -/
structure Sound (w : Instance) : Prop where
  indexed : ∀ key, (w.apps key).Indexed
  tables : ∀ key ref g, (w.apps key).live.lookup ref = some g → g.TablesSound
  placed : ∀ key ref g, (w.apps key).live.lookup ref = some g → w.Placed key ref g
  clients : ∀ peer client, w.clients.lookup peer = some client → client.Sound
  stored : ∀ pp ∈ w.tokens.stored, pp.OfApp
  pending : ∀ peer pending, (peer, pending) ∈ w.pending → pending.persistent.invitation = none ∧
    ∃ client, w.clients.lookup peer = some client ∧ client.server ≠ .gameServer
  fresh : ∀ peer ∈ w.clients, peer < w.nextPeer

theorem sound_of_isFresh {w : Instance} (hw : w.IsFresh) : w.Sound := by
  obtain ⟨happs, hstored, hclients, hpending⟩ := hw
  have hlive : ∀ key ref g, (w.apps key).live.lookup ref ≠ some g := by
    intro key ref g hg
    rw [(happs key).2.2] at hg
    cases hg
  constructor
  · exact fun key => App.Indexed.of_isEmpty (happs key)
  · exact fun key ref g hg => absurd hg (hlive key ref g)
  · exact fun key ref g hg => absurd hg (hlive key ref g)
  · intro peer client hl
    rw [hclients] at hl
    cases hl
  · rw [hstored]
    exact fun _ hmem => (List.not_mem_nil hmem).elim
  · rw [hpending]
    exact fun _ _ hmem => (List.not_mem_nil hmem).elim
  · rw [hclients]
    exact fun _ hmem => absurd hmem (AList.notMem_empty _)

section Parts

variable {w : Instance}

/-- A client changes, or comes; it still plays where it is. -/
theorem Sound.insertClient (hw : w.Sound) {peer : PeerRef} {client : Client}
    (hsound : client.Sound) (hfresh : peer < w.nextPeer)
    (hserver : ∀ old, w.clients.lookup peer = some old → old.server = client.server)
    (hgame : ∀ key ref g, (w.apps key).live.lookup ref = some g → some peer ∈ g.connections →
      client.currentGame = some (key, ref)) :
    ({ w with clients := w.clients.insert peer client } : Instance).Sound where
  indexed := hw.indexed
  tables := hw.tables
  placed key ref g hg := by
    obtain ⟨hnodup, hplaced⟩ := hw.placed key ref g hg
    refine ⟨hnodup, fun c hc => ?_⟩
    obtain ⟨other, old, rfl, hl, hplays⟩ := hplaced c hc
    by_cases hpeer : other = peer
    · subst hpeer
      exact ⟨other, client, rfl, AList.lookup_insert _, hgame key ref g hg hc⟩
    · exact ⟨other, old, rfl, by rw [AList.lookup_insert_ne hpeer, hl], hplays⟩
  clients other old hl := by
    rw [AList.lookup_insert_eq] at hl
    split at hl
    · cases hl
      exact hsound
    · exact hw.clients other old hl
  stored := hw.stored
  pending other pending hmem := by
    obtain ⟨hinvitation, old, hl, hother⟩ := hw.pending other pending hmem
    refine ⟨hinvitation, ?_⟩
    by_cases hpeer : other = peer
    · subst hpeer
      exact ⟨client, AList.lookup_insert _, hserver old hl ▸ hother⟩
    · exact ⟨old, by rw [AList.lookup_insert_ne hpeer, hl], hother⟩
  fresh other hmem := by
    rcases (AList.mem_insert _).mp hmem with rfl | hmem
    · exact hfresh
    · exact hw.fresh other hmem

/-- Whoever is in a room plays in it. -/
theorem Sound.currentGame_of_mem (hw : w.Sound) {peer : PeerRef} {client : Client} {key : AppKey}
    {ref : GameRef} {g : Game} (hl : w.clients.lookup peer = some client)
    (hg : (w.apps key).live.lookup ref = some g) (hmem : some peer ∈ g.connections) :
    client.currentGame = some (key, ref) := by
  obtain ⟨other, old, hother, hold, hplays⟩ := (hw.placed key ref g hg).2 _ hmem
  cases hother
  rw [hl] at hold
  cases hold
  exact hplays

/-- The stored tokens change. -/
theorem Sound.withTokens (hw : w.Sound) {tokens : TokenStore}
    (hstored : ∀ pp ∈ tokens.stored, pp.OfApp) : ({ w with tokens } : Instance).Sound :=
  { hw with stored := hstored }

/-- An app changes, and its rooms lose players at most. -/
theorem Sound.withApp (hw : w.Sound) {key : AppKey} {app : App} (hindexed : app.Indexed)
    (hlive : ∀ ref g, app.live.lookup ref = some g → g.TablesSound ∧ w.Placed key ref g) :
    ({ w with apps := Function.update w.apps key app } : Instance).Sound where
  indexed other := by
    by_cases hother : other = key
    · subst hother
      simpa using hindexed
    · simpa [hother] using hw.indexed other
  tables other ref g hg := by
    by_cases hother : other = key
    · subst hother
      exact (hlive ref g (by simpa using hg)).1
    · exact hw.tables other ref g (by simpa [hother] using hg)
  placed other ref g hg := by
    by_cases hother : other = key
    · subst hother
      exact (hlive ref g (by simpa using hg)).2
    · exact hw.placed other ref g (by simpa [hother] using hg)
  clients := hw.clients
  stored := hw.stored
  pending := hw.pending
  fresh := hw.fresh

/-- A room changes; whoever is in it plays in it. -/
theorem Sound.setGame (hw : w.Sound) {key : AppKey} {ref : GameRef} {g g' : Game}
    (hg : (w.apps key).live.lookup ref = some g) (hinfo : g'.info = g.info)
    (htables : g'.TablesSound) (hplaced : w.Placed key ref g') : (w.setGame key ref g').Sound := by
  refine hw.withApp ((hw.indexed key).setGame hg hinfo) fun other o ho => ?_
  simp only [AList.lookup_insert_eq] at ho
  split at ho
  · next hother =>
    cases ho
    exact ⟨htables, hother ▸ hplaced⟩
  · exact ⟨hw.tables key other o ho, hw.placed key other o ho⟩

theorem Placed.of_sublist {key : AppKey} {ref : GameRef} {g g' : Game} (hg : w.Placed key ref g)
    (hsub : g'.connections.Sublist g.connections) : w.Placed key ref g' :=
  ⟨hg.1.sublist hsub, fun c hc => hg.2 c (hsub.subset hc)⟩

end Parts

section Apps

variable {w : Instance} {key : AppKey} {app : App}

/-- A step of an app brings no players into its rooms. -/
theorem placed_appStep (hi : app.Indexed)
    (hlive : ∀ ref g, app.live.lookup ref = some g → g.TablesSound ∧ w.Placed key ref g)
    (op : AppOp) : (app.step op).Indexed ∧ ∀ ref g, (app.step op).live.lookup ref = some g →
      g.TablesSound ∧ w.Placed key ref g := by
  cases op with
  | getLobby id =>
    refine ⟨hi.getLobby id, ?_⟩
    obtain ⟨_, hframe⟩ := App.getLobby_frame id app
    simpa only [App.step, hframe] using hlive
  | releaseLobby id =>
    refine ⟨hi.releaseLobby id, ?_⟩
    obtain ⟨_, hframe⟩ := App.releaseLobby_frame id app
    simpa only [App.step, hframe] using hlive
  | createGame lobby id address orGet =>
    simp only [App.step]
    split
    · next hlobby =>
      refine ⟨hi.createGame hlobby id address orGet, ?_⟩
      rcases App.createGame_cases lobby id address orGet app with heq | ⟨-, heq⟩
      · rwa [heq]
      · obtain ⟨_, hframe⟩ := App.addGame_frame lobby id address app
        rw [heq, hframe]
        intro ref g hg
        simp only [AList.lookup_insert_eq] at hg
        split at hg
        · cases hg
          exact ⟨Game.tablesSound_newGame app lobby id address, List.nodup_nil,
            fun _ hc => (List.not_mem_nil hc).elim⟩
        · exact hlive ref g hg
    · exact ⟨hi, hlive⟩
  | dropGame ref =>
    simp only [App.step]
    cases hl : app.live.lookup ref with
    | none =>
      simp only [App.dropGame, hl]
      exact ⟨hi, hlive⟩
    | some g =>
      refine ⟨hi.dropGame hl, fun other o ho => ?_⟩
      obtain ⟨⟨_, hframe⟩, -, -⟩ := App.dropGame_spec hl
      simp only [hframe, AList.lookup_erase_eq] at ho
      split at ho
      · cases ho
      · exact hlive other o ho

theorem getGame_eq_run (invitation : Option GameInfo) (app : App) :
    ∃ ops, (Host.getGame invitation app).2 = Transition.run App.step app ops := by
  cases invitation with
  | none => exact ⟨[], rfl⟩
  | some info =>
    let lobby := (info.lobbyName, info.lobbyType)
    refine ⟨[.getLobby lobby, .createGame lobby info.id info.serverAddress true,
      .releaseLobby lobby], ?_⟩
    have hlobby : lobby ∈ ((app.step (.getLobby lobby)).lobbies) := App.mem_getLobby lobby app
    simp only [Transition.run_cons, Transition.run_nil]
    rw [show App.step (app.step (.getLobby lobby))
        (.createGame lobby info.id info.serverAddress true)
      = ((app.getLobby lobby).createGame lobby info.id info.serverAddress true).2.1 from if_pos hlobby]
    rfl

theorem Sound.getGame (hw : w.Sound) (key : AppKey) (invitation : Option GameInfo) :
    ({ w with
      apps := Function.update w.apps key (Host.getGame invitation (w.apps key)).2 } : Instance).Sound
    := by
  obtain ⟨ops, hrun⟩ := getGame_eq_run invitation (w.apps key)
  let P (app : App) : Prop := app.Indexed ∧ ∀ ref g, app.live.lookup ref = some g →
    g.TablesSound ∧ w.Placed key ref g
  have hkeeps : Transition.Keeps App.step (fun _ _ => True) P :=
    fun _ op hP _ => placed_appStep hP.1 hP.2 op
  have hafter : P (Host.getGame invitation (w.apps key)).2 := by
    rw [hrun]
    exact hkeeps.run ⟨hw.indexed key, fun ref g hg => ⟨hw.tables key ref g hg, hw.placed key ref g hg⟩⟩
      (Transition.eachStep_of_forall fun _ _ _ => trivial)
  exact hw.withApp hafter.1 hafter.2

theorem Sound.onApp (hw : w.Sound) (key : AppKey) (op : AppOp) : (w.onApp key op).Sound := by
  unfold Instance.onApp
  split
  · exact hw
  · have hafter := placed_appStep (hw.indexed key)
      (fun ref g hg => ⟨hw.tables key ref g hg, hw.placed key ref g hg⟩) op
    exact hw.withApp hafter.1 hafter.2

theorem Sound.onRoom (hw : w.Sound) (key : AppKey) (ref : GameRef) (op : RoomOp) :
    (w.onRoom key ref op).Sound := by
  unfold Instance.onRoom
  split
  · exact hw
  · next g hg =>
    split
    · next hop =>
      have hloses := Room.loses_step (hw.tables key ref g hg) (w.apps key).settings w.heap hop
      exact hw.setGame hg hloses.info hloses.sound
        ((hw.placed key ref g hg).of_sublist hloses.connections)
    · exact hw

theorem Sound.join (hw : w.Sound) (peer : PeerRef) (users : List String) (lease : Option Nat) :
    (w.join peer users lease).Sound := by
  unfold Instance.join
  split
  · next pp key ref disconnected listed hl =>
    split
    · exact hw
    · next g hg =>
      split
      · exact hw
      · next hout =>
        split
        · next added g' hjoin =>
          have htables := hw.tables key ref g hg
          have hlive : w.heap.lock (some peer) = some peer :=
            PeerHeap.lock_eq_some.mpr ⟨rfl, by simp [PeerHeap.get, heap, hl]⟩
          have huser : w.heap.userId (some peer) = some pp.userId := by
            rw [PeerHeap.userId_some]
            simp [PeerHeap.get, heap, hl]
          obtain ⟨hinfo, hsound, hconnections⟩ := htables.admitJoin huser hjoin
          obtain ⟨hnodup, hplaced⟩ := hw.placed key ref g hg
          refine hw.setGame hg hinfo hsound ⟨?_, ?_⟩
          · rw [hconnections, List.nodup_append]
            refine ⟨hnodup, List.nodup_singleton _, ?_⟩
            rintro c hc _ hpeer rfl
            rw [List.mem_singleton.mp hpeer] at hc
            exact hout (Game.actorIdForPeer_isSome htables.actors hlive hc)
          · intro c hc
            rw [hconnections] at hc
            rcases List.mem_append.mp hc with hold | hnew
            · exact hplaced c hold
            · exact ⟨peer, _, List.mem_singleton.mp hnew, hl, rfl⟩
        · exact hw
  · exact hw

end Apps

section Clients

variable {w : Instance} {peer : PeerRef} {client : Client}

theorem Sound.lt_nextPeer (hw : w.Sound) (hl : w.clients.lookup peer = some client) :
    peer < w.nextPeer :=
  hw.fresh peer (AList.mem_iff_lookup.mpr ⟨client, hl⟩)

/-- A client who changes and goes on playing where it plays. -/
theorem Sound.replaceClient (hw : w.Sound) (hl : w.clients.lookup peer = some client)
    {client' : Client} (hsound : client'.Sound) (hserver : client'.server = client.server)
    (hgame : ∀ game, client.currentGame = some game → client'.currentGame = some game) :
    ({ w with clients := w.clients.insert peer client' } : Instance).Sound := by
  refine hw.insertClient hsound (hw.lt_nextPeer hl) ?_ ?_
  · intro old hold
    rw [hl] at hold
    cases hold
    exact hserver.symm
  · exact fun key ref g hg hmem => hgame _ (hw.currentGame_of_mem hl hg hmem)

theorem Sound.connect (hw : w.Sound) (server : ServerType) :
    ({ w with
      nextPeer := w.nextPeer + 1
      clients := w.clients.insert w.nextPeer { server } } : Instance).Sound := by
  have hnone : w.clients.lookup w.nextPeer = none :=
    AList.lookup_eq_none.mpr fun hmem => Nat.lt_irrefl _ (hw.fresh _ hmem)
  have hnext : ({ w with nextPeer := w.nextPeer + 1 } : Instance).Sound :=
    { hw with fresh := fun peer hmem => Nat.lt_succ_of_lt (hw.fresh peer hmem) }
  refine hnext.insertClient ?_ (Nat.lt_succ_self _) ?_ ?_
  · exact
      { playing := fun _ _ hgame => by cases hgame
        invited := fun _ hmem => by cases hmem
        listed := fun _ => rfl }
  · intro old hold
    rw [hnone] at hold
    cases hold
  · intro key ref g hg hmem
    obtain ⟨other, old, hother, hold, -⟩ := (hw.placed key ref g hg).2 _ hmem
    cases hother
    rw [hnone] at hold
    cases hold

theorem Sound.disconnect (hw : w.Sound) (peer : PeerRef) : (w.disconnect peer).Sound := by
  cases hl : w.clients.lookup peer with
  | none => simpa [Instance.disconnect, Instance.modify, hl] using hw
  | some client =>
    -- The client leaves its room, and so every room.
    have hleft : ∀ w' : Instance, w'.Sound → w'.clients = w.clients →
        (∀ key ref g, (w'.apps key).live.lookup ref = some g → some peer ∉ g.connections) →
        (w'.modify peer fun client =>
          { client with currentGame := none, disconnected := true }).Sound := by
      intro w' hw' hclients hout
      have hl' : w'.clients.lookup peer = some client := by rw [hclients, hl]
      simp only [Instance.modify, hl']
      have hclient := hw.clients peer client hl
      refine hw'.insertClient ⟨?_, hclient.invited, ?_⟩ (hw'.lt_nextPeer hl') ?_ ?_
      · exact fun _ _ hgame => by cases hgame
      · exact fun hconnected => by cases hconnected
      · intro old hold
        rw [hl'] at hold
        cases hold
        rfl
      · exact fun key ref g hg hmem => absurd hmem (hout key ref g hg)
    unfold Instance.disconnect
    rw [hl, Option.bind_some]
    cases hgame : client.currentGame with
    | none =>
      refine hleft w hw rfl fun key ref g hg hmem => ?_
      have hplays := hw.currentGame_of_mem hl hg hmem
      rw [hgame] at hplays
      cases hplays
    | some game =>
      obtain ⟨key, ref⟩ := game
      simp only
      cases hg : (w.apps key).live.lookup ref with
      | none =>
        refine hleft w hw rfl fun key' ref' g hg' hmem => ?_
        have hplays := hw.currentGame_of_mem hl hg' hmem
        rw [hgame] at hplays
        cases hplays
        rw [hg] at hg'
        cases hg'
      | some g =>
        have hloses := (hw.tables key ref g hg).removePeer w.heap peer
        refine hleft _ (hw.setGame hg hloses.info hloses.sound
          ((hw.placed key ref g hg).of_sublist hloses.connections)) rfl ?_
        intro key' ref' o ho hmem
        by_cases hsame : key' = key ∧ ref' = ref
        · obtain ⟨rfl, rfl⟩ := hsame
          simp only [Instance.setGame, Function.update_self, AList.lookup_insert,
            Option.some.injEq] at ho
          subst ho
          exact Game.not_mem_connections_removePeer w.heap peer g hmem
        · have hother : (w.apps key').live.lookup ref' = some o := by
            simp only [Instance.setGame] at ho
            by_cases hkey : key' = key
            · subst hkey
              rw [Function.update_self] at ho
              rwa [AList.lookup_insert_ne fun href => hsame ⟨rfl, href⟩] at ho
            · rwa [Function.update_of_ne hkey] at ho
          have hplays := hw.currentGame_of_mem hl hother hmem
          rw [hgame] at hplays
          cases hplays
          exact hsame ⟨rfl, rfl⟩

end Clients

section Tokens

variable {w : Instance} {pp : PeerPersistent}

theorem ofApp_resetGame (pp : PeerPersistent) : pp.resetGame.OfApp :=
  fun _ hmem => by cases hmem

theorem ofApp_resetOwnedGameIfCreated {app : App} (hpp : pp.OfApp) :
    (pp.resetOwnedGameIfCreated app).OfApp := by
  unfold PeerPersistent.resetOwnedGameIfCreated
  split <;> exact hpp

theorem app_resetOwnedGameIfCreated (app : App) (pp : PeerPersistent) :
    (pp.resetOwnedGameIfCreated app).app = pp.app := by
  unfold PeerPersistent.resetOwnedGameIfCreated
  split <;> rfl

theorem storePersistentPeer_frame (pp : PeerPersistent) (w : Instance) :
    ∃ tokens, w.storePersistentPeer pp = { w with tokens } ∧
      (tokens = w.tokens ∨ ∃ pp' : PeerPersistent, pp'.app = pp.app ∧ (pp.OfApp → pp'.OfApp) ∧
        tokens = w.tokens.storePersistentPeer pp') := by
  unfold Instance.storePersistentPeer
  split
  · exact ⟨w.tokens, rfl, Or.inl rfl⟩
  · next key hkey =>
    exact ⟨_, rfl, Or.inr ⟨pp.resetOwnedGameIfCreated (w.apps key), app_resetOwnedGameIfCreated _ _,
      ofApp_resetOwnedGameIfCreated, rfl⟩⟩

theorem Sound.storePersistentPeer (hw : w.Sound) (hpp : pp.OfApp) :
    (w.storePersistentPeer pp).Sound := by
  obtain ⟨tokens, heq, htokens⟩ := storePersistentPeer_frame pp w
  rw [heq]
  refine hw.withTokens fun value hvalue => ?_
  rcases htokens with rfl | ⟨pp', -, hpp', rfl⟩
  · exact hw.stored value hvalue
  · by_cases happ : pp'.app = none
    · rw [TokenStore.storePersistentPeer, if_pos happ] at hvalue
      exact hw.stored value hvalue
    · rcases (TokenStore.mem_storePersistentPeer happ).mp hvalue with ⟨hold, -⟩ | rfl
      · exact hw.stored value hold
      · exact hpp' hpp

theorem Sound.route (hw : w.Sound) (peer : PeerRef) (ref : GameRef) (isNew : Bool) :
    (w.route peer ref isNew).Sound := by
  unfold Instance.route
  split
  · exact hw
  · next client hl =>
    split
    · next pp hserver hpersistent =>
      split
      · exact hw
      · next appId appVersion g hroom =>
        have hclient := hw.clients peer client hl
        have hidle : client.currentGame = none := by
          cases hgame : client.currentGame with
          | none => rfl
          | some game =>
            have hplays := (hclient.playing game.1 game.2 hgame).2.1
            rw [hserver] at hplays
            cases hplays
        have happ : pp.app = some (appId, appVersion) := by
          obtain ⟨key, hkey, hmap⟩ := Option.bind_eq_some_iff.mp hroom
          obtain ⟨g', -, heq⟩ := Option.map_eq_some_iff.mp hmap
          cases heq
          exact hkey
        refine Sound.storePersistentPeer (hw.replaceClient hl ?_ rfl fun game hgame => hgame) ?_
        · exact
            { playing := fun _ _ hgame => by
                rw [hidle] at hgame
                cases hgame
              invited := fun _ hmem => by cases hmem
              listed := hclient.listed }
        · intro info hinfo
          obtain rfl := Option.mem_some_iff.mp hinfo
          exact happ
    · exact hw

theorem Sound.destroy (hw : w.Sound) (peer : PeerRef) : (w.destroy peer).Sound := by
  unfold Instance.destroy
  split
  · exact hw
  · next client hl =>
    split
    · exact hw
    · next hover =>
      have hclient := hw.clients peer client hl
      obtain ⟨hunlisted, hdone⟩ := not_or.mp hover
      have hidle : ∀ key ref g, (w.apps key).live.lookup ref = some g → some peer ∉ g.connections := by
        intro key ref g hg hmem
        have hconnected := (hclient.playing key ref (hw.currentGame_of_mem hl hg hmem)).2.2
        exact hunlisted (hclient.listed hconnected)
      have herase : ({ w with clients := w.clients.erase peer } : Instance).Sound :=
        { indexed := hw.indexed
          tables := hw.tables
          placed := by
            intro key ref g hg
            obtain ⟨hnodup, hplaced⟩ := hw.placed key ref g hg
            refine ⟨hnodup, fun c hc => ?_⟩
            obtain ⟨other, old, rfl, hother, hplays⟩ := hplaced c hc
            have hne : other ≠ peer := by
              rintro rfl
              exact hidle key ref g hg hc
            exact ⟨other, old, rfl, by rw [AList.lookup_erase_ne hne, hother], hplays⟩
          clients := by
            intro other old hother
            rw [AList.lookup_erase_eq] at hother
            split at hother
            · cases hother
            · exact hw.clients other old hother
          stored := hw.stored
          pending := by
            intro other pending hmem
            obtain ⟨hinvitation, old, hother, hserver⟩ := hw.pending other pending hmem
            have hne : other ≠ peer := by
              rintro rfl
              exact hdone (List.any_eq_true.mpr ⟨_, hmem, beq_self_eq_true _⟩)
            exact ⟨hinvitation, old, by rw [AList.lookup_erase_ne hne, hother], hserver⟩
          fresh := fun other hmem => hw.fresh other (AList.mem_erase.mp hmem).2 }
      split
      · exact herase
      · next pp hpp => exact herase.storePersistentPeer (hclient.invited pp hpp)

end Tokens

section Settling

variable {w : Instance} {peer : PeerRef} {client : Client}

theorem settle_frame (peer : PeerRef) (client : Client) (w : Instance) :
    ∃ apps client', w.settle peer client =
      { w with apps, clients := w.clients.insert peer client' } ∧
      (∀ key, client'.isOf key = client.isOf key) ∧ client'.listed = client.listed := by
  unfold Instance.settle
  split
  · next pp hserver hpersistent =>
    refine ⟨w.apps, _, rfl, fun key => ?_, rfl⟩
    unfold Client.isOf
    rw [hpersistent]
    rfl
  · next pp hserver hpersistent =>
    split
    · refine ⟨_, _, rfl, fun key => ?_, rfl⟩
      unfold Client.isOf
      rw [hpersistent]
      rfl
    · refine ⟨_, _, rfl, fun key => ?_, rfl⟩
      unfold Client.isOf
      rw [hpersistent]
      simp only [Option.any_some, app_resetOwnedGameIfCreated]
  · exact ⟨w.apps, client, rfl, fun _ => rfl, rfl⟩

/-- A client who is not in a room gets an identity, or none. -/
theorem Sound.settle (hw : w.Sound) (hl : w.clients.lookup peer = some client)
    (hidle : client.currentGame = none)
    (hserver : client.server = .gameServer → client.disconnected = false)
    {persistent : Option PeerPersistent} (hpersistent : ∀ pp ∈ persistent, pp.OfApp) :
    (w.settle peer { client with persistent }).Sound := by
  have hclient := hw.clients peer client hl
  have hnew : ∀ persistent' : Option PeerPersistent, (∀ pp ∈ persistent', pp.OfApp) →
      ({ client with persistent := persistent' } : Client).Sound := by
    intro persistent' hinvited
    refine ⟨fun key ref hgame => ?_, hinvited, hclient.listed⟩
    rw [hidle] at hgame
    cases hgame
  unfold Instance.settle
  split
  · next pp hmaster hpp =>
    refine hw.replaceClient hl (hnew _ ?_) rfl fun game hgame => hgame
    intro value hvalue
    obtain rfl := Option.mem_some_iff.mp hvalue
    exact ofApp_resetGame pp
  · next pp hgameServer hpp =>
    have hpp' : pp.OfApp := hpersistent pp hpp
    have hafter := hw.getGame pp.invitedTo pp.invitation
    cases hfound : Host.getGame pp.invitation (w.apps pp.invitedTo) with
    | mk found app =>
    simp only [hfound] at hafter
    cases found with
    | none =>
      refine hafter.replaceClient hl (hnew _ ?_) rfl fun game hgame => hgame
      intro value hvalue
      obtain rfl := Option.mem_some_iff.mp hvalue
      exact ofApp_resetGame pp
    | some ref =>
      refine hafter.replaceClient hl ?_ rfl fun game hgame => ?_
      · refine ⟨fun key' ref' hgame => ?_, fun value hvalue => ?_, hclient.listed⟩
        · cases hgame
          refine ⟨?_, hgameServer, hserver hgameServer⟩
          cases hinvitation : pp.invitation with
          | none =>
            rw [hinvitation] at hfound
            cases hfound
          | some info =>
            unfold Client.isOf PeerPersistent.invitedTo
            simp [app_resetOwnedGameIfCreated, hpp' info hinvitation, hinvitation]
        · obtain rfl := Option.mem_some_iff.mp hvalue
          exact ofApp_resetOwnedGameIfCreated hpp'
      · rw [hidle] at hgame
        cases hgame
  · exact hw.replaceClient hl (hnew _ hpersistent) rfl fun game hgame => hgame

end Settling

end Instance

end LuxonServer
