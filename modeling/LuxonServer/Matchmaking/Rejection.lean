import LuxonServer.DataModel
import LuxonServer.Hosting.Host
import LuxonServer.Lobby.Pointers
import LuxonServer.Lobby.World
import LuxonServer.Matchmaking.Choice

/-! The request `JoinGame` to the MasterServer with all that it may change, and what is left of it
when it is answered with an error. -/

namespace LuxonServer

open Game

/-- `models::JoinGame`. -/
structure JoinGameParams where
  gameId : String := ""
  expectedUsers : List String := []
  createIfNotExists : UInt8 := 0

/-- A request `JoinGame`: what `JoinGame::decode` and `LobbyId::decode` make of it, and what
`generate_game_id` and `get_random_gameserver_base_addr` come up with. -/
structure JoinGameCall where
  operationCode : UInt8
  params : Except DecodeError JoinGameParams
  lobbyId : Except DecodeError LobbyId
  generatedId : String := ""
  address : String := ""

/-- The return codes of `JoinGame` that are errors. -/
inductive JoinGameCode where
  | route (code : RouteCode)
  | operationInvalid
  | operationNotAllowedInCurrentState
  deriving DecidableEq, Repr

/-- How a request `JoinGame` is answered. -/
inductive JoinGameAnswer where
  | error (code : JoinGameCode) (message : String)
  /-- `pending_join_` takes the request, and nothing is sent yet. -/
  | pending
  | routed (game : GameRef) (isNew : Bool)
  deriving DecidableEq, Repr

def JoinGameAnswer.isError : JoinGameAnswer → Bool
  | .error _ _ => true
  | _ => false

/-- The MasterServer with the clients of an app. -/
structure MasterServer where
  heap : PeerHeap
  app : App
  tokens : TokenStore := {}
  /-- `joined_lobby_` of the clients that have one. -/
  joinedLobbies : AList (fun _ : PeerRef => LobbyId) := ∅
  /-- `pending_game_list_updates_` of each client. -/
  pendingGameListUpdates : PeerRef → List GameListUpdate := fun _ => []
  /-- The room in `pending_join_` of each client. -/
  pendingJoins : PeerRef → Option GameRef := fun _ => none

/-- A request that is rejoin-only is given a room of its own: there is none with the id that it has,
and `create_game` makes one. -/
def App.PlacesRejoin (request : JoinGameRequest) (app : App) : Prop :=
  request.joinMode = 3 ∧ app.games.lookup request.gameId = none ∧
    (app.getLobby request.lobby).MayAdd (RouteRequest.joinGame request).newGameId

namespace MasterServer

/-- The handler of a client, as far as it hears of rooms. -/
def handler (peer : PeerRef) (s : MasterServer) : MasterServerHandler where
  joinedLobby := s.joinedLobbies.lookup peer
  pendingGameListUpdates := s.pendingGameListUpdates peer

/-- The handlers of a lobby are called. -/
def tell (lobby : LobbyId) (notices : List GameListUpdate) (s : MasterServer) : MasterServer :=
  { s with
    pendingGameListUpdates := fun peer =>
      if (s.handler peer).hears lobby then
        (notices.foldl MasterServerHandler.receive (s.handler peer)).pendingGameListUpdates
      else s.pendingGameListUpdates peer }

/-- `JoinGame` after its parameters have been read. -/
def routeJoinGame (peer : PeerRef) (pp : PeerPersistent) (request : JoinGameRequest)
    (s : MasterServer) : JoinGameAnswer × MasterServer :=
  let ⟨answer, app, effects⟩ := s.app.routeJoinGame s.heap pp.userId request
  let told := { s with app }.tell request.lobby
    (effects.filterMap
      (Effect.notice s.app.nextRef (RouteRequest.joinGame request).newGameId))
  match answer with
  | .refused code message => (.error (.route code) message, told)
  | .pending =>
    if (s.pendingJoins peer).isSome then
      (.error .operationNotAllowedInCurrentState "Join already pending", told)
    else
      (.pending,
        { told with
          pendingJoins :=
            Function.update s.pendingJoins peer (s.app.games.lookup request.gameId) })
  | .routed ref isNew =>
    match app.live.lookup ref with
    | none => (.routed ref isNew, told)
    | some g =>
      let pp := pp.invite g.info ref isNew
      -- The client's record goes to the store, and the connection is left without one.
      (.routed ref isNew,
        { told with
          heap :=
            Function.update s.heap peer
              (.live { persistent := if pp.app = none then some pp else none })
          tokens := s.tokens.storePersistentPeer (pp.resetOwnedGameIfCreated app) })

/-- The request that the call makes, in the lobby that `get_requested_lobby` finds. -/
def request (peer : PeerRef) (call : JoinGameCall) (params : JoinGameParams) (lobbyId : LobbyId)
    (s : MasterServer) : JoinGameRequest where
  lobby := (s.handler peer).requestedLobby lobbyId
  gameId := params.gameId
  expectedUsers := params.expectedUsers
  joinMode := params.createIfNotExists
  generatedId := call.generatedId
  address := call.address

/-- `JoinGame` in `HandleOperationRequest`. -/
def joinGame (peer : PeerRef) (call : JoinGameCall) (s : MasterServer) :
    JoinGameAnswer × MasterServer :=
  match (s.heap.get peer).bind Peer.persistent with
  | none =>
    (.error .operationInvalid ("Unsupported operation " ++ toString call.operationCode.toNat), s)
  | some pp =>
    match call.params with
    | .error e => (.error .operationInvalid e.debugMessage, s)
    | .ok params =>
      match call.lobbyId with
      | .error e => (.error .operationInvalid e.debugMessage, s)
      | .ok lobbyId => s.routeJoinGame peer pp (s.request peer call params lobbyId)

/-- How many clients have joined a lobby. -/
def holders (s : MasterServer) (lobby : LobbyId) : Nat :=
  s.joinedLobbies.entries.countP fun entry => entry.2 == lobby

/-- Between two requests the pointers to lobbies are those of the rooms and of the clients. -/
def Sound (s : MasterServer) : Prop := s.app.Held s.holders

/-- What a request that is answered with an error may not change. -/
structure Unchanged (s s' : MasterServer) : Prop where
  games : ∀ id, s'.app.games.lookup id = s.app.games.lookup id
  lobbies : ∀ id, s'.app.lobbies.lookup id = s.app.lobbies.lookup id
  rooms : ∀ ref, s'.app.live.lookup ref = s.app.live.lookup ref
  tokens : s'.tokens = s.tokens
  notifications : s'.pendingGameListUpdates = s.pendingGameListUpdates

theorem Unchanged.refl (s : MasterServer) : s.Unchanged s :=
  ⟨fun _ => rfl, fun _ => rfl, fun _ => rfl, rfl, rfl⟩

/-- The request is rejoin-only and yet makes a room, in a lobby that is there already. -/
def MakesRoomToRejoin (peer : PeerRef) (call : JoinGameCall) (s : MasterServer) : Prop :=
  ∃ pp params lobbyId, (s.heap.get peer).bind Peer.persistent = some pp ∧
    call.params = .ok params ∧ call.lobbyId = .ok lobbyId ∧
    s.app.PlacesRejoin (s.request peer call params lobbyId) ∧
    (s.request peer call params lobbyId).lobby ∈ s.app.lobbies

end MasterServer

namespace App

variable {app : App} {h : PeerHeap} {userId : String} {request : JoinGameRequest}

/-- A room that has been found is left as it is, unless the client is sent there. -/
theorem joinFoundGame_found (h : PeerHeap) (userId : String) (request : JoinGameRequest)
    (ref : GameRef) (app : App) :
    (app.joinFoundGame h userId request false ref).answer = .routed ref false ∨
      (∀ other isNew, (app.joinFoundGame h userId request false ref).answer ≠ .routed other isNew) ∧
        (app.joinFoundGame h userId request false ref).app = app ∧
        (app.joinFoundGame h userId request false ref).effects = [] := by
  unfold joinFoundGame
  cases app.live.lookup ref with
  | none => simp
  | some g =>
    simp only [Bool.false_eq_true, if_false]
    split_ifs <;> simp

/-- A placeholder is no room to come back to. -/
theorem joinFoundGame_new {lobby : LobbyId} {gameId address : String} :
    ((app.addGame lobby gameId address).joinFoundGame h userId request true app.nextRef) =
      if request.joinMode = 3 then
        { answer := .refused (.matchmaking .gameIdNotExists) "Rejoiner does not exist"
          app := ((app.addGame lobby gameId address).dropGame app.nextRef).1
          effects := ((app.addGame lobby gameId address).dropGame app.nextRef).2 }
      else
        { answer := .routed app.nextRef true
          app := (app.addGame lobby gameId address).modifyGame app.nextRef fun g =>
            (g.reserveSeat userId).reserveExpectedUsers userId request.expectedUsers } := by
  unfold joinFoundGame
  rw [lookup_addGame]
  have hcreated : (app.newGame lobby gameId address).isCreated = false := rfl
  by_cases hmode : request.joinMode = 3 <;> simp [hmode, hcreated]

/-- The ends of a request `JoinGame`: the client is sent to a room, or the app is left alone, or a
room is made for someone who wants to come back, and deleted again. -/
theorem routeJoinGame_cases (h : PeerHeap) (userId : String) (request : JoinGameRequest)
    (app : App) :
    ((∃ ref isNew, (app.routeJoinGame h userId request).answer = .routed ref isNew) ∧
      ¬app.PlacesRejoin request) ∨
    ((∀ ref isNew, (app.routeJoinGame h userId request).answer ≠ .routed ref isNew) ∧
      ¬app.PlacesRejoin request ∧
      (app.routeJoinGame h userId request).app =
        (app.getLobby request.lobby).releaseLobby request.lobby ∧
      (app.routeJoinGame h userId request).effects = []) ∨
    (app.PlacesRejoin request ∧
      app.routeJoinGame h userId request =
        { answer := .refused (.matchmaking .gameIdNotExists) "Rejoiner does not exist"
          app := (((app.getLobby request.lobby).addGame request.lobby
            (RouteRequest.joinGame request).newGameId request.address).dropGame
              app.nextRef).1.releaseLobby request.lobby
          effects := .gameUpdate :: (((app.getLobby request.lobby).addGame request.lobby
            (RouteRequest.joinGame request).newGameId request.address).dropGame
              app.nextRef).2 }) := by
  obtain ⟨lobbies, hframe⟩ := getLobby_frame request.lobby app
  have hgames : (app.getLobby request.lobby).games = app.games := by rw [hframe]
  have hnext : (app.getLobby request.lobby).nextRef = app.nextRef := by rw [hframe]
  cases hfound : app.games.lookup request.gameId with
  | some weak =>
    have hroute : app.routeJoinGame h userId request = withLobby request.lobby
        (fun app => app.joinFoundGame h userId request false weak) app := by
      simp only [routeJoinGame, withLobby, hgames, hfound]
    have hplaces : ¬app.PlacesRejoin request := by
      simp [PlacesRejoin, hfound]
    rcases joinFoundGame_found h userId request weak (app.getLobby request.lobby) with
      hrouted | ⟨hnot, happ, heffects⟩
    · exact Or.inl ⟨⟨weak, false, by rw [hroute]; exact hrouted⟩, hplaces⟩
    · refine Or.inr (Or.inl ⟨by rw [hroute]; exact hnot, hplaces, ?_, ?_⟩)
      · rw [hroute]
        exact congrArg (App.releaseLobby request.lobby) happ
      · rw [hroute]
        exact heffects
  | none =>
    have hroute : app.routeJoinGame h userId request = withLobby request.lobby
        (fun app =>
          if request.joinMode = 0 then
            { answer := .refused (.matchmaking .gameIdNotExists) "Game does not exist", app }
          else
            app.createFor request.lobby (RouteRequest.joinGame request).newGameId request.address
              (joinFoundGame h userId request true)) app := by
      simp only [routeJoinGame, withLobby, hgames, hfound, RouteRequest.newGameId]
    by_cases hzero : request.joinMode = 0
    · have hplaces : ¬app.PlacesRejoin request := by
        simp [PlacesRejoin, hzero]
      refine Or.inr (Or.inl ⟨?_, hplaces, ?_, ?_⟩)
      · simp [hroute, withLobby, hzero]
      · simp [hroute, withLobby, hzero]
      · simp [hroute, withLobby, hzero]
    by_cases hadd : (app.getLobby request.lobby).MayAdd (RouteRequest.joinGame request).newGameId
    case neg =>
      obtain ⟨code, message, hrefused⟩ :=
        createFor_refused hadd request.lobby request.address (joinFoundGame h userId request true)
      refine Or.inr (Or.inl ⟨?_, fun hplaces => hadd hplaces.2.2, ?_, ?_⟩)
      · simp [hroute, withLobby, hzero, hrefused]
      · simp [hroute, withLobby, hzero, hrefused]
      · simp [hroute, withLobby, hzero, hrefused]
    have hfor := createFor_of_mayAdd hadd request.lobby request.address
      (joinFoundGame h userId request true)
    rw [joinFoundGame_new, hnext] at hfor
    by_cases hrejoin : request.joinMode = 3
    · rw [if_pos hrejoin] at hfor
      refine Or.inr (Or.inr ⟨⟨hrejoin, hfound, hadd⟩, ?_⟩)
      simp only [hroute, withLobby, if_neg hzero, hfor]
    · rw [if_neg hrejoin] at hfor
      exact Or.inl ⟨⟨app.nextRef, true, by simp only [hroute, withLobby, if_neg hzero, hfor]⟩,
        fun hplaces => hrejoin hplaces.1⟩

/-- Of a room that is made and deleted again, neither the map nor the `Game` objects keep
anything. -/
theorem lookup_made_and_dropped (hs : app.Sound) (id : LobbyId) (gameId : String)
    (hid : app.games.lookup gameId = none) (address : String) :
    let after := (((app.getLobby id).addGame id gameId address).dropGame
      app.nextRef).1.releaseLobby id
    (∀ key, after.games.lookup key = app.games.lookup key) ∧
      ∀ ref, after.live.lookup ref = app.live.lookup ref := by
  obtain ⟨_, hget⟩ := getLobby_frame id app
  obtain ⟨_, hadd⟩ := addGame_frame id gameId address (app.getLobby id)
  have hnext : (app.getLobby id).nextRef = app.nextRef := by rw [hget]
  have hmade := lookup_addGame id gameId address (app.getLobby id)
  rw [hnext] at hmade
  obtain ⟨⟨_, hdrop⟩, -, -⟩ := dropGame_spec hmade
  obtain ⟨_, hrelease⟩ := releaseLobby_frame id
    (((app.getLobby id).addGame id gameId address).dropGame app.nextRef).1
  have hname : ((app.getLobby id).newGame id gameId address).info.id = gameId := rfl
  have hgone : app.live.lookup app.nextRef = none := hs.lookup_nextRef
  intro after
  have hafter : after = _ := hrelease
  rw [hafter, hdrop, hadd, hname, hget]
  simp only [AList.lookup_erase_eq, AList.lookup_insert_eq]
  constructor
  · intro key
    split
    · next hkey => rw [hkey, hid]
    · rfl
  · intro ref
    split
    · next href => rw [href, hgone]
    · rfl

/-- A room that is made and deleted again leaves its weak pointer in the list of the lobby. -/
theorem lookup_rejoined {holders : LobbyId → Nat} (hheld : app.Held holders) (id : LobbyId)
    (gameId address : String) (key : LobbyId) :
    ((((app.getLobby id).addGame id gameId address).dropGame app.nextRef).1.releaseLobby
        id).lobbies.lookup key =
      if key = id then
        (app.lobbies.lookup key).map fun lobby =>
          { lobby with games := lobby.games ++ [app.nextRef] }
      else app.lobbies.lookup key := by
  obtain ⟨_, hframe⟩ := getLobby_frame id app
  have hnext : (app.getLobby id).nextRef = app.nextRef := by rw [hframe]
  have hmade := lookup_addGame id gameId address (app.getLobby id)
  rw [hnext] at hmade
  have hadded : ((app.getLobby id).addGame id gameId address).lobbies.lookup id =
      some ⟨(app.lobbies.lookup id).elim [] Lobby.games ++ [app.nextRef], holders id + 1⟩ := by
    rw [lookup_lobbies_addGame, if_pos rfl, hheld.lookup_getLobby, if_pos rfl, hnext]
    rfl
  obtain ⟨⟨_, hdrop⟩, -, hkept⟩ := dropGame_spec hmade
  rw [hheld.lookup_release (((app.getLobby id).addGame id gameId address).dropGame app.nextRef).1
    ((app.lobbies.lookup id).elim [] Lobby.games ++ [app.nextRef])]
  · split
    · next hkey =>
      subst hkey
      cases app.lobbies.lookup key <;> rfl
    · rfl
  · intro ref
    obtain ⟨_, hadd⟩ := addGame_frame id gameId address (app.getLobby id)
    rw [hdrop, hadd, hframe]
    simp only [AList.lookup_erase_eq, AList.lookup_insert_eq]
    split
    · next href => rw [href, hheld.sound.lookup_nextRef]
    · rfl
  · intro other
    rw [hkept]
    · split
      · next hother => rw [hother, hadded]
      · next hother =>
        rw [lookup_lobbies_addGame, if_neg hother, hheld.lookup_getLobby, if_neg hother]
    · rintro ⟨hlast, -⟩
      have hnone := hlast.1 _ hadded
      cases hnone

theorem lobbyId_reserveSeat (userId : String) (g : Game) :
    (g.reserveSeat userId).lobbyId = g.lobbyId := by
  unfold Game.reserveSeat reserveExpectedUserWithGeneration
  split_ifs <;> rfl

theorem lobbyId_reserveExpectedUsers (userId : String) (users : List String) (g : Game) :
    (g.reserveExpectedUsers userId users).lobbyId = g.lobbyId := by
  unfold reserveExpectedUsers
  induction users generalizing g with
  | nil => rfl
  | cons user users ih =>
    rw [List.foldl_cons, ih]
    split
    · rfl
    · exact lobbyId_reserveSeat user g

theorem Held.joinFoundGame {holders : LobbyId → Nat} (hheld : app.Held holders) (h : PeerHeap)
    (userId : String) (request : JoinGameRequest) (isNew : Bool) (ref : GameRef) :
    (app.joinFoundGame h userId request isNew ref).app.Held holders := by
  unfold App.joinFoundGame
  cases hg : app.live.lookup ref with
  | none => exact hheld
  | some g =>
    have hseats : ∀ g : Game, ((g.reserveSeat userId).reserveExpectedUsers userId
        request.expectedUsers).lobbyId = g.lobbyId := fun g =>
      (lobbyId_reserveExpectedUsers _ _ _).trans (lobbyId_reserveSeat userId g)
    simp only [modifyGame, hg]
    split_ifs
    · exact hheld.dropGame ref
    · exact hheld
    · exact hheld
    · exact hheld
    · exact hheld
    · exact hheld.setGame hg (hseats g)

theorem Held.routeJoinGame {holders : LobbyId → Nat} (hheld : app.Held holders) (h : PeerHeap)
    (userId : String) (request : JoinGameRequest) :
    (app.routeJoinGame h userId request).app.Held holders := by
  have hget := hheld.getLobby request.lobby
  have hmem := mem_getLobby request.lobby app
  apply Held.release
  generalize app.getLobby request.lobby = asked at hget hmem ⊢
  simp only
  cases asked.games.lookup request.gameId with
  | some weak => exact hget.joinFoundGame h userId request false weak
  | none =>
    by_cases hzero : request.joinMode = 0
    · simp only [hzero, if_true]
      exact hget
    simp only [if_neg hzero]
    generalize (if request.gameId = "" then request.generatedId else request.gameId) = gameId
    by_cases hadd : asked.MayAdd gameId
    · rw [createFor_of_mayAdd hadd]
      exact (hget.addGame hmem gameId request.address).joinFoundGame h userId request true _
    · obtain ⟨code, message, heq⟩ := createFor_refused hadd request.lobby request.address
        (App.joinFoundGame h userId request true)
      rw [heq]
      exact hget

end App

namespace MasterServer

variable {s : MasterServer} {peer : PeerRef} {pp : PeerPersistent} {request : JoinGameRequest}
  {lobby : LobbyId}

/-- A client hears of a lobby only when the lobby is there. -/
theorem Sound.mem_of_hears (hs : s.Sound) (peer : PeerRef)
    (hhears : (s.handler peer).hears lobby = true) : lobby ∈ s.app.lobbies := by
  rw [MasterServerHandler.hears, Bool.and_eq_true, beq_iff_eq] at hhears
  have hjoined : s.joinedLobbies.lookup peer = some lobby := hhears.1
  refine (hs.pointed lobby).mpr (Or.inl (Nat.pos_iff_ne_zero.mp ?_))
  exact List.countP_pos_iff.mpr
    ⟨⟨peer, lobby⟩, AList.mem_entries_iff.mpr hjoined, beq_self_eq_true lobby⟩

theorem pendingGameListUpdates_tell {notices : List GameListUpdate}
    (hquiet : ∀ peer, (s.handler peer).hears lobby = true → notices = []) :
    (s.tell lobby notices).pendingGameListUpdates = s.pendingGameListUpdates := by
  funext peer
  unfold tell
  simp only
  split
  · next hhears =>
    rw [hquiet peer hhears]
    rfl
  · rfl

theorem isError_of_routed {ref : GameRef} {isNew : Bool}
    (hrouted : (s.app.routeJoinGame s.heap pp.userId request).answer = .routed ref isNew) :
    (s.routeJoinGame peer pp request).1.isError = false := by
  unfold routeJoinGame
  simp only [hrouted]
  split <;> rfl

/-- A client that is not sent to a room leaves its request at most. -/
theorem routeJoinGame_not_routed (peer : PeerRef)
    (hnot : ∀ ref isNew,
      (s.app.routeJoinGame s.heap pp.userId request).answer ≠ .routed ref isNew) :
    ∃ pendingJoins, (s.routeJoinGame peer pp request).2 =
      { ({ s with app := (s.app.routeJoinGame s.heap pp.userId request).app }.tell request.lobby
          ((s.app.routeJoinGame s.heap pp.userId request).effects.filterMap
            (Effect.notice s.app.nextRef (RouteRequest.joinGame request).newGameId))) with
        pendingJoins } := by
  unfold routeJoinGame
  simp only
  split
  · exact ⟨_, rfl⟩
  · split <;> exact ⟨_, rfl⟩
  · next hrouted => exact absurd hrouted (hnot _ _)

theorem routeJoinGame_unchanged_iff (hs : s.Sound) (peer : PeerRef) (pp : PeerPersistent)
    (request : JoinGameRequest) :
    ((s.routeJoinGame peer pp request).1.isError = true →
        s.Unchanged (s.routeJoinGame peer pp request).2) ↔
      ¬(s.app.PlacesRejoin request ∧ request.lobby ∈ s.app.lobbies) := by
  rcases App.routeJoinGame_cases s.heap pp.userId request s.app with
    ⟨⟨ref, isNew, hrouted⟩, hplaces⟩ | ⟨hnot, hplaces, happ, hquiet⟩ | ⟨hplaces, hroute⟩
  · rw [isError_of_routed hrouted]
    simp [hplaces]
  · refine iff_of_true (fun _ => ?_) fun hboth => hplaces hboth.1
    obtain ⟨_, hafter⟩ := routeJoinGame_not_routed peer hnot
    obtain ⟨_, hrelease⟩ := App.getLobby_releaseLobby_frame request.lobby s.app
    rw [hafter, happ, hquiet]
    exact {
      games := fun id => by simp only [tell, hrelease]
      lobbies := fun id => hs.getLobby_releaseLobby request.lobby id
      rooms := fun ref => by simp only [tell, hrelease]
      tokens := rfl
      notifications := pendingGameListUpdates_tell fun _ _ => rfl }
  · have hnot : ∀ ref isNew,
        (s.app.routeJoinGame s.heap pp.userId request).answer ≠ .routed ref isNew := by
      rw [hroute]
      simp
    have herror : (s.routeJoinGame peer pp request).1.isError = true := by
      simp only [routeJoinGame, hroute]
      rfl
    obtain ⟨_, hafter⟩ := routeJoinGame_not_routed peer hnot
    have hnew : s.app.games.lookup (RouteRequest.joinGame request).newGameId = none := by
      obtain ⟨_, hget⟩ := App.getLobby_frame request.lobby s.app
      have hadd := hplaces.2.2.2.1
      rw [hget] at hadd
      exact hadd
    have hlobbies := App.lookup_rejoined hs request.lobby
      (RouteRequest.joinGame request).newGameId request.address
    rw [herror, hafter, hroute]
    simp only [forall_const, hplaces, true_and]
    constructor
    · intro hsame hmem
      obtain ⟨lobby, hlobby⟩ := AList.mem_iff_lookup.mp hmem
      have hlist := hsame.lobbies request.lobby
      simp only [tell, hlobbies, if_pos, hlobby] at hlist
      simpa using congrArg (Option.map fun lobby => lobby.games.length) hlist
    · intro hout
      obtain ⟨hgames, hrooms⟩ := App.lookup_made_and_dropped hs.sound request.lobby
        (RouteRequest.joinGame request).newGameId hnew request.address
      exact {
        games := hgames
        lobbies := fun id => by
          simp only [tell, hlobbies]
          split
          · next hid => rw [hid, AList.lookup_eq_none.mpr hout]; rfl
          · rfl
        rooms := hrooms
        tokens := rfl
        notifications := pendingGameListUpdates_tell fun peer hhears =>
          absurd (Sound.mem_of_hears hs peer hhears) hout }

/-- What happens to the MasterServer between its requests `JoinGame` and with them. -/
inductive MasterOp where
  /-- Something becomes of a connection. -/
  | connection (peer : PeerRef) (slot : PeerSlot)
  | joinLobby (peer : PeerRef) (lobby : LobbyId)
  /-- A client leaves its lobby, or is gone. -/
  | leaveLobby (peer : PeerRef)
  | joinGame (peer : PeerRef) (call : JoinGameCall)
  /-- Another request makes a room. -/
  | createGame (lobby : LobbyId) (id address : String) (orGet : Bool)
  /-- A room changes, and keeps its name. -/
  | room (ref : GameRef) (g : Game)
  | dropGame (ref : GameRef)
  | handleSlowUpdate (peer : PeerRef)

/-- The pointer to the joined lobby is dropped. -/
def leaveLobby (peer : PeerRef) (s : MasterServer) : MasterServer :=
  match s.joinedLobbies.lookup peer with
  | none => s
  | some lobby =>
    { s with
      app := s.app.releaseLobby lobby
      joinedLobbies := s.joinedLobbies.erase peer }

/-- `JoinLobby`: the new pointer is there before the old one is dropped. -/
def joinLobby (peer : PeerRef) (requested : LobbyId) (s : MasterServer) : MasterServer :=
  let lobby := (s.handler peer).requestedLobby requested
  let left := { s with app := s.app.getLobby lobby }.leaveLobby peer
  { left with joinedLobbies := left.joinedLobbies.insert peer lobby }

def step (s : MasterServer) : MasterOp → MasterServer
  | .connection peer slot => { s with heap := Function.update s.heap peer slot }
  | .joinLobby peer lobby => s.joinLobby peer lobby
  | .leaveLobby peer => s.leaveLobby peer
  | .joinGame peer call => (s.joinGame peer call).2
  | .createGame lobby id address orGet =>
    let (_, app, effects) := (s.app.getLobby lobby).createGame lobby id address orGet
    { s with app := app.releaseLobby lobby }.tell lobby
      (effects.filterMap (Effect.notice s.app.nextRef id))
  | .room ref g =>
    if (s.app.live.lookup ref).map Game.info = some g.info then
      { s with app := { s.app with live := s.app.live.insert ref g } }.tell g.lobbyId [.update ref]
    else s
  | .dropGame ref =>
    match s.app.live.lookup ref with
    | none => s
    | some g =>
      let (app, effects) := s.app.dropGame ref
      { s with app }.tell g.lobbyId (effects.filterMap (Effect.notice ref g.info.id))
  | .handleSlowUpdate peer =>
    { s with pendingGameListUpdates := Function.update s.pendingGameListUpdates peer [] }

/-- A client leaves its lobby while a request has pointers of its own. -/
theorem held_leaveLobby (others : LobbyId → Nat)
    (hheld : s.app.Held fun id => s.holders id + others id) (peer : PeerRef) :
    (s.leaveLobby peer).app.Held fun id => (s.leaveLobby peer).holders id + others id := by
  unfold leaveLobby
  cases hjoined : s.joinedLobbies.lookup peer with
  | none => exact hheld
  | some lobby =>
    have hcount : ∀ id, s.holders id =
        (s.joinedLobbies.erase peer).entries.countP (fun entry => entry.2 == id) +
          if lobby = id then 1 else 0 := by
      intro id
      rw [holders, AList.countP_eq_erase hjoined]
      simp
    have hself := hcount lobby
    rw [if_pos rfl] at hself
    refine (hheld.releaseLobby lobby (by omega)).congr fun id => ?_
    by_cases hid : id = lobby
    · subst hid
      rw [Function.update_self]
      simp only [holders] at hself ⊢
      omega
    · rw [Function.update_of_ne hid, hcount, if_neg (Ne.symm hid)]
      rfl

theorem Sound.leaveLobby (hs : s.Sound) (peer : PeerRef) : (s.leaveLobby peer).Sound :=
  held_leaveLobby (fun _ => 0) hs peer

theorem lookup_leaveLobby (peer : PeerRef) (s : MasterServer) :
    (s.leaveLobby peer).joinedLobbies.lookup peer = none := by
  unfold leaveLobby
  cases hjoined : s.joinedLobbies.lookup peer with
  | none => exact hjoined
  | some lobby => exact AList.lookup_erase _ _

theorem Sound.joinLobby (hs : s.Sound) (peer : PeerRef) (requested : LobbyId) :
    (s.joinLobby peer requested).Sound := by
  unfold MasterServer.joinLobby
  generalize (s.handler peer).requestedLobby requested = lobby
  have hasked : ({ s with app := s.app.getLobby lobby } : MasterServer).app.Held fun id =>
      s.holders id + if id = lobby then 1 else 0 := by
    refine (App.Held.getLobby hs lobby).congr fun id => ?_
    by_cases hid : id = lobby
    · rw [hid, Function.update_self, if_pos rfl]
    · rw [Function.update_of_ne hid, if_neg hid, Nat.add_zero]
  have hleft := held_leaveLobby (s := { s with app := s.app.getLobby lobby }) _ hasked peer
  have hout := lookup_leaveLobby peer { s with app := s.app.getLobby lobby }
  refine hleft.congr fun id => ?_
  simp only [holders]
  rw [AList.countP_insert, AList.erase_of_notMem (AList.lookup_eq_none.mp hout)]
  simp only [beq_iff_eq, @eq_comm _ lobby id]

theorem Sound.routeJoinGame (hs : s.Sound) (peer : PeerRef) (pp : PeerPersistent)
    (request : JoinGameRequest) : (s.routeJoinGame peer pp request).2.Sound := by
  have hafter := App.Held.routeJoinGame hs s.heap pp.userId request
  unfold MasterServer.routeJoinGame
  simp only
  split
  · exact hafter
  · split <;> exact hafter
  · split <;> exact hafter

theorem Sound.joinGame (hs : s.Sound) (peer : PeerRef) (call : JoinGameCall) :
    (s.joinGame peer call).2.Sound := by
  unfold MasterServer.joinGame
  split
  · exact hs
  · split
    · exact hs
    · split
      · exact hs
      · exact hs.routeJoinGame peer _ _

theorem Sound.step (hs : s.Sound) (op : MasterOp) : (s.step op).Sound := by
  cases op with
  | connection peer slot => exact hs
  | joinLobby peer lobby => exact hs.joinLobby peer lobby
  | leaveLobby peer => exact hs.leaveLobby peer
  | joinGame peer call => exact hs.joinGame peer call
  | createGame lobby id address orGet =>
    have hget := App.Held.getLobby hs lobby
    show (((s.app.getLobby lobby).createGame lobby id address orGet).2.1.releaseLobby lobby).Held
      s.holders
    apply App.Held.release
    rcases App.createGame_cases lobby id address orGet (s.app.getLobby lobby) with heq | ⟨-, heq⟩
    · rw [heq]
      exact hget
    · rw [heq]
      exact hget.addGame (App.mem_getLobby lobby s.app) id address
  | room ref g =>
    simp only [MasterServer.step]
    split
    · next hinfo =>
      obtain ⟨old, hold, hsame⟩ := Option.map_eq_some_iff.mp hinfo
      exact App.Held.setGame hs hold (by simp only [Game.lobbyId, hsame])
    · exact hs
  | dropGame ref =>
    simp only [MasterServer.step]
    split
    · exact hs
    · exact App.Held.dropGame hs ref
  | handleSlowUpdate peer => exact hs

/-- In every state that is reached from one without rooms and clients, the lobbies are those to
which a room or a client has a pointer. -/
theorem sound_run (hempty : s.app.IsEmpty) (hnone : s.joinedLobbies = ∅) (ops : List MasterOp) :
    (Transition.run MasterServer.step s ops).Sound := by
  have hkeeps : Transition.Keeps MasterServer.step (fun _ _ => True) Sound :=
    fun s op hs _ => Sound.step hs op
  refine hkeeps.run ?_ (Transition.eachStep_of_forall fun _ _ _ => trivial)
  refine (App.Held.of_isEmpty hempty).congr fun id => ?_
  rw [holders, hnone]
  rfl

/-- In every state, a request `JoinGame` that is answered with an error changes neither the rooms
nor the lobbies, nor the store of tokens, nor what the clients are to be told, exactly if it does
not make a room for someone who wants to come back, in a lobby that is there already. -/
theorem joinGame_unchanged_iff (hs : s.Sound) (peer : PeerRef) (call : JoinGameCall) :
    ((s.joinGame peer call).1.isError = true → s.Unchanged (s.joinGame peer call).2) ↔
      ¬s.MakesRoomToRejoin peer call := by
  unfold joinGame MakesRoomToRejoin
  cases hpp : (s.heap.get peer).bind Peer.persistent with
  | none => simp [Unchanged.refl]
  | some pp =>
    cases hparams : call.params with
    | error e => simp [Unchanged.refl]
    | ok params =>
      cases hlobby : call.lobbyId with
      | error e => simp [Unchanged.refl]
      | ok lobbyId =>
        simp only
        rw [routeJoinGame_unchanged_iff hs]
        simp

/-- Alice has joined a lobby without rooms, and Bob has joined none. -/
def watched : MasterServer where
  heap peer :=
    if peer = 2 then
      .live { persistent := some { userId := "bob", token := "b", app := some ("app", "1.0") } }
    else .unused
  app := ({ id := "app", version := "1.0" } : App).getLobby ("lobby", 0)
  joinedLobbies := AList.singleton 1 ("lobby", 0)

/-- Bob's request for a room that is not there. -/
def missing (createIfNotExists : UInt8) : JoinGameCall where
  operationCode := 226
  params := .ok { gameId := "room", createIfNotExists }
  lobbyId := .ok ("lobby", 0)

theorem sound_watched : watched.Sound := by
  have hempty : App.IsEmpty { id := "app", version := "1.0" } := ⟨rfl, rfl, rfl⟩
  have hheld := (App.Held.of_isEmpty hempty).getLobby ("lobby", 0)
  have hholders : watched.holders = Function.update (fun _ => 0) ("lobby", 0) (0 + 1) := by
    funext lobby
    by_cases heq : lobby = ("lobby", 0)
    · subst heq
      decide
    · rw [Function.update_of_ne heq]
      exact List.countP_eq_zero.mpr fun entry hentry => by
        rw [List.mem_singleton.mp hentry]
        simpa using Ne.symm heq
  rw [Sound, hholders]
  exact hheld

/-- Bob does not want the room to be made, and nothing changes. -/
theorem joinGame_unchanged_missing : watched.Unchanged (watched.joinGame 2 (missing 0)).2 := by
  refine (joinGame_unchanged_iff sound_watched 2 (missing 0)).mpr ?_ (by decide)
  rintro ⟨_, _, _, -, hparams, -, ⟨hmode, -⟩, -⟩
  cases hparams
  cases hmode

/-- Bob wants to come back to the room only, and Alice is told of a room that was never there. -/
theorem not_joinGame_unchanged_rejoin :
    (watched.joinGame 2 (missing 3)).1 =
        .error (.route (.matchmaking .gameIdNotExists)) "Rejoiner does not exist" ∧
      watched.app.gamesIn ("lobby", 0) = [] ∧
      (watched.joinGame 2 (missing 3)).2.app.gamesIn ("lobby", 0) = [0] ∧
      watched.pendingGameListUpdates 1 = [] ∧
      (watched.joinGame 2 (missing 3)).2.pendingGameListUpdates 1 =
        [.update 0, .delete "room"] := by
  decide

end MasterServer

end LuxonServer
