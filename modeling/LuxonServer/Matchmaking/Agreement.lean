import LuxonServer.Matchmaking.Requests
import LuxonServer.Matchmaking.Seats

/-! Who may create a room: the MasterServer sends a client to a placeholder of its own, and the
GameServer decides whether that client may begin to create it. -/

namespace LuxonServer

open Game

namespace App

/-- `create_game` has a place for a room with this id. -/
def MayAdd (gameId : String) (app : App) : Prop :=
  gameId ≠ "" ∧ app.games.lookup gameId = none ∧
    ¬(app.settings.maxGameCount ≠ 0 ∧ app.getGameCount ≥ app.settings.maxGameCount)

instance (gameId : String) (app : App) : Decidable (app.MayAdd gameId) :=
  inferInstanceAs (Decidable (_ ∧ _ ∧ _))

variable {app : App} {gameId : String}

theorem createGame_of_mayAdd (hadd : app.MayAdd gameId) (lobby : LobbyId) (address : String) :
    app.createGame lobby gameId address false =
      (.ok (some app.nextRef), app.addGame lobby gameId address, [.gameUpdate]) := by
  simp [createGame, hadd.1, hadd.2.1, hadd.2.2]

theorem createGame_of_not_mayAdd (hadd : ¬app.MayAdd gameId) (lobby : LobbyId)
    (address : String) :
    ∃ e, app.createGame lobby gameId address false = (.error e, app, []) := by
  unfold createGame
  by_cases hempty : gameId = ""
  · exact ⟨_, if_pos hempty⟩
  rw [if_neg hempty]
  cases hlookup : app.games.lookup gameId with
  | some weak => exact ⟨_, rfl⟩
  | none =>
    by_cases hfull : app.settings.maxGameCount ≠ 0 ∧ app.getGameCount ≥ app.settings.maxGameCount
    · exact ⟨_, if_pos hfull⟩
    · exact absurd ⟨hempty, hlookup, hfull⟩ hadd

theorem createFor_of_mayAdd (hadd : app.MayAdd gameId) (lobby : LobbyId) (address : String)
    (found : GameRef → App → RouteResult) :
    app.createFor lobby gameId address found =
      { found app.nextRef (app.addGame lobby gameId address) with
        effects :=
          .gameUpdate :: (found app.nextRef (app.addGame lobby gameId address)).effects } := by
  rw [createFor, createGame_of_mayAdd hadd]
  rfl

theorem createFor_refused (hadd : ¬app.MayAdd gameId) (lobby : LobbyId) (address : String)
    (found : GameRef → App → RouteResult) :
    ∃ code message,
      app.createFor lobby gameId address found = { answer := .refused code message, app } := by
  obtain ⟨⟨code, message⟩, hcreate⟩ := createGame_of_not_mayAdd hadd lobby address
  exact ⟨.matchmaking code, message, by rw [createFor, hcreate]⟩

/-- The room that has just been added is a placeholder. -/
theorem lookup_addGame (lobby : LobbyId) (gameId address : String) (app : App) :
    (app.addGame lobby gameId address).live.lookup app.nextRef =
      some (app.newGame lobby gameId address) := by
  obtain ⟨_, hadd⟩ := addGame_frame lobby gameId address app
  rw [hadd, AList.lookup_insert]

theorem lookup_modifyGame (ref : GameRef) (change : Game → Game) (app : App) :
    (app.modifyGame ref change).live.lookup ref = (app.live.lookup ref).map change := by
  unfold modifyGame
  cases hg : app.live.lookup ref with
  | none => exact hg
  | some g => exact AList.lookup_insert _

theorem withLobby_fst (lobby : LobbyId) (request : App → RouteResult) (app : App) :
    (withLobby lobby request app).answer = (request (app.getLobby lobby)).answer := rfl

theorem withLobby_live (lobby : LobbyId) (request : App → RouteResult) (app : App) :
    (withLobby lobby request app).app.live = (request (app.getLobby lobby)).app.live := by
  obtain ⟨_, hrelease⟩ := releaseLobby_frame lobby (request (app.getLobby lobby)).app
  have hthis : (withLobby lobby request app).app =
      (request (app.getLobby lobby)).app.releaseLobby lobby := rfl
  rw [hthis, hrelease]

end App

namespace RouteRequest

/-- The lobby that the request is made in. -/
def lobby : RouteRequest → LobbyId
  | .createGame request => request.lobby
  | .joinGame request => request.lobby
  | .joinRandomGame request => request.lobby

/-- The id of the room that the request makes, if it makes one. -/
def newGameId : RouteRequest → String
  | .createGame request => if request.gameId = "" then request.generatedId else request.gameId
  | .joinGame request => if request.gameId = "" then request.generatedId else request.gameId
  | .joinRandomGame request => if request.gameId = "" then request.generatedId else request.gameId

/-- The request finds no room that it could go to, and is one that is given a new room then. -/
def Unmatched (h : PeerHeap) (userId : String) (app : App) : RouteRequest → Prop
  | .createGame _ => True
  | .joinGame request =>
    request.joinMode ≠ 0 ∧ request.joinMode ≠ 3 ∧ app.games.lookup request.gameId = none
  | .joinRandomGame request =>
    request.createIfNotExists ≠ 0 ∧ app.selection h userId request = []

/-- The request is given a room of its own. -/
def Places (h : PeerHeap) (userId : String) (app : App) (request : RouteRequest) : Prop :=
  let app := app.getLobby request.lobby
  request.Unmatched h userId app ∧ app.MayAdd request.newGameId

/-- Whether the GameServer lets the request create the room: it is a `CreateGame`, or
`CreateIfNotExists` is exactly `1`. -/
def mayCreate : RouteRequest → Bool
  | .createGame _ => true
  | .joinGame request => request.joinMode == 1
  | .joinRandomGame request => request.createIfNotExists == 1

/-- The request of the GameServer with which a client follows its route to the room, with the
parameters of the routing request. -/
def Follows (gameId : String) (call : EnterCall) : RouteRequest → Prop
  | .createGame request =>
    call.operation = .createGame ∧ call.gameId = gameId ∧
      call.expectedUsers = request.expectedUsers
  | .joinGame request =>
    call.operation = .joinGame ∧ call.gameId = gameId ∧
      call.createIfNotExists = request.joinMode ∧ call.expectedUsers = request.expectedUsers
  | .joinRandomGame request =>
    call.operation = .joinGame ∧ call.gameId = gameId ∧
      call.createIfNotExists = request.createIfNotExists

/-- A client that is sent to a room of its own may create it: as long as the room is neither
created nor being created and no one is in it, the GameServer gives the client the lease. -/
def Agrees (h : PeerHeap) (userId : String) (app : App) (request : RouteRequest) : Prop :=
  ∀ ref, (app.route h userId request).answer = .routed ref true →
    ∃ placed, (app.route h userId request).app.live.lookup ref = some placed ∧
      ∀ (g : Game), g.info = placed.info → g.isCreated = false → g.isCreating = false →
        g.peers = [] →
        ∀ (h' : PeerHeap) settings peer userId' waiting call,
          request.Follows placed.info.id call →
          ∃ entering, entering.generation.isSome ∧
            (g.answerEnter h' settings ref peer userId' waiting call).1 = .enters entering

variable {h : PeerHeap} {userId : String} {app : App} {request : RouteRequest}

theorem canCreate_of_follows {gameId : String} {call : EnterCall}
    (hcall : request.Follows gameId call) : call.canCreate = request.mayCreate := by
  cases request with
  | createGame request => simp [EnterCall.canCreate, mayCreate, hcall.1]
  | joinGame request =>
    obtain ⟨hop, -, hmode, -⟩ := hcall
    simp [EnterCall.canCreate, mayCreate, hop, hmode]
  | joinRandomGame request =>
    obtain ⟨hop, -, hmode⟩ := hcall
    simp [EnterCall.canCreate, mayCreate, hop, hmode]

theorem gameId_of_follows {gameId : String} {call : EnterCall}
    (hcall : request.Follows gameId call) : call.gameId = gameId := by
  cases request with
  | createGame request => exact hcall.2.1
  | joinGame request => exact hcall.2.1
  | joinRandomGame request => exact hcall.2.1

/-- Any route can be followed. -/
theorem exists_follows (gameId : String) (request : RouteRequest) :
    ∃ call, request.Follows gameId call := by
  cases request with
  | createGame request =>
    exact ⟨{ operation := .createGame, gameId, expectedUsers := request.expectedUsers },
      rfl, rfl, rfl⟩
  | joinGame request =>
    exact ⟨{ operation := .joinGame, gameId, createIfNotExists := request.joinMode,
             expectedUsers := request.expectedUsers }, rfl, rfl, rfl, rfl⟩
  | joinRandomGame request =>
    exact ⟨{ operation := .joinGame, gameId, createIfNotExists := request.createIfNotExists },
      rfl, rfl, rfl⟩

section Placing

open App

/-- A rejoin does not go on with a room that is new. -/
theorem joinFoundGame_rejoin {ref : GameRef} {g : Game} {request : JoinGameRequest}
    (hlive : app.live.lookup ref = some g) (hcreated : g.isCreated = false)
    (hmode : request.joinMode = 3) :
    (app.joinFoundGame h userId request true ref).answer =
      .refused (.matchmaking .gameIdNotExists) "Rejoiner does not exist" := by
  simp [joinFoundGame, hlive, hcreated, hmode]

theorem joinFoundGame_new {ref : GameRef} {g : Game} {request : JoinGameRequest}
    (hlive : app.live.lookup ref = some g) (hcreated : g.isCreated = false)
    (hmode : request.joinMode ≠ 3) :
    app.joinFoundGame h userId request true ref =
      { answer := .routed ref true
        app := app.modifyGame ref fun g =>
          (g.reserveSeat userId).reserveExpectedUsers userId request.expectedUsers } := by
  simp [joinFoundGame, hlive, hcreated, hmode]

/-- A request goes on with the room that it has made, and holds seats in it. -/
theorem createFor_placed {gameId : String} (hadd : app.MayAdd gameId) (lobby : LobbyId)
    (address : String) (found : GameRef → App → RouteResult) {change : Game → Game}
    (hchange : ∀ g, SeatsOnly g (change g))
    (hfound : ∀ app' : App,
      app'.live.lookup app.nextRef = some (app.newGame lobby gameId address) →
      found app.nextRef app' =
        { answer := .routed app.nextRef true, app := app'.modifyGame app.nextRef change }) :
    ∃ ref placed, (app.createFor lobby gameId address found).answer = .routed ref true ∧
      (app.createFor lobby gameId address found).app.live.lookup ref = some placed ∧
      SeatsOnly (app.newGame lobby gameId address) placed := by
  have hnew := lookup_addGame lobby gameId address app
  rw [createFor_of_mayAdd hadd, hfound _ hnew]
  refine ⟨app.nextRef, change (app.newGame lobby gameId address), rfl, ?_, hchange _⟩
  rw [lookup_modifyGame, hnew, Option.map_some]

/-- A request that is given a room of its own is sent to a placeholder. -/
theorem route_of_places (hplaces : request.Places h userId app) :
    ∃ ref placed, (app.route h userId request).answer = .routed ref true ∧
      (app.route h userId request).app.live.lookup ref = some placed ∧
      placed.isCreated = false ∧ placed.isCreating = false ∧ placed.peers = [] := by
  have hseats : ∀ {lobby gameId address} {app : App} {placed},
      SeatsOnly (app.newGame lobby gameId address) placed →
      placed.isCreated = false ∧ placed.isCreating = false ∧ placed.peers = [] := by
    intro lobby gameId address app placed hplaced
    obtain ⟨_, _, _, _, _, _, rfl⟩ := hplaced
    exact ⟨rfl, rfl, rfl⟩
  cases request with
  | createGame request =>
    obtain ⟨-, hadd⟩ := hplaces
    obtain ⟨ref, placed, hrouted, hlive, hplaced⟩ := createFor_placed hadd request.lobby
      request.address
      (fun ref app =>
        { answer := .routed ref true
          app := app.modifyGame ref (reserveExpectedUsers userId request.expectedUsers) })
      (seatsOnly_reserveExpectedUsers userId request.expectedUsers) fun _ _ => rfl
    have hfree : (if request.gameId = "" then request.generatedId else request.gameId) ∉
        (app.getLobby request.lobby).games := AList.lookup_eq_none.mp hadd.2.1
    refine ⟨ref, placed, ?_, ?_, hseats hplaced⟩
    · simp only [route, routeCreateGame, withLobby_fst, if_neg hfree]
      exact hrouted
    · simp only [route, routeCreateGame, withLobby_live, if_neg hfree]
      exact hlive
  | joinGame request =>
    obtain ⟨⟨hmode, hrejoin, hfree⟩, hadd⟩ := hplaces
    obtain ⟨ref, placed, hrouted, hlive, hplaced⟩ := createFor_placed hadd request.lobby
      request.address (joinFoundGame h userId request true)
      (fun g => (seatsOnly_reserveSeat userId g).trans
        (seatsOnly_reserveExpectedUsers userId request.expectedUsers _))
      fun app' hnew => joinFoundGame_new hnew rfl hrejoin
    simp only [RouteRequest.lobby] at hfree
    refine ⟨ref, placed, ?_, ?_, hseats hplaced⟩
    · simp only [route, routeJoinGame, withLobby_fst, hfree, if_neg hmode]
      exact hrouted
    · simp only [route, routeJoinGame, withLobby_live, hfree, if_neg hmode]
      exact hlive
  | joinRandomGame request =>
    obtain ⟨⟨hmode, hnone⟩, hadd⟩ := hplaces
    obtain ⟨ref, placed, hrouted, hlive, hplaced⟩ := createFor_placed hadd request.lobby
      request.address
      (fun ref app =>
        { answer := .routed ref true, app := app.modifyGame ref (reserveSeat userId) })
      (seatsOnly_reserveSeat userId) fun _ _ => rfl
    simp only [RouteRequest.lobby] at hnone
    refine ⟨ref, placed, ?_, ?_, hseats hplaced⟩
    · simp only [route, routeJoinRandomGame, withLobby_fst, hnone, List.length_nil,
        List.getElem?_nil, if_neg hmode]
      exact hrouted
    · simp only [route, routeJoinRandomGame, withLobby_live, hnone, List.length_nil,
        List.getElem?_nil, if_neg hmode]
      exact hlive

/-- No other request is sent to a new room. -/
theorem places_of_route {ref : GameRef}
    (hrouted : (app.route h userId request).answer = .routed ref true) : request.Places h userId app := by
  have hmayAdd : ∀ {app : App} {gameId lobby address found},
      (app.createFor lobby gameId address found).answer = .routed ref true → app.MayAdd gameId := by
    intro app gameId lobby address found hcreate
    by_contra hfull
    obtain ⟨code, message, heq⟩ := createFor_refused hfull lobby address found
    rw [heq] at hcreate
    cases hcreate
  cases request with
  | createGame request =>
    refine ⟨trivial, ?_⟩
    simp only [route, routeCreateGame, withLobby_fst] at hrouted
    simp only [newGameId]
    generalize (if request.gameId = "" then request.generatedId else request.gameId) = gameId
      at hrouted ⊢
    split at hrouted
    · cases hrouted
    · exact hmayAdd hrouted
  | joinGame request =>
    simp only [route, routeJoinGame, withLobby_fst] at hrouted
    split at hrouted
    · next hfree =>
      split at hrouted
      · cases hrouted
      next hmode =>
      have hadd := hmayAdd hrouted
      refine ⟨⟨hmode, fun hrejoin => ?_, hfree⟩, hadd⟩
      rw [createFor_of_mayAdd hadd, joinFoundGame_rejoin (lookup_addGame _ _ _ _) rfl hrejoin]
        at hrouted
      cases hrouted
    · unfold joinFoundGame at hrouted
      split at hrouted
      · cases hrouted
      · simp only at hrouted
        split at hrouted
        · cases hrouted
        split at hrouted
        · split at hrouted <;> cases hrouted
        split at hrouted <;> cases hrouted
  | joinRandomGame request =>
    simp only [route, routeJoinRandomGame, withLobby_fst] at hrouted
    split at hrouted
    · cases hrouted
    next hnone =>
    split at hrouted
    · cases hrouted
    next hmode =>
    refine ⟨⟨hmode, ?_⟩, hmayAdd hrouted⟩
    by_contra hpool
    have hlt := Nat.mod_lt request.choice (List.length_pos_iff.mpr hpool)
    have hle := List.getElem?_eq_none_iff.mp hnone
    simp only [RouteRequest.lobby] at hlt
    omega

end Placing

/-- The two servers agree on exactly the requests that are not given a room of their own, and on
those whose `CreateIfNotExists` is `1`. -/
theorem agrees_iff_joins (h : PeerHeap) (userId : String) (app : App) (request : RouteRequest) :
    request.Agrees h userId app ↔
      (request.Places h userId app → request.mayCreate = true) := by
  constructor
  · intro hagrees hplaces
    obtain ⟨ref, placed, hrouted, hlive, hcreated, hcreating, hpeers⟩ := route_of_places hplaces
    obtain ⟨placed', hlive', hlets⟩ := hagrees ref hrouted
    obtain rfl : placed = placed' := Option.some.inj (hlive.symm.trans hlive')
    obtain ⟨call, hcall⟩ := exists_follows placed.info.id request
    obtain ⟨entering, -, henters⟩ :=
      hlets placed rfl hcreated hcreating hpeers h {} 0 userId false call hcall
    rw [answerEnter_idle (gameId_of_follows hcall) hcreated hcreating hpeers] at henters
    rw [← canCreate_of_follows hcall]
    by_contra hcan
    rw [if_neg hcan] at henters
    cases henters
  · intro hmay ref hrouted
    have hplaces := places_of_route hrouted
    obtain ⟨ref', placed, hrouted', hlive, -⟩ := route_of_places hplaces
    obtain ⟨rfl, -⟩ : ref' = ref ∧ True := by simpa [hrouted'] using hrouted
    refine ⟨placed, hlive, fun g hinfo hcreated hcreating hpeers h' settings peer user waiting call
      hcall => ?_⟩
    have hid : call.gameId = g.info.id := by rw [gameId_of_follows hcall, hinfo]
    rw [answerEnter_idle hid hcreated hcreating hpeers,
      if_pos ((canCreate_of_follows hcall).trans (hmay hplaces))]
    exact ⟨_, rfl, rfl⟩

/-- A `JoinGame` with mode `2` for a room that does not exist is sent to a new one, and refused
there. -/
theorem not_agrees_rejoin :
    ¬Agrees (fun _ => .unused) "ada" { id := "app", version := "1.0" }
      (.joinGame { lobby := ("lobby", 0), gameId := "room", joinMode := 2 }) := by
  intro hagrees
  have hmay := (agrees_iff_joins _ _ _ _).mp hagrees
    ⟨⟨by decide, by decide, rfl⟩, by decide, rfl, by decide⟩
  cases hmay

end RouteRequest

end LuxonServer
