import LuxonServer.Registry
import LuxonServer.Game.Joining

/-! The routing requests of the MasterServer: which room a client is sent to, and whom it holds
seats for there. -/

namespace LuxonServer

/-- The return codes of the routing requests that come from neither `create_game` nor
`validate_join`. -/
inductive RouteCode where
  | matchmaking (code : ErrorCode)
  | internalServerError
  | noRandomMatchFound
  deriving DecidableEq, Repr

/-- How a routing request ends. -/
inductive RouteAnswer where
  | refused (code : RouteCode) (message : String)
  /-- The request is kept, and made again when the creation of the room is over. -/
  | pending
  | routed (game : GameRef) (isNew : Bool)
  deriving DecidableEq, Repr

/-- How a routing request ends, what it makes of the app, and what the room that it makes has called
and sent. -/
structure RouteResult where
  answer : RouteAnswer
  app : App
  effects : List Effect := []

/-- `MatchmakingType`. -/
inductive MatchmakingType where
  | serialMatching
  | fillRoom
  | randomMatching
  deriving DecidableEq, Repr

/-- The request `CreateGame`.  `generatedId` and `address` are what `generate_game_id` and
`get_random_gameserver_base_addr` come up with. -/
structure CreateGameRequest where
  lobby : LobbyId
  gameId : String := ""
  expectedUsers : List String := []
  generatedId : String := ""
  address : String := ""

/-- The request `JoinGame`, with `CreateIfNotExists` as its mode. -/
structure JoinGameRequest extends CreateGameRequest where
  joinMode : UInt8 := 0

/-- The request `JoinRandomGame`.  In an SQL lobby `queried` are the ids that its query has
found; `choice` stands for the order of equals in the sort, and for the random number. -/
structure JoinRandomGameRequest where
  lobby : LobbyId
  gameId : String := ""
  createIfNotExists : UInt8 := 0
  matchmakingType : MatchmakingType := .serialMatching
  gameProperties : Hashtable := ∅
  queried : Option (List String) := none
  choice : Nat := 0
  generatedId : String := ""
  address : String := ""

/-- The requests that route a client to a room. -/
inductive RouteRequest where
  | createGame (request : CreateGameRequest)
  | joinGame (request : JoinGameRequest)
  | joinRandomGame (request : JoinRandomGameRequest)

namespace Game

/-- `reserve_expected_user_with_generation`, with the TTL that is its default. -/
def reserveSeat (userId : String) (g : Game) : Game :=
  (g.reserveExpectedUserWithGeneration userId 30000).2

/-- The loop of `CreateGame` and `JoinGame` over the expected users. -/
def reserveExpectedUsers (userId : String) (expectedUsers : List String) (g : Game) : Game :=
  expectedUsers.foldl
    (fun g expectedUser =>
      if expectedUser = "" ∨ expectedUser = userId then g else g.reserveSeat expectedUser) g

end Game

namespace App

/-- A change of the `Game` object of a room. -/
def modifyGame (ref : GameRef) (change : Game → Game) (app : App) : App :=
  match app.live.lookup ref with
  | none => app
  | some g => { app with live := app.live.insert ref (change g) }

/-- A request with the lobby that it asks for, to which it has a pointer meanwhile. -/
def withLobby (lobby : LobbyId) (request : App → RouteResult) (app : App) : RouteResult :=
  let result := request (app.getLobby lobby)
  { result with app := result.app.releaseLobby lobby }

/-- The part of a request that creates a room, and goes on with it if that has worked. -/
def createFor (lobby : LobbyId) (gameId address : String)
    (found : GameRef → App → RouteResult) (app : App) : RouteResult :=
  match app.createGame lobby gameId address false with
  | (.error (code, message), app, effects) =>
    { answer := .refused (.matchmaking code) message, app, effects }
  | (.ok none, app, effects) =>
    { answer := .refused .internalServerError "Game has expired", app, effects }
  | (.ok (some ref), app, made) =>
    let result := found ref app
    { result with effects := made ++ result.effects }

/-- The request `CreateGame`. -/
def routeCreateGame (userId : String) (request : CreateGameRequest) : App → RouteResult :=
  withLobby request.lobby fun app =>
    let gameId := if request.gameId = "" then request.generatedId else request.gameId
    if gameId ∈ app.games then
      { answer := .refused (.matchmaking .gameIdAlreadyExists) "Game ID already exists", app }
    else
      app.createFor request.lobby gameId request.address fun ref app =>
        { answer := .routed ref true
          app := app.modifyGame ref (Game.reserveExpectedUsers userId request.expectedUsers) }

/-- The part of `JoinGame` after the room has been found or created. -/
def joinFoundGame (h : PeerHeap) (userId : String) (request : JoinGameRequest) (isNew : Bool)
    (ref : GameRef) (app : App) : RouteResult :=
  match app.live.lookup ref with
  | none => { answer := .refused .internalServerError "Game has expired", app }
  | some g =>
    let createIfNotExists := request.joinMode == 1
    let rejoinOnly := request.joinMode == 3
    let (code, message) := g.validateJoinWith h app.settings userId request.expectedUsers false
    if rejoinOnly ∧ (¬g.isCreated ∨ ¬g.hasExpectedUser userId) then
      -- A room that was created for the request goes with its last pointer.
      let (app, effects) := if isNew then app.dropGame ref else (app, [])
      { answer := .refused (.matchmaking .gameIdNotExists) "Rejoiner does not exist", app, effects }
    else if ¬isNew ∧ ¬g.isCreated ∧ ¬createIfNotExists then
      if ¬g.isCreating then
        { answer := .refused (.matchmaking .gameIdNotExists) "Game creation is not active", app }
      else { answer := .pending, app }
    else if ¬isNew ∧ g.isCreated ∧ code ≠ .ok then
      { answer := .refused (.matchmaking code) message, app }
    else
      { answer := .routed ref isNew
        app := app.modifyGame ref fun g =>
          (g.reserveSeat userId).reserveExpectedUsers userId request.expectedUsers }

/-- The request `JoinGame`. -/
def routeJoinGame (h : PeerHeap) (userId : String) (request : JoinGameRequest) :
    App → RouteResult :=
  withLobby request.lobby fun app =>
    match app.games.lookup request.gameId with
    | none =>
      if request.joinMode = 0 then
        { answer := .refused (.matchmaking .gameIdNotExists) "Game does not exist", app }
      else
        let newGameId := if request.gameId = "" then request.generatedId else request.gameId
        app.createFor request.lobby newGameId request.address (joinFoundGame h userId request true)
    | some weak => app.joinFoundGame h userId request false weak

/-- Whether `JoinRandomGame` may select the room. -/
def isSelectable (h : PeerHeap) (settings : AppSettings) (userId : String) (g : Game) : Bool :=
  g.isJoinable && (g.validateJoin h settings userId 0 false).1 == .ok

/-- The rooms that `JoinRandomGame` chooses from: in an SQL lobby the first that the query has, in
another the best ones of the kind of matching that is asked for. -/
def selection (h : PeerHeap) (userId : String) (request : JoinRandomGameRequest) (app : App) :
    List GameRef :=
  let live (p : Game → Bool) (ref : GameRef) : Bool := (app.live.lookup ref).any p
  let peerCount (ref : GameRef) : Nat := ((app.live.lookup ref).map Game.activePeerCount).getD 0
  match request.queried with
  | some gameIds =>
    ((gameIds.filterMap app.games.lookup).filter
      (live (isSelectable h app.settings userId))).take 1
  | none =>
    let candidates := (((app.lobbies.lookup request.lobby).map Lobby.games).getD []).filter
      (live fun g =>
        isSelectable h app.settings userId g && g.expectGameProps request.gameProperties)
    candidates.filter fun ref =>
      match request.matchmakingType with
      | .serialMatching => candidates.all fun other => peerCount ref ≤ peerCount other
      | .fillRoom => candidates.all fun other => peerCount other ≤ peerCount ref
      | .randomMatching => true

/-- The request `JoinRandomGame`. -/
def routeJoinRandomGame (h : PeerHeap) (userId : String) (request : JoinRandomGameRequest) :
    App → RouteResult :=
  withLobby request.lobby fun app =>
    let pool := app.selection h userId request
    match pool[request.choice % pool.length]? with
    | some ref =>
      { answer := .routed ref false, app := app.modifyGame ref (Game.reserveSeat userId) }
    | none =>
      if request.createIfNotExists = 0 then
        { answer := .refused .noRandomMatchFound "No matching game found", app }
      else
        let gameId := if request.gameId = "" then request.generatedId else request.gameId
        app.createFor request.lobby gameId request.address fun ref app =>
          { answer := .routed ref true, app := app.modifyGame ref (Game.reserveSeat userId) }

def route (h : PeerHeap) (userId : String) : RouteRequest → App → RouteResult
  | .createGame request => routeCreateGame userId request
  | .joinGame request => routeJoinGame h userId request
  | .joinRandomGame request => routeJoinRandomGame h userId request

end App

end LuxonServer
