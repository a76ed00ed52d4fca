import LuxonServer.Http.Path
import LuxonServer.Metrics

/-! `route_request`: which endpoint answers a path, and from which room.  What the endpoints write
into their answers is left out. -/

namespace LuxonServer

/-- A room, as the HTTP server finds it: whether the pointer to it can still be locked, and the
numbers of the actors whose connections can. -/
structure ApiGame where
  id : Bytes
  alive : Bool := true
  actors : List Int := []
  deriving DecidableEq, Repr

structure ApiLobby where
  name : Bytes
  type : UInt8 := 0
  alive : Bool := true
  deriving DecidableEq, Repr

/-- An app; `games_` has one entry for an id. -/
structure ApiApp where
  id : Bytes
  version : Bytes
  alive : Bool := true
  games : List ApiGame := []
  lobbies : List ApiLobby := []
  distinct : (games.map (·.id)).Nodup := by decide
  deriving DecidableEq, Repr

/-- The apps of the server manager, in the order of their map. -/
structure ApiWorld where
  apps : List ApiApp := []
  deriving DecidableEq, Repr

namespace Http

/-- What answers a request. -/
inductive Endpoint where
  | stats (busy : Bool) (query : MetricQuery) (durationMs : Nat)
  | connections
  | apps
  | app (app : ApiApp)
  | appConnections (app : ApiApp)
  | game (app : ApiApp) (game : ApiGame)
  | actors (app : ApiApp) (game : ApiGame)
  | actor (app : ApiApp) (game : ApiGame) (actorId : Int)
  | lobbies (app : ApiApp)
  | lobbyGames (app : ApiApp) (lobby : ApiLobby)
  deriving DecidableEq, Repr

/-- The room that an answer is about. -/
def Endpoint.room? : Endpoint → Option (ApiApp × ApiGame)
  | .game a g | .actors a g | .actor a g _ => some (a, g)
  | _ => none

section Numbers

/-- The digits that `std::from_chars` reads, and the number that they are. -/
def leadingNumber (s : Bytes) : Option Nat :=
  let digits := s.takeWhile fun c => 0x30 ≤ c && c ≤ 0x39
  if digits = [] then none else some (digits.foldl (fun n c => 10 * n + (c.toNat - 0x30)) 0)

/-- `std::from_chars` for an `unsigned`. -/
def fromCharsUnsigned (s : Bytes) : Option Nat := (leadingNumber s).filter (· < 2 ^ 32)

/-- `std::from_chars` for an `int` that is 0 before, and stays 0 if there is an error. -/
def fromCharsInt (s : Bytes) : Int :=
  match s with
  | 0x2D :: s => (((leadingNumber s).filter (· ≤ 2 ^ 31)).map fun n => -(n : Int)).getD 0
  | s => (((leadingNumber s).filter (· < 2 ^ 31)).map fun n => (n : Int)).getD 0

end Numbers

/-- `/stats/{metric}/{type}/{duration_ms}`. -/
def routeStats : List Bytes → Except String Endpoint
  | [metric, type, duration] =>
    match fromCharsUnsigned duration with
    | none => .error "Invalid duration parameter"
    | some durationMs =>
      if metric ≠ ascii "busy_time" ∧ metric ≠ ascii "idle_time" then
        .error "Unknown metric. Expected: busy_time, wait_time"
      else
        let busy := metric == ascii "busy_time"
        if type = ascii "min" then .ok (.stats busy .min durationMs)
        else if type = ascii "avg" then .ok (.stats busy .avg durationMs)
        else if type = ascii "max" then .ok (.stats busy .max durationMs)
        else .error "Unknown metric type. Available: min, avg, max"
  | _ => .error "Invalid stats request format. Expected: /stats/{metric}/{type}/{duration_ms}"

/-- `find_app_by_id`, among the apps that `App::get_all` returns. -/
def findAppById (appId : Bytes) (w : ApiWorld) : Option ApiApp :=
  (w.apps.filter (·.alive)).find? (·.id == appId)

/-- `find_lobby`; the last character is the type, and an empty name, which has none, finds
nothing. -/
def findLobby (name : Bytes) (app : ApiApp) : Option ApiLobby :=
  name.getLast?.bind fun last =>
    (app.lobbies.find? fun lobby =>
      lobby.name == name.dropLast && lobby.type == last - 0x30).filter (·.alive)

/-- `/apps/{app}/games/{game_id}/...`. -/
def routeGame (app : ApiApp) (gameId : Bytes) (rest : List Bytes) : Except String Endpoint :=
  match app.games.find? (·.id == gameId) with
  | none => .error "Game ID not found"
  | some game =>
    if !game.alive then .error "Game expired"
    else match rest with
      | [] => .ok (.game app game)
      | [kind] =>
        if kind = ascii "actors" then .ok (.actors app game) else .error "Endpoint not found"
      | [kind, actor] =>
        if kind = ascii "actors" then
          if game.actors.contains (fromCharsInt actor) then
            .ok (.actor app game (fromCharsInt actor))
          else .error "Actor ID not found"
        else .error "Endpoint not found"
      | _ => .error "Endpoint not found"

/-- `/apps/{app}/lobbies/{name}/...`. -/
def routeLobby (app : ApiApp) (name : Bytes) (rest : List Bytes) : Except String Endpoint :=
  match findLobby name app with
  | none => .error "Lobby name invalid"
  | some lobby =>
    if rest = [ascii "games"] then .ok (.lobbyGames app lobby) else .error "Endpoint not found"

/-- `/apps/{app}` and what is below it. -/
def routeApp (app : ApiApp) : List Bytes → Except String Endpoint
  | [] => .ok (.app app)
  | [kind] =>
    if kind = ascii "connections" then .ok (.appConnections app)
    else if kind = ascii "lobbies" then .ok (.lobbies app)
    else .error "Endpoint not found"
  | kind :: id :: rest =>
    if kind = ascii "games" then routeGame app id rest
    else if kind = ascii "lobbies" then routeLobby app id rest
    else .error "Endpoint not found"

def routeSegments (w : ApiWorld) : List Bytes → Except String Endpoint
  | [] => .error "Endpoint not found"
  | root :: rest =>
    if root = ascii "stats" then routeStats rest
    else if root = ascii "connections" ∧ rest = [] then .ok .connections
    else if root = ascii "apps" then
      match rest with
      | [] => .ok .apps
      | appId :: rest =>
        match findAppById appId w with
        | none => .error "App not found"
        | some app => routeApp app rest
    else .error "Endpoint not found"

/-- `route_request`. -/
def routeRequest (split : Bytes → List Bytes) (w : ApiWorld) (path : Bytes) :
    Except String Endpoint :=
  match segmentsOf split path with
  | none => .error "Path empty"
  | some segs => routeSegments w segs

/-- The segments that a room is addressed by. -/
def roomSegments (app : ApiApp) (game : ApiGame) : List Bytes :=
  [ascii "apps", app.id, ascii "games", game.id]

/-- The path of a room, and those below it, are routed by the segments that they are made of: the
room answers at its path, and no other room answers below it. -/
structure Addresses (split : Bytes → List Bytes) (w : ApiWorld) (app : ApiApp) (game : ApiGame)
    (more : List Bytes) : Prop where
  segments : segmentsOf split (apiPath (roomSegments app game ++ more)) =
    some (roomSegments app game ++ more)
  reachable : routeRequest split w (apiPath (roomSegments app game)) = .ok (.game app game)
  alone : ∀ endpoint, routeRequest split w (apiPath (roomSegments app game ++ more)) =
    .ok endpoint → ∀ room, endpoint.room? = some room → room = (app, game)

variable {split : Bytes → List Bytes} {w : ApiWorld} {app : ApiApp} {game : ApiGame}
  {more : List Bytes}

theorem redirectLegacy_roomSegments (app : ApiApp) (game : ApiGame) (more : List Bytes) :
    redirectLegacy (roomSegments app game ++ more) = roomSegments app game ++ more := by
  refine if_neg fun h => ?_
  have hkind : ascii "games" = ascii "lobbies" := Option.some.inj h.2.2.1
  exact absurd hkind (by decide)

theorem mem_roomSegments (hids : ∀ s ∈ app.id :: game.id :: more, slash ∉ s) :
    ∀ s ∈ roomSegments app game ++ more, slash ∉ s := by
  intro s hs
  simp only [roomSegments, List.cons_append, List.nil_append, List.mem_cons] at hs
  rcases hs with rfl | rfl | rfl | rfl | hs
  · decide
  · exact hids _ List.mem_cons_self
  · decide
  · exact hids _ (List.mem_cons_of_mem _ List.mem_cons_self)
  · exact hids _ (List.mem_cons_of_mem _ (List.mem_cons_of_mem _ hs))

/-- A path below a room's is routed by its segments exactly if none of them has a `/`. -/
theorem segmentsOf_roomSegments_iff (hsplit : Splits split) :
    segmentsOf split (apiPath (roomSegments app game ++ more)) =
        some (roomSegments app game ++ more) ↔
      ∀ s ∈ app.id :: game.id :: more, slash ∉ s := by
  constructor
  · intro hsegments s hs
    have hpath : urlDecode (apiPath (roomSegments app game ++ more)) ≠ [] := by
      rw [urlDecode_apiPath]
      exact List.cons_ne_nil _ _
    refine not_mem_segmentsOf hsplit hpath hsegments s ?_
    simp only [roomSegments, List.cons_append, List.nil_append]
    rcases List.mem_cons.mp hs with rfl | hs
    · simp
    · rcases List.mem_cons.mp hs with rfl | hs
      · simp
      · simp [hs]
  · intro hids
    have hne : roomSegments app game ++ more ≠ [] := List.cons_ne_nil _ _
    rw [segmentsOf_apiPath hsplit hne (mem_roomSegments hids), redirectLegacy_roomSegments]

/-- The page's own paths still name the lobby of a room: they are routed as the new ones. -/
theorem segmentsOf_legacyPath (hsplit : Splits split) {lobby : Bytes}
    (hids : ∀ s ∈ app.id :: game.id :: more, slash ∉ s) (hlobby : slash ∉ lobby) :
    segmentsOf split (apiPath ([ascii "apps", app.id, ascii "lobbies", lobby, ascii "games",
      game.id] ++ more)) = some (roomSegments app game ++ more) := by
  have hclean : ∀ s ∈ [ascii "apps", app.id, ascii "lobbies", lobby, ascii "games", game.id] ++
      more, slash ∉ s := by
    have hroom := mem_roomSegments hids
    simp only [roomSegments, List.cons_append, List.nil_append, List.forall_mem_cons] at hroom ⊢
    exact ⟨hroom.1, hroom.2.1, by decide, hlobby, hroom.2.2⟩
  rw [segmentsOf_apiPath hsplit (by simp) hclean]
  exact congrArg some (if_pos ⟨by simp, rfl, rfl, rfl⟩)

theorem find_of_distinct {games : List ApiGame} (hdistinct : (games.map (·.id)).Nodup)
    (hgame : game ∈ games) : games.find? (·.id == game.id) = some game := by
  induction games with
  | nil => cases hgame
  | cons first games ih =>
    rw [List.map_cons, List.nodup_cons] at hdistinct
    rcases List.mem_cons.mp hgame with rfl | hgame
    · exact List.find?_cons_of_pos (by simp)
    · have hne : first.id ≠ game.id := fun heq =>
        hdistinct.1 (heq ▸ List.mem_map_of_mem hgame)
      rw [List.find?_cons_of_neg (by simpa using hne)]
      exact ih hdistinct.2 hgame

theorem routeSegments_roomSegments (w : ApiWorld) (app : ApiApp) (game : ApiGame)
    (more : List Bytes) : routeSegments w (roomSegments app game ++ more) =
      match findAppById app.id w with
      | none => .error "App not found"
      | some found => routeGame found game.id more := by
  have hstats : ascii "apps" ≠ ascii "stats" := by decide
  cases hfound : findAppById app.id w <;>
    simp [roomSegments, routeSegments, routeApp, hstats, hfound]

/-- Below `/apps/{app}/games/{game_id}` there are endpoints of that room only. -/
theorem room_of_routeGame {found : ApiApp} {id : Bytes} {endpoint : Endpoint}
    (hroute : routeGame found id more = .ok endpoint) :
    ∃ game, found.games.find? (·.id == id) = some game ∧ endpoint.room? = some (found, game) := by
  unfold routeGame at hroute
  split at hroute
  · cases hroute
  · next game hgame =>
    refine ⟨game, hgame, ?_⟩
    split at hroute
    · cases hroute
    · split at hroute
      · cases hroute
        rfl
      · split at hroute <;> cases hroute
        rfl
      · split at hroute
        · split at hroute <;> cases hroute
          rfl
        · cases hroute
      · cases hroute

/-- A room is addressed by its ids and by what follows exactly if none of these has a `/` and its
app is the first with its id. -/
theorem addresses_iff (hsplit : Splits split) (hgame : game ∈ app.games)
    (halive : game.alive = true) : Addresses split w app game more ↔
      (∀ s ∈ app.id :: game.id :: more, slash ∉ s) ∧ findAppById app.id w = some app := by
  have hroute : ∀ more, (∀ s ∈ app.id :: game.id :: more, slash ∉ s) →
      routeRequest split w (apiPath (roomSegments app game ++ more)) =
        match findAppById app.id w with
        | none => .error "App not found"
        | some found => routeGame found game.id more := by
    intro more hids
    rw [routeRequest, (segmentsOf_roomSegments_iff hsplit).mpr hids]
    exact routeSegments_roomSegments w app game more
  constructor
  · intro haddresses
    have hids := (segmentsOf_roomSegments_iff hsplit).mp haddresses.segments
    have hself := hroute [] fun s hs => hids s (by simp at hs ⊢; tauto)
    rw [List.append_nil, haddresses.reachable] at hself
    refine ⟨hids, ?_⟩
    cases hfound : findAppById app.id w with
    | none =>
      rw [hfound] at hself
      cases hself
    | some found =>
      rw [hfound] at hself
      obtain ⟨_, _, hroom⟩ := room_of_routeGame hself.symm
      have hpair : (app, game) = _ := Option.some.inj hroom
      exact congrArg some (Prod.mk.inj hpair).1.symm
  · rintro ⟨hids, hfirst⟩
    have hself := hroute [] fun s hs => hids s (by simp at hs ⊢; tauto)
    have hbelow := hroute more hids
    have hfind := find_of_distinct app.distinct hgame
    rw [hfirst] at hbelow hself
    rw [List.append_nil] at hself
    refine ⟨(segmentsOf_roomSegments_iff hsplit).mpr hids, ?_, ?_⟩
    · rw [hself]
      simp [routeGame, hfind, halive]
    · intro endpoint hendpoint room hroom
      rw [hbelow] at hendpoint
      obtain ⟨found, hfound, hendpoint⟩ := room_of_routeGame hendpoint
      rw [hfind] at hfound
      rw [hendpoint] at hroom
      cases hfound
      exact (Option.some.inj hroom).symm

/-- A room of an app that has two. -/
def arena : ApiGame := { id := ascii "arena", actors := [1] }

/-- A room whose id a client has chosen with a `/`. -/
def arenaActors : ApiGame := { id := ascii "arena/actors" }

/-- The app with the two rooms. -/
def rpg : ApiApp :=
  { id := ascii "rpg", version := ascii "1.0", games := [arena, arenaActors] }

/-- The first of the rooms, and one of its actors. -/
theorem addresses_iff_arena :
    Addresses (·.splitOn slash) { apps := [rpg] } rpg arena [ascii "actors", ascii "1"] :=
  (addresses_iff (fun _ _ => rfl) (by decide) (by decide)).mpr ⟨by decide, by decide⟩

/-- The path of the second one leads to the actors of the first. -/
theorem not_addresses_slash :
    routeRequest (·.splitOn slash) { apps := [rpg] } (apiPath (roomSegments rpg arenaActors)) =
        .ok (.actors rpg arena) ∧
      ¬Addresses (·.splitOn slash) { apps := [rpg] } rpg arenaActors [] :=
  ⟨by rfl, fun haddresses => absurd haddresses.segments (by decide)⟩

end Http

end LuxonServer
