import LuxonServer.Convergence
import LuxonServer.Lib.BoundedQueue
import LuxonServer.Lobby.GameList

/-! The rooms of an app with one client of the MasterServer, and what the client hears of the rooms
of the lobby that it has joined. -/

namespace LuxonServer

/-- `MasterServerHandler`, as far as it hears of rooms. -/
structure MasterServerHandler where
  joinedLobby : Option LobbyId := none
  pendingGameListUpdates : List GameListUpdate := []
  deriving DecidableEq, Repr

namespace MasterServerHandler

/-- The handlers that `join_lobby` registers with a default lobby; only updates are capped. -/
def receive (h : MasterServerHandler) : GameListUpdate → MasterServerHandler
  | .update game =>
    if h.pendingGameListUpdates.length < 500 then
      { h with pendingGameListUpdates := h.pendingGameListUpdates ++ [.update game] }
    else h
  | .delete gameId =>
    { h with pendingGameListUpdates := h.pendingGameListUpdates ++ [.delete gameId] }

/-- Whether notifications of a lobby reach the client; with another type of lobby the registered
handler does nothing. -/
def hears (lobby : LobbyId) (h : MasterServerHandler) : Bool :=
  h.joinedLobby == some lobby && lobby.2 == defaultLobbyType

/-- `get_requested_lobby`: the empty name stands for the lobby that the client has joined. -/
def requestedLobby (lobby : LobbyId) (h : MasterServerHandler) : LobbyId :=
  if lobby.1 = "" then h.joinedLobby.getD lobby else lobby

end MasterServerHandler

/-- Whether the handler's cap is for it. -/
def GameListUpdate.isUpdate : GameListUpdate → Bool
  | .update _ => true
  | .delete _ => false

namespace MasterServerHandler

theorem receive_eq (h : MasterServerHandler) (notice : GameListUpdate) :
    h.receive notice =
      { h with
        pendingGameListUpdates :=
          BoundedQueue.push 500 GameListUpdate.isUpdate h.pendingGameListUpdates notice } := by
  cases notice with
  | update game =>
    simp only [receive, BoundedQueue.push, GameListUpdate.isUpdate, true_and]
    split
    · next hroom => rw [if_neg (Nat.not_le.mpr hroom)]
    · next hfull => rw [if_pos (Nat.not_lt.mp hfull)]
  | delete gameId => rfl

theorem foldl_receive (notices : List (LobbyId × GameListUpdate)) (h : MasterServerHandler) :
    notices.foldl (fun h notice => h.receive notice.2) h =
      { h with
        pendingGameListUpdates :=
          BoundedQueue.pushAll 500 GameListUpdate.isUpdate h.pendingGameListUpdates
            (notices.map Prod.snd) } := by
  induction notices generalizing h with
  | nil => rfl
  | cons notice notices ih =>
    rw [List.foldl_cons, ih, receive_eq]
    rfl

end MasterServerHandler

/-- The call of a lobby's handlers, for the room that makes it. -/
def Effect.notice (ref : GameRef) (gameId : String) : Effect → Option GameListUpdate
  | .gameUpdate => some (.update ref)
  | .gameDelete => some (.delete gameId)
  | .ipcBroadcast _ => none

/-- What an operation calls and sends; a message from another process is applied as a property
update. -/
def Room.allEffects (settings : AppSettings) (s : Room) : RoomOp → List Effect
  | .receiveUpdate isNew message => (s.game.receiveUpdate settings isNew message).2
  | op => s.effects settings op

/-- The process with its client.  `handedOut` are the constructed peers of each room, and `copy` is
the client's own list. -/
structure LobbyWorld where
  heap : PeerHeap
  app : App
  handedOut : GameRef → List GamePeer := fun _ => []
  handler : MasterServerHandler := {}
  copy : GameList := ∅

/-- What happens in the process. -/
inductive LobbyOp where
  /-- Something becomes of a connection. -/
  | connection (peer : PeerRef) (slot : PeerSlot)
  /-- A room is created in the lobby. -/
  | createGame (lobby : LobbyId) (id address : String) (orGet : Bool)
  /-- An operation on a room, and whether `trigger_lobby_update` follows. -/
  | room (ref : GameRef) (op : RoomOp) (trigger : Bool)
  /-- The last pointer to a room is dropped. -/
  | dropGame (ref : GameRef)
  /-- The client's request `JoinLobby`. -/
  | joinLobby (lobby : LobbyId)
  /-- The client's request `LeaveLobby`. -/
  | leaveLobby
  /-- `HandleSlowUpdate`, when the last batch is old enough. -/
  | handleSlowUpdate

namespace LobbyWorld

/-- A room with its connections and its constructed peers. -/
def roomAt (ref : GameRef) (g : Game) (w : LobbyWorld) : Room := ⟨w.heap, g, w.handedOut ref⟩

/-- What an operation on a room calls and sends. -/
def roomEffects (ref : GameRef) (g : Game) (op : RoomOp) (trigger : Bool) (w : LobbyWorld) :
    List Effect :=
  let s := w.roomAt ref g
  s.allEffects w.app.settings op ++
    if trigger then (s.step w.app.settings op).game.triggerLobbyUpdate else []

/-- An operation on a room. -/
def act (ref : GameRef) (g : Game) (op : RoomOp) (w : LobbyWorld) : LobbyWorld :=
  let s := (w.roomAt ref g).step w.app.settings op
  { w with
    heap := s.heap
    app := { w.app with live := w.app.live.insert ref s.game }
    handedOut := Function.update w.handedOut ref s.handedOut }

/-- A request to create a room; the caller has a pointer to the lobby meanwhile. -/
def createGame (lobby : LobbyId) (id address : String) (orGet : Bool) (w : LobbyWorld) :
    LobbyWorld :=
  let (_, app, _) := (w.app.getLobby lobby).createGame lobby id address orGet
  { w with app := app.releaseLobby lobby }

/-- The pointer to the joined lobby is dropped. -/
def releaseJoined (w : LobbyWorld) (app : App) : App :=
  match w.handler.joinedLobby with
  | none => app
  | some lobby => app.releaseLobby lobby

/-- `JoinLobby`: the client is sent the list of its new lobby. -/
def joinLobby (requested : LobbyId) (w : LobbyWorld) : LobbyWorld :=
  let lobby := w.handler.requestedLobby requested
  let app := w.releaseJoined (w.app.getLobby lobby)
  { w with
    app
    handler := { w.handler with joinedLobby := some lobby }
    copy := app.getGameList lobby fun _ => true }

/-- `LeaveLobby`. -/
def leaveLobby (w : LobbyWorld) : LobbyWorld :=
  { w with
    app := w.releaseJoined w.app
    handler := { w.handler with joinedLobby := none } }

/-- The batch that is due. -/
def batch (w : LobbyWorld) : GameList := w.app.gameListBatch w.handler.pendingGameListUpdates

/-- `HandleSlowUpdate`: what is pending is sent as one batch. -/
def handleSlowUpdate (w : LobbyWorld) : LobbyWorld :=
  if w.handler.pendingGameListUpdates = [] then w
  else
    { w with
      handler := { w.handler with pendingGameListUpdates := [] }
      copy := w.batch.apply w.copy }

/-- What a step does to the rooms and, on the client's request, to its subscription; an operation on
a room that is gone does not happen. -/
def perform (w : LobbyWorld) : LobbyOp → LobbyWorld
  | .connection peer slot => { w with heap := Function.update w.heap peer slot }
  | .createGame lobby id address orGet => w.createGame lobby id address orGet
  | .room ref op _ =>
    match w.app.live.lookup ref with
    | none => w
    | some g => w.act ref g op
  | .dropGame ref => { w with app := (w.app.dropGame ref).1 }
  | .joinLobby lobby => w.joinLobby lobby
  | .leaveLobby => w.leaveLobby
  | .handleSlowUpdate => w.handleSlowUpdate

/-- The notifications that a step calls the handlers of a lobby with. -/
def notices (w : LobbyWorld) : LobbyOp → List (LobbyId × GameListUpdate)
  | .createGame lobby id address orGet =>
    (((w.app.getLobby lobby).createGame lobby id address orGet).2.2.filterMap
      (Effect.notice w.app.nextRef id)).map (Prod.mk lobby)
  | .room ref op trigger =>
    match w.app.live.lookup ref with
    | none => []
    | some g =>
      ((w.roomEffects ref g op trigger).filterMap (Effect.notice ref g.info.id)).map
        (Prod.mk g.lobbyId)
  | .dropGame ref =>
    match w.app.live.lookup ref with
    | none => []
    | some g =>
      ((w.app.dropGame ref).2.filterMap (Effect.notice ref g.info.id)).map (Prod.mk g.lobbyId)
  | _ => []

/-- Those that reach the client. -/
def heard (w : LobbyWorld) (op : LobbyOp) : List (LobbyId × GameListUpdate) :=
  (w.notices op).filter fun notice => w.handler.hears notice.1

/-- A step of the process. -/
def step (w : LobbyWorld) (op : LobbyOp) : LobbyWorld :=
  let w' := w.perform op
  { w' with
    handler := (w.heard op).foldl (fun h notice => h.receive notice.2) w'.handler }

/-- A process without rooms, and a client that has just connected. -/
def IsFresh (w : LobbyWorld) : Prop := w.app.IsEmpty ∧ w.handler = {} ∧ w.copy = ∅

/-- A process that has just started. -/
def start : LobbyWorld where
  heap := fun _ => .unused
  app := { id := "app", version := "1.0" }

theorem isFresh_start : start.IsFresh := ⟨⟨rfl, rfl, rfl⟩, rfl, rfl⟩

end LobbyWorld

namespace LobbyWorld

variable {w : LobbyWorld}

theorem handleSlowUpdate_app (w : LobbyWorld) : w.handleSlowUpdate.app = w.app := by
  unfold handleSlowUpdate
  split <;> rfl

theorem indexed_perform (hi : w.app.Indexed) (op : LobbyOp) : (w.perform op).app.Indexed := by
  have hrelease : ∀ app : App, app.Indexed → (w.releaseJoined app).Indexed := by
    intro app happ
    unfold releaseJoined
    split
    · exact happ
    · exact happ.releaseLobby _
  cases op with
  | connection peer slot => exact hi
  | createGame lobby id address orGet =>
    show (((w.app.getLobby lobby).createGame lobby id address orGet).2.1.releaseLobby lobby).Indexed
    apply App.Indexed.releaseLobby
    exact (hi.getLobby lobby).createGame (App.mem_getLobby lobby w.app) id address orGet
  | room ref op trigger =>
    simp only [perform]
    split
    · exact hi
    · next g hg => exact hi.setGame hg (Room.info_step _ (w.roomAt ref g) op)
  | dropGame ref =>
    cases hg : w.app.live.lookup ref with
    | none =>
      simp only [perform, App.dropGame, hg]
      exact hi
    | some g => exact hi.dropGame hg
  | joinLobby lobby => exact hrelease _ (hi.getLobby _)
  | leaveLobby => exact hrelease _ hi
  | handleSlowUpdate =>
    have happ : (w.perform .handleSlowUpdate).app = w.app := handleSlowUpdate_app w
    rw [happ]
    exact hi

theorem indexed_step (hi : w.app.Indexed) (op : LobbyOp) : (w.step op).app.Indexed :=
  indexed_perform hi op

theorem releaseJoined_frame (w : LobbyWorld) (app : App) :
    ∃ lobbies, w.releaseJoined app = { app with lobbies } := by
  unfold releaseJoined
  split
  · exact ⟨_, rfl⟩
  · exact App.releaseLobby_frame _ app

theorem joinLobby_frame (w : LobbyWorld) (requested : LobbyId) :
    ∃ lobbies, (w.joinLobby requested).app = { w.app with lobbies } := by
  obtain ⟨_, hget⟩ := App.getLobby_frame (w.handler.requestedLobby requested) w.app
  obtain ⟨lobbies, hrelease⟩ :=
    releaseJoined_frame w (w.app.getLobby (w.handler.requestedLobby requested))
  refine ⟨lobbies, ?_⟩
  show w.releaseJoined (w.app.getLobby (w.handler.requestedLobby requested)) = _
  rw [hrelease, hget]

theorem leaveLobby_frame (w : LobbyWorld) :
    ∃ lobbies, w.leaveLobby.app = { w.app with lobbies } := releaseJoined_frame w w.app

/-- A request to create a room changes at most the lobbies and tells no one, or it makes the room
and tells its lobby. -/
theorem createGame_spec (lobby : LobbyId) (id address : String) (orGet : Bool) (w : LobbyWorld) :
    (∃ lobbies, (w.createGame lobby id address orGet).app = { w.app with lobbies } ∧
        w.notices (.createGame lobby id address orGet) = []) ∨
      ∃ lobbies, w.app.games.lookup id = none ∧
        (w.createGame lobby id address orGet).app =
          { w.app with
            lobbies
            games := w.app.games.insert id w.app.nextRef
            live := w.app.live.insert w.app.nextRef (w.app.newGame lobby id address)
            nextRef := w.app.nextRef + 1 } ∧
        w.notices (.createGame lobby id address orGet) = [(lobby, .update w.app.nextRef)] := by
  obtain ⟨_, hget⟩ := App.getLobby_frame lobby w.app
  obtain ⟨_, hrelease⟩ := App.releaseLobby_frame lobby
    ((w.app.getLobby lobby).createGame lobby id address orGet).2.1
  simp only [createGame, notices]
  rw [hrelease]
  rcases App.createGame_result lobby id address orGet (w.app.getLobby lobby) with
    heq | ⟨hid, heq⟩
  · rw [heq, hget]
    exact Or.inl ⟨_, rfl, rfl⟩
  · obtain ⟨_, hadd⟩ := App.addGame_frame lobby id address (w.app.getLobby lobby)
    rw [heq, hadd, hget]
    rw [hget] at hid
    exact Or.inr ⟨_, hid, rfl, rfl⟩

/-- A room that ends tells its lobby, unless it is hidden. -/
theorem notices_dropGame {ref : GameRef} {g : Game} (hg : w.app.live.lookup ref = some g) :
    w.notices (.dropGame ref) = if g.isVisible then [(g.lobbyId, .delete g.info.id)] else [] := by
  simp only [notices, App.dropGame, hg]
  split <;> rfl

theorem notices_room {ref : GameRef} {g : Game} (hg : w.app.live.lookup ref = some g) (op : RoomOp)
    (trigger : Bool) : w.notices (.room ref op trigger) =
      ((w.roomEffects ref g op trigger).filterMap (Effect.notice ref g.info.id)).map
        (Prod.mk g.lobbyId) := by
  simp only [notices, hg]

theorem mem_heard {op : LobbyOp} {notice : LobbyId × GameListUpdate} (hn : notice ∈ w.heard op) :
    notice ∈ w.notices op ∧ w.handler.joinedLobby = some notice.1 := by
  unfold heard MasterServerHandler.hears at hn
  rw [List.mem_filter, Bool.and_eq_true, beq_iff_eq] at hn
  exact ⟨hn.1, hn.2.1⟩

/-- An update is about a room that is there after the step. -/
theorem lt_nextRef_of_mem_notices (hi : w.app.Indexed) {op : LobbyOp} {lobby : LobbyId}
    {ref : GameRef} (hn : (lobby, .update ref) ∈ w.notices op) : ref < (w.step op).app.nextRef := by
  cases op with
  | createGame lobby' id address orGet =>
    rcases createGame_spec lobby' id address orGet w with ⟨_, -, hnone⟩ | ⟨_, -, happ, hone⟩
    · rw [hnone] at hn
      cases hn
    · rw [hone, List.mem_singleton, Prod.mk.injEq, GameListUpdate.update.injEq] at hn
      show ref < (w.createGame lobby' id address orGet).app.nextRef
      rw [happ, hn.2]
      exact Nat.lt_succ_self _
  | room other op trigger =>
    cases hg : w.app.live.lookup other with
    | none => simp [notices, hg] at hn
    | some g =>
      rw [notices_room hg, List.mem_map] at hn
      obtain ⟨notice, hnotice, heq⟩ := hn
      obtain ⟨-, rfl⟩ := Prod.mk.inj heq
      obtain ⟨effect, -, heffect⟩ := List.mem_filterMap.mp hnotice
      have href : other = ref := by
        cases effect <;>
          simp only [Effect.notice, Option.some.injEq, GameListUpdate.update.injEq,
            reduceCtorEq] at heffect
        exact heffect
      subst href
      have hlt := hi.sound.fresh other (AList.mem_iff_lookup.mpr ⟨g, hg⟩)
      simp only [step, perform, hg]
      exact hlt
  | dropGame other =>
    cases hg : w.app.live.lookup other with
    | none => simp [notices, hg] at hn
    | some g =>
      rw [notices_dropGame hg] at hn
      split at hn <;> simp at hn
  | _ => simp [notices] at hn

/-- A step makes no room alive but a new one. -/
theorem live_step (op : LobbyOp) : w.app.nextRef ≤ (w.step op).app.nextRef ∧
    ∀ ref ∈ (w.step op).app.live, ref < w.app.nextRef → ref ∈ w.app.live := by
  cases op with
  | connection peer slot => exact ⟨le_rfl, fun ref href _ => href⟩
  | createGame lobby id address orGet =>
    show w.app.nextRef ≤ (w.createGame lobby id address orGet).app.nextRef ∧
      ∀ ref ∈ (w.createGame lobby id address orGet).app.live, _
    rcases createGame_spec lobby id address orGet w with ⟨_, happ, -⟩ | ⟨_, -, happ, -⟩
    · rw [happ]
      exact ⟨le_rfl, fun ref href _ => href⟩
    · rw [happ]
      refine ⟨Nat.le_succ _, fun ref href hlt => ?_⟩
      rcases (AList.mem_insert _).mp href with rfl | hold
      · exact absurd hlt (Nat.lt_irrefl _)
      · exact hold
  | room other op trigger =>
    cases hg : w.app.live.lookup other with
    | none =>
      simp only [step, perform, hg]
      exact ⟨le_rfl, fun ref href _ => href⟩
    | some g =>
      simp only [step, perform, hg]
      refine ⟨le_rfl, fun ref href _ => ?_⟩
      rcases (AList.mem_insert _).mp href with rfl | hold
      · exact AList.mem_iff_lookup.mpr ⟨g, hg⟩
      · exact hold
  | dropGame other =>
    show w.app.nextRef ≤ (w.app.dropGame other).1.nextRef ∧ ∀ ref ∈ (w.app.dropGame other).1.live, _
    cases hg : w.app.live.lookup other with
    | none =>
      simp only [App.dropGame, hg]
      exact ⟨le_rfl, fun ref href _ => href⟩
    | some g =>
      obtain ⟨⟨_, hframe⟩, -, -⟩ := App.dropGame_spec hg
      rw [hframe]
      exact ⟨le_rfl, fun ref href _ => (AList.mem_erase.mp href).2⟩
  | joinLobby requested =>
    obtain ⟨_, hframe⟩ := joinLobby_frame w requested
    show w.app.nextRef ≤ (w.joinLobby requested).app.nextRef ∧
      ∀ ref ∈ (w.joinLobby requested).app.live, _
    rw [hframe]
    exact ⟨le_rfl, fun ref href _ => href⟩
  | leaveLobby =>
    obtain ⟨_, hframe⟩ := leaveLobby_frame w
    show w.app.nextRef ≤ w.leaveLobby.app.nextRef ∧ ∀ ref ∈ w.leaveLobby.app.live, _
    rw [hframe]
    exact ⟨le_rfl, fun ref href _ => href⟩
  | handleSlowUpdate =>
    have happ : (w.step .handleSlowUpdate).app = w.app := handleSlowUpdate_app w
    rw [happ]
    exact ⟨le_rfl, fun ref href _ => href⟩

theorem pending_step (op : LobbyOp) : (w.step op).handler.pendingGameListUpdates =
    BoundedQueue.pushAll 500 GameListUpdate.isUpdate
      (w.perform op).handler.pendingGameListUpdates ((w.heard op).map Prod.snd) := by
  simp only [step, MasterServerHandler.foldl_receive]

theorem joinedLobby_step (op : LobbyOp) :
    (w.step op).handler.joinedLobby = (w.perform op).handler.joinedLobby := by
  simp only [step, MasterServerHandler.foldl_receive]

/-- Only a flush takes notifications off. -/
theorem pending_perform {op : LobbyOp} (hop : op ≠ .handleSlowUpdate) :
    (w.perform op).handler.pendingGameListUpdates = w.handler.pendingGameListUpdates := by
  cases op with
  | handleSlowUpdate => exact absurd rfl hop
  | room ref op trigger =>
    simp only [perform]
    split <;> rfl
  | _ => rfl

theorem pending_handleSlowUpdate (w : LobbyWorld) :
    w.handleSlowUpdate.handler.pendingGameListUpdates = [] := by
  unfold handleSlowUpdate
  split
  · next hnil => exact hnil
  · rfl

/-- Only the client's requests change its subscription, and they notify no one. -/
theorem joinedLobby_perform (w : LobbyWorld) (op : LobbyOp) :
    (w.perform op).handler.joinedLobby = w.handler.joinedLobby ∨
      w.notices op = [] ∧ (op = .leaveLobby ∨ ∃ requested, op = .joinLobby requested) := by
  cases op with
  | joinLobby requested => exact Or.inr ⟨rfl, Or.inr ⟨requested, rfl⟩⟩
  | leaveLobby => exact Or.inr ⟨rfl, Or.inl rfl⟩
  | room ref op trigger =>
    left
    simp only [perform]
    split <;> rfl
  | handleSlowUpdate =>
    left
    simp only [perform, handleSlowUpdate]
    split <;> rfl
  | _ => exact Or.inl rfl

end LobbyWorld

end LuxonServer
