import LuxonServer.Hosting.Host

/-! A request to enter a room from a client whom no MasterServer has sent, next to the same request
from a client whose connection was bound to the room when it authenticated. -/

namespace LuxonServer

/-- A request to enter a room, with its operation code and the channel that it came on. -/
structure EnterMessage where
  call : EnterCall
  operationCode : UInt8
  channelId : UInt8 := 0

/-- What is sent when a request to enter is handled, until its first await. -/
inductive EnterReply where
  /-- The room that the connection is bound to decides. -/
  | room (answer : EnterAnswer)
  /-- `OperationInvalid`, from `HandlerBase`. -/
  | operationInvalid (message : String)
  /-- No room is found or created. -/
  | refused (code : ErrorCode) (message : String)
  | nothing

namespace Host

/-- `HandlerBase::HandleOperationRequest` on a request to enter. -/
def baseReply (m : EnterMessage) : EnterReply :=
  if m.channelId ≠ 0 then .nothing
  else .operationInvalid ("Unsupported operation " ++ toString m.operationCode.toNat)

/-- `current_game_` of a connection. -/
def currentGame (peer : PeerRef) (w : Host) : Option GameRef :=
  match w.connections.lookup peer with
  | some { handler := .gameServer _ currentGame _, .. } => currentGame
  | _ => none

/-- The room that an unsolicited request is about, or the response when there is none; `.ok none` is
a null pointer. -/
def targetGame (call : EnterCall) (app : App) :
    Except (ErrorCode × String) (Option GameRef) × App :=
  match app.games.lookup call.gameId with
  | some weak => (.ok (app.lock weak), app)
  | none =>
    if call.operation = .createGame ∨ call.createIfNotExists ≠ 0 then
      let (result, app, _) := (app.getLobby ("", 0)).createGame ("", 0) call.gameId "" true
      (result, app.releaseLobby ("", 0))
    else (.error (.gameIdNotExists, "Game does not exist"), app)

/-- `HandleOperationRequest` on a request to enter, where the handler allows no unsolicited ones or
is bound to a room. -/
def dispatchEnter (peer : PeerRef) (m : EnterMessage) (w : Host) : EnterReply × Host :=
  match w.connections.lookup peer with
  | some { handler := .gameServer allowUnsolicited (some ref) pendingJoin, persistent := some pp } =>
    match w.app.live.lookup ref with
    | none => (.nothing, w)
    | some g =>
      let (answer, g) := g.answerEnter w.heap w.app.settings ref peer pp.userId
        pendingJoin.isSome m.call
      let w := { w with app := { w.app with live := w.app.live.insert ref g } }
      match answer with
      | .pending _ =>
        (.room answer,
          w.modify peer fun connection =>
            { connection with handler := .gameServer allowUnsolicited (some ref) (some ref) })
      | _ => (.room answer, w)
  | _ => (baseReply m, w)

/-- `HandleOperationRequest` on a request to enter.  An unsolicited one that has its room is handled
once more, with `allow_unsolicited_` false. -/
def handleEnter (peer : PeerRef) (m : EnterMessage) (w : Host) : EnterReply × Host :=
  match w.connections.lookup peer with
  | some { handler := .gameServer true none _, persistent := some _ } =>
    match targetGame m.call w.app with
    | (.error (code, message), app) => (.refused code message, { w with app })
    | (.ok none, app) => (.nothing, { w with app })
    | (.ok (some _), _) => (w.unsolicited peer m.call).dispatchEnter peer m
  | _ => w.dispatchEnter peer m

/-- The connection as it is when it was bound to the room at authentication. -/
def bind (peer : PeerRef) (ref : GameRef) (g : Game) (w : Host) : Host :=
  w.modify peer fun connection =>
    match connection.handler with
    | .gameServer allowUnsolicited _ pendingJoin =>
      { handler := .gameServer allowUnsolicited (some ref) pendingJoin
        persistent := connection.persistent.map fun pp =>
          (pp.invite g.info ref false).resetOwnedGameIfCreated w.app }
    | _ => connection

/-- The request is processed as if the connection had been bound to the room at authentication. -/
structure ActsAsBound (w bound : Host) (peer : PeerRef) (m : EnterMessage) : Prop where
  reply : (w.handleEnter peer m).1 = (bound.handleEnter peer m).1
  effects : ∀ ref, (w.handleEnter peer m).2.app.live.lookup ref =
    (bound.handleEnter peer m).2.app.live.lookup ref
  later : (w.handleEnter peer m).2.currentGame peer = (bound.handleEnter peer m).2.currentGame peer

/-- The connection has authenticated, no room is bound to it, and the GameServer allows that. -/
def IsUnbound (peer : PeerRef) (w : Host) : Prop :=
  ∃ pendingJoin pp, w.connections.lookup peer =
    some { handler := .gameServer true none pendingJoin, persistent := some pp }

/-- The request finds its room or creates it. -/
def Finds (call : EnterCall) (w : Host) (ref : GameRef) (g : Game) (app : App) : Prop :=
  targetGame call w.app = (.ok (some ref), app) ∧ app.live.lookup ref = some g

variable {w : Host} {peer : PeerRef} {m : EnterMessage} {ref : GameRef} {g : Game} {app : App}

theorem unsolicitedGame_eq (call : EnterCall) (app : App) :
    unsolicitedGame call app =
      ((targetGame call app).1.toOption.join, (targetGame call app).2) := by
  unfold unsolicitedGame targetGame
  cases app.games.lookup call.gameId with
  | some weak => rfl
  | none =>
    simp only
    split <;> rfl

theorem lookup_modify (peer : PeerRef) (change : Connection → Connection) (w : Host) :
    (w.modify peer change).connections.lookup peer =
      (w.connections.lookup peer).map change := by
  unfold modify
  cases hl : w.connections.lookup peer with
  | none => exact hl
  | some connection => exact AList.lookup_insert _

/-- The invitation is made, and the connection is bound to no room. -/
theorem lookup_unsolicited {pendingJoin : Option GameRef} {pp : PeerPersistent}
    (hconnection : w.connections.lookup peer =
      some { handler := .gameServer true none pendingJoin, persistent := some pp })
    (hfinds : w.Finds m.call ref g app) :
    (w.unsolicited peer m.call).app = app ∧
      (w.unsolicited peer m.call).connections.lookup peer =
        some {
          handler := .gameServer false none pendingJoin
          persistent :=
            some (pp.invite g.info ref (m.call.operation == EnterOperation.createGame)) } := by
  have htarget : unsolicitedGame m.call w.app = (some ref, app) := by
    rw [unsolicitedGame_eq, hfinds.1]
    rfl
  unfold unsolicited
  simp only [hconnection, htarget, hfinds.2]
  refine ⟨?_, ?_⟩
  · simp [modify, hconnection]
  · rw [lookup_modify]
    simp [hconnection]

/-- The second pass does not reach the room. -/
theorem handleEnter_unsolicited {pendingJoin : Option GameRef} {pp : PeerPersistent}
    (hconnection : w.connections.lookup peer =
      some { handler := .gameServer true none pendingJoin, persistent := some pp })
    (hfinds : w.Finds m.call ref g app) :
    w.handleEnter peer m = (baseReply m, w.unsolicited peer m.call) := by
  have hlookup := (lookup_unsolicited hconnection hfinds).2
  unfold handleEnter
  simp only [hconnection, hfinds.1]
  unfold dispatchEnter
  rw [hlookup]

/-- A request to enter leaves the handler bound to the room that it is bound to. -/
theorem currentGame_dispatchEnter (peer : PeerRef) (m : EnterMessage) (w : Host) :
    (w.dispatchEnter peer m).2.currentGame peer = w.currentGame peer := by
  unfold dispatchEnter
  split
  · next hconnection =>
    split
    · rfl
    · simp only
      split
      · unfold currentGame
        rw [lookup_modify]
        simp [hconnection]
      · rfl
  · rfl

theorem currentGame_handleEnter_of_bound (hbound : w.currentGame peer = some ref) :
    (w.handleEnter peer m).2.currentGame peer = some ref := by
  unfold handleEnter
  split
  · next hconnection =>
    rw [currentGame, hconnection] at hbound
    cases hbound
  · rw [currentGame_dispatchEnter, hbound]

theorem currentGame_bind (hunbound : w.IsUnbound peer) :
    (w.bind peer ref g).currentGame peer = some ref := by
  obtain ⟨pendingJoin, pp, hconnection⟩ := hunbound
  unfold currentGame bind
  rw [lookup_modify, hconnection]
  rfl

/-- On every GameServer that allows it, an unsolicited request that finds its room or creates it is
not processed as that of a connection bound to the room: the handler is not bound to it
afterwards. -/
theorem not_actsAsBound (hunbound : w.IsUnbound peer) (hfinds : w.Finds m.call ref g app) :
    ¬w.ActsAsBound (({ w with app } : Host).bind peer ref g) peer m := by
  intro hacts
  obtain ⟨pendingJoin, pp, hconnection⟩ := id hunbound
  have hlater := hacts.later
  have hbound : (({ w with app } : Host).bind peer ref g).currentGame peer = some ref :=
    currentGame_bind hunbound
  rw [currentGame_handleEnter_of_bound hbound, handleEnter_unsolicited hconnection hfinds,
    currentGame, (lookup_unsolicited hconnection hfinds).2] at hlater
  cases hlater

/-- The connection has had its unsolicited request. -/
def IsStuck (peer : PeerRef) (w : Host) : Prop :=
  ∃ pendingJoin pp, w.connections.lookup peer =
    some { handler := .gameServer false none pendingJoin, persistent := some pp }

theorem isStuck_handleEnter (hunbound : w.IsUnbound peer) (hfinds : w.Finds m.call ref g app) :
    (w.handleEnter peer m).2.IsStuck peer := by
  obtain ⟨pendingJoin, pp, hconnection⟩ := hunbound
  rw [handleEnter_unsolicited hconnection hfinds]
  exact ⟨_, _, (lookup_unsolicited hconnection hfinds).2⟩

theorem IsStuck.handleEnter (hstuck : w.IsStuck peer) (m : EnterMessage) :
    w.handleEnter peer m = (baseReply m, w) := by
  obtain ⟨pendingJoin, pp, hconnection⟩ := hstuck
  unfold Host.handleEnter dispatchEnter
  simp only [hconnection]

/-- Whatever requests to enter follow, none of them reaches a room. -/
theorem IsStuck.run (hstuck : w.IsStuck peer) (ms : List EnterMessage) :
    Transition.run (fun w m => (w.handleEnter peer m).2) w ms = w := by
  induction ms with
  | nil => rfl
  | cons m ms ih => rw [Transition.run_cons, hstuck.handleEnter m, ih]

/-- A GameServer with a room that is open to all, and a client who has come by herself. -/
def walkIn : Host where
  app :=
    { id := "app"
      version := "1.0"
      games := AList.singleton "room" 0
      live := AList.singleton 0
        { info := ⟨"app", "1.0", "", 0, "room", ""⟩, isCreated := true }
      lobbies := AList.singleton ("", 0) { games := [0] }
      nextRef := 1 }
  connections := AList.singleton 0
    { handler := .gameServer true
      persistent := some { userId := "ada", token := "a", app := some ("app", "1.0") } }
  nextPeer := 1

/-- Her `JoinGame`. -/
def walkInJoin : EnterMessage where
  call := { operation := .joinGame, gameId := "room" }
  operationCode := 226

theorem not_actsAsBound_walkIn :
    ¬walkIn.ActsAsBound (walkIn.bind 0 0
      { info := ⟨"app", "1.0", "", 0, "room", ""⟩, isCreated := true }) 0 walkInJoin := by
  have hfinds : walkIn.Finds walkInJoin.call 0
      { info := ⟨"app", "1.0", "", 0, "room", ""⟩, isCreated := true } walkIn.app := ⟨rfl, rfl⟩
  exact not_actsAsBound ⟨none, _, rfl⟩ hfinds

/-- Ada is told that the operation is not supported, where she would enter if she had been bound to
the room. -/
theorem handleEnter_walkIn :
    (walkIn.handleEnter 0 walkInJoin).1 = .operationInvalid "Unsupported operation 226" ∧
      (walkIn.handleEnter 0 walkInJoin).2.currentGame 0 = none ∧
      ∃ entering, ((walkIn.bind 0 0 { info := ⟨"app", "1.0", "", 0, "room", ""⟩, isCreated := true
        }).handleEnter 0 walkInJoin).1 = .room (.enters entering) :=
  ⟨rfl, rfl, _, rfl⟩

end Host

end LuxonServer
