import LuxonServer.Matchmaking.Entering

/-! The checks that the GameServer makes of `CreateGame` and `JoinGame` before their first await,
with the answers that it sends. -/

namespace LuxonServer

/-- The two operation codes with which a client enters a room. -/
inductive EnterOperation where
  | createGame
  | joinGame
  deriving DecidableEq, Repr

/-- `models::JoinOrCreateGame`, as a request with its operation code. -/
structure EnterCall where
  operation : EnterOperation
  gameId : String
  createIfNotExists : UInt8 := 0
  expectedUsers : List String := []
  settings : CreationSettings := {}
  gameProperties : Option Hashtable := none
  actorProperties : Option Hashtable := none

/-- `can_create`. -/
def EnterCall.canCreate (call : EnterCall) : Bool :=
  call.operation == .createGame || call.createIfNotExists == 1

/-- What the rest of the request reads. -/
def EnterCall.request (call : EnterCall) : EnterRequest where
  canCreate := call.canCreate
  expectedUsers := call.expectedUsers
  settings := call.settings
  gameProperties := call.gameProperties
  actorProperties := call.actorProperties

/-- The return codes of a request to enter. -/
inductive EnterCode where
  | matchmaking (code : ErrorCode)
  | operationNotAllowedInCurrentState
  deriving DecidableEq, Repr

/-- What becomes of a request to enter at its first await. -/
inductive EnterAnswer where
  | refused (code : EnterCode) (message : String)
  /-- `pending_join_` takes the request, with the attempt that it waits for. -/
  | pending (generation : Nat)
  | enters (entering : Entering)

/-- The locals of a request that goes on. -/
def EnterAnswer.entering? : EnterAnswer → Option Entering
  | .enters entering => some entering
  | _ => none

namespace Game

/-- A request meets an attempt under way; a handler keeps one request at most. -/
def retainJoin (waiting : Bool) (g : Game) : EnterAnswer :=
  if waiting then .refused .operationNotAllowedInCurrentState "Join already pending"
  else .pending g.activeCreationGeneration

/-- The answer to a request to enter; `waiting` when its handler keeps another. -/
def answerEnter (h : PeerHeap) (settings : AppSettings) (ref : GameRef) (peer : PeerRef)
    (userId : String) (waiting : Bool) (call : EnterCall) (g : Game) : EnterAnswer × Game :=
  let notExists (message : String) : EnterAnswer := .refused (.matchmaking .gameIdNotExists) message
  if (g.actorIdForPeer h (some peer)).isSome then
    (.refused .operationNotAllowedInCurrentState "Must join first", g)
  else if call.gameId ≠ g.info.id then (notExists "Token not valid for this Game ID", g)
  else if g.isCreating then (g.retainJoin waiting, g)
  else if ¬g.isCreated ∧ ¬call.canCreate then (notExists "Game does not exist", g)
  else
    match g.tryBeginCreation (some peer) with
    | (0, g) =>
      if ¬g.isCreated then
        -- Another handler may have been faster.
        if g.isCreating then (g.retainJoin waiting, g)
        else
          (notExists (if call.canCreate then "Game creation was not completed"
            else "Game does not exist"), g)
      else
        let (code, message) := g.validateJoin h settings userId 0 false
        if code ≠ .ok then (.refused (.matchmaking code) message, g)
        else
          (.enters { game := ref, request := call.request, generation := none, stage := .admission },
            g)
    | (generation, g) =>
      (.enters
          { game := ref, request := call.request, generation := some generation, stage := .settings },
        g)

variable {h : PeerHeap} {settings : AppSettings} {ref : GameRef} {peer : PeerRef} {userId : String}
  {waiting : Bool} {call : EnterCall} {g : Game}

/-- A request that names its room goes on as `beginEntering` says. -/
theorem beginEntering_eq (hid : call.gameId = g.info.id) :
    g.beginEntering h settings ref peer userId call.request =
      let (answer, g) := g.answerEnter h settings ref peer userId waiting call
      (g, answer.entering?) := by
  unfold answerEnter beginEntering
  by_cases hjoined : (g.actorIdForPeer h (some peer)).isSome
  · simp [hjoined, EnterAnswer.entering?]
  by_cases hcreating : g.isCreating
  · cases waiting <;> simp [hjoined, hid, hcreating, retainJoin, EnterAnswer.entering?]
  by_cases hmay : ¬g.isCreated ∧ ¬call.canCreate
  · simp [hjoined, hid, hcreating, hmay, EnterCall.request, EnterAnswer.entering?]
  simp only [hjoined, hid, hcreating, EnterCall.request, if_neg hmay]
  rcases tryBeginCreation_cases (some peer) g with heq | ⟨-, -, -, -, heq⟩
  · rw [heq]
    by_cases hcreated : g.isCreated
    · by_cases hok : (g.validateJoin h settings userId 0 false).1 = .ok <;>
        simp [hcreated, hok, EnterAnswer.entering?]
    · simp [hcreated, hcreating, EnterAnswer.entering?]
  · rw [heq]
    simpa [EnterAnswer.entering?] using hmay

/-- An attempt begins in a room without one if the request may create it. -/
theorem answerEnter_idle (hid : call.gameId = g.info.id) (hcreated : g.isCreated = false)
    (hcreating : g.isCreating = false) (hpeers : g.peers = []) :
    (g.answerEnter h settings ref peer userId waiting call).1 =
      if call.canCreate then
        .enters
          { game := ref
            request := call.request
            generation := some (g.nextCreationGeneration + 1)
            stage := .settings }
      else .refused (.matchmaking .gameIdNotExists) "Game does not exist" := by
  have hout : g.actorIdForPeer h (some peer) = none := by
    simp [actorIdForPeer, findPeer, hpeers]
  by_cases hcan : call.canCreate <;>
    simp [answerEnter, hout, hid, hcreated, hcreating, hcan, tryBeginCreation, activePeerCount,
      hpeers]

/-- A request is kept only while an attempt is under way, and no other way does it touch the room
but by beginning one. -/
theorem answerEnter_cases (h : PeerHeap) (settings : AppSettings) (ref : GameRef) (peer : PeerRef)
    (userId : String) (waiting : Bool) (call : EnterCall) (g : Game) :
    (waiting = false ∧ g.isCreating = true ∧ call.gameId = g.info.id ∧
      g.answerEnter h settings ref peer userId waiting call =
        (.pending g.activeCreationGeneration, g)) ∨
    (∀ generation,
      (g.answerEnter h settings ref peer userId waiting call).1 ≠ .pending generation) ∧
      ((g.answerEnter h settings ref peer userId waiting call).2 = g ∨
        (g.answerEnter h settings ref peer userId waiting call).2 =
          (g.tryBeginCreation (some peer)).2) := by
  unfold answerEnter
  by_cases hjoined : (g.actorIdForPeer h (some peer)).isSome
  · simp [hjoined]
  by_cases hid : call.gameId = g.info.id
  case neg => simp [hjoined, hid]
  by_cases hcreating : g.isCreating
  · cases waiting <;> simp [hjoined, hid, hcreating, retainJoin]
  by_cases hmay : ¬g.isCreated ∧ ¬call.canCreate
  · simp [hjoined, hid, hcreating, hmay]
  right
  simp only [hjoined, hid, hcreating, if_neg hmay]
  rcases tryBeginCreation_cases (some peer) g with heq | ⟨-, -, -, -, heq⟩
  · rw [heq]
    by_cases hcreated : g.isCreated
    · by_cases hok : (g.validateJoin h settings userId 0 false).1 = .ok <;> simp [hcreated, hok]
    · simp [hcreated, hcreating]
  · rw [heq]
    simp

theorem validateJoin_created (hcreated : g.isCreated = true) (userId : String) (count : Nat) :
    (g.validateJoin h settings userId count false).1 ≠ .gameIdNotExists := by
  unfold validateJoin
  simp only [hcreated, not_true_eq_false, false_and, if_false]
  repeat' split
  all_goals simp

/-- A client that names a created room is not told that the room does not exist. -/
theorem answerEnter_created (hid : call.gameId = g.info.id) (hcreated : g.isCreated = true)
    (hcreating : g.isCreating = false) (message : String) :
    (g.answerEnter h settings ref peer userId waiting call).1 ≠
      .refused (.matchmaking .gameIdNotExists) message := by
  have hvalid : (g.validateJoin h settings userId 0 false).1 ≠ .gameIdNotExists :=
    validateJoin_created hcreated userId 0
  have hbegin : g.tryBeginCreation (some peer) = (0, g) := by simp [tryBeginCreation, hcreated]
  by_cases hjoined : (g.actorIdForPeer h (some peer)).isSome
  · simp [answerEnter, hjoined]
  by_cases hok : (g.validateJoin h settings userId 0 false).1 = .ok <;>
    simp [answerEnter, hjoined, hid, hcreated, hcreating, hbegin, hok, hvalid]

end Game

end LuxonServer
