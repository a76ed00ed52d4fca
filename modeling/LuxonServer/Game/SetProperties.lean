import LuxonServer.Lib.Run
import LuxonServer.Game.Room
import LuxonServer.Game.PropertyTable

/-! The GameServer's `SetProperties` on the properties of a room: the request, the answer, and the
event that tells the other clients. -/

namespace LuxonServer

/-- The return codes of `ErrorCodes::Core` that the request is answered with. -/
inductive CoreCode where
  | ok
  | operationInvalid
  | operationNotAllowedInCurrentState
  deriving DecidableEq, Repr

/-- The parameters of a `SetProperties` request that names no actor. -/
structure SetPropertiesRequest where
  broadcast : Bool
  properties : Option Hashtable
  expectedValues : Option Hashtable

/-- The receiver groups of a property event. -/
inductive ReceiverGroup where
  | others
  | all
  deriving DecidableEq, Repr

/-- The `PropertiesUpdate` event; the target `0` is the room. -/
structure PropertyUpdateEvent where
  senderActorId : Int
  receivers : ReceiverGroup
  targetActorNo : Int
  properties : Hashtable

/-- What a request has brought about: the room, the answer to the client, the event, and what the
lobby and the other processes are told. -/
structure SetPropertiesOutcome where
  game : Game
  response : Option (CoreCode × String) := none
  event : Option PropertyUpdateEvent := none
  effects : List Effect := []

namespace Game

/-- `create_property_update_event`. -/
def createPropertyUpdateEvent (actorId : Int) (props : Hashtable) (targetActorId : Int)
    (g : Game) : PropertyUpdateEvent where
  senderActorId := actorId
  receivers := if GameFlag.broadcastPropsChangeToAll.isSet g.flags then .all else .others
  targetActorNo := targetActorId
  properties := props

/-- The handler of `SetProperties`, from a client's connection. -/
def setProperties (h : PeerHeap) (settings : AppSettings) (peer : Option PeerRef)
    (request : SetPropertiesRequest) (g : Game) : SetPropertiesOutcome :=
  match g.actorIdForPeer h peer with
  | none => { game := g, response := some (.operationNotAllowedInCurrentState, "Must join first") }
  | some senderActorId =>
    match request.properties.filter fun props => props.entries != [] with
    | none => { game := g, response := some (.operationInvalid, "Properties cannot be empty") }
    | some props =>
      if senderActorId = 0 then { game := g }
      else
        let (ok, g, effects) := g.applyGameProps settings props request.expectedValues
        { game := g
          response := some (if ok then .ok else .operationInvalid, "")
          event :=
            if ok && request.broadcast then some (g.createPropertyUpdateEvent senderActorId props 0)
            else none
          effects }

end Game

/-- A request as it reaches a room, with the connections of the moment. -/
structure PropertyCall where
  heap : PeerHeap
  peer : Option PeerRef
  request : SetPropertiesRequest

namespace PropertyCall

/-- What the handler does. -/
def outcome (settings : AppSettings) (g : Game) (call : PropertyCall) : SetPropertiesOutcome :=
  g.setProperties call.heap settings call.peer call.request

/-- The client hears that its request has succeeded. -/
def succeeds (settings : AppSettings) (g : Game) (call : PropertyCall) : Bool :=
  (call.outcome settings g).response == some (.ok, "")

/-- The room accepts the update `props`: an actor of the room asks for it, and the expected values
are met. -/
structure Accepted (g : Game) (call : PropertyCall) (props : Hashtable) : Prop where
  sender : ∃ actorId, g.actorIdForPeer call.heap call.peer = some actorId ∧ actorId ≠ 0
  properties : call.request.properties = some props
  nonempty : props.entries ≠ []
  expected : call.request.expectedValues.all (fun e => g.expectGameProps e) = true

variable {settings : AppSettings} {g : Game} {call : PropertyCall} {props : Hashtable}

theorem outcome_of_accepted (settings : AppSettings) (ha : call.Accepted g props) :
    ∃ actorId, call.outcome settings g =
      { game := (g.insertGameProps settings props).1
        response := some (.ok, "")
        event :=
          if call.request.broadcast then
            some ((g.insertGameProps settings props).1.createPropertyUpdateEvent actorId props 0)
          else none
        effects := (g.insertGameProps settings props).2 } := by
  obtain ⟨actorId, hactor, hne⟩ := ha.sender
  refine ⟨actorId, ?_⟩
  have hprops : call.request.properties.filter (fun props => props.entries != []) = some props := by
    rw [ha.properties, Option.filter_some, if_pos (by simpa using ha.nonempty)]
  unfold outcome Game.setProperties
  rw [hactor, hprops]
  simp only [if_neg hne, Game.applyGameProps, ha.expected, if_true, Bool.true_and]

/-- A request succeeds with an update that the room accepts, or changes nothing. -/
theorem outcome_cases (settings : AppSettings) (g : Game) (call : PropertyCall) :
    (∃ props, call.Accepted g props) ∨
      (∀ props, ¬call.Accepted g props) ∧ call.succeeds settings g = false ∧
        (call.outcome settings g).game = g ∧ (call.outcome settings g).event = none := by
  by_cases haccepted : ∃ props, call.Accepted g props
  · exact Or.inl haccepted
  refine Or.inr ⟨fun props ha => haccepted ⟨props, ha⟩, ?_⟩
  unfold succeeds outcome Game.setProperties
  cases hactor : g.actorIdForPeer call.heap call.peer with
  | none => exact ⟨rfl, rfl, rfl⟩
  | some actorId =>
    cases hprops : call.request.properties.filter fun props => props.entries != [] with
    | none => exact ⟨rfl, rfl, rfl⟩
    | some props =>
      simp only
      split
      · exact ⟨rfl, rfl, rfl⟩
      · next hne =>
        obtain ⟨hsome, hnonempty⟩ := Option.filter_eq_some_iff.mp hprops
        have hexpected : (call.request.expectedValues.all fun e => g.expectGameProps e) = false := by
          rw [Bool.eq_false_iff]
          intro hexpected
          exact haccepted ⟨props, ⟨actorId, hactor, hne⟩, hsome, by simpa using hnonempty, hexpected⟩
        simp [Game.applyGameProps, hexpected]

theorem succeeds_of_accepted (ha : call.Accepted g props) : call.succeeds settings g = true := by
  obtain ⟨actorId, hout⟩ := outcome_of_accepted settings ha
  simp [succeeds, hout]

theorem Accepted.unique {other : Hashtable} (ha : call.Accepted g props)
    (hother : call.Accepted g other) : other = props :=
  Option.some.inj (hother.properties.symm.trans ha.properties)

end PropertyCall

/-- A room of Ada's, for four, in which null values delete. -/
def Room.adas : Room :=
  Transition.run (Room.step {}) (Room.create ⟨"app", "1.0", "lobby", 0, "room", ""⟩)
    [.connect 1, .setPersistent 1 (some { userId := "ada", token := "a" }),
      .tryBeginCreation (some 1), .setConfigState 19 true true 4 1, .createPeer (some 1),
      .addPeerForCreation 0 (some 1) 1, .commitCreation (some 1) 1]

end LuxonServer
