import LuxonServer.Peer

/-! The state of a room: `struct Game` with the structures it is made of.  The 64-bit counters
count one operation each and are unbounded here, so the code's guard against a counter that has
wrapped to `0` never applies. -/

namespace LuxonServer

/-- `InterestGroups`: one bit for each group, group `0` set at the start. -/
structure InterestGroups where
  bitset : BitVec 256 := 1
  deriving DecidableEq, Repr

/-- `GamePeer`, an actor of the room.  The default is the invalid peer that the constructors
return when they fail. -/
structure GamePeer where
  peer : Option PeerRef := none
  actorId : Int := 0
  actorProps : Hashtable := ∅
  interestGroups : InterestGroups := {}
  active : Bool := true

/-- `GamePeer::is_valid`. -/
def GamePeer.isValid (gp : GamePeer) : Bool := gp.active && gp.actorId > 0

/-- Whom an event goes to. -/
inductive Receivers where
  | unset
  | group (receiverGroup : UInt8)
  | actors (actorIds : List Int)
  deriving DecidableEq, Repr

/-- `Event`, without its serialization cache. -/
structure Event where
  code : UInt8
  senderActorId : Int
  deliveryMode : UInt8 := 1
  channel : UInt8 := 0
  receivers : Receivers := .unset
  interestGroup : UInt8 := 0
  data : Value := .null
  topParams : List (UInt8 × Value) := []
  deriving DecidableEq, Repr

/-- `InactivePlayerInfo`. -/
structure InactivePlayerInfo where
  actorId : Int
  userId : String
  actorProps : Hashtable
  inactiveSince : Nat := 0
  generation : Nat := 0

/-- A task that the room has scheduled with its server manager and that has not run yet. -/
inductive ScheduledTask where
  /-- End of the reservation that `user_id` got with `generation`. -/
  | expireReservation (ttlMs : Nat) (userId : String) (generation : Nat)
  /-- The empty task that keeps the room alive for its `EmptyRoomTTL`. -/
  | keepAlive (ttlMs : Nat)
  deriving DecidableEq, Repr

/-- The generations of the expected users' reservations. -/
abbrev Generations := AList fun _ : String => Nat

/-- The values that `try_begin_creation` captures for the rollback, the `creation_initial_` fields
of the room. -/
structure CreationInitial where
  isCreated : Bool := false
  flags : UInt8 := 0
  isOpen : Bool := false
  isVisible : Bool := false
  playerTtl : Int := 0
  emptyGameTtl : Int := 0
  maxPeers : UInt8 := 0
  masterActor : Int := 0
  customProps : Hashtable := ∅
  lobbyProps : List String := []
  lastActorId : Int := 0
  dummyPeerCount : UInt8 := 0
  eventCache : List Event := []
  expectedUsers : ListSet String := ∅
  expectedUserGenerations : Generations := ∅
  inactivePlayers : AList (fun _ : String => InactivePlayerInfo) := ∅

/-- `struct Game`. -/
structure Game where
  info : GameInfo
  flags : UInt8 := 3
  isCreated : Bool := false
  isOpen : Bool := true
  isVisible : Bool := true
  playerTtl : Int := 0
  emptyGameTtl : Int := 0
  maxPeers : UInt8 := 0
  masterActor : Int := 1
  lastActorId : Int := 0
  expectedUsers : ListSet String := ∅
  expectedUserGenerations : Generations := ∅
  nextExpectedUserGeneration : Nat := 0
  customProps : Hashtable := ∅
  lobbyProps : List String := []
  eventCache : List Event := []
  inactivePlayers : AList (fun _ : String => InactivePlayerInfo) := ∅
  creationInitial : CreationInitial := {}
  creationReserved : Generations := ∅
  creationRemoved : Generations := ∅
  isCreating : Bool := false
  creationOwner : Option PeerRef := none
  nextCreationGeneration : Nat := 0
  activeCreationGeneration : Nat := 0
  stateRevision : Nat := 0
  peers : List GamePeer := []
  retiredPeers : List GamePeer := []
  dummyPeerCount : UInt8 := 0
  scheduled : List ScheduledTask := []

namespace Game

/-- `active_peer_count`. -/
def activePeerCount (g : Game) : Nat := g.peers.length

/-- The published player count, `static_cast<uint8_t>(peers.size() + dummy_peer_count)`. -/
def playerCount (g : Game) : UInt8 := UInt8.ofNat (g.peers.length + g.dummyPeerCount.toNat)

/-- `has_expected_user`. -/
def hasExpectedUser (userId : String) (g : Game) : Bool := userId ∈ g.expectedUsers

/-- `is_joinable`. -/
def isJoinable (g : Game) : Bool := g.isCreated && !g.isCreating && g.isVisible && g.isOpen

/-- `set_config_state`. -/
def setConfigState (newFlags : UInt8) (newIsOpen newIsVisible : Bool) (newMaxPeers : UInt8)
    (newMasterActor : Int) (g : Game) : Game :=
  { g with
    flags := newFlags
    isOpen := newIsOpen
    isVisible := newIsVisible
    maxPeers := newMaxPeers
    masterActor := newMasterActor
    stateRevision := g.stateRevision + 1 }

end Game

end LuxonServer
