import LuxonServer.Game.Admission
import LuxonServer.Game.Replica

/-! A room in its process, and the operations that reach it: the methods of `Game` that change it,
the fields that handlers and plugins write themselves, and what happens to the connections. -/

namespace LuxonServer

/-- A room with the connections of its process and the peers that its constructors have handed
out and that no `add_peer` has consumed yet. -/
structure Room where
  heap : PeerHeap
  game : Game
  handedOut : List GamePeer := []

/-- The settings that the creator's request may carry. -/
structure CreationSettings where
  playerTtl : Option Int := none
  emptyRoomTtl : Option Int := none
  flags : Option UInt8 := none
  checkUserOnJoin : Option Bool := none
  suppressRoomEvents : Option Bool := none
  publishUserId : Option Bool := none
  maxPlayers : Option Value := none

namespace Game

/-- The creator's settings, which the GameServer applies while the lease is active. -/
def applyCreationSettings (h : PeerHeap) (owner : Option PeerRef) (generation : Nat)
    (settings : CreationSettings) (g : Game) : Bool × Game :=
  if g.isCreationActive h owner generation then
    let flags := settings.flags.getD g.flags
    let flags := GameFlag.checkUserOnJoin.assign settings.checkUserOnJoin flags
    let flags := GameFlag.suppressRoomEvents.assign settings.suppressRoomEvents flags
    let flags := GameFlag.publishUserId.assign settings.publishUserId flags
    (true,
      { g with
        playerTtl := settings.playerTtl.getD g.playerTtl
        emptyGameTtl := settings.emptyRoomTtl.getD g.emptyGameTtl
        flags
        maxPeers := (settings.maxPlayers.bind Value.byte?).getD g.maxPeers
        stateRevision := g.stateRevision + 1 })
  else (false, g)

end Game

/-- What can happen to a room.  A peer that `add_peer` is given is named by its place among the
peers that the room has handed out. -/
inductive RoomOp where
  /-- A connection appears. -/
  | connect (peer : PeerRef)
  /-- The persistent part of a connection is set, or moved away. -/
  | setPersistent (peer : PeerRef) (persistent : Option PeerPersistent)
  /-- The `Peer` object of a connection is destroyed. -/
  | disconnect (peer : PeerRef)
  | tryBeginCreation (owner : Option PeerRef)
  | applyCreationSettings (owner : Option PeerRef) (generation : Nat) (settings : CreationSettings)
  | commitCreation (owner : Option PeerRef) (generation : Nat)
  | abortCreationTransaction (owner : Option PeerRef) (generation : Nat)
  | setConfigState (flags : UInt8) (isOpen isVisible : Bool) (maxPeers : UInt8) (masterActor : Int)
  | createPeer (peer : Option PeerRef)
  | createPeerForActor (peer : Option PeerRef) (actorId : Int)
  | addPeer (index : Nat)
  | addPeerForCreation (index : Nat) (owner : Option PeerRef) (generation : Nat)
  | removePeer (peer : Option PeerRef)
  | reserveExpectedUser (userId : String) (ttlMs : Nat)
  | removeExpectedUser (userId : String)
  | removeExpectedUserIfGeneration (userId : String) (generation : Nat)
  | runScheduledTask (task : ScheduledTask)
  | insertGameProps (update : Hashtable)
  | applyGameProps (update : Hashtable) (expected : Option Hashtable)
  | insertActorProps (actorId : Int) (update : Hashtable)
  | applyInterestGroups (peer : Option PeerRef) (add remove : List UInt8)
  /-- The event cache is edited, as the cache operations of `RaiseEvent` do. -/
  | editEventCache (edit : List Event → List Event)
  /-- A plugin sets the TTLs. -/
  | setTtlConfig (playerTtl emptyGameTtl : Int)
  /-- A plugin writes the property table. -/
  | setCustomProps (props : Hashtable)
  /-- A plugin writes the list of lobby properties. -/
  | setLobbyProps (names : List String)
  /-- A plugin writes the dummy count. -/
  | setDummyPeerCount (count : UInt8)
  /-- A `GameUpdate` from another process arrives. -/
  | receiveUpdate (isNew : Bool) (message : GameUpdate)

namespace RoomOp

/-- The connections that the caller of an operation holds pointers to. -/
def caller : RoomOp → Option PeerRef
  | .tryBeginCreation owner | .applyCreationSettings owner _ _ | .commitCreation owner _ => owner
  | .abortCreationTransaction owner _ | .addPeerForCreation _ owner _ => owner
  | .createPeer peer | .createPeerForActor peer _ | .removePeer peer => peer
  | .applyInterestGroups peer _ _ => peer
  | _ => none

end RoomOp

namespace Room

/-- A constructed peer is handed out if it is valid. -/
def handOut (gp : GamePeer) (game : Game) (s : Room) : Room :=
  { s with
    game
    handedOut := if gp.isValid then s.handedOut ++ [gp] else s.handedOut }

/-- A peer that the room has handed out is given back to `add`, which consumes it. -/
def give (index : Nat) (add : GamePeer → Game) (s : Room) : Room :=
  match s.handedOut[index]? with
  | none => s
  | some gp => { s with game := add gp, handedOut := s.handedOut.eraseIdx index }

/-- What an operation does to the room. -/
def perform (settings : AppSettings) (s : Room) : RoomOp → Room
  | .connect peer =>
    if s.heap peer = .unused then { s with heap := Function.update s.heap peer (.live {}) } else s
  | .setPersistent peer persistent =>
    if (s.heap.get peer).isSome then
      { s with heap := Function.update s.heap peer (.live { persistent }) }
    else s
  | .disconnect peer => { s with heap := Function.update s.heap peer .dead }
  | .tryBeginCreation owner => { s with game := (s.game.tryBeginCreation owner).2 }
  | .applyCreationSettings owner generation values =>
    { s with game := (s.game.applyCreationSettings s.heap owner generation values).2 }
  | .commitCreation owner generation =>
    { s with game := (s.game.commitCreation s.heap owner generation).2 }
  | .abortCreationTransaction owner generation =>
    { s with game := (s.game.abortCreationTransaction s.heap owner generation).2 }
  | .setConfigState flags isOpen isVisible maxPeers masterActor =>
    { s with game := s.game.setConfigState flags isOpen isVisible maxPeers masterActor }
  | .createPeer peer => s.handOut (s.game.createPeer s.heap peer).1 (s.game.createPeer s.heap peer).2
  | .createPeerForActor peer actorId =>
    s.handOut (s.game.createPeerForActor s.heap peer actorId) s.game
  | .addPeer index => s.give index fun gp => (s.game.addPeer s.heap gp).2
  | .addPeerForCreation index owner generation =>
    s.give index fun gp => (s.game.addPeerForCreation s.heap gp owner generation).2
  | .removePeer peer => { s with game := (s.game.removePeer s.heap peer).2 }
  | .reserveExpectedUser userId ttlMs =>
    { s with game := (s.game.reserveExpectedUserWithGeneration userId ttlMs).2 }
  | .removeExpectedUser userId => { s with game := s.game.removeExpectedUser userId }
  | .removeExpectedUserIfGeneration userId generation =>
    { s with game := (s.game.removeExpectedUserIfGeneration userId generation).2 }
  | .runScheduledTask task => { s with game := s.game.runScheduledTask task }
  | .insertGameProps update => { s with game := (s.game.insertGameProps settings update).1 }
  | .applyGameProps update expected =>
    { s with game := (s.game.applyGameProps settings update expected).2.1 }
  | .insertActorProps actorId update =>
    { s with game := (s.game.insertActorProps actorId update).2 }
  | .applyInterestGroups peer add remove =>
    { s with game := (s.game.applyInterestGroups s.heap peer add remove).2 }
  | .editEventCache edit =>
    { s with game := { s.game with eventCache := edit s.game.eventCache } }
  | .setTtlConfig playerTtl emptyGameTtl =>
    { s with
      game := { s.game with playerTtl, emptyGameTtl, stateRevision := s.game.stateRevision + 1 } }
  | .setCustomProps props => { s with game := { s.game with customProps := props } }
  | .setLobbyProps names => { s with game := { s.game with lobbyProps := names } }
  | .setDummyPeerCount count => { s with game := { s.game with dummyPeerCount := count } }
  | .receiveUpdate isNew message =>
    { s with game := (s.game.receiveUpdate settings isNew message).1 }

/-- A step of the room.  A caller cannot hold a pointer to a connection that is gone, so such an
operation does not happen. -/
def step (settings : AppSettings) (s : Room) (op : RoomOp) : Room :=
  if s.heap.lock op.caller = op.caller then s.perform settings op else s

/-- A room as its constructor makes it. -/
def IsNew (s : Room) : Prop := s.game = { info := s.game.info } ∧ s.handedOut = []

/-- The room of the constructor, in a process that no one has connected to. -/
def create (info : GameInfo) : Room := { heap := fun _ => .unused, game := { info } }

theorem isNew_create (info : GameInfo) : (create info).IsNew := ⟨rfl, rfl⟩

variable {settings : AppSettings} {s : Room}

/-- An operation that happens is made by a caller whose connection is alive; any other changes
nothing. -/
theorem step_cases (settings : AppSettings) (s : Room) (op : RoomOp) :
    s.step settings op = s ∨
      s.heap.lock op.caller = op.caller ∧ s.step settings op = s.perform settings op := by
  unfold step
  split
  · next hcaller => exact Or.inr ⟨hcaller, rfl⟩
  · exact Or.inl rfl

theorem step_induction {P : Room → Prop} {op : RoomOp} (hs : P s)
    (hop : s.heap.lock op.caller = op.caller → P (s.perform settings op)) :
    P (s.step settings op) := by
  rcases step_cases settings s op with heq | ⟨hcaller, heq⟩
  · rwa [heq]
  · rw [heq]
    exact hop hcaller

@[simp] theorem handOut_game (gp : GamePeer) (game : Game) : (s.handOut gp game).game = game := rfl

@[simp] theorem give_heap (index : Nat) (add : GamePeer → Game) :
    (s.give index add).heap = s.heap := by
  unfold give
  split <;> rfl

theorem give_game_cases (index : Nat) (add : GamePeer → Game) :
    (s.give index add).game = s.game ∨
      ∃ gp ∈ s.handedOut, (s.give index add).game = add gp := by
  unfold give
  split
  · exact Or.inl rfl
  · next gp hgp => exact Or.inr ⟨gp, List.mem_of_getElem? hgp, rfl⟩

/-- `addPeer` leaves the game as it is, or a `GamePeer` that was handed out is in it. -/
theorem addPeer_game_cases (settings : AppSettings) (s : Room) (index : Nat) :
    (s.perform settings (.addPeer index)).game = s.game ∨
      ∃ gp userId, s.handedOut[index]? = some gp ∧ (s.game.addPeer s.heap gp).1 = true ∧
        (s.perform settings (.addPeer index)).game = s.game.emplacePeer gp userId := by
  simp only [perform, give]
  split
  · exact Or.inl rfl
  · next gp hgp =>
    rcases Game.addPeer_cases (h := s.heap) gp s.game with heq | ⟨userId, -, -, -, -, heq⟩
    · exact Or.inl (congrArg Prod.snd heq)
    · exact Or.inr ⟨gp, userId, hgp, congrArg Prod.fst heq, congrArg Prod.snd heq⟩

/-- The same with a lease, whose owner's `GamePeer` it is. -/
theorem addPeerForCreation_game_cases (settings : AppSettings) (s : Room) (index : Nat)
    (owner : Option PeerRef) (generation : Nat) :
    (s.perform settings (.addPeerForCreation index owner generation)).game = s.game ∨
      ∃ gp userId, s.handedOut[index]? = some gp ∧
        (s.game.addPeerForCreation s.heap gp owner generation).1 = true ∧
        s.game.isCreationActive s.heap owner generation = true ∧ gp.peer = owner ∧
        (s.perform settings (.addPeerForCreation index owner generation)).game =
          s.game.emplacePeer gp userId := by
  simp only [perform, give]
  split
  · exact Or.inl rfl
  · next gp hgp =>
    rcases Game.addPeerForCreation_cases s.heap gp owner generation s.game with
      heq | ⟨userId, hactive, howner, -, -, -, heq⟩
    · exact Or.inl (congrArg Prod.snd heq)
    · exact Or.inr ⟨gp, userId, hgp, congrArg Prod.fst heq, hactive, howner,
        congrArg Prod.snd heq⟩

end Room

/-- What may become of the connections: one that is gone stays gone, and none goes back to being
unused. -/
structure PeerHeap.Later (h h' : PeerHeap) : Prop where
  dead : ∀ r, h r = .dead → h' r = .dead
  unused : ∀ r, h' r = .unused → h r = .unused

namespace PeerHeap.Later

variable {h h' : PeerHeap}

theorem refl (h : PeerHeap) : h.Later h := ⟨fun _ hr => hr, fun _ hr => hr⟩

/-- A weak pointer that has expired stays expired. -/
theorem lock_none (hlater : h.Later h') {r : PeerRef} (hr : h r ≠ .unused)
    (hlock : h.lock (some r) = none) : h'.lock (some r) = none := by
  have hdead : h r = .dead := by
    cases hslot : h r with
    | unused => exact absurd hslot hr
    | dead => rfl
    | live peer => simp [lock, get, hslot] at hlock
  simp [lock, get, hlater.dead r hdead]

end PeerHeap.Later

namespace Room

theorem perform_heap (settings : AppSettings) (s : Room) (op : RoomOp) :
    s.heap.Later (s.perform settings op).heap := by
  cases op with
  | connect peer =>
    simp only [perform]
    split
    · next hunused =>
      constructor <;> intro r hr <;> by_cases heq : r = peer
      · simp [heq, hunused] at hr
      · simpa [heq] using hr
      · simp [heq] at hr
      · simpa [heq] using hr
    · exact PeerHeap.Later.refl _
  | setPersistent peer persistent =>
    simp only [perform]
    split
    · next hlive =>
      constructor <;> intro r hr <;> by_cases heq : r = peer
      · simp [heq ▸ hr, PeerHeap.get] at hlive
      · simpa [heq] using hr
      · simp [heq] at hr
      · simpa [heq] using hr
    · exact PeerHeap.Later.refl _
  | disconnect peer =>
    constructor <;> intro r hr <;> by_cases heq : r = peer
    · simp [perform, heq]
    · simpa [perform, heq] using hr
    · simp [perform, heq] at hr
    · simpa [perform, heq] using hr
  | addPeer index | addPeerForCreation index owner generation =>
    simp only [perform, give_heap]
    exact PeerHeap.Later.refl _
  | _ => exact PeerHeap.Later.refl _

end Room

end LuxonServer
