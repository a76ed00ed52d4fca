import LuxonServer.Game.Lease

/-! The rollback of an attempt to create a room: whatever the owner of the lease has done to the
room in between, an abort takes it back. -/

namespace LuxonServer

/-- The settings of a room that an attempt may change. -/
structure Configuration where
  isCreated : Bool
  flags : UInt8
  isOpen : Bool
  isVisible : Bool
  playerTtl : Int
  emptyGameTtl : Int
  maxPeers : UInt8
  masterActor : Int
  customProps : Hashtable
  lobbyProps : List String
  lastActorId : Int
  dummyPeerCount : UInt8
  eventCache : List Event

/-- The settings of the room. -/
def Game.configuration (g : Game) : Configuration where
  isCreated := g.isCreated
  flags := g.flags
  isOpen := g.isOpen
  isVisible := g.isVisible
  playerTtl := g.playerTtl
  emptyGameTtl := g.emptyGameTtl
  maxPeers := g.maxPeers
  masterActor := g.masterActor
  customProps := g.customProps
  lobbyProps := g.lobbyProps
  lastActorId := g.lastActorId
  dummyPeerCount := g.dummyPeerCount
  eventCache := g.eventCache

/-- The captured settings. -/
def CreationInitial.configuration (initial : CreationInitial) : Configuration where
  isCreated := initial.isCreated
  flags := initial.flags
  isOpen := initial.isOpen
  isVisible := initial.isVisible
  playerTtl := initial.playerTtl
  emptyGameTtl := initial.emptyGameTtl
  maxPeers := initial.maxPeers
  masterActor := initial.masterActor
  customProps := initial.customProps
  lobbyProps := initial.lobbyProps
  lastActorId := initial.lastActorId
  dummyPeerCount := initial.dummyPeerCount
  eventCache := initial.eventCache

/-- What may happen to the room while the owner of a lease works on it: the owner edits the room,
and constructs and adds its own peer; besides, connections come and go and seats are reserved and
given up. -/
def RoomOp.inAttempt (owner : Option PeerRef) (generation : Nat) : RoomOp → Bool
  | .createPeer peer | .createPeerForActor peer _ | .applyInterestGroups peer _ _ => peer == owner
  | .addPeerForCreation _ caller lease => caller == owner && lease == generation
  | .applyCreationSettings caller lease _ => caller == owner && lease == generation
  | .tryBeginCreation _ | .commitCreation _ _ | .abortCreationTransaction _ _ => false
  | .addPeer _ | .removePeer _ | .receiveUpdate _ _ => false
  | _ => true

namespace Game

/-- The connections of the room's nodes. -/
def connections (g : Game) : List (Option PeerRef) := g.peers.map (·.peer)

theorem SeatsOnly.connections {g g' : Game} (hg : SeatsOnly g g') :
    g'.connections = g.connections := by
  obtain ⟨_, _, _, _, _, _, rfl⟩ := hg
  rfl

theorem PropsOnly.connections {g g' : Game} (hg : PropsOnly g g') :
    g'.connections = g.connections := by
  obtain ⟨_, _, _, _, _, _, _, _, _, rfl⟩ := hg
  rfl

theorem connections_updatePeer {found : GamePeer → Bool} {change : GamePeer → GamePeer}
    (hchange : ∀ gp, (change gp).peer = gp.peer) (g : Game) :
    { g with peers := updatePeer found change g.peers }.connections = g.connections :=
  map_updatePeer hchange g.peers

end Game

namespace Room

open Game

variable {settings : AppSettings} {s : Room} {owner : Option PeerRef} {generation : Nat}

/-- In an attempt only the owner's own peer is added. -/
theorem perform_connections (settings : AppSettings) (s : Room) {op : RoomOp}
    (hop : op.inAttempt owner generation) :
    (s.perform settings op).game.connections = s.game.connections ∨
      (s.perform settings op).game.connections = s.game.connections ++ [owner] := by
  cases op with
  | tryBeginCreation | commitCreation | abortCreationTransaction => cases hop
  | addPeer | removePeer | receiveUpdate => cases hop
  | addPeerForCreation index caller lease =>
    obtain ⟨rfl, rfl⟩ : caller = owner ∧ lease = generation := by simpa [RoomOp.inAttempt] using hop
    rcases addPeerForCreation_game_cases settings s index caller lease with
      heq | ⟨gp, userId, -, -, -, hpeer, heq⟩
    · exact Or.inl (congrArg connections heq)
    · right
      simp only [heq, connections, emplacePeer_eq, List.map_append, List.map_cons, List.map_nil,
        hpeer]
  | connect peer | setPersistent peer persistent =>
    left
    simp only [perform]
    split <;> rfl
  | reserveExpectedUser userId ttlMs =>
    exact Or.inl (seatsOnly_reserve _ _ _).connections
  | removeExpectedUser userId => exact Or.inl (seatsOnly_remove _ _).connections
  | removeExpectedUserIfGeneration userId n =>
    exact Or.inl (seatsOnly_removeIfGeneration _ _ _).connections
  | runScheduledTask task => exact Or.inl (seatsOnly_runScheduledTask _ _).connections
  | insertGameProps update => exact Or.inl (propsOnly_insertGameProps _ _ _).connections
  | applyGameProps update expected =>
    exact Or.inl (propsOnly_applyGameProps _ _ _ _).connections
  | insertActorProps actorId update =>
    obtain ⟨found, change, hchange, heq⟩ := insertActorProps_eq actorId update s.game
    left
    simp only [perform, heq]
    exact connections_updatePeer (fun gp => by obtain ⟨_, h⟩ := hchange gp; rw [h]) s.game
  | applyInterestGroups peer add remove =>
    obtain ⟨found, change, hchange, heq⟩ := applyInterestGroups_eq s.heap peer add remove s.game
    left
    simp only [perform, heq]
    exact connections_updatePeer (fun gp => by obtain ⟨_, h⟩ := hchange gp; rw [h]) s.game
  | createPeer peer =>
    left
    rcases createPeer_game s.heap peer s.game with heq | heq <;>
      simp only [perform, handOut_game, heq, connections]
  | applyCreationSettings caller lease values =>
    left
    simp only [perform, applyCreationSettings]
    split <;> rfl
  | _ => exact Or.inl rfl

/-- A room in the middle of an attempt that began with `initial`. -/
def InAttempt (initial : CreationInitial) (owner : Option PeerRef) (s : Room) : Prop :=
  s.game.creationInitial = initial ∧ ∀ peer ∈ s.game.connections, peer = owner

theorem inAttempt_keeps (initial : CreationInitial) :
    Transition.Keeps (step settings) (fun _ op => op.inAttempt owner generation)
      (InAttempt initial owner) := by
  intro s op hs hop
  refine step_induction hs fun _ => ⟨?_, ?_⟩
  · have hlocal : op.isLocal := by
      cases op <;> first | rfl | cases hop
    rcases perform_lease settings s hlocal with
      hlease | ⟨owner', rfl⟩ | ⟨owner', generation', rfl⟩ | ⟨owner', generation', rfl⟩
    · exact (congrArg Lease.creationInitial hlease).trans hs.1
    all_goals cases hop
  · rcases perform_connections settings s hop with heq | heq
    · rw [heq]
      exact hs.2
    · rw [heq]
      intro peer hpeer
      rcases List.mem_append.mp hpeer with hold | hnew
      · exact hs.2 peer hold
      · exact List.mem_singleton.mp hnew

/-- An abort restores what was captured, and empties the room if only the owner was in it. -/
theorem InAttempt.abort {initial : CreationInitial} (hs : InAttempt initial owner s)
    (hactive : s.game.isCreationActive s.heap owner generation = true) :
    (s.game.abortCreationTransaction s.heap owner generation).2.configuration =
        initial.configuration ∧
      (s.game.abortCreationTransaction s.heap owner generation).2.peers = [] := by
  obtain ⟨_, heq⟩ := abortCreationTransaction_eq hactive
  have howner := (isCreationActive_iff.mp hactive).2.1
  rw [heq]
  constructor
  · rw [← hs.1]
    rfl
  · simp only [List.filter_eq_nil_iff, Bool.not_eq_true', Bool.not_eq_false]
    intro gp hgp
    have hpeer : gp.peer = owner := hs.2 gp.peer (List.mem_map_of_mem hgp)
    rw [hpeer, lock_owner_of_active hactive]
    exact Option.isSome_iff_ne_none.mpr howner

/-- Whatever the owner of a lease does to the room, the abort of the lease restores the settings
that the room had before the attempt, and leaves no peer in it. -/
theorem abort_restores (hbegin : (s.game.tryBeginCreation owner).1 ≠ 0) {ops : List RoomOp}
    (hops : ∀ op ∈ ops, op.inAttempt owner (s.game.tryBeginCreation owner).1) :
    let s' := Transition.run (step settings) (s.perform settings (.tryBeginCreation owner)) ops
    let aborted :=
      s'.game.abortCreationTransaction s'.heap owner (s.game.tryBeginCreation owner).1
    aborted.1 = true → aborted.2.configuration = s.game.configuration ∧ aborted.2.peers = [] := by
  intro s' aborted habort
  have hstart : InAttempt s.game.captureInitial owner
      (s.perform settings (.tryBeginCreation owner)) := by
    rcases tryBeginCreation_cases owner s.game with heq | ⟨-, -, -, hempty, heq⟩
    · rw [heq] at hbegin
      exact absurd rfl hbegin
    · simp only [perform, heq]
      exact ⟨rfl, by simp [connections, hempty]⟩
  have hend : InAttempt s.game.captureInitial owner s' :=
    (inAttempt_keeps s.game.captureInitial).run hstart
      (Transition.eachStep_of_forall fun op hop _ => hops op hop)
  have hactive : s'.game.isCreationActive s'.heap owner (s.game.tryBeginCreation owner).1 = true := by
    by_contra hinactive
    simp only [aborted, abortCreationTransaction_of_inactive (Bool.eq_false_iff.mpr hinactive)]
      at habort
    cases habort
  exact hend.abort hactive

/-- The creator of a room renames its lobby properties, hides the room and joins it; the abort takes
all of it back. -/
theorem abort_restores_hidden_room :
    let s := Transition.run (step {}) (create ⟨"app", "1.0", "lobby", 0, "room", ""⟩)
      [.connect 1, .setPersistent 1 (some { userId := "ada", token := "a" })]
    let s' := Transition.run (step {}) (s.perform {} (.tryBeginCreation (some 1)))
      [.setConfigState 7 true false 4 9, .setLobbyProps ["map"], .createPeer (some 1),
        .addPeerForCreation 0 (some 1) 1]
    let aborted := s'.game.abortCreationTransaction s'.heap (some 1) 1
    s'.game.peers.length = 1 ∧ aborted.2.configuration = s.game.configuration ∧
      aborted.2.peers = [] := by
  refine ⟨by decide, ?_⟩
  exact abort_restores (by decide) (by decide) (by decide)

end Room

end LuxonServer
