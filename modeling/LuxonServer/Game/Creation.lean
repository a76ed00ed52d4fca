import LuxonServer.Game.Peers

/-! The creation lease: the first join of a room begins an attempt, and ends it by a commit or by
an abort that rolls the room back. -/

namespace LuxonServer.Game

variable (h : PeerHeap)

/-- The rollback values of the room as it is. -/
def captureInitial (g : Game) : CreationInitial where
  isCreated := g.isCreated
  flags := g.flags
  isOpen := g.isOpen
  isVisible := g.isVisible
  playerTtl := g.playerTtl
  emptyGameTtl := g.emptyGameTtl
  maxPeers := g.maxPeers
  masterActor := g.masterActor
  customProps := g.customProps
  lobbyProps := g.lobbyProps
  lastActorId := g.lastActorId
  dummyPeerCount := g.dummyPeerCount
  eventCache := g.eventCache
  expectedUsers := g.expectedUsers
  expectedUserGenerations := g.expectedUserGenerations
  inactivePlayers := g.inactivePlayers

/-- `try_begin_creation`: the generation of the new lease, or `0`. -/
def tryBeginCreation (owner : Option PeerRef) (g : Game) : Nat × Game :=
  if owner = none ∨ g.isCreated ∨ g.isCreating ∨ g.activePeerCount ≠ 0 then (0, g)
  else
    let generation := g.nextCreationGeneration + 1
    (generation,
      { g with
        creationInitial := g.captureInitial
        isCreating := true
        nextCreationGeneration := generation
        activeCreationGeneration := generation
        stateRevision := g.stateRevision + 1
        creationOwner := owner
        creationReserved := ∅
        creationRemoved := ∅ })

/-- `is_creation_active`. -/
def isCreationActive (owner : Option PeerRef) (generation : Nat) (g : Game) : Bool :=
  g.isCreating && owner != none && generation != 0 && generation == g.activeCreationGeneration &&
    h.lock g.creationOwner == owner

/-- `commit_creation`. -/
def commitCreation (owner : Option PeerRef) (generation : Nat) (g : Game) : Bool × Game :=
  if g.isCreationActive h owner generation && (g.findPeer h owner).isSome then
    (true,
      { g with
        stateRevision := g.stateRevision + 1
        isCreated := true
        creationOwner := none
        isCreating := false })
  else (false, g)

/-- The loop of `abort_creation_transaction` over the peers; as in `remove_peer`, its restarts meet
again only nodes that stay. -/
def retireLive (g : Game) : Game :=
  let live (gp : GamePeer) : Bool := (h.lock gp.peer).isSome
  { g with
    peers := g.peers.filter fun gp => !live gp
    retiredPeers :=
      g.retiredPeers ++ (g.peers.filter live).map fun gp => { gp with active := false } }

/-- The reservations that the attempt is on record for are released. -/
def releaseReserved (g : Game) : Game :=
  g.creationReserved.entries.foldl
    (fun g entry => (g.removeExpectedUserIfGeneration entry.1 entry.2).2) g

/-- The users whose earlier reservations ended during the attempt are expected again. -/
def restoreRemoved (g : Game) : Game :=
  g.creationRemoved.entries.foldl
    (fun g entry =>
      if entry.1 ∈ g.expectedUsers then g
      else (g.reserveExpectedUserWithGeneration entry.1 30000).2) g

/-- The room without its live peers and with the reservations as the log says they were. -/
def rollbackSeats (g : Game) : Game :=
  { g.retireLive h with inactivePlayers := g.creationInitial.inactivePlayers
  }.releaseReserved.restoreRemoved

/-- The room's settings, its properties and its cache as they were captured. -/
def restoreInitial (g : Game) : Game :=
  { g with
    flags := g.creationInitial.flags
    isOpen := g.creationInitial.isOpen
    isVisible := g.creationInitial.isVisible
    playerTtl := g.creationInitial.playerTtl
    emptyGameTtl := g.creationInitial.emptyGameTtl
    maxPeers := g.creationInitial.maxPeers
    masterActor := g.creationInitial.masterActor
    customProps := g.creationInitial.customProps
    lobbyProps := g.creationInitial.lobbyProps
    lastActorId := g.creationInitial.lastActorId
    dummyPeerCount := g.creationInitial.dummyPeerCount
    eventCache := g.creationInitial.eventCache }

/-- `abort_creation_transaction`. -/
def abortCreationTransaction (owner : Option PeerRef) (generation : Nat) (g : Game) :
    Bool × Game :=
  if g.isCreationActive h owner generation then
    let g := g.rollbackSeats h
    let g := { g with creationReserved := ∅, creationRemoved := ∅ }.restoreInitial
    (true,
      { g with
        stateRevision := g.stateRevision + 1
        creationOwner := none
        isCreated := g.creationInitial.isCreated
        isCreating := false })
  else (false, g)

/-- `add_peer_for_creation`; `false` for a null result. -/
def addPeerForCreation (gp : GamePeer) (owner : Option PeerRef) (generation : Nat) (g : Game) :
    Bool × Game :=
  if g.isCreationActive h owner generation then
    match h.userId gp.peer with
    | none => (false, g)
    | some userId =>
      if gp.peer ≠ owner ∨ (g.findActor gp.actorId).isSome then (false, g)
      else if g.userJoined h userId then (false, g)
      else (true, g.emplacePeer gp userId)
  else (false, g)

variable {h : PeerHeap} {owner : Option PeerRef} {generation : Nat} {g : Game}

/-- An attempt begins in a room that is idle and empty, and nothing changes otherwise. -/
theorem tryBeginCreation_cases (owner : Option PeerRef) (g : Game) :
    g.tryBeginCreation owner = (0, g) ∨
      owner ≠ none ∧ g.isCreated = false ∧ g.isCreating = false ∧ g.peers = [] ∧
        g.tryBeginCreation owner =
          (g.nextCreationGeneration + 1,
            { g with
              creationInitial := g.captureInitial
              isCreating := true
              nextCreationGeneration := g.nextCreationGeneration + 1
              activeCreationGeneration := g.nextCreationGeneration + 1
              stateRevision := g.stateRevision + 1
              creationOwner := owner
              creationReserved := ∅
              creationRemoved := ∅ }) := by
  unfold tryBeginCreation
  split
  · exact Or.inl rfl
  · next hidle =>
    simp only [not_or, Bool.not_eq_true, ne_eq, not_not, activePeerCount] at hidle
    exact Or.inr ⟨hidle.1, hidle.2.1, hidle.2.2.1, List.length_eq_zero_iff.mp hidle.2.2.2, rfl⟩

theorem isCreationActive_iff : g.isCreationActive h owner generation = true ↔
    g.isCreating = true ∧ owner ≠ none ∧ generation ≠ 0 ∧
      generation = g.activeCreationGeneration ∧ h.lock g.creationOwner = owner := by
  simp [isCreationActive, and_assoc]

theorem lock_owner_of_active (hactive : g.isCreationActive h owner generation = true) :
    h.lock owner = owner := by
  obtain ⟨-, howner, -, -, hlock⟩ := isCreationActive_iff.mp hactive
  rcases h.lock_eq_self_or_none g.creationOwner with hself | hnone
  · rw [← hlock, hself, hself]
  · exact absurd (hlock.symm.trans hnone) howner

/-- A commit ends the lease of an owner who is in the room, and nothing changes otherwise. -/
theorem commitCreation_cases (h : PeerHeap) (owner : Option PeerRef) (generation : Nat)
    (g : Game) :
    g.commitCreation h owner generation = (false, g) ∨
      g.isCreationActive h owner generation = true ∧ (g.findPeer h owner).isSome = true ∧
        g.commitCreation h owner generation =
          (true,
            { g with
              stateRevision := g.stateRevision + 1
              isCreated := true
              creationOwner := none
              isCreating := false }) := by
  unfold commitCreation
  split
  · next hactive =>
    rw [Bool.and_eq_true] at hactive
    exact Or.inr ⟨hactive.1, hactive.2, rfl⟩
  · exact Or.inl rfl

theorem addPeerForCreation_cases (h : PeerHeap) (gp : GamePeer) (owner : Option PeerRef)
    (generation : Nat) (g : Game) :
    g.addPeerForCreation h gp owner generation = (false, g) ∨
      ∃ userId, g.isCreationActive h owner generation = true ∧ gp.peer = owner ∧
        h.userId gp.peer = some userId ∧ (g.findActor gp.actorId).isSome = false ∧
        g.userJoined h userId = false ∧
        g.addPeerForCreation h gp owner generation = (true, g.emplacePeer gp userId) := by
  unfold addPeerForCreation
  by_cases hactive : g.isCreationActive h owner generation
  · rw [if_pos hactive]
    cases hu : h.userId gp.peer with
    | none => exact Or.inl rfl
    | some userId =>
      by_cases howner : gp.peer = owner
      · cases hactor : (g.findActor gp.actorId).isSome with
        | true => exact Or.inl (by simp)
        | false =>
          cases hjoined : g.userJoined h userId with
          | true => exact Or.inl (by simp [hjoined])
          | false =>
            exact Or.inr ⟨userId, hactive, howner, rfl, rfl, hjoined, by simp [howner, hjoined]⟩
      · exact Or.inl (by simp [howner])
  · exact Or.inl (if_neg hactive)

section Rollback

theorem seatsOnly_releaseReserved (g : Game) : SeatsOnly g g.releaseReserved :=
  List.foldlRecOn _ _ (SeatsOnly.refl g) fun _ hg entry _ =>
    hg.trans (seatsOnly_removeIfGeneration entry.1 entry.2 _)

theorem seatsOnly_restoreRemoved (g : Game) : SeatsOnly g g.restoreRemoved := by
  apply List.foldlRecOn _ _ (SeatsOnly.refl g)
  intro g' hg entry _
  split
  · exact hg
  · exact hg.trans (seatsOnly_reserve entry.1 30000 g')

theorem seatsOnly_rollbackSeats (h : PeerHeap) (g : Game) :
    SeatsOnly { g.retireLive h with inactivePlayers := g.creationInitial.inactivePlayers }
      (g.rollbackSeats h) :=
  (seatsOnly_releaseReserved _).trans (seatsOnly_restoreRemoved _)

theorem abortCreationTransaction_eq (hactive : g.isCreationActive h owner generation = true) :
    ∃ retiredPeers,
      g.abortCreationTransaction h owner generation =
        (true,
          { g with
            flags := g.creationInitial.flags
            isCreated := g.creationInitial.isCreated
            isOpen := g.creationInitial.isOpen
            isVisible := g.creationInitial.isVisible
            playerTtl := g.creationInitial.playerTtl
            emptyGameTtl := g.creationInitial.emptyGameTtl
            maxPeers := g.creationInitial.maxPeers
            masterActor := g.creationInitial.masterActor
            lastActorId := g.creationInitial.lastActorId
            expectedUsers := (g.rollbackSeats h).expectedUsers
            expectedUserGenerations := (g.rollbackSeats h).expectedUserGenerations
            nextExpectedUserGeneration := (g.rollbackSeats h).nextExpectedUserGeneration
            customProps := g.creationInitial.customProps
            lobbyProps := g.creationInitial.lobbyProps
            eventCache := g.creationInitial.eventCache
            inactivePlayers := g.creationInitial.inactivePlayers
            creationReserved := ∅
            creationRemoved := ∅
            isCreating := false
            creationOwner := none
            stateRevision := g.stateRevision + 1
            peers := g.peers.filter fun gp => !(h.lock gp.peer).isSome
            retiredPeers
            dummyPeerCount := g.creationInitial.dummyPeerCount
            scheduled := (g.rollbackSeats h).scheduled }) := by
  have hseats := seatsOnly_rollbackSeats h g
  unfold abortCreationTransaction
  rw [if_pos hactive]
  generalize g.rollbackSeats h = g' at hseats ⊢
  obtain ⟨users, generations, next, reserved, removed, scheduled, rfl⟩ := hseats
  exact ⟨_, rfl⟩

theorem abortCreationTransaction_of_inactive
    (hactive : g.isCreationActive h owner generation = false) :
    g.abortCreationTransaction h owner generation = (false, g) := by
  simp [abortCreationTransaction, hactive]

end Rollback

end LuxonServer.Game
