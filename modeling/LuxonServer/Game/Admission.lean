import LuxonServer.Game.Creation

/-! Admission: the check that a join makes first, and the steps that it then takes. -/

namespace LuxonServer.Game

variable (h : PeerHeap)

/-- The head count that `validate_join` predicts for the room after the join. -/
def finalPeerCount (userId : String) (newExpectedUsersCount : Nat) (g : Game) : Nat :=
  let currentCount := g.peers.length + g.dummyPeerCount.toNat
  let neededSlots := (if userId ∈ g.expectedUsers then 0 else 1) + newExpectedUsersCount
  currentCount + g.expectedUsers.card + neededSlots

/-- `validate_join` for a number of further users. -/
def validateJoin (settings : AppSettings) (userId : String) (newExpectedUsersCount : Nat)
    (allowUncreated : Bool) (g : Game) : ErrorCode × String :=
  let count := g.finalPeerCount userId newExpectedUsersCount
  if ¬g.isCreated ∧ ¬allowUncreated then (.gameIdNotExists, "Game does not exist")
  else if ¬g.isOpen then (.gameClosed, "Game is closed")
  else if g.maxPeers > 0 ∧ count > g.maxPeers.toNat then (.gameFull, "Game is full")
  else if settings.maxPeersPerGame ≠ 0 ∧ count > settings.maxPeersPerGame then
    (.gameFull, "Game is full")
  else if count > 0xfe then (.actorListFull, "Game is full")
  else if g.userJoined h userId then (.joinFailedPeerAlreadyJoined, "Game already joined")
  else (.ok, "")

/-- The distinct users of the list that would take a further seat. -/
def uniqueExpected (userId : String) (newExpectedUsers : List String) (g : Game) : List String :=
  (newExpectedUsers.filter fun u => u != "" && u != userId && !decide (u ∈ g.expectedUsers)).dedup

/-- `validate_join` for a list of expected users. -/
def validateJoinWith (settings : AppSettings) (userId : String) (newExpectedUsers : List String)
    (allowUncreated : Bool) (g : Game) : ErrorCode × String :=
  g.validateJoin h settings userId (g.uniqueExpected userId newExpectedUsers).length allowUncreated

/-- One turn of the handler's reservation loop; the list holds the reservations it has made. -/
def reserveForJoin (peer : Option PeerRef) (userId : String)
    (st : List (String × Nat) × Game) (expectedUser : String) : List (String × Nat) × Game :=
  let (added, g) := st
  if expectedUser = "" ∨ expectedUser = userId ∨ (g.findPeer h peer).isSome then (added, g)
  else
    match g.reserveExpectedUserWithGeneration expectedUser 30000 with
    | (some generation, g) => (added ++ [(expectedUser, generation)], g)
    | (none, g) => (added, g)

/-- The reservation loop of a GameServer join. -/
def reserveAllForJoin (peer : Option PeerRef) (userId : String) (expectedUsers : List String)
    (g : Game) : List (String × Nat) × Game :=
  expectedUsers.foldl (reserveForJoin h peer userId) ([], g)

/-- How the admission of a join ends. -/
inductive Admitted where
  /-- The lease is gone; the join is rolled back without an answer. -/
  | leaseLost
  | refused (code : ErrorCode) (message : String)
  | joined (added : List (String × Nat)) (game : Game)

/-- Whether a creator has lost its lease; `lease` is `none` for a join that does not create. -/
def leaseLost (peer : Option PeerRef) (lease : Option Nat) (g : Game) : Bool :=
  lease.any fun generation => !g.isCreationActive h peer generation

/-- The `add_peer` call of the join. -/
def addJoining (peer : Option PeerRef) (lease : Option Nat) (gp : GamePeer) (g : Game) :
    Bool × Game :=
  match lease with
  | some generation => g.addPeerForCreation h gp peer generation
  | none => g.addPeer h gp

/-- What a GameServer join does while it holds the admission lock, for a connection that is up. -/
def admitJoin (settings : AppSettings) (peer : Option PeerRef) (userId : String)
    (expectedUsers : List String) (lease : Option Nat) (g : Game) : Admitted :=
  if g.leaseLost h peer lease then .leaseLost
  else
    match g.validateJoinWith h settings userId expectedUsers lease.isSome with
    | (.ok, _) =>
      let (added, g) := g.reserveAllForJoin h peer userId expectedUsers
      let (gp, g) := g.createPeer h peer
      if !gp.isValid then .refused .gameFull "Unable to allocate an actor"
      else if g.leaseLost h peer lease then .leaseLost
      else
        match g.addJoining h peer lease gp with
        | (true, g) => .joined added g
        | (false, _) => .refused .gameFull "Unable to add player to game"
    | (code, message) => .refused code message

end LuxonServer.Game
