import Mathlib.Data.List.Find
import LuxonServer.Game.Peers

/-! How a plugin puts a peer into a room, through `gameCreatePeer` and `gameAddPeer`, next to how
the server does.  A plugin holds the raw pointer to a connection, and every call wraps it into a
`shared_ptr` with a control block of its own and a deleter that does nothing.  The weak pointers of
a room's nodes therefore name control blocks here: a control block's name is that of the connection
when the connection's own pointer manages it, and a name of its own otherwise. -/

namespace LuxonServer

/-- The pointers to the connections: what a control block's pointers lock to, and the address of
the object behind them.  A control block whose last `shared_ptr` is gone is dead. -/
structure SharedPeers where
  heap : PeerHeap
  address : PeerRef → PeerRef := id

namespace SharedPeers

/-- `std::shared_ptr<server::Peer> sp(p, [](server::Peer *) {})`, with its control block. -/
def wrap (p block : PeerRef) (m : SharedPeers) : SharedPeers where
  heap := Function.update m.heap block (m.heap p)
  address := Function.update m.address block (m.address p)

/-- The end of the scope of the only pointer with a control block. -/
def expire (block : PeerRef) (m : SharedPeers) : SharedPeers :=
  { m with heap := Function.update m.heap block .dead }

/-- `weak.lock() == sp`, which compares addresses; a null pointer is equal to none. -/
def locksTo (sp : PeerRef) (weak : Option PeerRef) (m : SharedPeers) : Bool :=
  (m.heap.lock weak).any fun block => m.address block == m.address sp

end SharedPeers

namespace Game

/-- `find_peer(const std::shared_ptr<Peer>&)`, where several control blocks have one object. -/
def findShared (m : SharedPeers) (sp : PeerRef) (g : Game) : Option GamePeer :=
  g.peers.find? fun gp => gp.active && m.locksTo sp gp.peer

/-- One node in the loop of `remove_peer`. -/
def sweepShared (m : SharedPeers) (flags : UInt8) (sp : PeerRef) (st : Sweep) (gp : GamePeer) :
    Sweep :=
  if (m.heap.lock gp.peer).isNone then
    { st with retired := st.retired ++ [{ gp with active := false }] }
  else if m.locksTo sp gp.peer then
    { st with
      retired := st.retired ++ [{ gp with active := false }]
      leavingActorId := gp.actorId
      eventCache :=
        if GameFlag.deleteCacheOnLeave.isSet flags then dropEventsOf gp.actorId st.eventCache
        else st.eventCache }
  else { st with kept := st.kept ++ [gp] }

/-- `remove_peer`, where several control blocks have one object. -/
def removeShared (m : SharedPeers) (sp : PeerRef) (g : Game) : Bool × Game :=
  let st := g.peers.foldl (sweepShared m g.flags sp) { eventCache := g.eventCache }
  let g :=
    { g with
      peers := st.kept
      retiredPeers := g.retiredPeers ++ st.retired
      eventCache := st.eventCache }
  if st.leavingActorId = 0 then (false, g)
  else
    match g.peers with
    | [] =>
      (true,
        if g.emptyGameTtl > 0 then
          { g with scheduled := g.scheduled ++ [.keepAlive g.emptyGameTtl.toNat] }
        else g)
    | front :: _ =>
      (true,
        if st.leavingActorId = g.masterActor then { g with masterActor := front.actorId } else g)

/-- `create_peer` and `add_peer` with the pointer that owns the connection; the node that is in the
room then. -/
def admitPeer (h : PeerHeap) (r : PeerRef) (g : Game) : Option GamePeer × Game :=
  let (gp, g) := g.createPeer h (some r)
  let (added, g) := g.addPeer h gp
  (if added then some gp else none, g)

end Game

namespace Plugin

/-- `gameCreatePeer`; `block` is the control block of the pointer. -/
def gameCreatePeer (p block : PeerRef) (m : SharedPeers) (g : Game) :
    GamePeer × SharedPeers × Game :=
  let shared := m.wrap p block
  let (gp, g) := g.createPeer shared.heap (some block)
  (gp, shared.expire block, g)

/-- `gameAddPeer`: the node in the room, or a null pointer. -/
def gameAddPeer (m : SharedPeers) (gp : GamePeer) (g : Game) : Option GamePeer × Game :=
  let (added, g) := g.addPeer m.heap gp
  (if added then some gp else none, g)

/-- `gameFindPeerByBasePeer`. -/
def gameFindPeerByBasePeer (p block : PeerRef) (m : SharedPeers) (g : Game) : Option GamePeer :=
  g.findShared (m.wrap p block) block

/-- `gameRemovePeer`. -/
def gameRemovePeer (p block : PeerRef) (m : SharedPeers) (g : Game) : Bool × SharedPeers × Game :=
  let shared := m.wrap p block
  let (removed, g) := g.removeShared shared block
  (removed, shared.expire block, g)

/-- `gameCreatePeer` and then `gameAddPeer`. -/
def admitPeer (p block : PeerRef) (m : SharedPeers) (g : Game) :
    Option GamePeer × SharedPeers × Game :=
  let (gp, m, g) := gameCreatePeer p block m g
  let (node, g) := gameAddPeer m gp g
  (node, m, g)

end Plugin

namespace Game

variable {h : PeerHeap} {r : PeerRef} {userId : String} {g : Game}

/-- Why the server does not let the client in: the room waits for its creation, it has no number for
another actor, or the user is in the room already and the room checks that. -/
def Refuses (h : PeerHeap) (userId : String) (g : Game) : Prop :=
  (g.isCreating ∧ ¬g.isCreated) ∨ g.nextActorId = none ∨ g.userJoined h userId = true

theorem admitPeer_isSome_iff (huser : h.userId (some r) = some userId) :
    (g.admitPeer h r).1.isSome ↔ ¬g.Refuses h userId := by
  obtain ⟨last, hgame⟩ : ∃ last, (g.createPeer h (some r)).2 = { g with lastActorId := last } := by
    rcases createPeer_game h (some r) g with heq | heq
    · exact ⟨g.lastActorId, heq⟩
    · exact ⟨_, heq⟩
  have hnode := createPeer_fst h (some r) g
  rw [huser, Option.elim_some] at hnode
  have hsome : (g.admitPeer h r).1.isSome ↔
      ((g.createPeer h (some r)).2.addPeer h (g.createPeer h (some r)).1).1 = true := by
    simp only [admitPeer]
    split <;> simp_all
  rw [hsome, hgame, hnode, Refuses]
  by_cases hlease : g.isCreating ∧ ¬g.isCreated
  · rw [addPeer, if_pos hlease]
    exact iff_of_false Bool.false_ne_true (not_not_intro (Or.inl hlease))
  rw [addPeer, if_neg hlease]
  cases hnext : g.nextActorId with
  | none => exact iff_of_false Bool.false_ne_true (not_not_intro (Or.inr (Or.inl rfl)))
  | some actorId =>
    obtain ⟨hfree, -⟩ := findActor_nextActorId hnext
    have hactor : (findActor actorId { g with lastActorId := last }).isSome = false := hfree
    have hjoined : userJoined h userId { g with lastActorId := last } =
        g.userJoined h userId := rfl
    simp only [Option.elim_some, huser, hactor, hjoined, hlease]
    cases g.userJoined h userId <;> simp

end Game

namespace Plugin

variable {m : SharedPeers} {p block : PeerRef} {userId : String} {g : Game}

/-- Two active nodes that differ at most in the control block of their pointers. -/
structure SameNode (m : SharedPeers) (node own : GamePeer) : Prop where
  active : node.active = true ∧ own.active = true
  actorId : node.actorId = own.actorId
  actorProps : node.actorProps = own.actorProps
  interestGroups : node.interestGroups = own.interestGroups
  address : (m.heap.lock node.peer).map m.address = (m.heap.lock own.peer).map m.address

/-- The plugin's way into the room is the server's: it lets the same clients in, under the same
node, and the plugin's later calls for the client are about that node. -/
structure Agrees (p block : PeerRef) (m : SharedPeers) (g : Game) : Prop where
  admits : (admitPeer p block m g).1.isSome = (g.admitPeer m.heap p).1.isSome
  acts : ∀ node, (admitPeer p block m g).1 = some node →
    let m' := (admitPeer p block m g).2.1
    let g' := (admitPeer p block m g).2.2
    (∃ own, (g.admitPeer m.heap p).1 = some own ∧ SameNode m' node own) ∧
      ∀ later, m'.heap later = .unused → gameFindPeerByBasePeer p later m' g' = some node ∧
        (gameRemovePeer p later m' g').1 = true ∧
        node.actorId ∉ (gameRemovePeer p later m' g').2.2.actorIds

theorem lock_expire (weak : Option PeerRef) (h : weak = none ∨ weak = some block) :
    (m.expire block).heap.lock weak = none := by
  rcases h with rfl | rfl
  · rfl
  · rw [SharedPeers.expire, PeerHeap.lock, Option.filter_eq_none_iff]
    intro r hr
    cases hr
    simp [PeerHeap.get]

/-- The pointer of a node that `gameCreatePeer` returns has expired when the plugin gets it. -/
theorem userId_gameCreatePeer (p block : PeerRef) (m : SharedPeers) (g : Game) :
    (gameCreatePeer p block m g).2.1.heap.userId (gameCreatePeer p block m g).1.peer = none := by
  have hpeer : (gameCreatePeer p block m g).1.peer = none ∨
      (gameCreatePeer p block m g).1.peer = some block := by
    simp only [gameCreatePeer, Game.createPeer]
    split
    · exact Or.inl rfl
    · split
      · exact Or.inr rfl
      · exact Or.inl rfl
  have hlock : (gameCreatePeer p block m g).2.1.heap.lock (gameCreatePeer p block m g).1.peer =
      none := lock_expire _ hpeer
  rw [PeerHeap.userId, hlock]
  rfl

/-- A plugin never gets a client into a room. -/
theorem admitPeer_eq_none (p block : PeerRef) (m : SharedPeers) (g : Game) :
    (admitPeer p block m g).1 = none := by
  have huser := userId_gameCreatePeer p block m g
  simp only [admitPeer, gameAddPeer, Game.addPeer, huser]
  split <;> simp_all

/-- The two ways into a room agree exactly where the server refuses the client. -/
theorem agrees_iff_refuses (huser : m.heap.userId (some p) = some userId) :
    Agrees p block m g ↔ g.Refuses m.heap userId := by
  have hnone := admitPeer_eq_none p block m g
  have hserver := Game.admitPeer_isSome_iff (g := g) huser
  constructor
  · intro hagrees
    by_contra hadmits
    have hsame := hagrees.admits
    rw [hnone, hserver.mpr hadmits] at hsame
    cases hsame
  · intro hrefuses
    refine ⟨?_, fun node hnode => ?_⟩
    · rw [hnone]
      exact (Bool.eq_false_iff.mpr fun hsome => hserver.mp hsome hrefuses).symm
    · rw [hnone] at hnode
      cases hnode

/-- Ada, connected and authenticated. -/
def onlyAda : SharedPeers where
  heap r :=
    if r = 1 then .live { persistent := some { userId := "ada", token := "a" } } else .unused

/-- A room before anyone has joined it. -/
def openRoom : Game := { info := ⟨"app", "1.0", "lobby", 0, "room", ""⟩, isCreated := true }

/-- A room that is being created lets no one in on either way. -/
theorem agrees_iff_refuses_creating :
    Agrees 1 2 onlyAda { openRoom with isCreating := true, isCreated := false } :=
  have huser : onlyAda.heap.userId (some 1) = some "ada" := by decide
  (agrees_iff_refuses huser).mpr (Or.inl (by decide))

/-- The server lets Ada into an open room, a plugin does not. -/
theorem not_agrees_open : ¬Agrees 1 2 onlyAda openRoom :=
  fun hagrees => absurd hagrees.admits (by decide)

end Plugin

section Addresses

variable {m : SharedPeers} {p block : PeerRef}

/-- Every node whose pointer locks has it from the connection's owner, and the name of the new
control block is on none of them. -/
structure SharedPeers.OwnedNodes (m : SharedPeers) (p block : PeerRef) (g : Game) : Prop where
  owner : m.address p = p
  owned : ∀ gp ∈ g.peers, ∀ r, m.heap.lock gp.peer = some r → m.address r = r
  fresh : ∀ gp ∈ g.peers, gp.peer ≠ some block

theorem lock_wrap {weak : Option PeerRef} (hfresh : weak ≠ some block) :
    (m.wrap p block).heap.lock weak = m.heap.lock weak := by
  cases weak with
  | none => rfl
  | some r =>
    have hne : r ≠ block := fun heq => hfresh (congrArg some heq)
    have hslot : (m.wrap p block).heap r = m.heap r := Function.update_of_ne hne _ _
    have hget : (m.wrap p block).heap.get r = m.heap.get r := by
      rw [PeerHeap.get, hslot, PeerHeap.get]
    simp only [PeerHeap.lock, Option.filter, hget]

/-- A new pointer to the connection is equal to what a node's pointer locks to exactly if the node
is the connection's. -/
theorem SharedPeers.OwnedNodes.locksTo_eq {g : Game} (hm : m.OwnedNodes p block g) {gp : GamePeer}
    (hgp : gp ∈ g.peers) :
    (m.wrap p block).locksTo block gp.peer = (m.heap.lock gp.peer == some p) := by
  have hfresh := hm.fresh gp hgp
  rw [SharedPeers.locksTo, lock_wrap hfresh]
  cases hlock : m.heap.lock gp.peer with
  | none => rfl
  | some r =>
    have hne : r ≠ block := by
      intro heq
      exact hfresh ((PeerHeap.lock_eq_some.mp hlock).1.trans (congrArg some heq))
    simp [SharedPeers.wrap, Function.update_of_ne hne, hm.owner, hm.owned gp hgp r hlock]

/-- On the nodes that the server's own joins have made, `gameFindPeerByBasePeer` finds what the
server finds for the connection. -/
theorem Plugin.gameFindPeerByBasePeer_eq {g : Game} (hm : m.OwnedNodes p block g) :
    gameFindPeerByBasePeer p block m g = g.findPeer m.heap (some p) := by
  refine List.find?_congr fun gp hgp => ?_
  rw [hm.locksTo_eq hgp]

theorem sweepShared_eq {g : Game} (hm : m.OwnedNodes p block g) (flags : UInt8)
    (st : Game.Sweep) {gp : GamePeer} (hgp : gp ∈ g.peers) :
    Game.sweepShared (m.wrap p block) flags block st gp = Game.sweepPeer m.heap flags p st gp := by
  rw [Game.sweepShared, Game.sweepPeer, hm.locksTo_eq hgp, lock_wrap (hm.fresh gp hgp)]
  cases hlock : m.heap.lock gp.peer with
  | none => rfl
  | some r => by_cases hr : r = p <;> simp [hr]

/-- `gameRemovePeer` does to them what `remove_peer` does with the connection's own pointer. -/
theorem Plugin.gameRemovePeer_eq {g : Game} (hm : m.OwnedNodes p block g) :
    (gameRemovePeer p block m g).1 = (g.removePeer m.heap (some p)).1 ∧
      (gameRemovePeer p block m g).2.2 = (g.removePeer m.heap (some p)).2 := by
  have hsweep : g.peers.foldl (Game.sweepShared (m.wrap p block) g.flags block)
      { eventCache := g.eventCache } =
      g.peers.foldl (Game.sweepPeer m.heap g.flags p) { eventCache := g.eventCache } :=
    List.foldl_ext _ _ _ fun st gp hgp => sweepShared_eq hm g.flags st hgp
  have hshared : Game.removeShared (m.wrap p block) block g =
      g.removePeer m.heap (some p) := by
    rw [Game.removeShared, hsweep]
    rfl
  exact ⟨congrArg Prod.fst hshared, congrArg Prod.snd hshared⟩

end Addresses

end LuxonServer
