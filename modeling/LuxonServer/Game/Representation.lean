import LuxonServer.Game.Valid
import LuxonServer.Game.Rollback

/-! The two lists of a room's nodes: the peers, told apart by their numbers and, while the room
checks users, by their users; and the retired ones, which handlers may still point to. -/

namespace LuxonServer

namespace Game

/-- The lists after an operation: a node that leaves the peers is retired as inactive, no retired
node leaves, and a node that comes is one whose user the room does not have. -/
structure Moves (h : PeerHeap) (g g' : Game) : Prop where
  retired : ∃ more, g'.retiredPeers = g.retiredPeers ++ more ∧ ∀ gp ∈ more, gp.active = false
  connections : g'.connections.Sublist g.connections ∨
    ∃ (gp : GamePeer) (userId : String), h.userId gp.peer = some userId ∧
      g.userJoined h userId = false ∧ g'.connections = g.connections ++ [gp.peer]

namespace Moves

variable {h : PeerHeap} {g g' : Game}

theorem of_eq (hretired : g'.retiredPeers = g.retiredPeers)
    (hconnections : g'.connections = g.connections) : Moves h g g' where
  retired := ⟨[], by rw [hretired, List.append_nil], nofun⟩
  connections := Or.inl (hconnections ▸ List.Sublist.refl _)

theorem refl (h : PeerHeap) (g : Game) : Moves h g g := of_eq rfl rfl

theorem seatsOnly (hg : SeatsOnly g g') : Moves h g g' := by
  obtain ⟨_, _, _, _, _, _, rfl⟩ := hg
  exact of_eq rfl rfl

theorem propsOnly (hg : PropsOnly g g') : Moves h g g' := by
  obtain ⟨_, _, _, _, _, _, _, _, _, rfl⟩ := hg
  exact of_eq rfl rfl

theorem emplacePeer {gp : GamePeer} {userId : String} (huser : h.userId gp.peer = some userId)
    (hjoined : g.userJoined h userId = false) : Moves h g (g.emplacePeer gp userId) where
  retired := ⟨[], by simp [emplacePeer_eq], nofun⟩
  connections := Or.inr ⟨gp, userId, huser, hjoined, by simp [Game.connections, emplacePeer_eq]⟩

theorem addPeer (h : PeerHeap) (gp : GamePeer) (g : Game) : Moves h g (g.addPeer h gp).2 := by
  rcases addPeer_cases (h := h) gp g with heq | ⟨userId, huser, -, -, hjoined, heq⟩
  · rw [heq]
    exact refl h g
  · rw [heq]
    exact emplacePeer huser hjoined

theorem addPeerForCreation (h : PeerHeap) (gp : GamePeer) (owner : Option PeerRef)
    (generation : Nat) (g : Game) : Moves h g (g.addPeerForCreation h gp owner generation).2 := by
  rcases addPeerForCreation_cases h gp owner generation g with
    heq | ⟨userId, -, -, huser, -, hjoined, heq⟩
  · rw [heq]
    exact refl h g
  · rw [heq]
    exact emplacePeer huser hjoined

end Moves

section Retiring

variable {h : PeerHeap} {r : PeerRef}

theorem sweep_retired (flags : UInt8) (peers : List GamePeer) (st : Sweep) :
    ∃ more, (peers.foldl (sweepPeer h flags r) st).retired = st.retired ++ more ∧
      ∀ gp ∈ more, gp.active = false := by
  induction peers generalizing st with
  | nil => exact ⟨[], by simp, nofun⟩
  | cons gp peers ih =>
    obtain ⟨more, hmore, hinactive⟩ := ih (sweepPeer h flags r st gp)
    have hfirst : (sweepPeer h flags r st gp).retired = st.retired ∨
        (sweepPeer h flags r st gp).retired = st.retired ++ [{ gp with active := false }] := by
      unfold sweepPeer
      split
      · exact Or.inr rfl
      · split
        · exact Or.inr rfl
        · exact Or.inl rfl
    rw [List.foldl_cons, hmore]
    rcases hfirst with heq | heq
    · exact ⟨more, by rw [heq], hinactive⟩
    · refine ⟨{ gp with active := false } :: more, by rw [heq]; simp, ?_⟩
      intro gp' hgp'
      rcases List.mem_cons.mp hgp' with rfl | hmem
      · rfl
      · exact hinactive gp' hmem

theorem retiredPeers_removePeer (h : PeerHeap) (r : PeerRef) (g : Game) :
    ∃ more, (g.removePeer h (some r)).2.retiredPeers = g.retiredPeers ++ more ∧
      ∀ gp ∈ more, gp.active = false := by
  obtain ⟨more, hmore, hinactive⟩ :=
    sweep_retired (h := h) (r := r) g.flags g.peers { eventCache := g.eventCache }
  refine ⟨more, ?_, hinactive⟩
  rw [List.nil_append] at hmore
  rw [← hmore]
  unfold removePeer
  simp only
  split
  · rfl
  · split
    · split <;> rfl
    · split <;> rfl

theorem connections_removePeer (h : PeerHeap) (peer : Option PeerRef) (g : Game) :
    (g.removePeer h peer).2.connections.Sublist g.connections := by
  cases peer with
  | none => exact List.Sublist.refl _
  | some r =>
    obtain ⟨_, _, _, heq⟩ := removePeer_eq h r g
    rw [heq]
    exact List.filter_sublist.map _

theorem Moves.removePeer (h : PeerHeap) (peer : Option PeerRef) (g : Game) :
    Moves h g (g.removePeer h peer).2 := by
  cases peer with
  | none => exact Moves.refl h g
  | some r => exact ⟨retiredPeers_removePeer h r g, Or.inl (connections_removePeer h (some r) g)⟩

theorem connections_abort (h : PeerHeap) (owner : Option PeerRef) (generation : Nat) (g : Game) :
    (g.abortCreationTransaction h owner generation).2.connections.Sublist g.connections := by
  by_cases hactive : g.isCreationActive h owner generation = true
  · obtain ⟨_, heq⟩ := abortCreationTransaction_eq hactive
    rw [heq]
    exact List.filter_sublist.map _
  · rw [abortCreationTransaction_of_inactive (Bool.eq_false_iff.mpr hactive)]

theorem Moves.abort (h : PeerHeap) (owner : Option PeerRef) (generation : Nat) (g : Game) :
    Moves h g (g.abortCreationTransaction h owner generation).2 := by
  refine ⟨?_, Or.inl (connections_abort h owner generation g)⟩
  by_cases hactive : g.isCreationActive h owner generation = true
  · have hseats := seatsOnly_rollbackSeats h g
    unfold abortCreationTransaction
    rw [if_pos hactive]
    generalize g.rollbackSeats h = g' at hseats ⊢
    obtain ⟨_, _, _, _, _, _, rfl⟩ := hseats
    refine ⟨_, rfl, fun gp hgp => ?_⟩
    obtain ⟨gp', -, rfl⟩ := List.mem_map.mp hgp
    rfl
  · rw [abortCreationTransaction_of_inactive (Bool.eq_false_iff.mpr hactive)]
    exact (Moves.refl h g).retired

theorem Moves.receiveUpdate (h : PeerHeap) (settings : AppSettings) (isNew : Bool)
    (m : GameUpdate) (g : Game) : Moves h g (g.receiveUpdate settings isNew m).1 := by
  have hsame : (g.receiveUpdate settings isNew m).1.retiredPeers = g.retiredPeers ∧
      (g.receiveUpdate settings isNew m).1.connections = g.connections := by
    refine receiveUpdate_induction (P := fun g' =>
      g'.retiredPeers = g.retiredPeers ∧ g'.connections = g.connections) ⟨rfl, rfl⟩
      (fun _ hg => hg) (fun g' users hg => ?_) (fun _ _ hg => hg) (fun g' g'' hg hprops => ?_)
      settings isNew
    · obtain ⟨_, _, _, _, _, _, heq⟩ := seatsOnly_replaceExpectedUsers users g'
      rw [heq]
      exact hg
    · obtain ⟨_, _, _, _, _, _, _, _, _, rfl⟩ := hprops
      exact hg
  exact Moves.of_eq hsame.1 hsame.2

end Retiring

/-- The nodes of a room. -/
structure NodesSound (g : Game) : Prop where
  active : ∀ gp ∈ g.peers, gp.active = true
  range : ∀ gp ∈ g.peers, 1 ≤ gp.actorId ∧ gp.actorId ≤ 0xfe
  distinct : (g.peers.map (·.actorId)).Nodup
  retired : ∀ gp ∈ g.retiredPeers, gp.active = false

end Game

/-- The connection that an operation gives a user. -/
def RoomOp.identifies : RoomOp → Option PeerRef
  | .setPersistent peer (some _) => some peer
  | _ => none

namespace Room

open Game

variable {settings : AppSettings} {s : Room}

/-- What every operation does to the lists. -/
theorem moves_perform (settings : AppSettings) (s : Room) (op : RoomOp) :
    Moves s.heap s.game (s.perform settings op).game := by
  cases op with
  | connect peer | setPersistent peer persistent =>
    simp only [perform]
    split <;> exact Moves.refl _ _
  | addPeer index =>
    rcases give_game_cases (s := s) index fun gp => (s.game.addPeer s.heap gp).2 with
      heq | ⟨gp, -, heq⟩
    · rw [perform, heq]
      exact Moves.refl _ _
    · rw [perform, heq]
      exact Moves.addPeer s.heap gp s.game
  | addPeerForCreation index owner generation =>
    rcases give_game_cases (s := s) index
      fun gp => (s.game.addPeerForCreation s.heap gp owner generation).2 with heq | ⟨gp, -, heq⟩
    · rw [perform, heq]
      exact Moves.refl _ _
    · rw [perform, heq]
      exact Moves.addPeerForCreation s.heap gp owner generation s.game
  | removePeer peer => exact Moves.removePeer s.heap peer s.game
  | abortCreationTransaction owner generation => exact Moves.abort s.heap owner generation s.game
  | createPeer peer =>
    rcases createPeer_game s.heap peer s.game with heq | heq
    · rw [perform, handOut_game, heq]
      exact Moves.refl _ _
    · rw [perform, handOut_game, heq]
      exact Moves.of_eq rfl rfl
  | tryBeginCreation owner =>
    rcases tryBeginCreation_cases owner s.game with heq | ⟨-, -, -, -, heq⟩
    · simp only [perform, heq]
      exact Moves.refl _ _
    · simp only [perform, heq]
      exact Moves.of_eq rfl rfl
  | applyCreationSettings owner generation values =>
    simp only [perform, applyCreationSettings]
    split <;> exact Moves.of_eq rfl rfl
  | commitCreation owner generation =>
    rcases commitCreation_cases s.heap owner generation s.game with heq | ⟨-, -, heq⟩
    · simp only [perform, heq]
      exact Moves.refl _ _
    · simp only [perform, heq]
      exact Moves.of_eq rfl rfl
  | reserveExpectedUser userId ttlMs => exact Moves.seatsOnly (seatsOnly_reserve _ _ _)
  | removeExpectedUser userId => exact Moves.seatsOnly (seatsOnly_remove _ _)
  | removeExpectedUserIfGeneration userId generation =>
    exact Moves.seatsOnly (seatsOnly_removeIfGeneration _ _ _)
  | runScheduledTask task => exact Moves.seatsOnly (seatsOnly_runScheduledTask _ _)
  | insertGameProps update => exact Moves.propsOnly (propsOnly_insertGameProps _ _ _)
  | applyGameProps update expected => exact Moves.propsOnly (propsOnly_applyGameProps _ _ _ _)
  | insertActorProps actorId update =>
    obtain ⟨found, change, hchange, heq⟩ := insertActorProps_eq actorId update s.game
    simp only [perform, heq]
    refine Moves.of_eq rfl (connections_updatePeer (fun gp => ?_) s.game)
    obtain ⟨_, h⟩ := hchange gp
    rw [h]
  | applyInterestGroups peer add remove =>
    obtain ⟨found, change, hchange, heq⟩ := applyInterestGroups_eq s.heap peer add remove s.game
    simp only [perform, heq]
    refine Moves.of_eq rfl (connections_updatePeer (fun gp => ?_) s.game)
    obtain ⟨_, h⟩ := hchange gp
    rw [h]
  | receiveUpdate isNew message => exact Moves.receiveUpdate s.heap settings isNew message s.game
  | _ => exact Moves.of_eq rfl rfl

/-- No two nodes whose connections are alive have one user. -/
def UsersDistinct (s : Room) : Prop :=
  s.game.peers.Pairwise fun a b =>
    ∀ userId, s.heap.userId a.peer = some userId → s.heap.userId b.peer ≠ some userId

instance (h : PeerHeap) (a b : GamePeer) : Decidable
    (∀ userId, h.userId a.peer = some userId → h.userId b.peer ≠ some userId) :=
  decidable_of_iff (∀ userId ∈ h.userId a.peer, h.userId b.peer ≠ some userId) Iff.rfl

instance (s : Room) : Decidable s.UsersDistinct :=
  inferInstanceAs (Decidable (s.game.peers.Pairwise _))

/-- A connection gets its user before it gets into the room. -/
def IdentifiesFirst (s : Room) (op : RoomOp) : Prop :=
  ∀ peer ∈ op.identifies, some peer ∉ s.game.connections

instance (s : Room) (op : RoomOp) : Decidable (s.IdentifiesFirst op) :=
  inferInstanceAs (Decidable (∀ _ ∈ _, _ ∉ _))

def ChecksUsers (s : Room) : Prop := GameFlag.checkUserOnJoin.isSet s.game.flags = true

instance : DecidablePred ChecksUsers := fun s =>
  inferInstanceAs (Decidable (GameFlag.checkUserOnJoin.isSet s.game.flags = true))

theorem usersDistinct_iff : s.UsersDistinct ↔ s.game.connections.Pairwise fun a b =>
    ∀ userId, s.heap.userId a = some userId → s.heap.userId b ≠ some userId := by
  rw [UsersDistinct, connections, List.pairwise_map]

/-- A connection in the room may lose its user, and does not get another. -/
theorem userId_perform {op : RoomOp} (hop : s.IdentifiesFirst op) {c : Option PeerRef}
    (hc : c ∈ s.game.connections) {userId : String}
    (huser : (s.perform settings op).heap.userId c = some userId) :
    s.heap.userId c = some userId := by
  cases op with
  | connect peer =>
    simp only [perform] at huser
    split at huser
    · next hunused =>
      by_cases hpeer : c = some peer
      · simp [hpeer, PeerHeap.userId_some, PeerHeap.get] at huser
      · rwa [PeerHeap.userId_update_of_ne hpeer] at huser
    · exact huser
  | setPersistent peer persistent =>
    simp only [perform] at huser
    split at huser
    · by_cases hpeer : c = some peer
      · subst hpeer
        cases persistent with
        | none => simp [PeerHeap.userId_some, PeerHeap.get] at huser
        | some pp => exact absurd hc (hop peer rfl)
      · rwa [PeerHeap.userId_update_of_ne hpeer] at huser
    · exact huser
  | disconnect peer =>
    simp only [perform] at huser
    by_cases hpeer : c = some peer
    · simp [hpeer, PeerHeap.userId_some, PeerHeap.get] at huser
    · rwa [PeerHeap.userId_update_of_ne hpeer] at huser
  | addPeer index | addPeerForCreation index owner generation =>
    simpa only [perform, give_heap] using huser
  | _ => exact huser

/-- An operation is about the connections or about the room. -/
theorem perform_cases (settings : AppSettings) (s : Room) (op : RoomOp) :
    (s.perform settings op).heap = s.heap ∨ (s.perform settings op).game = s.game := by
  cases op with
  | connect peer | setPersistent peer persistent =>
    right
    simp only [perform]
    split <;> rfl
  | disconnect peer => exact Or.inr rfl
  | addPeer index | addPeerForCreation index owner generation => exact Or.inl (give_heap _ _)
  | _ => exact Or.inl rfl

/-- A node comes only for a user whom no node of the room has. -/
theorem usersDistinct_perform (hs : s.UsersDistinct) {op : RoomOp} (hop : s.IdentifiesFirst op)
    (hchecks : s.ChecksUsers) : (s.perform settings op).UsersDistinct := by
  rw [usersDistinct_iff] at hs ⊢
  rcases perform_cases settings s op with hheap | hgame
  · rw [hheap]
    rcases (moves_perform settings s op).connections with
      hsub | ⟨gp, userId, huser, hjoined, happend⟩
    · exact hs.sublist hsub
    · rw [happend, List.pairwise_append]
      refine ⟨hs, List.pairwise_singleton _ _, ?_⟩
      intro a ha b hb other hother hsame
      rw [List.mem_singleton.mp hb, huser] at hsame
      cases hsame
      obtain ⟨node, hnode, rfl⟩ := List.mem_map.mp ha
      have hany : (s.game.peers.any fun gp => s.heap.userId gp.peer == some userId) = true :=
        List.any_eq_true.mpr ⟨node, hnode, by simp [hother]⟩
      rw [userJoined, hany, Bool.and_true] at hjoined
      exact absurd hchecks (Bool.eq_false_iff.mp hjoined)
  · rw [hgame]
    refine hs.imp_of_mem fun {a b} ha hb hab userId husera huserb => ?_
    exact hab userId (userId_perform hop ha husera) (userId_perform hop hb huserb)

theorem usersDistinct_keeps : Transition.Keeps (step settings)
    (fun s op => s.ChecksUsers ∧ s.IdentifiesFirst op) UsersDistinct :=
  fun _ _ hs hop => step_induction hs fun _ => usersDistinct_perform hs hop.2 hop.1

theorem moves_step (settings : AppSettings) (s : Room) (op : RoomOp) :
    Moves s.heap s.game (s.step settings op).game := by
  rcases step_cases settings s op with heq | ⟨-, heq⟩
  · rw [heq]
    exact Moves.refl _ _
  · rw [heq]
    exact moves_perform settings s op

theorem retiredPeers_prefix (settings : AppSettings) (s : Room) (ops : List RoomOp) :
    s.game.retiredPeers <+: (Transition.run (step settings) s ops).game.retiredPeers := by
  induction ops generalizing s with
  | nil => exact List.prefix_rfl
  | cons op ops ih =>
    obtain ⟨more, hmore, -⟩ := (moves_step settings s op).retired
    exact (hmore ▸ List.prefix_append _ _).trans (ih (s.step settings op))

theorem retired_keeps (B : Room → RoomOp → Prop) : Transition.Keeps (step settings) B
    fun s => ∀ gp ∈ s.game.retiredPeers, gp.active = false := by
  intro s op hs _ gp hgp
  obtain ⟨more, hmore, hinactive⟩ := (moves_step settings s op).retired
  rw [hmore] at hgp
  exact (List.mem_append.mp hgp).elim (hs gp) (hinactive gp)

/-- The lists of a room after any operations, whatever becomes of the connections: the peers are
active and told apart by numbers from `1` to `254`, a retired node is inactive and stays where it
is whatever comes next, and in a room that has checked users throughout no two connections that
are alive have one user. -/
theorem nodes_sound (settings : AppSettings) (heap : PeerHeap) (info : GameInfo)
    (ops : List RoomOp) :
    let new : Room := { heap, game := { info } }
    let s := Transition.run (step settings) new ops
    NodesSound s.game ∧
      (∀ more, s.game.retiredPeers <+:
        (Transition.run (step settings) s more).game.retiredPeers) ∧
      (Transition.Always (step settings) ChecksUsers new ops →
        Transition.EachStep (step settings) IdentifiesFirst new ops → s.UsersDistinct) := by
  intro new s
  have hnew : new.IsNew := ⟨rfl, rfl⟩
  have hreach : Reachable settings s := (Transition.Reachable.init hnew).run
    (Transition.eachStep_of_forall fun _ _ _ => trivial)
  have hactors := hreach.valid.actors
  refine ⟨⟨hactors.active, ?_, hactors.distinct, ?_⟩, ?_, ?_⟩
  · intro gp hgp
    exact hactors.range gp.actorId (List.mem_map_of_mem hgp)
  · exact hreach.invariant (fun s hs => by rw [hs.1]; exact nofun) (retired_keeps _)
  · exact fun more => retiredPeers_prefix settings s more
  · intro hchecks hfirst
    have hdistinct : new.UsersDistinct := List.Pairwise.nil
    exact usersDistinct_keeps.run hdistinct (hchecks.eachStep.and hfirst)

/-- Ada and Bob are in a room, and Bob's connection is lost. -/
theorem nodes_sound_lost_connection :
    UsersDistinct (Transition.run (step {}) (create ⟨"app", "1.0", "lobby", 0, "room", ""⟩)
      [.connect 1, .setPersistent 1 (some { userId := "ada", token := "a" }),
        .connect 2, .setPersistent 2 (some { userId := "bob", token := "b" }),
        .tryBeginCreation (some 1), .createPeer (some 1), .addPeerForCreation 0 (some 1) 1,
        .commitCreation (some 1) 1, .createPeer (some 2), .addPeer 0, .disconnect 2]) :=
  (nodes_sound {} _ _ _).2.2 (by decide) (by decide)

end Room

end LuxonServer
