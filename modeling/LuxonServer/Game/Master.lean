import LuxonServer.Game.Valid
import LuxonServer.Game.Lease

/-! The master of a room, and the runs in which it stays one of the room's actors. -/

namespace LuxonServer

namespace Game

/-- What the master depends on: whether the room is created, who is in it, and who the master is. -/
structure Mastery where
  isCreated : Bool
  masterActor : Int
  actorIds : List Int

/-- The mastery of the room. -/
def mastery (g : Game) : Mastery where
  isCreated := g.isCreated
  masterActor := g.masterActor
  actorIds := g.actorIds

theorem SeatsOnly.mastery {g g' : Game} (hg : SeatsOnly g g') : g'.mastery = g.mastery := by
  obtain ⟨_, _, _, _, _, _, rfl⟩ := hg
  rfl

theorem PropsOnly.mastery {g g' : Game} (hg : PropsOnly g g')
    (hmaster : GameProp.masterClientId.read g' = GameProp.masterClientId.read g) :
    g'.mastery = g.mastery := by
  obtain ⟨_, _, _, _, _, _, _, _, _, rfl⟩ := hg
  have heq := Value.int32.inj hmaster
  simp only at heq
  rw [Game.mastery, Game.mastery, heq]
  rfl

theorem mastery_updatePeer {found : GamePeer → Bool} {change : GamePeer → GamePeer}
    (hchange : ∀ gp, (change gp).actorId = gp.actorId) (g : Game) :
    { g with peers := updatePeer found change g.peers }.mastery = g.mastery := by
  simp only [mastery, actorIds, map_updatePeer hchange]

end Game

namespace Room

open Game

/-- In a created room that someone is in, the master is one of the actors. -/
def MasterValid (s : Room) : Prop :=
  s.game.isCreated = true → s.game.actorIds ≠ [] → s.game.masterActor ∈ s.game.actorIds

instance (s : Room) : Decidable s.MasterValid := inferInstanceAs (Decidable (_ → _ → _))

/-- The operations of the room's own process that do not name a master themselves. -/
def leavesMaster (s : Room) : RoomOp → Bool
  | .insertGameProps update | .applyGameProps update _ =>
    decide (Value.byte GameProp.masterClientId.code ∉ update)
  | .setConfigState _ _ _ _ masterActor => masterActor == s.game.masterActor
  | .receiveUpdate _ _ => false
  | _ => true

/-- When a step keeps the master valid.  A client that comes into an empty room has the master's
number; a lease is committed with the master in the room; and when someone leaves others behind,
the master stays or is the one who leaves. -/
def MasterKept (s : Room) : RoomOp → Prop
  | .addPeer index => s.game.isCreated = true → s.game.peers = [] →
    ∀ gp, s.handedOut[index]? = some gp → (s.heap.userId gp.peer).isSome = true →
      gp.actorId = s.game.masterActor
  | .commitCreation owner generation => s.game.isCreationActive s.heap owner generation = true →
    (s.game.findPeer s.heap owner).isSome = true → s.game.masterActor ∈ s.game.actorIds
  | .removePeer (some r) => (s.heap.get r).isSome = true → s.game.isCreated = true →
    (∃ gp ∈ s.game.peers, stays s.heap r gp = true) →
      (∃ gp ∈ s.game.peers, stays s.heap r gp = true ∧ gp.actorId = s.game.masterActor) ∨
        leavingActor s.heap r s.game.peers = s.game.masterActor
  | _ => True

variable {settings : AppSettings} {s : Room}

/-- The other operations leave the mastery alone. -/
theorem perform_mastery (settings : AppSettings) {op : RoomOp} (hop : s.leavesMaster op = true) :
    (s.perform settings op).game.mastery = s.game.mastery ∨
      (∃ index, op = .addPeer index) ∨
      (∃ index owner generation, op = .addPeerForCreation index owner generation) ∨
      (∃ peer, op = .removePeer peer) ∨
      (∃ owner generation, op = .commitCreation owner generation) ∨
      ∃ owner generation, op = .abortCreationTransaction owner generation := by
  cases op with
  | addPeer index => exact Or.inr (Or.inl ⟨_, rfl⟩)
  | addPeerForCreation index owner generation => exact Or.inr (Or.inr (Or.inl ⟨_, _, _, rfl⟩))
  | removePeer peer => exact Or.inr (Or.inr (Or.inr (Or.inl ⟨_, rfl⟩)))
  | commitCreation owner generation =>
    exact Or.inr (Or.inr (Or.inr (Or.inr (Or.inl ⟨_, _, rfl⟩))))
  | abortCreationTransaction owner generation =>
    exact Or.inr (Or.inr (Or.inr (Or.inr (Or.inr ⟨_, _, rfl⟩))))
  | receiveUpdate isNew message => cases hop
  | connect peer | setPersistent peer persistent =>
    left
    simp only [perform]
    split <;> rfl
  | tryBeginCreation owner =>
    left
    rcases tryBeginCreation_cases owner s.game with heq | ⟨-, -, -, -, heq⟩
    · simp only [perform, heq]
    · simp only [perform, heq]
      rfl
  | applyCreationSettings caller lease values =>
    left
    simp only [perform, applyCreationSettings]
    split <;> rfl
  | setConfigState flags isOpen isVisible maxPeers masterActor =>
    left
    have hmaster : masterActor = s.game.masterActor := by simpa [leavesMaster] using hop
    simp only [perform, setConfigState, hmaster]
    rfl
  | createPeer peer =>
    left
    rcases createPeer_game s.heap peer s.game with heq | heq
    · simp only [perform, handOut_game, heq]
    · simp only [perform, handOut_game, heq]
      rfl
  | reserveExpectedUser userId ttlMs => exact Or.inl (seatsOnly_reserve _ _ _).mastery
  | removeExpectedUser userId => exact Or.inl (seatsOnly_remove _ _).mastery
  | removeExpectedUserIfGeneration userId n =>
    exact Or.inl (seatsOnly_removeIfGeneration _ _ _).mastery
  | runScheduledTask task => exact Or.inl (seatsOnly_runScheduledTask _ _).mastery
  | insertGameProps update =>
    have hkey : Value.byte GameProp.masterClientId.code ∉ update := by
      simpa [leavesMaster] using hop
    exact Or.inl ((propsOnly_insertGameProps _ _ _).mastery
      (read_insertGameProps settings hkey s.game))
  | applyGameProps update expected =>
    have hkey : Value.byte GameProp.masterClientId.code ∉ update := by
      simpa [leavesMaster] using hop
    exact Or.inl ((propsOnly_applyGameProps _ _ _ _).mastery
      (read_applyGameProps settings hkey expected s.game))
  | insertActorProps actorId update =>
    obtain ⟨found, change, hchange, heq⟩ := insertActorProps_eq actorId update s.game
    left
    simp only [perform, heq]
    exact mastery_updatePeer (fun gp => by obtain ⟨_, h⟩ := hchange gp; rw [h]) s.game
  | applyInterestGroups peer add remove =>
    obtain ⟨found, change, hchange, heq⟩ := applyInterestGroups_eq s.heap peer add remove s.game
    left
    simp only [perform, heq]
    exact mastery_updatePeer (fun gp => by obtain ⟨_, h⟩ := hchange gp; rw [h]) s.game
  | _ => exact Or.inl rfl

theorem masterValid_congr {s' : Room} (heq : s'.game.mastery = s.game.mastery) :
    s'.MasterValid ↔ s.MasterValid := by
  simp only [mastery, Mastery.mk.injEq] at heq
  rw [MasterValid, MasterValid, heq.1, heq.2.1, heq.2.2]

theorem masterValid_of_uncreated (hcreated : s.game.isCreated = false) : s.MasterValid := by
  intro htrue
  rw [hcreated] at htrue
  cases htrue

theorem addPeer_masterValid_iff (hs : s.MasterValid) (index : Nat) :
    (s.perform settings (.addPeer index)).MasterValid ↔ s.MasterKept (.addPeer index) := by
  by_cases hcreated : s.game.isCreated = true
  swap
  · -- a room that is not created says nothing about its master
    have hafter : (s.perform settings (.addPeer index)).game.isCreated = s.game.isCreated := by
      rcases give_game_cases (s := s) index fun gp => (s.game.addPeer s.heap gp).2 with
        heq | ⟨gp, -, heq⟩
      · simp only [perform, heq]
      · simp only [perform, heq]
        exact congrArg Lease.isCreated (addPeer_lease gp s.game)
    exact iff_of_true
      (masterValid_of_uncreated (hafter.trans (Bool.eq_false_iff.mpr hcreated)))
      fun htrue => absurd htrue hcreated
  cases hgp : s.handedOut[index]? with
  | none =>
    have hsame : s.perform settings (.addPeer index) = s := by simp [perform, give, hgp]
    rw [hsame]
    exact iff_of_true hs fun _ _ gp hgp' => by rw [hgp] at hgp'; cases hgp'
  | some gp =>
    have hgame : (s.perform settings (.addPeer index)).game = (s.game.addPeer s.heap gp).2 := by
      simp [perform, give, hgp]
    by_cases hempty : s.game.peers = []
    · have hids : s.game.actorIds = [] := by rw [actorIds, hempty]; rfl
      cases huser : s.heap.userId gp.peer with
      | none =>
        have hrefused : s.game.addPeer s.heap gp = (false, s.game) := by simp [addPeer, huser]
        rw [hrefused] at hgame
        apply iff_of_true ((masterValid_congr (by rw [hgame])).mpr hs)
        intro _ _ gp' hgp' hlive
        rw [hgp] at hgp'
        cases hgp'
        rw [huser] at hlive
        cases hlive
      | some userId =>
        have hadded : s.game.addPeer s.heap gp = (true, s.game.emplacePeer gp userId) := by
          simp [addPeer, huser, hcreated, findActor, userJoined, hempty]
        rw [hadded] at hgame
        have hafter : (s.perform settings (.addPeer index)).game.actorIds = [gp.actorId] := by
          rw [hgame, emplacePeer_eq]
          simp [actorIds, hempty]
        have hmaster : (s.perform settings (.addPeer index)).game.masterActor =
            s.game.masterActor := by
          rw [hgame, emplacePeer_eq]
        have hstill : (s.perform settings (.addPeer index)).game.isCreated = true := by
          rw [hgame, emplacePeer_eq]
          exact hcreated
        rw [MasterValid, hafter, hmaster, hstill, List.mem_singleton]
        constructor
        · intro hvalid _ _ gp' hgp' _
          rw [hgp] at hgp'
          cases hgp'
          exact (hvalid rfl (List.cons_ne_nil _ _)).symm
        · intro hkept _ _
          exact (hkept hcreated hempty gp hgp (by rw [huser]; rfl)).symm
    · have hmem : s.game.masterActor ∈ s.game.actorIds :=
        hs hcreated (by simpa [actorIds] using hempty)
      refine iff_of_true ?_ fun _ hnil => absurd hnil hempty
      rcases addPeer_cases (h := s.heap) gp s.game with heq | ⟨userId, -, -, -, -, heq⟩
      · exact (masterValid_congr (by rw [hgame, heq])).mpr hs
      · intro _ _
        rw [hgame, heq, emplacePeer_eq]
        simp only [actorIds, List.map_append] at hmem ⊢
        exact List.mem_append_left _ hmem

theorem commitCreation_masterValid_iff (hs : s.MasterValid) (owner : Option PeerRef)
    (generation : Nat) :
    (s.perform settings (.commitCreation owner generation)).MasterValid ↔
      s.MasterKept (.commitCreation owner generation) := by
  rcases commitCreation_cases s.heap owner generation s.game with heq | ⟨hactive, hfound, heq⟩
  · have hnot : ¬(s.game.isCreationActive s.heap owner generation = true ∧
        (s.game.findPeer s.heap owner).isSome = true) := by
      intro hboth
      simp [commitCreation, hboth.1, hboth.2] at heq
    apply iff_of_true ((masterValid_congr (by simp only [perform, heq])).mpr hs)
    exact fun hactive hfound => absurd ⟨hactive, hfound⟩ hnot
  · obtain ⟨gp, hgp, -, -⟩ := findPeer_isSome.mp hfound
    have hsome : s.game.actorIds ≠ [] := List.ne_nil_of_mem (List.mem_map_of_mem hgp)
    have hafter : (s.perform settings (.commitCreation owner generation)).game.mastery =
        { s.game.mastery with isCreated := true } := by
      simp only [perform, heq]
      rfl
    simp only [mastery, Mastery.mk.injEq] at hafter
    simp only [MasterValid, hafter.1, hafter.2.1, hafter.2.2, MasterKept, hactive, hfound,
      forall_const]
    exact ⟨fun hvalid => hvalid hsome, fun hmem _ => hmem⟩

theorem removePeer_masterValid_iff (hs : s.MasterValid) (hvalid : s.Valid) {r : PeerRef}
    (hlive : (s.heap.get r).isSome = true) :
    (s.perform settings (.removePeer (some r))).MasterValid ↔
      s.MasterKept (.removePeer (some r)) := by
  obtain ⟨_, _, _, heq⟩ := removePeer_eq s.heap r s.game
  have hgame : (s.perform settings (.removePeer (some r))).game =
      (s.game.removePeer s.heap (some r)).2 := rfl
  rw [heq] at hgame
  by_cases hcreated : s.game.isCreated = true
  swap
  · refine iff_of_true (masterValid_of_uncreated ?_) fun _ htrue => absurd htrue hcreated
    rw [hgame]
    exact Bool.eq_false_iff.mpr hcreated
  simp only [MasterKept, hlive, hcreated, forall_const]
  cases hkept : s.game.peers.filter (stays s.heap r) with
  | nil =>
    refine iff_of_true ?_ ?_
    · intro _ hsome
      simp [hgame, actorIds, hkept] at hsome
    · rintro ⟨gp, hgp, hstays⟩
      exact absurd (List.filter_eq_nil_iff.mp hkept gp hgp) (by simp [hstays])
  | cons front rest =>
    have hfront : front ∈ s.game.peers.filter (stays s.heap r) := hkept ▸ List.mem_cons_self
    obtain ⟨hfrontMem, hfrontStays⟩ := List.mem_filter.mp hfront
    have hmaster : s.game.masterActor ∈ s.game.actorIds :=
      hs hcreated (List.ne_nil_of_mem (List.mem_map_of_mem hfrontMem))
    have hpos := (hvalid.actors.range _ hmaster).1
    have hstayed : (∃ gp ∈ s.game.peers, stays s.heap r gp = true ∧
        gp.actorId = s.game.masterActor) ↔
        s.game.masterActor ∈ (front :: rest).map (·.actorId) := by
      rw [← hkept, List.mem_map]
      simp only [List.mem_filter, and_assoc]
    have hpremise : ∃ gp ∈ s.game.peers, stays s.heap r gp = true :=
      ⟨front, hfrontMem, hfrontStays⟩
    simp only [hpremise, forall_const, hstayed]
    simp only [MasterValid, hgame, hkept, actorIds, hcreated, forall_const, ne_eq, List.map_cons,
      reduceCtorEq, not_false_eq_true, masterAfter]
    by_cases hleaving : leavingActor s.heap r s.game.peers = s.game.masterActor
    · have hzero : leavingActor s.heap r s.game.peers ≠ 0 := by omega
      simp [hleaving, hleaving ▸ hzero]
    · simp [hleaving]

theorem addPeerForCreation_masterValid (hlease : s.LeaseSound) (hs : s.MasterValid) (index : Nat)
    (owner : Option PeerRef) (generation : Nat) :
    (s.perform settings (.addPeerForCreation index owner generation)).MasterValid := by
  rcases addPeerForCreation_game_cases settings s index owner generation with
    heq | ⟨gp, userId, -, -, hactive, -, heq⟩
  · exact (masterValid_congr (congrArg Game.mastery heq)).mpr hs
  · apply masterValid_of_uncreated
    rw [heq, emplacePeer_eq]
    exact (hlease.creating (isCreationActive_iff.mp hactive).1).1

theorem abort_masterValid (hlease : s.LeaseSound) (hs : s.MasterValid) (owner : Option PeerRef)
    (generation : Nat) :
    (s.perform settings (.abortCreationTransaction owner generation)).MasterValid := by
  by_cases hactive : s.game.isCreationActive s.heap owner generation = true
  · obtain ⟨_, heq⟩ := abortCreationTransaction_eq hactive
    apply masterValid_of_uncreated
    simp only [perform, heq]
    exact (hlease.creating (isCreationActive_iff.mp hactive).1).2
  · have heq := abortCreationTransaction_of_inactive (Bool.eq_false_iff.mpr hactive)
    exact (masterValid_congr (by simp only [perform, heq])).mpr hs

/-- Every step keeps the master valid exactly if it meets its condition. -/
theorem step_masterValid_iff (hlease : s.LeaseSound) (hvalid : s.Valid) (hs : s.MasterValid)
    {op : RoomOp} (hop : s.leavesMaster op = true) :
    (s.step settings op).MasterValid ↔ s.MasterKept op := by
  by_cases hcaller : s.heap.lock op.caller = op.caller
  · have hstep : s.step settings op = s.perform settings op := if_pos hcaller
    rw [hstep]
    cases op with
    | addPeer index => exact addPeer_masterValid_iff hs index
    | commitCreation owner generation => exact commitCreation_masterValid_iff hs owner generation
    | removePeer peer =>
      cases peer with
      | none => exact iff_of_true hs trivial
      | some r => exact removePeer_masterValid_iff hs hvalid (PeerHeap.lock_eq_some.mp hcaller).2
    | addPeerForCreation index owner generation =>
      exact iff_of_true (addPeerForCreation_masterValid hlease hs index owner generation) trivial
    | abortCreationTransaction owner generation =>
      exact iff_of_true (abort_masterValid hlease hs owner generation) trivial
    | _ =>
      have heq := perform_mastery settings hop
      simp only [reduceCtorEq, exists_false, or_false] at heq
      exact iff_of_true ((masterValid_congr heq).mpr hs) trivial
  · have hstep : s.step settings op = s := if_neg hcaller
    rw [hstep]
    apply iff_of_true hs
    cases op with
    | commitCreation owner generation =>
      exact fun hactive _ => absurd (lock_owner_of_active hactive) hcaller
    | removePeer peer =>
      cases peer with
      | none => trivial
      | some r => exact fun hlive => absurd (PeerHeap.lock_eq_some.mpr ⟨rfl, hlive⟩) hcaller
    | addPeer index => exact absurd rfl hcaller
    | _ => trivial

/-- In a run of a new room in which no one names a master, the master is valid throughout exactly
if every step meets its condition. -/
theorem master_valid_iff (hnew : s.IsNew) {ops : List RoomOp}
    (hops : Transition.EachStep (step settings) (fun s op => s.leavesMaster op = true) s ops) :
    Transition.Always (step settings) MasterValid s ops ↔
      Transition.EachStep (step settings) MasterKept s ops := by
  have hkeeps : Transition.Keeps (step settings) (fun s op => s.leavesMaster op = true)
      fun s => s.LeaseSound ∧ s.Valid := by
    intro s op hs hop
    have hlocal : op.isLocal = true := by
      cases op <;> first | rfl | cases hop
    exact ⟨leaseSound_keeps s op hs.1 hlocal, valid_keeps (fun _ _ => True) s op hs.2 trivial⟩
  refine Transition.always_iff_eachStep hkeeps
    (fun s op hs hop hvalid => step_masterValid_iff hs.1 hs.2 hvalid hop)
    ⟨leaseSound_of_isNew hnew, valid_of_isNew hnew⟩ ?_ hops
  exact masterValid_of_uncreated (by rw [hnew.1])

/-- A client creates the room and leaves it, and a second one comes into the empty room. -/
def revisited : List RoomOp :=
  [.connect 1, .setPersistent 1 (some { userId := "ada", token := "a" }),
    .tryBeginCreation (some 1),
    .applyCreationSettings (some 1) 1 { emptyRoomTtl := some 60000 }, .createPeer (some 1),
    .addPeerForCreation 0 (some 1) 1, .commitCreation (some 1) 1, .removePeer (some 1),
    .connect 2, .setPersistent 2 (some { userId := "bob", token := "b" }), .createPeer (some 2),
    .addPeer 0]

theorem master_invalid_when_revisited :
    let s := create ⟨"app", "1.0", "lobby", 0, "room", ""⟩
    Transition.EachStep (step {}) (fun s op => s.leavesMaster op = true) s revisited ∧
      ¬Transition.Always (step {}) MasterValid s revisited := by
  decide

/-- The master stays valid when the creator leaves the room to a second client. -/
theorem master_valid_when_left :
    let s := create ⟨"app", "1.0", "lobby", 0, "room", ""⟩
    Transition.Always (step {}) MasterValid s
      [.connect 1, .setPersistent 1 (some { userId := "ada", token := "a" }),
        .tryBeginCreation (some 1), .createPeer (some 1), .addPeerForCreation 0 (some 1) 1,
        .commitCreation (some 1) 1, .connect 2,
        .setPersistent 2 (some { userId := "bob", token := "b" }), .createPeer (some 2),
        .addPeer 0, .removePeer (some 1)] := by
  apply (master_valid_iff (isNew_create _) (by decide)).mpr
  refine ⟨trivial, trivial, trivial, trivial, trivial, fun _ _ => by decide, trivial, trivial,
    trivial, fun _ hempty => ?_, fun _ _ _ => Or.inr (by decide), trivial⟩
  exact absurd (congrArg List.length hempty) (by decide)

end Room

end LuxonServer
