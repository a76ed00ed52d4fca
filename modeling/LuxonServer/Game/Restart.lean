import LuxonServer.Game.Rollback

/-! A failed creation can be started again: when a room that is not created is empty, so that the
next attempt may begin, and when the attempt under way can still be ended. -/

namespace LuxonServer

namespace Room

open Game

/-- The connection `c` comes into the room with the operation. -/
def Enters (s : Room) (op : RoomOp) (c : Option PeerRef) : Prop :=
  ∃ index gp, s.handedOut[index]? = some gp ∧ gp.peer = c ∧
    (op = .addPeer index ∧ (s.game.addPeer s.heap gp).1 = true ∨
      ∃ owner generation, op = .addPeerForCreation index owner generation ∧
        (s.game.addPeerForCreation s.heap gp owner generation).1 = true)

variable {settings : AppSettings} {s : Room}

/-- No operation brings a connection into the room but the two that add a peer. -/
theorem mem_connections_perform (settings : AppSettings) (s : Room) {op : RoomOp}
    {c : Option PeerRef} (hc : c ∈ (s.perform settings op).game.connections) :
    c ∈ s.game.connections ∨ s.Enters op c := by
  have hadded : ∀ (gp : GamePeer) userId, c ∈ (s.game.emplacePeer gp userId).connections →
      c ∈ s.game.connections ∨ gp.peer = c := by
    intro gp userId hmem
    simp only [connections, emplacePeer_eq, List.map_append, List.mem_append, List.map_cons,
      List.map_nil, List.mem_singleton] at hmem
    exact hmem.imp_right Eq.symm
  have hfilter : ∀ {keep : GamePeer → Bool}, c ∈ (s.game.peers.filter keep).map (·.peer) →
      c ∈ s.game.connections := by
    intro keep hmem
    exact List.map_subset _ (List.filter_subset_self _) hmem
  cases op with
  | addPeer index =>
    rcases addPeer_game_cases settings s index with heq | ⟨gp, userId, hgp, htakes, heq⟩
    · rw [heq] at hc
      exact Or.inl hc
    · rw [heq] at hc
      refine (hadded gp userId hc).imp_right fun hpeer => ?_
      exact ⟨index, gp, hgp, hpeer, Or.inl ⟨rfl, htakes⟩⟩
  | addPeerForCreation index owner generation =>
    rcases addPeerForCreation_game_cases settings s index owner generation with
      heq | ⟨gp, userId, hgp, htakes, -, -, heq⟩
    · rw [heq] at hc
      exact Or.inl hc
    · rw [heq] at hc
      refine (hadded gp userId hc).imp_right fun hpeer => ?_
      exact ⟨index, gp, hgp, hpeer, Or.inr ⟨owner, generation, rfl, htakes⟩⟩
  | removePeer peer =>
    cases peer with
    | none => exact Or.inl hc
    | some r =>
      obtain ⟨_, _, _, heq⟩ := removePeer_eq s.heap r s.game
      simp only [perform, heq] at hc
      exact Or.inl (hfilter hc)
  | abortCreationTransaction owner generation =>
    by_cases hactive : s.game.isCreationActive s.heap owner generation = true
    · obtain ⟨_, heq⟩ := abortCreationTransaction_eq hactive
      simp only [perform, heq] at hc
      exact Or.inl (hfilter hc)
    · have heq := abortCreationTransaction_of_inactive (Bool.eq_false_iff.mpr hactive)
      simp only [perform, heq] at hc
      exact Or.inl hc
  | tryBeginCreation owner =>
    rcases tryBeginCreation_cases owner s.game with heq | ⟨-, -, -, -, heq⟩ <;>
      simp only [perform, heq] at hc <;> exact Or.inl hc
  | commitCreation owner generation =>
    rcases commitCreation_cases s.heap owner generation s.game with heq | ⟨-, -, heq⟩ <;>
      simp only [perform, heq] at hc <;> exact Or.inl hc
  | receiveUpdate isNew message =>
    refine Or.inl (receiveUpdate_induction
      (P := fun g => c ∈ g.connections → c ∈ s.game.connections)
      id (fun _ h => h) (fun g users h => ?_) (fun _ _ h => h) (fun g g' h hprops => ?_) settings
      isNew hc)
    · rwa [(seatsOnly_replaceExpectedUsers users g).connections]
    · rwa [hprops.connections]
  | connect peer | setPersistent peer persistent =>
    left
    simp only [perform] at hc
    split at hc <;> exact hc
  | reserveExpectedUser userId ttlMs =>
    exact Or.inl ((seatsOnly_reserve userId ttlMs s.game).connections ▸ hc)
  | removeExpectedUser userId => exact Or.inl ((seatsOnly_remove userId s.game).connections ▸ hc)
  | removeExpectedUserIfGeneration userId generation =>
    exact Or.inl ((seatsOnly_removeIfGeneration userId generation s.game).connections ▸ hc)
  | runScheduledTask task =>
    exact Or.inl ((seatsOnly_runScheduledTask task s.game).connections ▸ hc)
  | insertGameProps update =>
    exact Or.inl ((propsOnly_insertGameProps settings update s.game).connections ▸ hc)
  | applyGameProps update expected =>
    exact Or.inl ((propsOnly_applyGameProps settings update expected s.game).connections ▸ hc)
  | insertActorProps actorId update =>
    obtain ⟨found, change, hchange, heq⟩ := insertActorProps_eq actorId update s.game
    simp only [perform, heq] at hc
    rw [connections_updatePeer fun gp => by obtain ⟨_, h⟩ := hchange gp; rw [h]] at hc
    exact Or.inl hc
  | applyInterestGroups peer add remove =>
    obtain ⟨found, change, hchange, heq⟩ := applyInterestGroups_eq s.heap peer add remove s.game
    simp only [perform, heq] at hc
    rw [connections_updatePeer fun gp => by obtain ⟨_, h⟩ := hchange gp; rw [h]] at hc
    exact Or.inl hc
  | createPeer peer =>
    rcases createPeer_game s.heap peer s.game with heq | heq <;>
      simp only [perform, handOut_game, heq] at hc <;> exact Or.inl hc
  | applyCreationSettings owner generation values =>
    left
    simp only [perform, applyCreationSettings] at hc
    split at hc <;> exact hc
  | _ => exact Or.inl hc

/-- An attempt can always begin in the end: a room that is neither created nor being created is
empty and lets whoever is connected begin, and an attempt under way can be ended by its owner, or
taken over. -/
structure Restartable (s : Room) : Prop where
  idle : s.game.isCreated = false → s.game.isCreating = false →
    s.game.activePeerCount = 0 ∧
      ∀ r, (s.heap.get r).isSome → (s.game.tryBeginCreation (some r)).1 ≠ 0
  creating : s.game.isCreating = true →
    (∃ owner generation, (s.game.abortCreationTransaction s.heap owner generation).1 = true ∨
      (s.game.commitCreation s.heap owner generation).1 = true) ∨
    ∃ r, (s.heap.get r).isSome ∧ (s.game.tryBeginCreation (some r)).1 ≠ 0

/-- When an operation leaves the room restartable: nobody who is authenticated is added by
`add_peer` to a room that is neither created nor being created, and the connection that holds the
lease does not die. -/
def LeavesRestartable (s : Room) : RoomOp → Prop
  | .addPeer index => s.game.isCreated = false → s.game.isCreating = false →
    ∀ gp ∈ s.handedOut[index]?, s.heap.userId gp.peer = none
  | .disconnect peer => s.game.isCreating = true → s.game.creationOwner ≠ some peer
  | _ => True

instance LeavesRestartable.decidable (s : Room) : ∀ op, Decidable (s.LeavesRestartable op)
  | .addPeer _ => inferInstanceAs (Decidable (_ → _ → ∀ _ ∈ _, _))
  | .disconnect _ => inferInstanceAs (Decidable (_ → _))
  | .connect _ | .setPersistent _ _ | .tryBeginCreation _ => .isTrue trivial
  | .applyCreationSettings _ _ _ | .commitCreation _ _ => .isTrue trivial
  | .abortCreationTransaction _ _ | .setConfigState _ _ _ _ _ => .isTrue trivial
  | .createPeer _ | .createPeerForActor _ _ | .addPeerForCreation _ _ _ => .isTrue trivial
  | .removePeer _ | .reserveExpectedUser _ _ | .removeExpectedUser _ => .isTrue trivial
  | .removeExpectedUserIfGeneration _ _ | .runScheduledTask _ => .isTrue trivial
  | .insertGameProps _ | .applyGameProps _ _ | .insertActorProps _ _ => .isTrue trivial
  | .applyInterestGroups _ _ _ | .editEventCache _ | .setTtlConfig _ _ => .isTrue trivial
  | .setCustomProps _ | .setLobbyProps _ | .setDummyPeerCount _ => .isTrue trivial
  | .receiveUpdate _ _ => .isTrue trivial

/-- What holds of the room while every operation leaves it restartable: in an attempt there is no
one but its owner, whose connection lives. -/
structure RestartSound (s : Room) : Prop where
  lease : s.LeaseSound
  idle : s.game.isCreated = false → s.game.isCreating = false → s.game.peers = []
  creating : s.game.isCreating = true → s.game.activeCreationGeneration ≠ 0 ∧
    ∃ r, s.game.creationOwner = some r ∧ (s.heap.get r).isSome ∧
      ∀ c ∈ s.game.connections, c = some r

theorem tryBeginCreation_ne_zero {g : Game} (hcreated : g.isCreated = false)
    (hcreating : g.isCreating = false) (hpeers : g.peers = []) (r : PeerRef) :
    (g.tryBeginCreation (some r)).1 ≠ 0 := by
  simp [tryBeginCreation, hcreated, hcreating, activePeerCount, hpeers]

/-- The owner of a lease whose connection is gone cannot end the attempt, and no one else can. -/
theorem lock_owner_of_creating (hs : s.Restartable) (hcreating : s.game.isCreating = true) :
    s.heap.lock s.game.creationOwner ≠ none := by
  have hlock : ∀ {owner generation}, s.game.isCreationActive s.heap owner generation = true →
      s.heap.lock s.game.creationOwner ≠ none := by
    intro owner generation hactive
    obtain ⟨-, howner, -, -, hlock⟩ := isCreationActive_iff.mp hactive
    rwa [hlock]
  rcases hs.creating hcreating with ⟨owner, generation, habort | hcommit⟩ | ⟨r, -, hbegin⟩
  · by_cases hactive : s.game.isCreationActive s.heap owner generation = true
    · exact hlock hactive
    · rw [abortCreationTransaction_of_inactive (Bool.eq_false_iff.mpr hactive)] at habort
      cases habort
  · rcases commitCreation_cases s.heap owner generation s.game with heq | ⟨hactive, -, -⟩
    · rw [heq] at hcommit
      cases hcommit
    · exact hlock hactive
  · rcases tryBeginCreation_cases (some r) s.game with heq | ⟨-, -, hidle, -, -⟩
    · rw [heq] at hbegin
      exact absurd rfl hbegin
    · rw [hidle] at hcreating
      cases hcreating

namespace RestartSound

theorem restartable (hs : s.RestartSound) : s.Restartable where
  idle hcreated hcreating := by
    have hpeers := hs.idle hcreated hcreating
    refine ⟨by rw [activePeerCount, hpeers, List.length_nil], fun r _ => ?_⟩
    exact tryBeginCreation_ne_zero hcreated hcreating hpeers r
  creating hcreating := by
    obtain ⟨hgeneration, r, howner, hlive, -⟩ := hs.creating hcreating
    have hactive : s.game.isCreationActive s.heap (some r) s.game.activeCreationGeneration =
        true := by
      refine isCreationActive_iff.mpr ⟨hcreating, Option.some_ne_none r, hgeneration, rfl, ?_⟩
      rw [howner]
      exact PeerHeap.lock_eq_some.mpr ⟨rfl, hlive⟩
    obtain ⟨_, heq⟩ := abortCreationTransaction_eq hactive
    exact Or.inl ⟨some r, s.game.activeCreationGeneration, Or.inl (by rw [heq])⟩

theorem of_isNew (hnew : s.IsNew) : s.RestartSound := by
  refine ⟨leaseSound_of_isNew hnew, fun _ _ => by rw [hnew.1], fun hcreating => ?_⟩
  rw [hnew.1] at hcreating
  cases hcreating

/-- A live connection stays alive unless it is the one that dies. -/
theorem live_perform {op : RoomOp} {r : PeerRef} (hlive : (s.heap.get r).isSome)
    (hop : op ≠ .disconnect r) : ((s.perform settings op).heap.get r).isSome := by
  cases op with
  | connect peer =>
    simp only [perform]
    split
    · next hunused =>
      have hne : r ≠ peer := by
        rintro rfl
        exact PeerHeap.ne_unused_of_get hlive hunused
      simpa [PeerHeap.get, Function.update_of_ne hne] using hlive
    · exact hlive
  | setPersistent peer persistent =>
    simp only [perform]
    split
    · by_cases heq : r = peer
      · simp [PeerHeap.get, heq]
      · simpa [PeerHeap.get, Function.update_of_ne heq] using hlive
    · exact hlive
  | disconnect peer =>
    have hne : r ≠ peer := fun heq => hop (heq ▸ rfl)
    simpa [perform, PeerHeap.get, Function.update_of_ne hne] using hlive
  | addPeer index | addPeerForCreation index owner generation =>
    simp only [perform, give_heap]
    exact hlive
  | _ => exact hlive

/-- Whoever comes into a room while it is not created is the owner of the attempt under way. -/
theorem enters {op : RoomOp} {c : Option PeerRef} (hcreated : s.game.isCreated = false)
    (hop : s.LeavesRestartable op) (hc : s.Enters op c) :
    s.game.isCreating = true ∧ s.heap.lock s.game.creationOwner = c := by
  obtain ⟨index, gp, hgp, hpeer, ⟨rfl, hadded⟩ | ⟨owner, generation, -, hadded⟩⟩ := hc
  · rcases addPeer_cases (h := s.heap) gp s.game with heq | ⟨userId, huser, hidle, -, -, -⟩
    · rw [heq] at hadded
      cases hadded
    · have hcreating : s.game.isCreating = false := by simpa [hcreated] using hidle
      rw [hop hcreated hcreating gp hgp] at huser
      cases huser
  · rcases addPeerForCreation_cases s.heap gp owner generation s.game with
      heq | ⟨userId, hactive, howner, -, -, -, -⟩
    · rw [heq] at hadded
      cases hadded
    · obtain ⟨hcreating, -, -, -, hlock⟩ := isCreationActive_iff.mp hactive
      exact ⟨hcreating, by rw [hlock, ← howner, hpeer]⟩

/-- An operation that does not touch the lease. -/
theorem of_lease (hs : s.RestartSound) {op : RoomOp} (hop : s.LeavesRestartable op)
    (hlease : (s.perform settings op).game.lease = s.game.lease)
    (hsound : (s.perform settings op).LeaseSound) : (s.perform settings op).RestartSound := by
  simp only [Game.lease, Lease.mk.injEq] at hlease
  obtain ⟨hcreated, hcreating, howner, -, hactive, -⟩ := hlease
  refine ⟨hsound, ?_, ?_⟩
  · rw [hcreated, hcreating]
    intro hnot hidle
    have hnone : ∀ c, c ∉ (s.perform settings op).game.connections := by
      intro c hc
      rcases mem_connections_perform settings s hc with hold | hnew
      · rw [connections, hs.idle hnot hidle] at hold
        exact absurd hold List.not_mem_nil
      · rw [(enters hnot hop hnew).1] at hidle
        cases hidle
    exact List.map_eq_nil_iff.mp (List.eq_nil_iff_forall_not_mem.mpr hnone)
  · rw [hcreating, howner, hactive]
    intro hbusy
    obtain ⟨hgeneration, r, hr, hlive, hpeers⟩ := hs.creating hbusy
    have hnot := (hs.lease.creating hbusy).1
    refine ⟨hgeneration, r, hr, live_perform hlive ?_, fun c hc => ?_⟩
    · rintro rfl
      exact hop hbusy hr
    · rcases mem_connections_perform settings s hc with hold | hnew
      · exact hpeers c hold
      · rw [← (enters hnot hop hnew).2, hr]
        exact PeerHeap.lock_eq_some.mpr ⟨rfl, hlive⟩

theorem step (hs : s.RestartSound) {op : RoomOp} (hlocal : op.isLocal = true)
    (hop : s.LeavesRestartable op) : (s.step settings op).RestartSound := by
  apply step_induction hs
  intro hcaller
  have hsound : (s.perform settings op).LeaseSound := by
    have hstep : (s.step settings op).LeaseSound := leaseSound_keeps s op hs.lease hlocal
    rwa [Room.step, if_pos hcaller] at hstep
  rcases perform_lease settings s hlocal with
    hlease | ⟨owner, rfl⟩ | ⟨owner, generation, rfl⟩ | ⟨owner, generation, rfl⟩
  · exact hs.of_lease hop hlease hsound
  · rcases tryBeginCreation_cases owner s.game with heq | ⟨hne, -, -, hpeers, heq⟩
    · have hsame : s.perform settings (.tryBeginCreation owner) = s := by simp only [perform, heq]
      rw [hsame]
      exact hs
    · refine ⟨hsound, fun _ hidle => ?_, fun _ => ?_⟩
      · simp [perform, heq] at hidle
      · obtain ⟨r, rfl⟩ := Option.ne_none_iff_exists'.mp hne
        refine ⟨?_, r, ?_, (PeerHeap.lock_eq_some.mp hcaller).2, ?_⟩
        · simp [perform, heq]
        · simp [perform, heq]
        · simp [perform, heq, connections, hpeers]
  · rcases commitCreation_cases s.heap owner generation s.game with heq | ⟨-, -, heq⟩
    · have hsame : s.perform settings (.commitCreation owner generation) = s := by
        simp only [perform, heq]
      rw [hsame]
      exact hs
    · refine ⟨hsound, fun hnot => ?_, fun hbusy => ?_⟩
      · simp [perform, heq] at hnot
      · simp [perform, heq] at hbusy
  · by_cases hactive : s.game.isCreationActive s.heap owner generation = true
    · obtain ⟨_, heq⟩ := abortCreationTransaction_eq hactive
      refine ⟨hsound, fun _ _ => ?_, fun hbusy => ?_⟩
      · -- the loop of the abort skips only nodes whose connection is gone, and the owner's is not
        obtain ⟨-, r, -, hlive, hpeers⟩ := hs.creating (isCreationActive_iff.mp hactive).1
        simp only [perform, heq, List.filter_eq_nil_iff, Bool.not_eq_true', Bool.not_eq_false]
        intro gp hgp
        rw [hpeers gp.peer (List.mem_map_of_mem hgp), PeerHeap.lock_eq_some.mpr ⟨rfl, hlive⟩]
        rfl
      · simp [perform, heq] at hbusy
    · have heq := abortCreationTransaction_of_inactive (Bool.eq_false_iff.mpr hactive)
      have hsame : s.perform settings (.abortCreationTransaction owner generation) = s := by
        simp only [perform, heq]
      rw [hsame]
      exact hs

/-- An operation that does not meet its condition leaves a room that cannot be restarted. -/
theorem leavesRestartable (hs : s.RestartSound) {op : RoomOp}
    (hafter : (s.step settings op).Restartable) : s.LeavesRestartable op := by
  cases op with
  | addPeer index =>
    intro hcreated hcreating gp hgp
    cases huser : s.heap.userId gp.peer with
    | none => rfl
    | some userId =>
      have hpeers := hs.idle hcreated hcreating
      have hadded : s.game.addPeer s.heap gp = (true, s.game.emplacePeer gp userId) := by
        simp [addPeer, hcreating, huser, findActor, userJoined, hpeers]
      have hgame : (s.step settings (.addPeer index)).game = s.game.emplacePeer gp userId := by
        have hstep : s.step settings (.addPeer index) = s.perform settings (.addPeer index) :=
          if_pos rfl
        simp only [hstep, perform, give, Option.mem_def.mp hgp, hadded]
      have hempty := (hafter.idle (by rw [hgame, emplacePeer_eq]; exact hcreated)
        (by rw [hgame, emplacePeer_eq]; exact hcreating)).1
      simp [hgame, emplacePeer_eq, activePeerCount] at hempty
  | disconnect peer =>
    rintro hcreating howner
    have hstep : s.step settings (.disconnect peer) = s.perform settings (.disconnect peer) :=
      if_pos rfl
    have hlock := lock_owner_of_creating hafter (by rw [hstep]; exact hcreating)
    simp [hstep, perform, howner, PeerHeap.lock, PeerHeap.get] at hlock
  | _ => trivial

end RestartSound

/-- In a run of a new room, a failed creation can be restarted in every state exactly if every
operation leaves the room restartable. -/
theorem restartable_iff (hnew : s.IsNew) {ops : List RoomOp} (hlocal : ∀ op ∈ ops, op.isLocal) :
    Transition.Always (step settings) Restartable s ops ↔
      Transition.EachStep (step settings) LeavesRestartable s ops :=
  Transition.always_iff_eachStep_of_invariant (I := RestartSound)
    (B := fun _ op => op.isLocal = true) (fun _ hs => hs.restartable)
    (fun _ _ hs hop hleaves => hs.step hop hleaves)
    (fun _ _ hs _ hafter => hs.leavesRestartable hafter) (RestartSound.of_isNew hnew)
    (Transition.eachStep_of_forall fun op hop _ => hlocal op hop)

/-- A creator's attempt is aborted, and a second client begins the next one. -/
theorem restartable_after_abort :
    Transition.Always (step {}) Restartable (create ⟨"app", "1.0", "lobby", 0, "room", ""⟩)
      [.connect 1, .setPersistent 1 (some { userId := "ada", token := "a" }),
        .tryBeginCreation (some 1), .createPeer (some 1), .addPeerForCreation 0 (some 1) 1,
        .abortCreationTransaction (some 1) 1, .connect 2, .tryBeginCreation (some 2)] :=
  (restartable_iff (isNew_create _) (by decide)).mpr (by decide)

/-- `add_peer` lets a client into a room that nobody has begun to create, and no attempt can begin
there; and an attempt whose owner's connection is gone is under way for ever. -/
theorem not_restartable_joined_or_abandoned :
    let s := create ⟨"app", "1.0", "lobby", 0, "room", ""⟩
    let ada : List RoomOp :=
      [.connect 1, .setPersistent 1 (some { userId := "ada", token := "a" })]
    ¬Transition.Always (step {}) Restartable s
        (ada ++ [.createPeer (some 1), .addPeer 0]) ∧
      ¬Transition.Always (step {}) Restartable s
        (ada ++ [.tryBeginCreation (some 1), .disconnect 1]) := by
  constructor
  · intro halways
    exact absurd (halways.last.idle rfl rfl).1 (by decide)
  · intro halways
    exact lock_owner_of_creating halways.last rfl (by decide)

end Room

end LuxonServer
