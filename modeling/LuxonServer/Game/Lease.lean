import LuxonServer.Lib.Run
import LuxonServer.Game.Room

/-! The creation lease over whole runs of a room: who may hold it, how it ends, and what it says
about `is_created`. -/

namespace LuxonServer

/-- The part of a room that the lease is made of. -/
structure Lease where
  isCreated : Bool
  isCreating : Bool
  creationOwner : Option PeerRef
  nextCreationGeneration : Nat
  activeCreationGeneration : Nat
  creationInitial : CreationInitial

namespace Game

/-- The lease of the room. -/
def lease (g : Game) : Lease where
  isCreated := g.isCreated
  isCreating := g.isCreating
  creationOwner := g.creationOwner
  nextCreationGeneration := g.nextCreationGeneration
  activeCreationGeneration := g.activeCreationGeneration
  creationInitial := g.creationInitial

theorem SeatsOnly.lease {g g' : Game} (hg : SeatsOnly g g') : g'.lease = g.lease := by
  obtain ⟨_, _, _, _, _, _, rfl⟩ := hg
  rfl

theorem PropsOnly.lease {g g' : Game} (hg : PropsOnly g g') : g'.lease = g.lease := by
  obtain ⟨_, _, _, _, _, _, _, _, _, rfl⟩ := hg
  rfl

variable {h : PeerHeap}

@[simp] theorem createPeer_lease (peer : Option PeerRef) (g : Game) :
    (g.createPeer h peer).2.lease = g.lease := by
  rcases createPeer_game h peer g with heq | heq
  · rw [heq]
  · rw [heq]
    rfl

@[simp] theorem emplacePeer_lease (gp : GamePeer) (userId : String) (g : Game) :
    (g.emplacePeer gp userId).lease = g.lease := by
  rw [emplacePeer_eq]
  rfl

@[simp] theorem addPeer_lease (gp : GamePeer) (g : Game) : (g.addPeer h gp).2.lease = g.lease := by
  rcases addPeer_cases (h := h) gp g with heq | ⟨userId, -, -, -, -, heq⟩
  · rw [heq]
  · rw [heq]
    exact emplacePeer_lease gp userId g

@[simp] theorem addPeerForCreation_lease (gp : GamePeer) (owner : Option PeerRef)
    (generation : Nat) (g : Game) :
    (g.addPeerForCreation h gp owner generation).2.lease = g.lease := by
  rcases addPeerForCreation_cases h gp owner generation g with heq | ⟨userId, -, -, -, -, -, heq⟩
  · rw [heq]
  · rw [heq]
    exact emplacePeer_lease gp userId g

@[simp] theorem removePeer_lease (peer : Option PeerRef) (g : Game) :
    (g.removePeer h peer).2.lease = g.lease := by
  cases peer with
  | none => rfl
  | some r =>
    obtain ⟨_, _, _, heq⟩ := removePeer_eq h r g
    rw [heq]
    rfl

@[simp] theorem applyCreationSettings_lease (owner : Option PeerRef) (generation : Nat)
    (values : CreationSettings) (g : Game) :
    (g.applyCreationSettings h owner generation values).2.lease = g.lease := by
  unfold applyCreationSettings
  split <;> rfl

end Game

/-- The operations that start in the room's own process. -/
def RoomOp.isLocal : RoomOp → Bool
  | .receiveUpdate _ _ => false
  | _ => true

namespace Room

open Game

variable {settings : AppSettings} {s : Room}

/-- Only a begin, a commit and an abort touch the lease. -/
theorem perform_lease (settings : AppSettings) (s : Room) {op : RoomOp} (hlocal : op.isLocal) :
    (s.perform settings op).game.lease = s.game.lease ∨
      (∃ owner, op = .tryBeginCreation owner) ∨
      (∃ owner generation, op = .commitCreation owner generation) ∨
      ∃ owner generation, op = .abortCreationTransaction owner generation := by
  cases op with
  | tryBeginCreation owner => exact Or.inr (Or.inl ⟨owner, rfl⟩)
  | commitCreation owner generation => exact Or.inr (Or.inr (Or.inl ⟨owner, generation, rfl⟩))
  | abortCreationTransaction owner generation =>
    exact Or.inr (Or.inr (Or.inr ⟨owner, generation, rfl⟩))
  | receiveUpdate isNew message => cases hlocal
  | connect peer | setPersistent peer persistent =>
    left
    simp only [perform]
    split <;> rfl
  | addPeer index =>
    left
    rcases give_game_cases (s := s) index fun gp => (s.game.addPeer s.heap gp).2 with
      heq | ⟨gp, -, heq⟩ <;> simp only [perform, heq, addPeer_lease]
  | addPeerForCreation index owner generation =>
    left
    rcases give_game_cases (s := s) index
      fun gp => (s.game.addPeerForCreation s.heap gp owner generation).2 with
      heq | ⟨gp, -, heq⟩ <;> simp only [perform, heq, addPeerForCreation_lease]
  | reserveExpectedUser userId ttlMs => exact Or.inl (seatsOnly_reserve _ _ _).lease
  | removeExpectedUser userId => exact Or.inl (seatsOnly_remove _ _).lease
  | removeExpectedUserIfGeneration userId generation =>
    exact Or.inl (seatsOnly_removeIfGeneration _ _ _).lease
  | runScheduledTask task => exact Or.inl (seatsOnly_runScheduledTask _ _).lease
  | insertGameProps update => exact Or.inl (propsOnly_insertGameProps _ _ _).lease
  | applyGameProps update expected => exact Or.inl (propsOnly_applyGameProps _ _ _ _).lease
  | insertActorProps actorId update =>
    obtain ⟨_, _, -, heq⟩ := insertActorProps_eq actorId update s.game
    exact Or.inl (by simp only [perform, heq]; rfl)
  | applyInterestGroups peer add remove =>
    obtain ⟨_, _, -, heq⟩ := applyInterestGroups_eq s.heap peer add remove s.game
    exact Or.inl (by simp only [perform, heq]; rfl)
  | createPeer peer => exact Or.inl (createPeer_lease peer s.game)
  | removePeer peer => exact Or.inl (removePeer_lease peer s.game)
  | applyCreationSettings owner generation values =>
    exact Or.inl (applyCreationSettings_lease owner generation values s.game)
  | _ => exact Or.inl rfl

/-- What holds of the lease in every room that its own process has brought about. -/
structure LeaseSound (s : Room) : Prop where
  creating : s.game.isCreating = true → s.game.isCreated = false ∧
    s.game.creationInitial.isCreated = false
  owner : s.game.isCreating = true → ∃ r, s.game.creationOwner = some r ∧ s.heap r ≠ .unused
  generation : s.game.activeCreationGeneration ≤ s.game.nextCreationGeneration

theorem leaseSound_of_idle (hidle : s.game.isCreating = false)
    (hle : s.game.activeCreationGeneration ≤ s.game.nextCreationGeneration) : s.LeaseSound where
  creating hc := by
    rw [hidle] at hc
    cases hc
  owner hc := by
    rw [hidle] at hc
    cases hc
  generation := hle

theorem leaseSound_of_isNew (hnew : s.IsNew) : s.LeaseSound := by
  apply leaseSound_of_idle
  · rw [hnew.1]
  · rw [hnew.1]

/-- A room with the same lease is as sound, as long as no connection is forgotten. -/
theorem LeaseSound.of_lease {s' : Room} (hs : s.LeaseSound)
    (hlease : s'.game.lease = s.game.lease) (hlater : s.heap.Later s'.heap) : s'.LeaseSound := by
  simp only [lease, Lease.mk.injEq] at hlease
  obtain ⟨hcreated, hcreating, howner, hnext, hactive, hinitial⟩ := hlease
  constructor
  · rw [hcreated, hcreating, hinitial]
    exact hs.creating
  · rw [hcreating, howner]
    intro hc
    obtain ⟨r, hr, hused⟩ := hs.owner hc
    exact ⟨r, hr, fun hunused => hused (hlater.unused r hunused)⟩
  · rw [hnext, hactive]
    exact hs.generation

theorem leaseSound_keeps :
    Transition.Keeps (step settings) (fun _ op => op.isLocal) LeaseSound := by
  intro s op hs hlocal
  apply step_induction hs
  intro hcaller
  rcases perform_lease settings s hlocal with
    hlease | ⟨owner, rfl⟩ | ⟨owner, generation, rfl⟩ | ⟨owner, generation, rfl⟩
  · exact hs.of_lease hlease (perform_heap settings s op)
  · rcases tryBeginCreation_cases owner s.game with heq | ⟨hne, hcreated, -, -, heq⟩
    · simp only [perform, heq]
      exact hs
    · simp only [perform, heq]
      obtain ⟨r, rfl⟩ := Option.ne_none_iff_exists'.mp hne
      have hlive : (s.heap.get r).isSome := (PeerHeap.lock_eq_some.mp hcaller).2
      exact
        { creating := fun _ => ⟨hcreated, hcreated⟩
          owner := fun _ => ⟨r, rfl, PeerHeap.ne_unused_of_get hlive⟩
          generation := le_refl _ }
  · rcases commitCreation_cases s.heap owner generation s.game with heq | ⟨-, -, heq⟩
    · simp only [perform, heq]
      exact hs
    · simp only [perform, heq]
      exact leaseSound_of_idle rfl hs.generation
  · by_cases hactive : s.game.isCreationActive s.heap owner generation
    · obtain ⟨_, heq⟩ := abortCreationTransaction_eq hactive
      simp only [perform, heq]
      exact leaseSound_of_idle rfl hs.generation
    · simp only [perform, abortCreationTransaction_of_inactive (Bool.eq_false_iff.mpr hactive)]
      exact hs

/-- A lease that has been given out, and that is over. -/
def LeaseEnded (owner : Option PeerRef) (generation : Nat) (s : Room) : Prop :=
  s.LeaseSound ∧ generation ≤ s.game.nextCreationGeneration ∧
    s.game.isCreationActive s.heap owner generation = false

/-- A lease is lost with its owner's connection, and with nothing else that leaves it alone. -/
theorem LeaseEnded.of_lease {owner : Option PeerRef} {generation : Nat} {s' : Room}
    (hs : s.LeaseEnded owner generation) (hlease : s'.game.lease = s.game.lease)
    (hlater : s.heap.Later s'.heap) : s'.LeaseEnded owner generation := by
  refine ⟨hs.1.of_lease hlease hlater, ?_, ?_⟩
  all_goals
    simp only [lease, Lease.mk.injEq] at hlease
    obtain ⟨-, hcreating, howner, hnext, hactive, -⟩ := hlease
  · rw [hnext]
    exact hs.2.1
  · by_contra hne
    obtain ⟨hc, ho, hgen, hgenEq, hlock⟩ := isCreationActive_iff.mp (Bool.eq_true_of_not_eq_false hne)
    rw [hcreating] at hc
    rw [hactive] at hgenEq
    obtain ⟨r, hr, hused⟩ := hs.1.owner hc
    rw [howner, hr] at hlock
    have hlive : s.heap.lock (some r) = some r :=
      (s.heap.lock_eq_self_or_none (some r)).resolve_right fun hl =>
        ho (hlock ▸ hlater.lock_none hused hl)
    have hafter : s'.heap.lock (some r) = some r :=
      (s'.heap.lock_eq_self_or_none (some r)).resolve_right fun hl => ho (hlock ▸ hl)
    have hbefore : s.heap.lock (some r) = owner := by rw [hlive, ← hlock, hafter]
    have := hs.2.2
    rw [isCreationActive_iff.mpr ⟨hc, ho, hgen, hgenEq, by rw [hr, hbefore]⟩] at this
    cases this

theorem leaseEnded_keeps (owner : Option PeerRef) (generation : Nat) :
    Transition.Keeps (step settings) (fun _ op => op.isLocal) (LeaseEnded owner generation) := by
  intro s op hs hlocal
  apply step_induction hs
  intro hcaller
  have hsound : (s.perform settings op).LeaseSound := by
    have hstep : (s.step settings op).LeaseSound := leaseSound_keeps s op hs.1 hlocal
    rwa [step, if_pos hcaller] at hstep
  rcases perform_lease settings s hlocal with
    hlease | ⟨owner', rfl⟩ | ⟨owner', generation', rfl⟩ | ⟨owner', generation', rfl⟩
  · exact hs.of_lease hlease (perform_heap settings s op)
  · refine ⟨hsound, ?_⟩
    rcases tryBeginCreation_cases owner' s.game with heq | ⟨-, -, -, -, heq⟩
    · simp only [perform, heq]
      exact hs.2
    · simp only [perform, heq]
      have hle := hs.2.1
      refine ⟨by omega, ?_⟩
      have hne : generation ≠ s.game.nextCreationGeneration + 1 := by omega
      simp [isCreationActive, hne]
  · refine ⟨hsound, ?_⟩
    rcases commitCreation_cases s.heap owner' generation' s.game with heq | ⟨-, -, heq⟩
    · simp only [perform, heq]
      exact hs.2
    · simp only [perform, heq]
      exact ⟨hs.2.1, by simp [isCreationActive]⟩
  · refine ⟨hsound, ?_⟩
    by_cases hactive : s.game.isCreationActive s.heap owner' generation'
    · obtain ⟨_, heq⟩ := abortCreationTransaction_eq hactive
      simp only [perform, heq]
      exact ⟨hs.2.1, by simp [isCreationActive]⟩
    · simp only [perform, abortCreationTransaction_of_inactive (Bool.eq_false_iff.mpr hactive)]
      exact hs.2

/-- A step that changes `is_created` is the commit of the active lease by an owner in the room. -/
theorem isCreated_step (hs : s.LeaseSound) {op : RoomOp} (hlocal : op.isLocal)
    (hchange : (s.step settings op).game.isCreated ≠ s.game.isCreated) :
    s.game.isCreated = false ∧ ∃ owner generation, op = .commitCreation owner generation ∧
      s.game.isCreationActive s.heap owner generation = true ∧
      (s.game.findPeer s.heap owner).isSome = true := by
  rcases step_cases settings s op with heq | ⟨-, heq⟩
  · rw [heq] at hchange
    exact absurd rfl hchange
  rw [heq] at hchange
  rcases perform_lease settings s hlocal with
    hlease | ⟨owner, rfl⟩ | ⟨owner, generation, rfl⟩ | ⟨owner, generation, rfl⟩
  · exact absurd (congrArg Lease.isCreated hlease) hchange
  · rcases tryBeginCreation_cases owner s.game with heq | ⟨-, -, -, -, heq⟩ <;>
      simp [perform, heq] at hchange
  · rcases commitCreation_cases s.heap owner generation s.game with heq | ⟨hactive, hfound, heq⟩
    · simp [perform, heq] at hchange
    · have hcreating := (isCreationActive_iff.mp hactive).1
      exact ⟨(hs.creating hcreating).1, owner, generation, rfl, hactive, hfound⟩
  · by_cases hactive : s.game.isCreationActive s.heap owner generation
    · obtain ⟨_, heq⟩ := abortCreationTransaction_eq hactive
      have hcreating := hs.creating (isCreationActive_iff.mp hactive).1
      simp [perform, heq, hcreating.1, hcreating.2] at hchange
    · simp [perform, abortCreationTransaction_of_inactive (Bool.eq_false_iff.mpr hactive)]
        at hchange

/-- What the lease promises in a room `s`, for the steps that its own process takes from there. -/
structure LeaseSafe (settings : AppSettings) (s : Room) : Prop where
  /-- One lease is active at a time. -/
  unique : ∀ owner generation owner' generation',
    s.game.isCreationActive s.heap owner generation = true →
    s.game.isCreationActive s.heap owner' generation' = true →
    owner' = owner ∧ generation' = generation
  /-- No further attempt begins beside it. -/
  exclusive : ∀ owner generation owner',
    s.game.isCreationActive s.heap owner generation = true →
    s.game.tryBeginCreation owner' = (0, s.game)
  /-- A new lease has a generation that no earlier one had. -/
  fresh : ∀ owner, (s.game.tryBeginCreation owner).1 ≠ 0 →
    s.game.nextCreationGeneration < (s.game.tryBeginCreation owner).1
  /-- A lease that was given out and is over stays over. -/
  final : ∀ owner generation ops, (∀ op ∈ ops, op.isLocal) →
    generation ≤ s.game.nextCreationGeneration →
    s.game.isCreationActive s.heap owner generation = false →
    let s' := Transition.run (step settings) s ops
    s'.game.isCreationActive s'.heap owner generation = false
  /-- Without the active lease the three operations that need it fail and change nothing. -/
  stale : ∀ gp owner generation, s.game.isCreationActive s.heap owner generation = false →
    s.game.commitCreation s.heap owner generation = (false, s.game) ∧
      s.game.abortCreationTransaction s.heap owner generation = (false, s.game) ∧
      s.game.addPeerForCreation s.heap gp owner generation = (false, s.game)
  /-- The room becomes created by a commit of the active lease whose owner is in the room. -/
  created : ∀ op : RoomOp, op.isLocal → s.game.isCreated = false →
    (s.step settings op).game.isCreated = true →
    ∃ owner generation, op = .commitCreation owner generation ∧
      s.game.isCreationActive s.heap owner generation = true ∧
      (s.game.findPeer s.heap owner).isSome = true
  /-- A created room stays created. -/
  stays : ∀ ops, (∀ op ∈ ops, op.isLocal) → s.game.isCreated = true →
    (Transition.run (step settings) s ops).game.isCreated = true

/-- The lease is safe in every room that its own process has brought about. -/
theorem creationLease_safe
    (hs : Transition.Reachable (step settings) IsNew (fun _ op => op.isLocal) s) :
    s.LeaseSafe settings := by
  have hsound : s.LeaseSound := hs.invariant (fun _ => leaseSound_of_isNew) leaseSound_keeps
  refine
    { unique := ?_, exclusive := ?_, fresh := ?_, final := ?_, stale := ?_, created := ?_,
      stays := ?_ }
  · intro owner generation owner' generation' hactive hactive'
    obtain ⟨-, -, -, hgen, hlock⟩ := isCreationActive_iff.mp hactive
    obtain ⟨-, -, -, hgen', hlock'⟩ := isCreationActive_iff.mp hactive'
    exact ⟨hlock'.symm.trans hlock, hgen'.trans hgen.symm⟩
  · intro owner generation owner' hactive
    have hcreating := (isCreationActive_iff.mp hactive).1
    simp [tryBeginCreation, hcreating]
  · intro owner hbegun
    rcases tryBeginCreation_cases owner s.game with heq | ⟨-, -, -, -, heq⟩
    · simp [heq] at hbegun
    · simp [heq]
  · intro owner generation ops hops hle hover
    exact ((leaseEnded_keeps owner generation).run ⟨hsound, hle, hover⟩
      (Transition.eachStep_of_forall fun op hop _ => hops op hop)).2.2
  · intro gp owner generation hinactive
    refine ⟨?_, abortCreationTransaction_of_inactive hinactive, ?_⟩
    · simp [commitCreation, hinactive]
    · simp [addPeerForCreation, hinactive]
  · intro op hlocal hbefore hafter
    exact (isCreated_step hsound hlocal (by rw [hbefore, hafter]; decide)).2
  · intro ops hops hcreated
    have hkeeps : Transition.Keeps (step settings) (fun _ op => op.isLocal)
        fun s => s.LeaseSound ∧ s.game.isCreated = true := by
      intro s op hs hlocal
      refine ⟨leaseSound_keeps s op hs.1 hlocal, ?_⟩
      by_contra hne
      have hfalse := (isCreated_step hs.1 hlocal fun heq => hne (heq.trans hs.2)).1
      rw [hs.2] at hfalse
      cases hfalse
    exact (hkeeps.run ⟨hsound, hcreated⟩
      (Transition.eachStep_of_forall fun op hop _ => hops op hop)).2

theorem reachable_run_local (info : GameInfo) {ops : List RoomOp} (hops : ∀ op ∈ ops, op.isLocal) :
    Transition.Reachable (step settings) IsNew (fun _ op => op.isLocal)
      (Transition.run (step settings) (create info) ops) :=
  (Transition.Reachable.init (isNew_create info)).run
    (Transition.eachStep_of_forall fun op hop _ => hops op hop)

/-- While the first client of a room creates it, a second one cannot begin. -/
theorem creationLease_safe_first_join :
    let s := Transition.run (step {}) (create ⟨"app", "1.0", "lobby", 0, "room", ""⟩)
      [.connect 1, .setPersistent 1 (some { userId := "ada", token := "a" }),
        .tryBeginCreation (some 1), .connect 2]
    s.game.isCreationActive s.heap (some 1) 1 = true ∧
      s.game.tryBeginCreation (some 2) = (0, s.game) := by
  refine ⟨by decide, ?_⟩
  exact (creationLease_safe (reachable_run_local _ (by decide))).exclusive (some 1) 1 _
    (by decide)

end Room

end LuxonServer
