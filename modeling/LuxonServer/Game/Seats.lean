import LuxonServer.Game.Valid
import LuxonServer.Game.Rollback

/-! Whose reservations an abort takes back.  A ledger beside the room records who made each
reservation during an attempt, which the room itself does not. -/

namespace LuxonServer

namespace Game

/-- The user has a seat reserved with that generation. -/
def Holds (g : Game) (userId : String) (generation : Nat) : Prop :=
  userId ∈ g.expectedUsers ∧ g.expectedUserGenerations.lookup userId = some generation

instance (g : Game) (userId : String) (generation : Nat) : Decidable (g.Holds userId generation) :=
  inferInstanceAs (Decidable (_ ∧ _))

variable {g : Game} {userId : String} {generation : Nat}

theorem SeatsSound.holds_iff (hg : g.SeatsSound) :
    g.Holds userId generation ↔ g.expectedUserGenerations.lookup userId = some generation := by
  refine ⟨fun hheld => hheld.2, fun hl => ⟨?_, hl⟩⟩
  rw [← hg.keys, AList.mem_iff_lookup]
  exact ⟨generation, hl⟩

section Releasing

/-- One reservation of the log: it is released if the user still has it. -/
def release (g : Game) (entry : Σ _ : String, Nat) : Game :=
  (g.removeExpectedUserIfGeneration entry.1 entry.2).2

theorem lookup_release (entry : Σ _ : String, Nat) (u : String) (n : Nat) :
    (g.release entry).expectedUserGenerations.lookup u = some n ↔
      g.expectedUserGenerations.lookup u = some n ∧ entry ≠ ⟨u, n⟩ := by
  obtain ⟨v, m⟩ := entry
  unfold release
  by_cases hl : g.expectedUserGenerations.lookup v = some m
  · rw [removeIfGeneration_of_lookup hl]
    simp only [AList.lookup_erase_eq]
    by_cases hu : u = v
    · subst hu
      simp [hl]
    · simp only [hu, if_false, iff_self_and]
      rintro - heq
      exact hu (congrArg Sigma.fst heq).symm
  · rw [removeIfGeneration_of_ne hl]
    simp only [iff_self_and]
    rintro hl' heq
    cases heq
    exact hl hl'

theorem lookup_releaseAll (entries : List (Σ _ : String, Nat)) (g : Game) (u : String) (n : Nat) :
    (entries.foldl release g).expectedUserGenerations.lookup u = some n ↔
      g.expectedUserGenerations.lookup u = some n ∧ ⟨u, n⟩ ∉ entries := by
  induction entries generalizing g with
  | nil => simp
  | cons entry entries ih =>
    rw [List.foldl_cons, ih, lookup_release, List.mem_cons, not_or, and_assoc, ne_comm]

theorem releaseReserved_eq (g : Game) :
    g.releaseReserved = g.creationReserved.entries.foldl release g := rfl

theorem releaseAll_frame (entries : List (Σ _ : String, Nat)) (g : Game) :
    ∃ expectedUsers expectedUserGenerations,
      entries.foldl release g = { g with expectedUsers, expectedUserGenerations } := by
  induction entries generalizing g with
  | nil => exact ⟨_, _, rfl⟩
  | cons entry entries ih =>
    obtain ⟨_, _, hrest⟩ := ih (g.release entry)
    rw [List.foldl_cons, hrest]
    unfold release removeExpectedUserIfGeneration
    split <;> exact ⟨_, _, rfl⟩

end Releasing

section Restoring

/-- One ended reservation of the log: the user is expected again. -/
def restore (g : Game) (entry : Σ _ : String, Nat) : Game :=
  if entry.1 ∈ g.expectedUsers then g else (g.reserveExpectedUserWithGeneration entry.1 30000).2

/-- What restoring leaves: the seats that are taken stay, those of the log are taken again, and a
reservation that is made has a new generation. -/
structure Restored (users : List String) (g g' : Game) : Prop where
  next : g.nextExpectedUserGeneration ≤ g'.nextExpectedUserGeneration
  kept : ∀ u n, g.Holds u n → g'.Holds u n
  stays : ∀ u ∈ g.expectedUsers, u ∈ g'.expectedUsers
  back : ∀ u ∈ users, u ≠ "" → u ∈ g'.expectedUsers
  fresh : ∀ u n, g'.expectedUserGenerations.lookup u = some n → n ≤ g.nextExpectedUserGeneration →
    g.expectedUserGenerations.lookup u = some n

theorem restored_restore (entry : Σ _ : String, Nat) (g : Game) :
    Restored [entry.1] g (g.restore entry) := by
  unfold restore
  split
  · next hmem =>
    exact ⟨le_refl _, fun _ _ hheld => hheld, fun _ hu => hu,
      fun u hu _ => List.mem_singleton.mp hu ▸ hmem, fun _ _ hl _ => hl⟩
  · next hmem =>
    rcases reserve_cases entry.1 30000 g with ⟨heq, hwhy⟩ | ⟨hne, -, heq⟩
    · rw [heq]
      exact ⟨le_refl _, fun _ _ hheld => hheld, fun _ hu => hu,
        fun u hu hne => absurd (hwhy.resolve_right hmem) (List.mem_singleton.mp hu ▸ hne),
        fun _ _ hl _ => hl⟩
    · rw [heq]
      refine ⟨Nat.le_succ _, ?_, ?_, ?_, ?_⟩
      · intro u n hheld
        have hother : u ≠ entry.1 := fun hu => hmem (hu ▸ hheld.1)
        exact ⟨by simp [withReservation, hheld.1],
          by simpa [withReservation, AList.lookup_insert_eq, hother] using hheld.2⟩
      · intro u hu
        simp [withReservation, hu]
      · intro u hu _
        simp [withReservation, List.mem_singleton.mp hu]
      · intro u n hl hle
        simp only [withReservation, AList.lookup_insert_eq] at hl
        split at hl
        · cases hl
          omega
        · exact hl

theorem Restored.cons {u : String} {users : List String} {g g' g'' : Game}
    (hfirst : Restored [u] g g') (hrest : Restored users g' g'') : Restored (u :: users) g g'' where
  next := hfirst.next.trans hrest.next
  kept v n hheld := hrest.kept v n (hfirst.kept v n hheld)
  stays v hv := hrest.stays v (hfirst.stays v hv)
  back v hv hne := by
    rcases List.mem_cons.mp hv with rfl | htail
    · exact hrest.stays v (hfirst.back v (List.mem_singleton.mpr rfl) hne)
    · exact hrest.back v htail hne
  fresh v n hl hle := hfirst.fresh v n (hrest.fresh v n hl (hle.trans hfirst.next)) hle

theorem restored_restoreAll (entries : List (Σ _ : String, Nat)) (g : Game) :
    Restored (entries.map Sigma.fst) g (entries.foldl restore g) := by
  induction entries generalizing g with
  | nil => exact ⟨le_refl _, fun _ _ hheld => hheld, fun _ hu => hu, fun _ hu => by simp at hu,
      fun _ _ hl _ => hl⟩
  | cons entry entries ih => exact (restored_restore entry g).cons (ih _)

end Restoring

/-- The seats after the rollback of an attempt: what the log has as made in it is released, and
what it has as ended is back. -/
theorem rollbackSeats_spec (h : PeerHeap) (hg : g.SeatsSound) :
    (∀ u n, n ≤ g.nextExpectedUserGeneration → ((g.rollbackSeats h).Holds u n ↔
      g.Holds u n ∧ g.creationReserved.lookup u ≠ some n)) ∧
      ∀ u ∈ g.creationRemoved, u ≠ "" → u ∈ (g.rollbackSeats h).expectedUsers := by
  let g₁ : Game :=
    { g.retireLive h with inactivePlayers := g.creationInitial.inactivePlayers }
  have hg₁ : g₁.SeatsSound := seatsSound_invariant.congr hg rfl rfl rfl
  have hrestored := restored_restoreAll g₁.releaseReserved.creationRemoved.entries
    g₁.releaseReserved
  obtain ⟨users, generations, hframe⟩ := releaseAll_frame g₁.creationReserved.entries g₁
  rw [← releaseReserved_eq] at hframe
  have hreleased : ∀ u n, g₁.releaseReserved.expectedUserGenerations.lookup u = some n ↔
      g.expectedUserGenerations.lookup u = some n ∧ g.creationReserved.lookup u ≠ some n := by
    intro u n
    rw [releaseReserved_eq, lookup_releaseAll, AList.mem_entries_iff]
    rfl
  constructor
  · intro u n hissued
    rw [(seatsSound_invariant.rollbackSeats h hg).holds_iff, hg.holds_iff, ← hreleased]
    constructor
    · intro hl
      apply hrestored.fresh u n hl
      rw [hframe]
      exact hissued
    · intro hl
      exact (hrestored.kept u n ((seatsSound_invariant.releaseReserved hg₁).holds_iff.mpr hl)).2
  · intro u hu hne
    refine hrestored.back u ?_ hne
    rw [hframe]
    exact AList.mem_keys.mp hu

/-- The tables that the reservations live in. -/
structure SeatTables where
  expectedUsers : ListSet String
  expectedUserGenerations : Generations
  nextExpectedUserGeneration : Nat
  creationReserved : Generations
  creationRemoved : Generations
  isCreating : Bool

/-- The tables of the room. -/
def seatTables (g : Game) : SeatTables where
  expectedUsers := g.expectedUsers
  expectedUserGenerations := g.expectedUserGenerations
  nextExpectedUserGeneration := g.nextExpectedUserGeneration
  creationReserved := g.creationReserved
  creationRemoved := g.creationRemoved
  isCreating := g.isCreating

theorem PropsOnly.seatTables {g g' : Game} (hg : PropsOnly g g') :
    g'.seatTables = g.seatTables := by
  obtain ⟨_, _, _, _, _, _, _, _, _, rfl⟩ := hg
  rfl

theorem seatTables_emplacePeer (gp : GamePeer) (userId : String) (g : Game) :
    (g.emplacePeer gp userId).seatTables = (g.removeExpectedUser userId).seatTables := by
  rw [emplacePeer_eq, removeExpectedUser_eq]
  rfl

end Game

namespace Room

open Game

/-- What an operation of an attempt does to the tables: nothing, a reservation, or a removal, which
is logged unless it goes by generation. -/
theorem perform_seatTables (settings : AppSettings) (s : Room) {owner : Option PeerRef}
    {generation : Nat} {op : RoomOp} (hop : op.inAttempt owner generation) :
    (s.perform settings op).game.seatTables = s.game.seatTables ∨
      (∃ userId ttlMs, op = .reserveExpectedUser userId ttlMs) ∨
      (∃ index, op = .addPeerForCreation index owner generation) ∨
      (∃ userId, (s.perform settings op).game.seatTables =
        (s.game.removeExpectedUser userId).seatTables) ∨
      ∃ userId lease, op = .removeExpectedUserIfGeneration userId lease := by
  cases op with
  | tryBeginCreation | commitCreation | abortCreationTransaction => cases hop
  | addPeer | removePeer | receiveUpdate => cases hop
  | reserveExpectedUser userId ttlMs => exact Or.inr (Or.inl ⟨_, _, rfl⟩)
  | addPeerForCreation index caller lease =>
    obtain ⟨rfl, rfl⟩ : caller = owner ∧ lease = generation := by
      simpa [RoomOp.inAttempt] using hop
    exact Or.inr (Or.inr (Or.inl ⟨_, rfl⟩))
  | removeExpectedUser userId => exact Or.inr (Or.inr (Or.inr (Or.inl ⟨userId, rfl⟩)))
  | removeExpectedUserIfGeneration userId lease =>
    exact Or.inr (Or.inr (Or.inr (Or.inr ⟨_, _, rfl⟩)))
  | runScheduledTask task =>
    rcases runScheduledTask_cases task s.game with ⟨_, heq⟩ | ⟨_, _, userId, _, -, -, heq⟩
    · exact Or.inl (by simp only [perform, heq]; rfl)
    · exact Or.inr (Or.inr (Or.inr (Or.inl ⟨userId, by
        simp only [perform, heq, removeExpectedUser_eq]; rfl⟩)))
  | connect peer | setPersistent peer persistent =>
    left
    simp only [perform]
    split <;> rfl
  | insertGameProps update => exact Or.inl (propsOnly_insertGameProps _ _ _).seatTables
  | applyGameProps update expected =>
    exact Or.inl (propsOnly_applyGameProps _ _ _ _).seatTables
  | insertActorProps actorId update =>
    obtain ⟨_, _, -, heq⟩ := insertActorProps_eq actorId update s.game
    exact Or.inl (by simp only [perform, heq]; rfl)
  | applyInterestGroups peer add remove =>
    obtain ⟨_, _, -, heq⟩ := applyInterestGroups_eq s.heap peer add remove s.game
    exact Or.inl (by simp only [perform, heq]; rfl)
  | createPeer peer =>
    left
    rcases createPeer_game s.heap peer s.game with heq | heq <;>
      simp only [perform, handOut_game, heq, seatTables]
  | applyCreationSettings caller lease values =>
    left
    simp only [perform, applyCreationSettings]
    split <;> rfl
  | _ => exact Or.inl rfl

end Room

/-- Who asks for a reservation during an attempt. -/
inductive Maker where
  | owner
  | other
  deriving DecidableEq, Repr

namespace RoomOp

/-- The reservation that an operation makes. -/
def reserves (s : Room) : RoomOp → Option (String × Nat)
  | .reserveExpectedUser userId ttlMs =>
    (s.game.reserveExpectedUserWithGeneration userId ttlMs).1.map fun n => (userId, n)
  | _ => none

/-- The reservation that a successful `add_peer_for_creation` uses up. -/
def consumes (s : Room) : RoomOp → Option (String × Nat)
  | .addPeerForCreation index owner generation =>
    s.handedOut[index]?.bind fun gp =>
      if (s.game.addPeerForCreation s.heap gp owner generation).1 then
        (s.heap.userId gp.peer).bind fun userId =>
          (s.game.expectedUserGenerations.lookup userId).map fun n => (userId, n)
      else none
  | _ => none

end RoomOp

/-- A room in an attempt, with the reservations that were made in it and those that the owner's
peer has used up. -/
structure Ledger where
  room : Room
  made : List (Maker × String × Nat) := []
  consumed : List (String × Nat) := []

namespace Ledger

/-- An operation that `maker` asks for. -/
def step (settings : AppSettings) (l : Ledger) (op : Maker × RoomOp) : Ledger where
  room := l.room.step settings op.2
  made := l.made ++ ((op.2.reserves l.room).map fun seat => (op.1, seat)).toList
  consumed := l.consumed ++ (op.2.consumes l.room).toList

/-- What the room's log of an attempt says about the ledger; `before` is the room before it. -/
structure Logged (before : Game) (l : Ledger) : Prop where
  seats : l.room.game.SeatsSound
  creating : l.room.game.isCreating = true
  next : before.nextExpectedUserGeneration ≤ l.room.game.nextExpectedUserGeneration
  reserved : ∀ u n, l.room.game.creationReserved.lookup u = some n →
    before.nextExpectedUserGeneration < n ∧ ∃ maker, (maker, u, n) ∈ l.made
  made : ∀ maker u n, (maker, u, n) ∈ l.made →
    l.room.game.expectedUserGenerations.lookup u = some n →
    l.room.game.creationReserved.lookup u = some n
  removed : ∀ u n, (u, n) ∈ l.consumed → n ≤ before.nextExpectedUserGeneration →
    u ∈ l.room.game.creationRemoved

open Game

variable {settings : AppSettings} {before : Game} {l : Ledger}

/-- Only the tables matter. -/
theorem Logged.of_tables (hl : l.Logged before) {room : Room}
    (htables : room.game.seatTables = l.room.game.seatTables) :
    Logged before { l with room } := by
  simp only [seatTables, SeatTables.mk.injEq] at htables
  obtain ⟨husers, hgens, hnext, hreserved, hremoved, hcreating⟩ := htables
  refine ⟨seatsSound_invariant.congr hl.seats husers hgens hnext, hcreating ▸ hl.creating,
    ?_, ?_, ?_, ?_⟩
  · rw [hnext]
    exact hl.next
  · rw [hreserved]
    exact hl.reserved
  · rw [hgens, hreserved]
    exact hl.made
  · rw [hremoved]
    exact hl.removed

theorem Logged.reserve (hl : l.Logged before) (maker : Maker) (userId : String) (ttlMs : Nat) :
    Logged before (l.step settings (maker, .reserveExpectedUser userId ttlMs)) := by
  have hstep : l.room.step settings (.reserveExpectedUser userId ttlMs) =
      { l.room with game := (l.room.game.reserveExpectedUserWithGeneration userId ttlMs).2 } := rfl
  unfold Ledger.step
  simp only [hstep, RoomOp.reserves, RoomOp.consumes, Option.toList_none, List.append_nil]
  have hsound := seatsSound_invariant.reserve userId ttlMs hl.seats
  rcases reserve_cases userId ttlMs l.room.game with ⟨heq, -⟩ | ⟨hne, hnot, heq⟩
  · simp only [heq, Option.map_none, Option.toList_none, List.append_nil]
    exact hl
  · rw [heq] at hsound
    simp only [heq, Option.map_some, Option.toList_some]
    refine ⟨hsound, hl.creating, Nat.le_succ_of_le hl.next, ?_, ?_, hl.removed⟩
    · intro u n hlookup
      simp only [withReservation, hl.creating, if_true, AList.lookup_insert_eq] at hlookup
      split at hlookup
      · next hu =>
        cases hlookup
        refine ⟨Nat.lt_succ_of_le hl.next, maker, ?_⟩
        rw [hu]
        exact List.mem_append_right _ (List.mem_singleton.mpr rfl)
      · obtain ⟨hnew, maker', hmem⟩ := hl.reserved u n hlookup
        exact ⟨hnew, maker', List.mem_append_left _ hmem⟩
    · intro maker' u n hmem hlookup
      simp only [withReservation, hl.creating, if_true, AList.lookup_insert_eq] at hlookup ⊢
      split at hlookup
      · next hu => rw [if_pos hu, hlookup]
      · next hu =>
        rw [if_neg hu]
        rcases List.mem_append.mp hmem with hold | hhere
        · exact hl.made maker' u n hold hlookup
        · cases List.mem_singleton.mp hhere
          exact absurd rfl hu

/-- A removal is logged unless the attempt made the reservation. -/
theorem Logged.remove (hl : l.Logged before) {userId : String} {room : Room}
    (htables : room.game.seatTables = (l.room.game.removeExpectedUser userId).seatTables)
    {consumed : List (String × Nat)} (hconsumed : ∀ seat ∈ consumed, seat ∈ l.consumed ∨
      seat.1 = userId ∧ l.room.game.expectedUserGenerations.lookup userId = some seat.2) :
    Logged before { l with room, consumed } := by
  have hsound := seatsSound_invariant.remove userId hl.seats
  rw [removeExpectedUser_eq] at htables hsound
  simp only [seatTables, SeatTables.mk.injEq] at htables
  obtain ⟨husers, hgens, hnext, hreserved, hremoved, hcreating⟩ := htables
  refine ⟨seatsSound_invariant.congr hsound husers hgens hnext, hcreating ▸ hl.creating,
    ?_, ?_, ?_, ?_⟩
  · rw [hnext]
    exact hl.next
  · rw [hreserved]
    exact hl.reserved
  · rw [hgens, hreserved]
    intro maker u n hmem hlookup
    rw [AList.lookup_erase_eq] at hlookup
    split at hlookup
    · cases hlookup
    · exact hl.made maker u n hmem hlookup
  · rw [hremoved]
    intro u n hmem hle
    rcases hconsumed _ hmem with hold | ⟨hu, hlookup⟩
    · have hold' := hl.removed u n hold hle
      cases hgen : l.room.game.expectedUserGenerations.lookup userId with
      | none => exact hold'
      | some m =>
        simp only [Option.elim_some, logRemoved]
        split
        · exact (AList.mem_insert _).mpr (Or.inr hold')
        · exact hold'
    · -- a reservation from before the attempt is not one that the attempt has made
      simp only at hu hlookup
      subst hu
      have hother : l.room.game.creationReserved.lookup u ≠ some n := fun hmade => by
        have := (hl.reserved u n hmade).1
        omega
      simp [hlookup, logRemoved, hl.creating, hother]

theorem Logged.removeIfGeneration (hl : l.Logged before) (userId : String) (generation : Nat) :
    Logged before { l with room := { l.room with
      game := (l.room.game.removeExpectedUserIfGeneration userId generation).2 } } := by
  by_cases hlookup : l.room.game.expectedUserGenerations.lookup userId = some generation
  · have hsound := seatsSound_invariant.removeIfGeneration userId generation hl.seats
    rw [removeIfGeneration_of_lookup hlookup] at hsound ⊢
    refine ⟨hsound, hl.creating, hl.next, hl.reserved, ?_, hl.removed⟩
    intro maker u n hmem hl'
    simp only [AList.lookup_erase_eq] at hl'
    split at hl'
    · cases hl'
    · exact hl.made maker u n hmem hl'
  · rwa [removeIfGeneration_of_ne hlookup]

/-- What `add_peer_for_creation` uses up is what it takes out of the tables. -/
theorem addPeerForCreation_seats (settings : AppSettings) (s : Room) (index : Nat)
    (owner : Option PeerRef) (generation : Nat) :
    let op := RoomOp.addPeerForCreation index owner generation
    (op.consumes s = none ∧ (s.step settings op).game.seatTables = s.game.seatTables) ∨
      ∃ userId, (s.step settings op).game.seatTables =
          (s.game.removeExpectedUser userId).seatTables ∧
        ∀ seat, op.consumes s = some seat → seat.1 = userId ∧
          s.game.expectedUserGenerations.lookup userId = some seat.2 := by
  intro op
  cases hgp : s.handedOut[index]? with
  | none =>
    refine Or.inl ⟨by simp [op, RoomOp.consumes, hgp], ?_⟩
    apply Room.step_induction (P := fun s' => s'.game.seatTables = s.game.seatTables) rfl
    intro _
    simp [op, Room.perform, Room.give, hgp]
  | some gp =>
    rcases addPeerForCreation_cases s.heap gp owner generation s.game with
      heq | ⟨userId, hactive, -, huser, -, -, heq⟩
    · refine Or.inl ⟨by simp [op, RoomOp.consumes, hgp, heq], ?_⟩
      refine Room.step_induction (P := fun s' => s'.game.seatTables = s.game.seatTables) rfl
        fun _ => ?_
      simp [op, Room.perform, Room.give, hgp, heq]
    · refine Or.inr ⟨userId, ?_, ?_⟩
      · have hcaller : s.heap.lock op.caller = op.caller := lock_owner_of_active hactive
        unfold Room.step
        rw [if_pos hcaller]
        simp only [op, Room.perform, Room.give, hgp, heq]
        exact seatTables_emplacePeer gp userId s.game
      · intro seat hseat
        simp only [op, RoomOp.consumes, hgp, heq, huser, Option.bind_some, if_true,
          Option.map_eq_some_iff] at hseat
        obtain ⟨n, hn, rfl⟩ := hseat
        exact ⟨rfl, hn⟩

theorem logged_keeps (before : Game) (owner : Option PeerRef) (generation : Nat) :
    Transition.Keeps (step settings) (fun _ op => op.2.inAttempt owner generation)
      (Logged before) := by
  intro l op hl hop
  obtain ⟨maker, op⟩ := op
  by_cases hreserve : ∃ userId ttlMs, op = .reserveExpectedUser userId ttlMs
  · obtain ⟨userId, ttlMs, rfl⟩ := hreserve
    exact hl.reserve maker userId ttlMs
  by_cases hadd : ∃ index, op = .addPeerForCreation index owner generation
  · obtain ⟨index, rfl⟩ := hadd
    rcases addPeerForCreation_seats settings l.room index owner generation with
      ⟨hnone, htables⟩ | ⟨userId, htables, hseat⟩
    · simp only [step, RoomOp.reserves, hnone, Option.map_none, Option.toList_none,
        List.append_nil]
      exact hl.of_tables htables
    · simp only [step, RoomOp.reserves, Option.map_none, Option.toList_none, List.append_nil]
      apply hl.remove htables
      intro seat hmem
      rcases List.mem_append.mp hmem with hold | hnew
      · exact Or.inl hold
      · exact Or.inr (hseat seat (Option.mem_toList.mp hnew))
  have hnone : op.reserves l.room = none ∧ op.consumes l.room = none := by
    cases op with
    | reserveExpectedUser userId ttlMs => exact absurd ⟨_, _, rfl⟩ hreserve
    | addPeerForCreation index caller lease =>
      obtain ⟨rfl, rfl⟩ : caller = owner ∧ lease = generation := by
        simpa [RoomOp.inAttempt] using hop
      exact absurd ⟨_, rfl⟩ hadd
    | _ => exact ⟨rfl, rfl⟩
  simp only [step, hnone, Option.map_none, Option.toList_none, List.append_nil]
  rcases Room.step_cases settings l.room op with heq | ⟨-, heq⟩
  · rw [heq]
    exact hl
  · rw [heq]
    rcases Room.perform_seatTables settings l.room hop with
      htables | hreserve' | hadd' | ⟨userId, htables⟩ | ⟨userId, lease, rfl⟩
    · exact hl.of_tables htables
    · exact absurd hreserve' hreserve
    · exact absurd hadd' hadd
    · exact hl.remove htables fun seat hseat => Or.inl hseat
    · exact hl.removeIfGeneration userId lease

/-- An abort treats the reservations fairly: it removes only what the owner has made, brings back
what was there before the attempt and the owner's peer has used up, and leaves the others alone. -/
structure Fair (before : Game) (l : Ledger) (after : Game) : Prop where
  removes : ∀ u n, l.room.game.Holds u n → ¬after.Holds u n → (Maker.owner, u, n) ∈ l.made
  restores : ∀ u n, before.Holds u n → (u, n) ∈ l.consumed → u ∈ after.expectedUsers
  leaves : ∀ u n, (Maker.other, u, n) ∈ l.made → l.room.game.Holds u n → after.Holds u n

/-- The log of an attempt is exact as long as it has not ended. -/
theorem logged_run {s : Room} (hs : Room.Reachable settings s) {owner : Option PeerRef}
    (hbegin : (s.game.tryBeginCreation owner).1 ≠ 0) {ops : List (Maker × RoomOp)}
    (hops : ∀ op ∈ ops, op.2.inAttempt owner (s.game.tryBeginCreation owner).1) :
    Logged s.game (Transition.run (step settings)
      { room := s.perform settings (.tryBeginCreation owner) } ops) := by
  refine (logged_keeps s.game owner (s.game.tryBeginCreation owner).1).run ?_
    (Transition.eachStep_of_forall fun op hop _ => hops op hop)
  rcases tryBeginCreation_cases owner s.game with heq | ⟨-, -, -, -, heq⟩
  · rw [heq] at hbegin
    exact absurd rfl hbegin
  · simp only [Room.perform, heq]
    refine ⟨seatsSound_invariant.congr hs.valid.seats rfl rfl rfl, rfl, le_refl _, ?_, ?_, ?_⟩
    · intro u n hl
      cases hl
    · intro _ _ _ hmem
      cases hmem
    · intro _ _ hmem
      cases hmem

/-- An abort is fair exactly if no seat that someone else has reserved during the attempt is still
held: the room's log does not say who asked. -/
theorem abort_fair_iff {s : Room} (hs : Room.Reachable settings s) {owner : Option PeerRef}
    (hbegin : (s.game.tryBeginCreation owner).1 ≠ 0) {ops : List (Maker × RoomOp)}
    (hops : ∀ op ∈ ops, op.2.inAttempt owner (s.game.tryBeginCreation owner).1) :
    let l := Transition.run (step settings)
      { room := s.perform settings (.tryBeginCreation owner) } ops
    let aborted :=
      l.room.game.abortCreationTransaction l.room.heap owner (s.game.tryBeginCreation owner).1
    aborted.1 = true → (Fair s.game l aborted.2 ↔
      ∀ u n, (Maker.other, u, n) ∈ l.made → ¬l.room.game.Holds u n) := by
  intro l aborted habort
  have hl : Logged s.game l := logged_run hs hbegin hops
  obtain ⟨hholds, hback⟩ := rollbackSeats_spec l.room.heap hl.seats
  have hafter : aborted.2.expectedUsers = (l.room.game.rollbackSeats l.room.heap).expectedUsers ∧
      ∀ u n, aborted.2.Holds u n ↔ (l.room.game.rollbackSeats l.room.heap).Holds u n := by
    have hactive : l.room.game.isCreationActive l.room.heap owner
        (s.game.tryBeginCreation owner).1 = true := by
      by_contra hinactive
      simp only [aborted, abortCreationTransaction_of_inactive (Bool.eq_false_iff.mpr hinactive)]
        at habort
      cases habort
    obtain ⟨_, heq⟩ := abortCreationTransaction_eq hactive
    rw [show aborted = _ from heq]
    exact ⟨rfl, fun _ _ => Iff.rfl⟩
  have hissued : ∀ u n, l.room.game.Holds u n → n ≤ l.room.game.nextExpectedUserGeneration :=
    fun u n hheld => hl.seats.issued u n hheld.2
  constructor
  · intro hfair u n hmade hheld
    have hstill := (hafter.2 u n).mp (hfair.leaves u n hmade hheld)
    exact ((hholds u n (hissued u n hheld)).mp hstill).2 (hl.made _ u n hmade hheld.2)
  · intro hnone
    refine ⟨?_, ?_, fun u n hmade hheld => absurd hheld (hnone u n hmade)⟩
    · intro u n hheld hgone
      have hreserved : l.room.game.creationReserved.lookup u = some n := by
        by_contra hother
        exact hgone ((hafter.2 u n).mpr ((hholds u n (hissued u n hheld)).mpr ⟨hheld, hother⟩))
      obtain ⟨-, maker, hmade⟩ := hl.reserved u n hreserved
      cases maker with
      | owner => exact hmade
      | other => exact absurd hheld (hnone u n hmade)
    · intro u n hheld hconsumed
      rw [hafter.1]
      apply hback u (hl.removed u n hconsumed (hs.valid.seats.issued u n hheld.2))
      intro hempty
      exact hs.valid.seats.named (hempty ▸ hheld.1)

/-- A room with one client, who begins to create it. -/
def exampleRoom : Room :=
  Transition.run (Room.step {}) (Room.create ⟨"app", "1.0", "lobby", 0, "room", ""⟩)
    [.connect 1, .setPersistent 1 (some { userId := "ada", token := "a" })]

/-- A second client's seat is taken back with the first one's failed attempt. -/
theorem abort_unfair_to_guest :
    let l := Transition.run (step {})
      { room := exampleRoom.perform {} (.tryBeginCreation (some 1)) }
      [(.other, .reserveExpectedUser "bob" 30000)]
    let aborted := l.room.game.abortCreationTransaction l.room.heap (some 1) 1
    aborted.1 = true ∧ ¬Fair exampleRoom.game l aborted.2 := by
  refine ⟨by decide, fun hfair => ?_⟩
  have hstill := hfair.leaves "bob" 1 (by decide) (by decide)
  revert hstill
  decide

/-- When the second client gives its seat up in time, the abort is fair. -/
theorem abort_fair_without_guest :
    let l := Transition.run (step {})
      { room := exampleRoom.perform {} (.tryBeginCreation (some 1)) }
      [(.other, .reserveExpectedUser "bob" 30000), (.owner, .reserveExpectedUser "eve" 30000),
        (.other, .removeExpectedUser "bob")]
    Fair exampleRoom.game l
      (l.room.game.abortCreationTransaction l.room.heap (some 1) 1).2 := by
  intro l
  have hgone : ∀ entry ∈ l.made, entry.1 = .other →
      ¬l.room.game.Holds entry.2.1 entry.2.2 := by decide
  exact (abort_fair_iff (Room.reachable_run _ _ : Room.Reachable {} exampleRoom) (by decide)
    (by decide) (by decide)).mpr fun u n hmade => hgone _ hmade rfl

end Ledger

end LuxonServer
