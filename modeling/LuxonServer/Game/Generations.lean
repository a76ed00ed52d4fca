import LuxonServer.Game.Seats

/-! The generations of reservations: what was issued for an earlier reservation of a user, and fires
late, leaves a later one alone. -/

namespace LuxonServer

namespace Game

/-- The recorded generations have been issued, each to one user. -/
structure GenerationsSound (g : Game) : Prop where
  issued : ∀ userId generation, g.expectedUserGenerations.lookup userId = some generation →
    generation ≤ g.nextExpectedUserGeneration
  distinct : ∀ userId other generation,
    g.expectedUserGenerations.lookup userId = some generation →
    g.expectedUserGenerations.lookup other = some generation → userId = other

theorem generationsSound_invariant : SeatInvariant GenerationsSound where
  congr hg _ hgens hnext := by
    constructor
    · rw [hgens, hnext]
      exact hg.issued
    · rw [hgens]
      exact hg.distinct
  reserve := by
    intro g user ttlMs hg
    rcases reserve_cases user ttlMs g with ⟨heq, -⟩ | ⟨-, -, heq⟩
    · rwa [heq]
    rw [heq]
    constructor
    · intro userId generation hl
      simp only [withReservation, AList.lookup_insert_eq] at hl ⊢
      split at hl
      · cases hl
        exact le_refl _
      · exact Nat.le_succ_of_le (hg.issued userId generation hl)
    · intro userId other generation hl hl'
      simp only [withReservation, AList.lookup_insert_eq] at hl hl'
      split at hl <;> split at hl'
      · next huser hother => rw [huser, hother]
      · cases hl
        have hle := hg.issued other _ hl'
        omega
      · cases hl'
        have hle := hg.issued userId _ hl
        omega
      · exact hg.distinct userId other generation hl hl'
  remove := by
    intro g user hg
    rw [removeExpectedUser_eq]
    have hold : ∀ userId generation,
        (g.expectedUserGenerations.erase user).lookup userId = some generation →
        g.expectedUserGenerations.lookup userId = some generation := by
      intro userId generation hl
      rw [AList.lookup_erase_eq] at hl
      split at hl
      · cases hl
      · exact hl
    constructor
    · exact fun userId generation hl => hg.issued userId generation (hold userId generation hl)
    · exact fun userId other generation hl hl' =>
        hg.distinct userId other generation (hold _ _ hl) (hold _ _ hl')

end Game

/-- The operation is a release or an expiry for the reservation of a user with a generation, or an
abort whose log has that reservation. -/
def RoomOp.releases (s : Room) (userId : String) (generation : Nat) : RoomOp → Prop
  | .removeExpectedUserIfGeneration user issued => user = userId ∧ issued = generation
  | .runScheduledTask (.expireReservation _ user issued) => user = userId ∧ issued = generation
  | .abortCreationTransaction _ _ => s.game.creationReserved.lookup userId = some generation
  | _ => False

namespace Room

open Game

variable {settings : AppSettings} {s : Room} {userId : String} {earlier later : Nat}

theorem generationsSound_of_isNew (hnew : s.IsNew) : GenerationsSound s.game := by
  rw [hnew.1]
  exact ⟨fun _ _ hl => by simp at hl, fun _ _ _ hl => by simp at hl⟩

/-- What is issued for one generation leaves another alone. -/
theorem holds_of_releases (hs : s.game.SeatsSound) (hne : earlier ≠ later)
    (hheld : s.game.Holds userId later) {op : RoomOp} (hop : op.releases s userId earlier) :
    (s.step settings op).game.Holds userId later := by
  refine step_induction (P := fun s' => s'.game.Holds userId later) hheld fun _ => ?_
  have hother : s.game.expectedUserGenerations.lookup userId ≠ some earlier := by
    rw [hheld.2]
    exact fun heq => hne (Option.some.inj heq).symm
  cases op with
  | removeExpectedUserIfGeneration user issued =>
    obtain ⟨rfl, rfl⟩ := hop
    simp only [perform, removeIfGeneration_of_ne hother]
    exact hheld
  | runScheduledTask task =>
    cases task with
    | keepAlive ttlMs => cases hop
    | expireReservation ttlMs user issued =>
      obtain ⟨rfl, rfl⟩ := hop
      rcases runScheduledTask_cases (.expireReservation ttlMs user issued) s.game with
        ⟨_, heq⟩ | ⟨_, _, _, _, htask, hl, -⟩
      · simp only [perform, heq]
        exact hheld
      · cases htask
        exact absurd hl hother
  | abortCreationTransaction owner generation =>
    have hlog : s.game.creationReserved.lookup userId = some earlier := hop
    by_cases hactive : s.game.isCreationActive s.heap owner generation = true
    · obtain ⟨_, heq⟩ := abortCreationTransaction_eq hactive
      have hissued := hs.issued userId later hheld.2
      have hback := ((rollbackSeats_spec s.heap hs).1 userId later hissued).mpr ⟨hheld, by
        rw [hlog]
        exact fun heq => hne (Option.some.inj heq)⟩
      simp only [perform, heq]
      exact hback
    · simp only [perform, abortCreationTransaction_of_inactive (Bool.eq_false_iff.mpr hactive)]
      exact hheld
  | _ => cases hop

/-- The counter of generations does not go back. -/
theorem nextGeneration_run (settings : AppSettings) (s : Room) (ops : List RoomOp) :
    s.game.nextExpectedUserGeneration ≤
      (Transition.run (step settings) s ops).game.nextExpectedUserGeneration := by
  have hinvariant : SeatInvariant
      fun g => s.game.nextExpectedUserGeneration ≤ g.nextExpectedUserGeneration :=
    { congr := fun hg _ _ hnext => hnext ▸ hg
      reserve := fun userId ttlMs hg => by
        rcases reserve_cases userId ttlMs _ with ⟨heq, -⟩ | ⟨-, -, heq⟩ <;> rw [heq]
        · exact hg
        · exact Nat.le_succ_of_le hg
      remove := fun userId hg => by rwa [removeExpectedUser_eq] }
  have hkeeps : Transition.Keeps (step settings) (fun _ _ => True)
      fun s' => s.game.nextExpectedUserGeneration ≤ s'.game.nextExpectedUserGeneration :=
    fun s' op hs' _ => hinvariant.step settings s' op hs'
  exact hkeeps.run (le_refl _) (Transition.eachStep_of_forall fun _ _ _ => trivial)

theorem reserve_generation {g : Game} {ttlMs generation : Nat}
    (hmade : (g.reserveExpectedUserWithGeneration userId ttlMs).1 = some generation) :
    generation = g.nextExpectedUserGeneration + 1 ∧
      (g.reserveExpectedUserWithGeneration userId ttlMs).2.nextExpectedUserGeneration =
        generation := by
  rcases reserve_cases userId ttlMs g with ⟨heq, -⟩ | ⟨-, -, heq⟩
  · rw [heq] at hmade
    cases hmade
  · rw [heq] at hmade ⊢
    cases hmade
    exact ⟨rfl, rfl⟩

/-- In every reachable room the tables agree and no two reservations have one generation; and when
a user gets a reservation, and later another, then nothing that was issued for the earlier one ends
the later one, whatever happens before, in between and afterwards. -/
theorem generations_sound (hs : Reachable settings s) :
    (∀ userId, userId ∈ s.game.expectedUserGenerations ↔ userId ∈ s.game.expectedUsers) ∧
      (∀ userId other generation,
        s.game.expectedUserGenerations.lookup userId = some generation →
        s.game.expectedUserGenerations.lookup other = some generation → userId = other) ∧
      ∀ userId ttlMs earlier ops ttlMs' later ops' op,
        (s.game.reserveExpectedUserWithGeneration userId ttlMs).1 = some earlier →
        let s₁ := Transition.run (step settings)
          (s.step settings (.reserveExpectedUser userId ttlMs)) ops
        (s₁.game.reserveExpectedUserWithGeneration userId ttlMs').1 = some later →
        let s₂ := Transition.run (step settings)
          (s₁.step settings (.reserveExpectedUser userId ttlMs')) ops'
        s₂.game.Holds userId later → op.releases s₂ userId earlier →
        (s₂.step settings op).game.Holds userId later := by
  have hsound : GenerationsSound s.game := hs.invariant (fun _ => generationsSound_of_isNew)
    fun s op hg _ => generationsSound_invariant.step settings s op hg
  refine ⟨hs.valid.seats.keys, hsound.distinct, ?_⟩
  intro userId ttlMs earlier ops ttlMs' later ops' op hearlier s₁ hlater s₂ hheld hop
  have hevery : ∀ s ops, Transition.EachStep (step settings) (fun _ _ => True) s ops :=
    fun _ _ => Transition.eachStep_of_forall fun _ _ _ => trivial
  have hs₁ : Reachable settings s₁ := (hs.step trivial).run (hevery _ ops)
  have hs₂ : Reachable settings s₂ := (hs₁.step trivial).run (hevery _ ops')
  have hfirst : (s.step settings (.reserveExpectedUser userId ttlMs)).game =
      (s.game.reserveExpectedUserWithGeneration userId ttlMs).2 := rfl
  have hbetween := nextGeneration_run settings
    (s.step settings (.reserveExpectedUser userId ttlMs)) ops
  rw [hfirst, (reserve_generation hearlier).2] at hbetween
  have hnext := (reserve_generation hlater).1
  have hne : earlier ≠ later := by
    simp only [s₁] at hnext
    omega
  exact holds_of_releases hs₂.valid.seats hne hheld hop

/-- Bob's seat is given up and reserved again, and then the time of his first reservation runs
out. -/
theorem generations_sound_late_expiry :
    let s := Transition.run (step {}) (create ⟨"app", "1.0", "lobby", 0, "room", ""⟩)
      [.reserveExpectedUser "bob" 30000, .removeExpectedUser "bob",
        .reserveExpectedUser "bob" 30000]
    (s.step {} (.runScheduledTask (.expireReservation 30000 "bob" 1))).game.Holds "bob" 2 := by
  have hs : Reachable {} (create ⟨"app", "1.0", "lobby", 0, "room", ""⟩) := reachable_run _ []
  exact (generations_sound hs).2.2 "bob" 30000 1 [.removeExpectedUser "bob"] 30000 2 []
    (.runScheduledTask (.expireReservation 30000 "bob" 1)) rfl rfl ⟨by decide, rfl⟩ ⟨rfl, rfl⟩

end Room

end LuxonServer
