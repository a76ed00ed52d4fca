import LuxonServer.Game.State

/-! Seat reservations: the expected users of a room and the generations of their reservations. -/

namespace LuxonServer.Game

/-- `reserve_expected_user_with_generation`: the generation of a new reservation, and `none` when
the user is empty or already expected. -/
def reserveExpectedUserWithGeneration (userId : String) (ttlMs : Nat) (g : Game) :
    Option Nat × Game :=
  if userId = "" then (none, g)
  else if userId ∈ g.expectedUsers then (none, g)
  else
    let generation := g.nextExpectedUserGeneration + 1
    (some generation,
      { g with
        expectedUsers := g.expectedUsers.insert userId
        nextExpectedUserGeneration := generation
        expectedUserGenerations := g.expectedUserGenerations.insert userId generation
        creationReserved :=
          if g.isCreating then g.creationReserved.insert userId generation else g.creationReserved
        scheduled := g.scheduled ++ [.expireReservation ttlMs userId generation] })

/-- `reserve_expected_user`. -/
def reserveExpectedUser (userId : String) (ttlMs : Nat) (g : Game) : Bool × Game :=
  let (generation, g) := g.reserveExpectedUserWithGeneration userId ttlMs
  (generation.isSome, g)

/-- The log of a reservation that ends while a creation is active: it is recorded unless the
attempt itself made it. -/
def logRemoved (userId : String) (generation : Nat) (g : Game) : Generations :=
  if g.isCreating ∧ g.creationReserved.lookup userId ≠ some generation then
    g.creationRemoved.insert userId generation
  else g.creationRemoved

/-- `remove_expected_user`. -/
def removeExpectedUser (userId : String) (g : Game) : Game :=
  match g.expectedUserGenerations.lookup userId with
  | none => { g with expectedUsers := g.expectedUsers.erase userId }
  | some generation =>
    { g with
      creationRemoved := g.logRemoved userId generation
      expectedUserGenerations := g.expectedUserGenerations.erase userId
      expectedUsers := g.expectedUsers.erase userId }

/-- `remove_expected_user_if_generation`. -/
def removeExpectedUserIfGeneration (userId : String) (generation : Nat) (g : Game) : Bool × Game :=
  if g.expectedUserGenerations.lookup userId = some generation then
    (true,
      { g with
        expectedUserGenerations := g.expectedUserGenerations.erase userId
        expectedUsers := g.expectedUsers.erase userId })
  else (false, g)

/-- The callback that `reserve_expected_user_with_generation` schedules. -/
def expireReservation (userId : String) (generation : Nat) (g : Game) : Game :=
  if g.expectedUserGenerations.lookup userId = some generation then
    { g with
      creationRemoved := g.logRemoved userId generation
      expectedUserGenerations := g.expectedUserGenerations.erase userId
      expectedUsers := g.expectedUsers.erase userId }
  else g

/-- `run_scheduled_tasks` takes one task of the room; which one is due is up to the clock. -/
def runScheduledTask (task : ScheduledTask) (g : Game) : Game :=
  if task ∈ g.scheduled then
    let g := { g with scheduled := g.scheduled.erase task }
    match task with
    | .expireReservation _ userId generation => g.expireReservation userId generation
    | .keepAlive _ => g
  else g

variable {userId : String} {ttlMs generation : Nat} {g : Game}

theorem reserve_of_mem (hu : userId ∈ g.expectedUsers) :
    g.reserveExpectedUserWithGeneration userId ttlMs = (none, g) := by
  unfold reserveExpectedUserWithGeneration
  rw [if_pos hu, ite_self]

/-- The room with a reservation that it has just made. -/
def withReservation (userId : String) (ttlMs : Nat) (g : Game) : Game :=
  { g with
    expectedUsers := g.expectedUsers.insert userId
    nextExpectedUserGeneration := g.nextExpectedUserGeneration + 1
    expectedUserGenerations :=
      g.expectedUserGenerations.insert userId (g.nextExpectedUserGeneration + 1)
    creationReserved :=
      if g.isCreating then
        g.creationReserved.insert userId (g.nextExpectedUserGeneration + 1)
      else g.creationReserved
    scheduled :=
      g.scheduled ++ [.expireReservation ttlMs userId (g.nextExpectedUserGeneration + 1)] }

theorem reserve_of_notMem (hne : userId ≠ "") (hu : userId ∉ g.expectedUsers) :
    g.reserveExpectedUserWithGeneration userId ttlMs =
      (some (g.nextExpectedUserGeneration + 1), g.withReservation userId ttlMs) := by
  simp [reserveExpectedUserWithGeneration, withReservation, hne, hu]

/-- A reservation is refused and changes nothing, or it is made. -/
theorem reserve_cases (userId : String) (ttlMs : Nat) (g : Game) :
    (g.reserveExpectedUserWithGeneration userId ttlMs = (none, g) ∧
        (userId = "" ∨ userId ∈ g.expectedUsers)) ∨
      (userId ≠ "" ∧ userId ∉ g.expectedUsers ∧
        g.reserveExpectedUserWithGeneration userId ttlMs =
          (some (g.nextExpectedUserGeneration + 1), g.withReservation userId ttlMs)) := by
  by_cases hne : userId = ""
  · subst hne
    exact Or.inl ⟨rfl, Or.inl rfl⟩
  · by_cases hu : userId ∈ g.expectedUsers
    · exact Or.inl ⟨reserve_of_mem hu, Or.inr hu⟩
    · exact Or.inr ⟨hne, hu, reserve_of_notMem hne hu⟩

theorem reserveExpectedUser_snd :
    (g.reserveExpectedUser userId ttlMs).2 = (g.reserveExpectedUserWithGeneration userId ttlMs).2 :=
  rfl

theorem removeExpectedUser_eq (userId : String) (g : Game) :
    g.removeExpectedUser userId =
      { g with
        creationRemoved :=
          (g.expectedUserGenerations.lookup userId).elim g.creationRemoved
            fun generation => g.logRemoved userId generation
        expectedUserGenerations := g.expectedUserGenerations.erase userId
        expectedUsers := g.expectedUsers.erase userId } := by
  unfold removeExpectedUser
  cases hl : g.expectedUserGenerations.lookup userId with
  | some generation => rfl
  | none =>
    have hnot : userId ∉ g.expectedUserGenerations := AList.lookup_eq_none.mp hl
    simp [AList.erase_of_notMem hnot]

theorem removeIfGeneration_of_lookup
    (hl : g.expectedUserGenerations.lookup userId = some generation) :
    g.removeExpectedUserIfGeneration userId generation =
      (true,
        { g with
          expectedUserGenerations := g.expectedUserGenerations.erase userId
          expectedUsers := g.expectedUsers.erase userId }) := if_pos hl

theorem removeIfGeneration_of_ne
    (hl : g.expectedUserGenerations.lookup userId ≠ some generation) :
    g.removeExpectedUserIfGeneration userId generation = (false, g) := if_neg hl

/-- A reservation that runs out is removed like any other, and a later one stays. -/
theorem expireReservation_eq :
    g.expireReservation userId generation =
      if g.expectedUserGenerations.lookup userId = some generation then
        g.removeExpectedUser userId
      else g := by
  unfold expireReservation
  split
  · next hl => simp only [removeExpectedUser, hl]
  · rfl

/-- A task takes itself off the schedule, and may remove a reservation. -/
theorem runScheduledTask_cases (task : ScheduledTask) (g : Game) :
    (∃ scheduled, g.runScheduledTask task = { g with scheduled }) ∨
      ∃ scheduled ttlMs userId generation, task = .expireReservation ttlMs userId generation ∧
        g.expectedUserGenerations.lookup userId = some generation ∧
        g.runScheduledTask task = { g with scheduled }.removeExpectedUser userId := by
  unfold runScheduledTask
  split
  · cases task with
    | keepAlive => exact Or.inl ⟨_, rfl⟩
    | expireReservation ttlMs userId generation =>
      simp only [expireReservation_eq]
      split
      · next hl => exact Or.inr ⟨_, _, _, _, rfl, hl, rfl⟩
      · exact Or.inl ⟨_, rfl⟩
  · exact Or.inl ⟨g.scheduled, rfl⟩

/-- `g'` differs from `g` in the tables of reservations only. -/
def SeatsOnly (g g' : Game) : Prop :=
  ∃ expectedUsers expectedUserGenerations nextExpectedUserGeneration creationReserved
    creationRemoved scheduled,
    g' = { g with
      expectedUsers, expectedUserGenerations, nextExpectedUserGeneration, creationReserved,
      creationRemoved, scheduled }

theorem SeatsOnly.refl (g : Game) : SeatsOnly g g := ⟨_, _, _, _, _, _, rfl⟩

theorem SeatsOnly.trans {g g' g'' : Game} (h₁ : SeatsOnly g g') (h₂ : SeatsOnly g' g'') :
    SeatsOnly g g'' := by
  obtain ⟨_, _, _, _, _, _, rfl⟩ := h₁
  obtain ⟨_, _, _, _, _, _, rfl⟩ := h₂
  exact ⟨_, _, _, _, _, _, rfl⟩

theorem seatsOnly_reserve (userId : String) (ttlMs : Nat) (g : Game) :
    SeatsOnly g (g.reserveExpectedUserWithGeneration userId ttlMs).2 := by
  rcases reserve_cases userId ttlMs g with ⟨heq, -⟩ | ⟨-, -, heq⟩
  · rw [heq]
    exact SeatsOnly.refl g
  · rw [heq]
    exact ⟨_, _, _, _, _, _, rfl⟩

theorem seatsOnly_remove (userId : String) (g : Game) :
    SeatsOnly g (g.removeExpectedUser userId) := by
  rw [removeExpectedUser_eq]
  exact ⟨_, _, _, _, _, _, rfl⟩

theorem seatsOnly_removeIfGeneration (userId : String) (generation : Nat) (g : Game) :
    SeatsOnly g (g.removeExpectedUserIfGeneration userId generation).2 := by
  unfold removeExpectedUserIfGeneration
  split <;> exact ⟨_, _, _, _, _, _, rfl⟩

theorem seatsOnly_runScheduledTask (task : ScheduledTask) (g : Game) :
    SeatsOnly g (g.runScheduledTask task) := by
  rcases runScheduledTask_cases task g with ⟨_, heq⟩ | ⟨_, _, _, _, -, -, heq⟩
  · rw [heq]
    exact ⟨_, _, _, _, _, _, rfl⟩
  · rw [heq]
    exact SeatsOnly.trans ⟨_, _, _, _, _, _, rfl⟩ (seatsOnly_remove _ _)

/-- What a room has added to the schedule are the ends of the reservations that it has made, each
after the default time. -/
def Reserves (g g' : Game) : Prop :=
  ∃ made, g'.scheduled = g.scheduled ++ made ∧
    g'.nextExpectedUserGeneration = g.nextExpectedUserGeneration + made.length ∧
    ∀ task ∈ made, ∃ userId generation, task = .expireReservation 30000 userId generation

/-- A room that makes no reservation. -/
theorem Reserves.of_same {g g' : Game} (hscheduled : g'.scheduled = g.scheduled)
    (hnext : g'.nextExpectedUserGeneration = g.nextExpectedUserGeneration) : Reserves g g' :=
  ⟨[], by simp [hscheduled], by simp [hnext], by simp⟩

theorem Reserves.refl (g : Game) : Reserves g g := .of_same rfl rfl

theorem Reserves.trans {g g' g'' : Game} (h₁ : Reserves g g') (h₂ : Reserves g' g'') :
    Reserves g g'' := by
  obtain ⟨made₁, hscheduled₁, hnext₁, hmade₁⟩ := h₁
  obtain ⟨made₂, hscheduled₂, hnext₂, hmade₂⟩ := h₂
  refine ⟨made₁ ++ made₂, ?_, ?_, fun task hmem => ?_⟩
  · rw [hscheduled₂, hscheduled₁, List.append_assoc]
  · rw [hnext₂, hnext₁, List.length_append]
    omega
  · exact (List.mem_append.mp hmem).elim (hmade₁ task) (hmade₂ task)

theorem reserves_reserve (userId : String) (g : Game) :
    Reserves g (g.reserveExpectedUserWithGeneration userId 30000).2 := by
  rcases reserve_cases userId 30000 g with ⟨heq, -⟩ | ⟨-, -, heq⟩
  · rw [heq]
    exact Reserves.refl g
  · rw [heq]
    exact ⟨[_], rfl, rfl, fun task hmem => ⟨_, _, List.mem_singleton.mp hmem⟩⟩

theorem reserves_remove (userId : String) (g : Game) :
    Reserves g (g.removeExpectedUser userId) := by
  rw [removeExpectedUser_eq]
  exact .of_same rfl rfl

theorem reserves_removeIfGeneration (userId : String) (generation : Nat) (g : Game) :
    Reserves g (g.removeExpectedUserIfGeneration userId generation).2 := by
  unfold removeExpectedUserIfGeneration
  split <;> exact .of_same rfl rfl

end LuxonServer.Game
