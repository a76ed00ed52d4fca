import LuxonServer.Game.SetProperties

/-! What an expected table is compared with: the two checks before a compare-and-swap, and the
values that the room publishes. -/

namespace LuxonServer

namespace Game

/-- An expected entry is met: the table has the value, or it lacks the key and null stands for
that. -/
def MeetsIn (deleteNull : Bool) (props : Hashtable) (entry : Σ _ : Value, Value) : Prop :=
  props.lookup entry.1 = some entry.2 ∨
    props.lookup entry.1 = none ∧ entry.2 = .null ∧ deleteNull = true

/-- The loop of `expect_actor_props`; `none` is the exception of `at`, which looks up also a key
whose absence is allowed. -/
def expectActorEntries (deleteNull : Bool) (props : Hashtable) :
    List (Σ _ : Value, Value) → Option Bool
  | [] => some true
  | entry :: rest =>
    match props.lookup entry.1 with
    | none => if entry.2 ≠ .null ∨ ¬deleteNull then some false else none
    | some value =>
      if value ≠ entry.2 then some false else expectActorEntries deleteNull props rest

/-- `expect_actor_props`. -/
def expectActorProps (actorId : Int) (expected : Hashtable) (g : Game) : Option Bool :=
  match g.findActor actorId with
  | none => some false
  | some gp =>
    expectActorEntries (GameFlag.deleteNullProps.isSet g.flags) gp.actorProps expected.entries

/-- A call answers what a property of its arguments is. -/
def Decides (answer : Option Bool) (p : Prop) : Prop := ∃ b, answer = some b ∧ (b = true ↔ p)

/-- The lookup of `at` is reached for an allowed absence: the entries before are present. -/
def ReachesAbsent (deleteNull : Bool) (props : Hashtable) (entries : List (Σ _ : Value, Value)) :
    Prop :=
  ∃ before key after, entries = before ++ ⟨key, .null⟩ :: after ∧
    props.lookup key = none ∧ deleteNull = true ∧
      ∀ entry ∈ before, props.lookup entry.1 = some entry.2

section ExpectActor

variable {deleteNull : Bool} {props : Hashtable} {entry : Σ _ : Value, Value}
  {rest : List (Σ _ : Value, Value)}

theorem reachesAbsent_cons_of_some (hentry : props.lookup entry.1 = some entry.2) :
    ReachesAbsent deleteNull props (entry :: rest) ↔ ReachesAbsent deleteNull props rest := by
  constructor
  · rintro ⟨before, key, after, hsplit, hnone, hflag, hbefore⟩
    cases before with
    | nil =>
      obtain ⟨rfl, rfl⟩ := List.cons.inj hsplit
      rw [hnone] at hentry
      cases hentry
    | cons first before =>
      obtain ⟨rfl, rfl⟩ := List.cons.inj hsplit
      exact ⟨before, key, after, rfl, hnone, hflag,
        fun e he => hbefore e (List.mem_cons_of_mem _ he)⟩
  · rintro ⟨before, key, after, rfl, hnone, hflag, hbefore⟩
    exact ⟨entry :: before, key, after, rfl, hnone, hflag,
      List.forall_mem_cons.mpr ⟨hentry, hbefore⟩⟩

theorem not_reachesAbsent_cons (hentry : ¬MeetsIn deleteNull props entry) :
    ¬ReachesAbsent deleteNull props (entry :: rest) := by
  rintro ⟨before, key, after, hsplit, hnone, hflag, hbefore⟩
  cases before with
  | nil =>
    obtain ⟨rfl, -⟩ := List.cons.inj hsplit
    exact hentry (Or.inr ⟨hnone, rfl, hflag⟩)
  | cons first before =>
    obtain ⟨rfl, -⟩ := List.cons.inj hsplit
    exact hentry (Or.inl (hbefore _ List.mem_cons_self))

/-- The loop throws exactly where it comes to an allowed absence, and otherwise decides. -/
theorem decides_expectActorEntries (entries : List (Σ _ : Value, Value)) :
    Decides (expectActorEntries deleteNull props entries)
        (∀ entry ∈ entries, MeetsIn deleteNull props entry) ↔
      ¬ReachesAbsent deleteNull props entries := by
  induction entries with
  | nil => simp [Decides, ReachesAbsent, expectActorEntries]
  | cons entry rest ih =>
    unfold expectActorEntries
    cases hlookup : props.lookup entry.1 with
    | none =>
      simp only
      by_cases hallowed : entry.2 = .null ∧ deleteNull = true
      · rw [if_neg (by simpa using hallowed)]
        refine iff_of_false (by rintro ⟨b, hb, -⟩; cases hb) (not_not.mpr ?_)
        obtain ⟨key, value⟩ := entry
        obtain ⟨rfl, hflag⟩ := hallowed
        exact ⟨[], key, rest, rfl, hlookup, hflag, by simp⟩
      · have hunmet : ¬MeetsIn deleteNull props entry := by
          simpa [MeetsIn, hlookup] using hallowed
        rw [if_pos (by
          by_contra hneither
          simp only [ne_eq, not_or, not_not] at hneither
          exact hallowed hneither)]
        refine iff_of_true ⟨false, rfl, ?_⟩ (not_reachesAbsent_cons hunmet)
        simp [hunmet]
    | some value =>
      simp only
      by_cases hvalue : value = entry.2
      · subst hvalue
        have hmet : MeetsIn deleteNull props entry := Or.inl hlookup
        rw [if_neg (by simp), reachesAbsent_cons_of_some hlookup, ← ih, List.forall_mem_cons]
        simp only [hmet, true_and]
      · have hunmet : ¬MeetsIn deleteNull props entry := by
          simp [MeetsIn, hlookup, hvalue]
        rw [if_pos hvalue]
        refine iff_of_true ⟨false, rfl, ?_⟩ (not_reachesAbsent_cons hunmet)
        simp [hunmet]

end ExpectActor

/-- `expect_game_props` decides on the custom properties whether every expected value is met, and
`expect_actor_props` on those of an actor, unless it comes to a key that may be absent. -/
theorem decides_expectActorProps_iff {g : Game} {actorId : Int} {gp : GamePeer}
    (hgp : g.findActor actorId = some gp) (expected : Hashtable) :
    ((∀ entry ∈ expected.entries, ∀ p : GameProp, entry.1 ≠ .byte p.code) →
      (g.expectGameProps expected = true ↔ ∀ entry ∈ expected.entries,
        MeetsIn (GameFlag.deleteNullProps.isSet g.flags) g.customProps entry)) ∧
    (Decides (g.expectActorProps actorId expected) (∀ entry ∈ expected.entries,
        MeetsIn (GameFlag.deleteNullProps.isSet g.flags) gp.actorProps entry) ↔
      ¬ReachesAbsent (GameFlag.deleteNullProps.isSet g.flags) gp.actorProps expected.entries) := by
  constructor
  · intro hcustom
    rw [expectGameProps_iff]
    constructor
    · rintro hmeets ⟨key, value⟩ hentry
      have hmet := hmeets key value (AList.mem_entries_iff.mp hentry)
      unfold Meets at hmet
      rwa [propAt_custom (hcustom _ hentry)] at hmet
    · intro hmeets key value hvalue
      have hentry := AList.mem_entries_iff.mpr hvalue
      unfold Meets
      rw [propAt_custom (hcustom _ hentry)]
      exact hmeets _ hentry
  · unfold expectActorProps
    rw [hgp]
    exact decides_expectActorEntries expected.entries

theorem decides_expectActorProps_team :
    ∃ gp, Room.adas.game.findActor 1 = some gp ∧
      Decides (Room.adas.game.expectActorProps 1 (AList.insert (.string "team") (.int32 2) ∅))
        (∀ entry ∈ (AList.insert (.string "team") (.int32 2) ∅ : Hashtable).entries,
          MeetsIn (GameFlag.deleteNullProps.isSet Room.adas.game.flags) gp.actorProps entry) := by
  refine ⟨_, rfl, (decides_expectActorProps_iff rfl _).2.mpr ?_⟩
  rintro ⟨before, key, after, hsplit, -, -, -⟩
  have hmem : (⟨key, .null⟩ : Σ _ : Value, Value) ∈
      (AList.insert (.string "team") (.int32 2) ∅ : Hashtable).entries :=
    hsplit ▸ List.mem_append_right _ List.mem_cons_self
  rw [AList.mem_entries_iff, AList.lookup_insert_eq] at hmem
  split at hmem
  · simp at hmem
  · simp at hmem

/-- The question whether an actor has no team throws. -/
theorem not_decides_no_team :
    ∃ gp, Room.adas.game.findActor 1 = some gp ∧
      ¬Decides (Room.adas.game.expectActorProps 1 (AList.insert (.string "team") .null ∅))
        (∀ entry ∈ (AList.insert (.string "team") .null ∅ : Hashtable).entries,
          MeetsIn (GameFlag.deleteNullProps.isSet Room.adas.game.flags) gp.actorProps entry) := by
  have hthrows :
      Room.adas.game.expectActorProps 1 (AList.insert (.string "team") .null ∅) = none := by decide
  refine ⟨_, rfl, ?_⟩
  rw [hthrows]
  rintro ⟨b, hb, -⟩
  cases hb

section Published

variable {g : Game}

/-- The room has the value that the getter gives for a key, or lacks the key and null stands for
that. -/
def Publishes (g : Game) (entry : Σ _ : Value, Value) : Prop :=
  g.getGameProp entry.1 = entry.2 ∨
    entry.1 ∉ g.getGameProps false ∧ entry.2 = .null ∧ GameFlag.deleteNullProps.isSet g.flags = true

/-- `PlayerCount` is looked up among the custom properties, which have another value of it or
none. -/
def MissesCount (g : Game) (entry : Σ _ : Value, Value) : Prop :=
  entry.1 = playerCountKey ∧ entry.2 = .byte g.playerCount ∧
    g.customProps.lookup playerCountKey ≠ some entry.2

/-- The getter has null for a key without a value also where null does not stand for that. -/
def MissesNull (g : Game) (entry : Σ _ : Value, Value) : Prop :=
  entry.1 ∉ g.getGameProps false ∧ entry.2 = .null ∧
    GameFlag.deleteNullProps.isSet g.flags = false

/-- Another number of players is what the custom properties have, or null that they have none. -/
def TakesCount (g : Game) (entry : Σ _ : Value, Value) : Prop :=
  entry.1 = playerCountKey ∧ entry.2 ≠ .byte g.playerCount ∧
    MeetsIn (GameFlag.deleteNullProps.isSet g.flags) g.customProps entry

/-- An entry decides the answer otherwise than the getter: one that is missed among published
ones, or one that is taken, the others being taken or published and not missed. -/
def Mismatches (g : Game) (entries : List (Σ _ : Value, Value)) : Prop :=
  (∃ entry ∈ entries, TakesCount g entry) ∧
      (∀ entry ∈ entries, TakesCount g entry ∨
        Publishes g entry ∧ ¬(MissesCount g entry ∨ MissesNull g entry)) ∨
    (∃ entry ∈ entries, MissesCount g entry ∨ MissesNull g entry) ∧
      ∀ entry ∈ entries, Publishes g entry

theorem playerCountKey_ne_code (p : GameProp) : playerCountKey ≠ .byte p.code := by
  cases p <;> decide

theorem propAt_playerCount : g.propAt playerCountKey = g.customProps.lookup playerCountKey :=
  propAt_custom playerCountKey_ne_code

theorem getGameProp_playerCount : g.getGameProp playerCountKey = .byte g.playerCount := rfl

theorem getGameProp_of_ne {key : Value} (hcount : key ≠ playerCountKey) :
    g.getGameProp key = (g.propAt key).getD .null := by
  unfold getGameProp propAt
  cases key with
  | byte code =>
    simp only
    cases GameProp.ofCode code with
    | none => simp only [if_neg hcount]
    | some p => rfl
  | _ => rfl

theorem playerCountKey_mem : playerCountKey ∈ g.getGameProps false := by
  unfold getGameProps
  exact (AList.mem_insert _).mpr (Or.inl rfl)

theorem notMem_getGameProps {key : Value} (hcount : key ≠ playerCountKey) :
    key ∉ g.getGameProps false ↔ g.propAt key = none := by
  rw [← AList.lookup_eq_none, lookup_getGameProps hcount]

/-- What `expect_game_props` tests of one entry. -/
theorem takesCount_iff (entry : Σ _ : Value, Value) :
    TakesCount g entry ↔
      Meets (GameFlag.deleteNullProps.isSet g.flags) g entry.1 entry.2 ∧ ¬Publishes g entry := by
  obtain ⟨key, value⟩ := entry
  by_cases hcount : key = playerCountKey
  · subst hcount
    simp only [TakesCount, Publishes, Meets, MeetsIn, propAt_playerCount, getGameProp_playerCount,
      playerCountKey_mem]
    grind
  · simp only [TakesCount, Publishes, Meets, hcount, getGameProp_of_ne hcount,
      notMem_getGameProps hcount]
    grind

theorem misses_iff (entry : Σ _ : Value, Value) :
    MissesCount g entry ∨ MissesNull g entry ↔
      ¬Meets (GameFlag.deleteNullProps.isSet g.flags) g entry.1 entry.2 ∧ Publishes g entry := by
  obtain ⟨key, value⟩ := entry
  by_cases hcount : key = playerCountKey
  · subst hcount
    simp only [MissesCount, MissesNull, Publishes, Meets, propAt_playerCount,
      getGameProp_playerCount, playerCountKey_mem]
    grind
  · simp only [MissesCount, MissesNull, Publishes, Meets, hcount, getGameProp_of_ne hcount,
      notMem_getGameProps hcount]
    cases g.propAt key with
    | none => grind
    | some existing => grind

/-- A table that has the player count, and otherwise what the room has. -/
theorem expectGameProps_published {table : Hashtable}
    (hcount : table.lookup playerCountKey = some (.byte g.playerCount))
    (hprops : ∀ key, key ≠ playerCountKey → ∀ value, table.lookup key = some value →
      g.propAt key = some value) :
    g.expectGameProps table = true ↔
      g.customProps.lookup playerCountKey = some (.byte g.playerCount) := by
  rw [expectGameProps_iff]
  constructor
  · intro hmeets
    rcases hmeets _ _ hcount with hsome | ⟨-, hnull, -⟩
    · rw [← propAt_playerCount, hsome]
    · cases hnull
  · intro hcustom key value hvalue
    by_cases hkey : key = playerCountKey
    · subst hkey
      rw [hcount] at hvalue
      exact Or.inl (by rw [propAt_playerCount, hcustom, hvalue])
    · exact Or.inl (hprops key hkey value hvalue)

/-- The matcher agrees with the getter unless the player count or a null that stands for nothing
decides, and takes the published tables only where the player count is a custom property too. -/
theorem expectGameProps_agrees_iff (g : Game) (expected : Hashtable) :
    ((g.expectGameProps expected = true ↔ ∀ entry ∈ expected.entries, Publishes g entry) ↔
      ¬Mismatches g expected.entries) ∧
    (g.expectGameProps (g.getGameProps false) = true ↔
      g.customProps.lookup playerCountKey = some (.byte g.playerCount)) ∧
    (g.expectGameProps g.getLobbyGameProps = true ↔
      g.customProps.lookup playerCountKey = some (.byte g.playerCount)) := by
  refine ⟨?_, expectGameProps_published ?_ ?_, expectGameProps_published ?_ ?_⟩
  · have hmeets : g.expectGameProps expected = true ↔ ∀ entry ∈ expected.entries,
        Meets (GameFlag.deleteNullProps.isSet g.flags) g entry.1 entry.2 := by
      rw [expectGameProps_iff]
      exact ⟨fun h entry he => h _ _ (AList.mem_entries_iff.mp he),
        fun h key value hv => h _ (AList.mem_entries_iff.mpr hv)⟩
    rw [hmeets]
    exact List.forall_mem_iff_forall_mem (fun entry _ => takesCount_iff entry)
      fun entry _ => misses_iff entry
  · unfold getGameProps
    exact AList.lookup_insert _
  · intro key hkey value hvalue
    rw [← lookup_getGameProps hkey, hvalue]
  · rw [lookup_getLobbyGameProps_of_ne g (by simp [playerCountKey]), lookup_builtinLobbyProps]
    rfl
  · intro key hkey value hvalue
    by_cases hstring : ∃ name, key = .string name
    · obtain ⟨name, rfl⟩ := hstring
      rw [lookup_getLobbyGameProps_string, shown] at hvalue
      split at hvalue
      · rw [propAt_custom (by simp), hvalue]
      · cases hvalue
    · rw [lookup_getLobbyGameProps_of_ne g (not_exists.mp hstring), lookup_builtinLobbyProps,
        if_neg hkey] at hvalue
      split at hvalue
      · next hmax => rw [hmax, propAt_code, ← hvalue]; rfl
      · split at hvalue
        · next hopen => rw [hopen, propAt_code, ← hvalue]; rfl
        · cases hvalue

/-- Nobody can match the table that the room itself publishes. -/
theorem not_expectGameProps_getGameProps :
    Room.adas.game.expectGameProps (Room.adas.game.getGameProps false) = false ∧
      Room.adas.game.expectGameProps Room.adas.game.getLobbyGameProps = false := by decide

end Published

end Game

end LuxonServer
