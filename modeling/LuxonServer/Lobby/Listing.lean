import LuxonServer.Game.PropertyTable
import LuxonServer.Game.Revision
import LuxonServer.Lobby.Watch

/-! What an operation of a client or a timer does to a room's place in a listing: whether the lobby
is told, and what becomes of the room's entry, both said of the room before the operation. -/

namespace LuxonServer

/-- The operations of clients and timers.  The others write the visibility of a room without a word
to the lobby: a plugin's `set_config_state`, and an update of a replica. -/
def RoomOp.isHosted : RoomOp → Bool
  | .setConfigState .. | .receiveUpdate .. => false
  | _ => true

namespace Room

open Game

variable {settings : AppSettings} {s : Room}

/-- Only property updates and the end of an attempt touch the visibility. -/
theorem isVisible_perform (settings : AppSettings) (s : Room) {op : RoomOp}
    (hop : op.isHosted = true) :
    (s.perform settings op).game.isVisible = s.game.isVisible ∨
      (∃ update, op = .insertGameProps update) ∨
      (∃ update expected, op = .applyGameProps update expected) ∨
      ∃ owner generation, op = .abortCreationTransaction owner generation := by
  have hseats : ∀ {g g' : Game}, SeatsOnly g g' → g'.isVisible = g.isVisible := by
    rintro g g' ⟨_, _, _, _, _, _, rfl⟩
    rfl
  have hemplace : ∀ (gp : GamePeer) (userId : String) (g : Game),
      (g.emplacePeer gp userId).isVisible = g.isVisible := by
    intro gp userId g
    rw [emplacePeer_eq]
  cases op with
  | setConfigState flags isOpen isVisible maxPeers masterActor => cases hop
  | receiveUpdate isNew message => cases hop
  | insertGameProps update => exact Or.inr (Or.inl ⟨update, rfl⟩)
  | applyGameProps update expected => exact Or.inr (Or.inr (Or.inl ⟨update, expected, rfl⟩))
  | abortCreationTransaction owner generation =>
    exact Or.inr (Or.inr (Or.inr ⟨owner, generation, rfl⟩))
  | connect peer | setPersistent peer persistent =>
    left
    simp only [perform]
    split <;> rfl
  | tryBeginCreation owner =>
    left
    simp only [perform]
    rcases tryBeginCreation_cases owner s.game with heq | ⟨-, -, -, -, heq⟩ <;> rw [heq]
  | applyCreationSettings owner generation values =>
    left
    simp only [perform, applyCreationSettings]
    split <;> rfl
  | commitCreation owner generation =>
    left
    simp only [perform]
    rcases commitCreation_cases s.heap owner generation s.game with heq | ⟨-, -, heq⟩ <;> rw [heq]
  | createPeer peer =>
    left
    simp only [perform, handOut_game]
    rcases createPeer_game s.heap peer s.game with heq | heq <;> rw [heq]
  | addPeer index =>
    left
    rcases addPeer_game_cases settings s index with heq | ⟨gp, userId, -, -, heq⟩
    · rw [heq]
    · rw [heq]
      exact hemplace gp userId s.game
  | addPeerForCreation index owner generation =>
    left
    rcases addPeerForCreation_game_cases settings s index owner generation with
      heq | ⟨gp, userId, -, -, -, -, heq⟩
    · rw [heq]
    · rw [heq]
      exact hemplace gp userId s.game
  | removePeer peer =>
    left
    cases peer with
    | none => rfl
    | some r =>
      obtain ⟨_, _, _, heq⟩ := removePeer_eq s.heap r s.game
      simp only [perform, heq]
  | reserveExpectedUser userId ttlMs => exact Or.inl (hseats (seatsOnly_reserve _ _ _))
  | removeExpectedUser userId => exact Or.inl (hseats (seatsOnly_remove _ _))
  | removeExpectedUserIfGeneration userId generation =>
    exact Or.inl (hseats (seatsOnly_removeIfGeneration _ _ _))
  | runScheduledTask task => exact Or.inl (hseats (seatsOnly_runScheduledTask _ _))
  | insertActorProps actorId update =>
    obtain ⟨_, _, -, heq⟩ := insertActorProps_eq actorId update s.game
    exact Or.inl (by simp only [perform, heq])
  | applyInterestGroups peer add remove =>
    obtain ⟨_, _, -, heq⟩ := applyInterestGroups_eq s.heap peer add remove s.game
    exact Or.inl (by simp only [perform, heq])
  | _ => exact Or.inl rfl

end Room

namespace Game

/-- An attempt belongs to a room that is not created, and gives it back as such. -/
def LeaseOnce (g : Game) : Prop :=
  g.isCreating = true → g.isCreated = false ∧ g.creationInitial.isCreated = false

theorem LeaseOnce.of_lease {g g' : Game} (hg : g.LeaseOnce) (hlease : g'.lease = g.lease) :
    g'.LeaseOnce := by
  simp only [lease, Lease.mk.injEq] at hlease
  obtain ⟨hcreated, hcreating, -, -, -, hinitial⟩ := hlease
  unfold LeaseOnce
  rw [hcreated, hcreating, hinitial]
  exact hg

end Game

namespace Room

open Game

variable {settings : AppSettings} {s : Room} {op : RoomOp}

theorem isLocal_of_isHosted (hop : op.isHosted = true) : op.isLocal = true := by
  cases op with
  | receiveUpdate isNew message => cases hop
  | _ => rfl

/-- A created room stays created, and an attempt begins only in a room that is not. -/
theorem leaseOnce_perform (settings : AppSettings) (hlease : s.game.LeaseOnce)
    (hop : op.isHosted = true) : (s.perform settings op).game.LeaseOnce ∧
      (s.game.isCreated = true → (s.perform settings op).game.isCreated = true) := by
  rcases perform_lease settings s (isLocal_of_isHosted hop) with
    heq | ⟨owner, rfl⟩ | ⟨owner, generation, rfl⟩ | ⟨owner, generation, rfl⟩
  · refine ⟨hlease.of_lease heq, fun hcreated => ?_⟩
    rw [← hcreated]
    exact congrArg Lease.isCreated heq
  · simp only [perform]
    rcases tryBeginCreation_cases owner s.game with heq | ⟨-, hcreated, -, -, heq⟩
    · rw [heq]
      exact ⟨hlease, id⟩
    · rw [heq]
      exact ⟨fun _ => ⟨hcreated, hcreated⟩, id⟩
  · simp only [perform]
    rcases commitCreation_cases s.heap owner generation s.game with heq | ⟨-, -, heq⟩
    · rw [heq]
      exact ⟨hlease, id⟩
    · rw [heq]
      exact ⟨fun hcreating => absurd hcreating Bool.false_ne_true, fun _ => rfl⟩
  · simp only [perform]
    by_cases hactive : s.game.isCreationActive s.heap owner generation
    · have hcreating := (isCreationActive_iff.mp hactive).1
      obtain ⟨_, heq⟩ := abortCreationTransaction_eq hactive
      rw [heq]
      refine ⟨fun hcreating => absurd hcreating Bool.false_ne_true, fun hcreated => ?_⟩
      rw [(hlease hcreating).1] at hcreated
      cases hcreated
    · rw [abortCreationTransaction_of_inactive (Bool.eq_false_iff.mpr hactive)]
      exact ⟨hlease, id⟩

theorem leaseOnce_step (settings : AppSettings) (hlease : s.game.LeaseOnce)
    (hop : op.isHosted = true) : (s.step settings op).game.LeaseOnce := by
  refine step_induction (P := fun s' => s'.game.LeaseOnce) hlease fun _ => ?_
  exact (leaseOnce_perform settings hlease hop).1

/-- A published room is taken off with a word to the lobby. -/
theorem gameDelete_mem_allEffects (hlease : s.game.LeaseOnce) (hop : op.isHosted = true)
    (hbefore : s.game.isPublished = true)
    (hafter : (s.step settings op).game.isPublished = false) :
    .gameDelete ∈ s.allEffects settings op := by
  rcases step_cases settings s op with heq | ⟨-, heq⟩
  · rw [heq, hbefore] at hafter
    cases hafter
  · rw [heq] at hafter
    simp only [isPublished, Bool.and_eq_true] at hbefore
    have hcreated := (leaseOnce_perform settings hlease hop).2 hbefore.1
    simp only [isPublished, hcreated, Bool.true_and] at hafter
    have hinsert : ∀ update, (s.game.insertGameProps settings update).1.isVisible = false →
        .gameDelete ∈ (s.game.insertGameProps settings update).2 := by
      intro update hhidden
      rcases insertGameProps_effects settings update s.game with ⟨hvisible, -⟩ | hdelete
      · rw [hvisible hbefore.2] at hhidden
        cases hhidden
      · rw [hdelete]
        exact List.mem_cons_self
    rcases isVisible_perform settings s hop with
      hvisible | ⟨update, rfl⟩ | ⟨update, expected, rfl⟩ | ⟨owner, generation, rfl⟩
    · rw [hvisible, hbefore.2] at hafter
      cases hafter
    · exact hinsert update hafter
    · simp only [perform, allEffects, effects, applyGameProps] at hafter ⊢
      split at hafter
      · next hexpected =>
        rw [if_pos hexpected]
        exact hinsert update hafter
      · rw [hbefore.2] at hafter
        cases hafter
    · simp only [perform] at hafter
      by_cases hactive : s.game.isCreationActive s.heap owner generation
      · have hcreating := (isCreationActive_iff.mp hactive).1
        rw [(hlease hcreating).1] at hbefore
        cases hbefore.1
      · rw [abortCreationTransaction_of_inactive (Bool.eq_false_iff.mpr hactive),
          hbefore.2] at hafter
        cases hafter

end Room
namespace Game

/-- Whether an update has another value for a built-in property, of the property's type. -/
def changesProp (update : Hashtable) (p : GameProp) (g : Game) : Bool :=
  (update.lookup (.byte p.code)).any fun value => p.hasType value && value != p.read g

/-- Whether `insert_game_props` tells the lobby of an update: it changes a built-in property of the
lobby's table, or the visibility. -/
def tellsLobby (update : Hashtable) (g : Game) : Bool :=
  GameProp.propMap.any fun p => (p.updatesLobby || p == .isVisible) && g.changesProp update p

/-- What becomes of a flag of the room, if an update has it as a boolean. -/
def flagAfter (update : Option Hashtable) (p : GameProp) (old : Bool) : Bool :=
  match update.bind fun update => update.lookup (.byte p.code) with
  | some (.bool value) => value
  | _ => old

/-- An update has the custom properties that the lobby is shown as they are, or not at all. -/
def KeepsShown (update : Hashtable) (g : Game) : Prop :=
  ∀ name ∈ g.lobbyProps, ∀ value ∈ update.lookup (.string name),
    g.customProps.lookup (.string name) = some value

instance (update : Hashtable) (g : Game) : Decidable (g.KeepsShown update) :=
  inferInstanceAs (Decidable (∀ _ ∈ _, ∀ _ ∈ _, _))

section Update

variable {settings : AppSettings} {update : Hashtable} {g : Game}

/-- A built-in property after an update. -/
theorem read_insertGameProps_eq (settings : AppSettings) (update : Hashtable) (g : Game)
    {p : GameProp} (hp : p ≠ .masterClientId) :
    p.read (g.insertGameProps settings update).1 =
      (update.lookup (.byte p.code)).elim (p.read g) fun value =>
        if p.hasType value then value else p.read g := by
  have hread := propAt_insertGameProps settings update g (.byte p.code)
  rw [propAt_code, propAt_code] at hread
  cases hvalue : update.lookup (.byte p.code) with
  | none =>
    rw [hvalue] at hread
    exact Option.some.inj hread
  | some value =>
    have haccepts : p.accepts settings value = p.hasType value := by simp [GameProp.accepts, hp]
    rw [hvalue, Option.elim_some, stored_builtin (GameProp.ofCode_code p), haccepts] at hread
    rw [Option.elim_some]
    split at hread
    · next htype =>
      rw [if_pos htype]
      exact Option.some.inj hread
    · next htype =>
      rw [if_neg htype]
      exact Option.some.inj hread

theorem read_insertGameProps_eq_iff (settings : AppSettings) (update : Hashtable) (g : Game)
    {p : GameProp} (hp : p ≠ .masterClientId) :
    p.read (g.insertGameProps settings update).1 = p.read g ↔ g.changesProp update p = false := by
  rw [read_insertGameProps_eq settings update g hp, changesProp]
  cases update.lookup (.byte p.code) with
  | none => exact iff_of_true rfl rfl
  | some value =>
    rw [Option.elim_some, Option.any_some]
    cases p.hasType value with
    | false => exact iff_of_true rfl rfl
    | true => rw [if_pos rfl, Bool.true_and, bne_eq_false_iff_eq]

theorem isVisible_insertGameProps (settings : AppSettings) (update : Hashtable) (g : Game) :
    (g.insertGameProps settings update).1.isVisible =
      flagAfter (some update) .isVisible g.isVisible := by
  have hread := read_insertGameProps_eq settings update g (p := .isVisible) (by decide)
  unfold flagAfter
  rw [Option.bind_some]
  cases hvalue : update.lookup (.byte GameProp.isVisible.code) with
  | none =>
    rw [hvalue] at hread
    exact Value.bool.inj hread
  | some value =>
    rw [hvalue] at hread
    cases value <;> exact Value.bool.inj hread

theorem isOpen_insertGameProps (settings : AppSettings) (update : Hashtable) (g : Game) :
    (g.insertGameProps settings update).1.isOpen = flagAfter (some update) .isOpen g.isOpen := by
  have hread := read_insertGameProps_eq settings update g (p := .isOpen) (by decide)
  unfold flagAfter
  rw [Option.bind_some]
  cases hvalue : update.lookup (.byte GameProp.isOpen.code) with
  | none =>
    rw [hvalue] at hread
    exact Value.bool.inj hread
  | some value =>
    rw [hvalue] at hread
    cases value <;> exact Value.bool.inj hread

/-- An entry of an update changes a property of the lobby's table. -/
def ChangesTable (g : Game) (entry : Σ _ : Value, Value) : Prop :=
  ∃ p : GameProp, p.updatesLobby = true ∧ entry.1 = .byte p.code ∧ p.hasType entry.2 = true ∧
    entry.2 ≠ p.read g

theorem updateLobby_insertProp (settings : AppSettings) (deleteNull : Bool) (st : PropsUpdate)
    (entry : Σ _ : Value, Value) :
    (insertProp settings deleteNull st entry).updateLobby = true ↔
      st.updateLobby = true ∨ ChangesTable st.game entry := by
  obtain ⟨key, value⟩ := entry
  have hquiet : (¬∃ p : GameProp, p.updatesLobby = true ∧ key = .byte p.code ∧
      p.hasType value = true ∧ value ≠ p.read st.game) →
      (st.updateLobby = true ↔ st.updateLobby = true ∨ ChangesTable st.game ⟨key, value⟩) :=
    fun hnot => (or_iff_left hnot).symm
  cases key with
  | byte code =>
    simp only [insertProp]
    cases hp : GameProp.ofCode code with
    | none =>
      refine hquiet ?_
      rintro ⟨p, -, hcode, -⟩
      rw [Value.byte.inj hcode, GameProp.ofCode_code] at hp
      cases hp
    | some p =>
      obtain rfl := GameProp.code_of_ofCode hp
      have honly : ChangesTable st.game ⟨.byte p.code, value⟩ ↔
          p.updatesLobby = true ∧ p.hasType value = true ∧ value ≠ p.read st.game := by
        constructor
        · rintro ⟨q, hlobby, hcode, htype, hne⟩
          have hsame := GameProp.ofCode_code q
          rw [← Value.byte.inj hcode, GameProp.ofCode_code] at hsame
          obtain rfl := Option.some.inj hsame
          exact ⟨hlobby, htype, hne⟩
        · rintro ⟨hlobby, htype, hne⟩
          exact ⟨p, hlobby, rfl, htype, hne⟩
      rw [honly]
      simp only [insertBuiltin]
      split
      · next hforbidden =>
        rw [hforbidden.1]
        simp [GameProp.updatesLobby]
      · have hstore := GameProp.storeIf_isSome p st.game value
        cases hs : p.storeIf st.game value with
        | none =>
          rw [hs] at hstore
          simp [← hstore]
        | some game =>
          rw [hs] at hstore
          rw [Bool.or_eq_true, Bool.and_eq_true, bne_iff_ne, GameProp.read_storeIf hs, ← hstore]
          refine or_congr_right ⟨?_, ?_⟩
          · rintro ⟨hne, hlobby⟩
            exact ⟨hlobby, rfl, hne.symm⟩
          · rintro ⟨hlobby, -, hne⟩
            exact ⟨hne.symm, hlobby⟩
  | _ =>
    simp only [insertProp, insertCustom]
    split <;> split <;> exact hquiet (by simp)

/-- The loop's note for the lobby: a property of its table has changed. -/
theorem updateLobby_insertProps (settings : AppSettings) (deleteNull : Bool)
    {entries : List (Σ _ : Value, Value)} (hkeys : (entries.map Sigma.fst).Nodup)
    (st : PropsUpdate) :
    (entries.foldl (insertProp settings deleteNull) st).updateLobby = true ↔
      st.updateLobby = true ∨ ∃ entry ∈ entries, ChangesTable st.game entry := by
  induction entries generalizing st with
  | nil => simp
  | cons entry entries ih =>
    rw [List.map_cons, List.nodup_cons] at hkeys
    have hlater : ∀ other ∈ entries,
        (ChangesTable (insertProp settings deleteNull st entry).game other ↔
          ChangesTable st.game other) := by
      intro other hother
      refine exists_congr fun p => and_congr_right fun _ => and_congr_right fun hcode => ?_
      rw [read_insertProp]
      intro hkey
      exact hkeys.1 (hkey.trans hcode.symm ▸ List.mem_map_of_mem hother)
    have hrest : (∃ other ∈ entries,
        ChangesTable (insertProp settings deleteNull st entry).game other) ↔
          ∃ other ∈ entries, ChangesTable st.game other :=
      exists_congr fun other => and_congr_right (hlater other)
    rw [List.foldl_cons, ih hkeys.2, updateLobby_insertProp, hrest, or_assoc,
      List.exists_mem_cons_iff]

/-- An update tells the lobby of the room by exactly the calls that `tellsLobby` foresees. -/
theorem gameUpdate_mem_insertGameProps (settings : AppSettings) (update : Hashtable) (g : Game) :
    .gameUpdate ∈ (g.insertGameProps settings update).2 ↔ g.tellsLobby update = true := by
  have htable : (g.insertProps settings update).updateLobby = true ↔
      ∃ p : GameProp, p.updatesLobby = true ∧ g.changesProp update p = true := by
    rw [insertProps, updateLobby_insertProps settings _ update.keys_nodup]
    simp only [Bool.false_eq_true, false_or]
    constructor
    · rintro ⟨⟨key, value⟩, hentry, p, hlobby, rfl, htype, hne⟩
      refine ⟨p, hlobby, ?_⟩
      rw [changesProp, AList.mem_entries_iff.mp hentry, Option.any_some, htype, Bool.true_and,
        bne_iff_ne]
      exact hne
    · rintro ⟨p, hlobby, hchanges⟩
      obtain ⟨value, hvalue, hnews⟩ := (Option.any_eq_true _ _).mp hchanges
      rw [Bool.and_eq_true, bne_iff_ne] at hnews
      exact ⟨⟨.byte p.code, value⟩, AList.mem_entries_iff.mpr hvalue, p, hlobby, rfl, hnews⟩
  have hvisible : (g.isVisible != (g.insertGameProps settings update).1.isVisible) =
      g.changesProp update .isVisible := by
    have hsame := read_insertGameProps_eq_iff settings update g (p := .isVisible) (by decide)
    simp only [GameProp.read, Value.bool.injEq] at hsame
    rw [Bool.eq_iff_iff, bne_iff_ne, ne_eq, eq_comm, hsame, Bool.not_eq_false]
  have hpublished : .gameUpdate ∈ (g.insertGameProps settings update).2 ↔
      (g.insertProps settings update).updateLobby = true ∨
        (g.isVisible != (g.insertGameProps settings update).1.isVisible) = true := by
    unfold insertGameProps
    simp only
    generalize (if (g.insertProps settings update).changed = true then _ else _ : Game) = after
    rw [List.mem_append]
    by_cases htold : (g.insertProps settings update).updateLobby = true ∨
        (g.isVisible != after.isVisible) = true
    · rw [if_pos htold]
      exact iff_of_true (Or.inr List.mem_cons_self) htold
    · rw [if_neg htold]
      refine iff_of_false ?_ htold
      split <;> simp
  rw [hpublished, htable, hvisible, tellsLobby, List.any_eq_true]
  constructor
  · rintro (⟨p, hlobby, hchanges⟩ | hchanges)
    · exact ⟨p, by cases p <;> decide, by rw [hlobby, hchanges, Bool.true_or, Bool.true_and]⟩
    · exact ⟨.isVisible, by decide, hchanges⟩
  · rintro ⟨p, -, hnews⟩
    rw [Bool.and_eq_true, Bool.or_eq_true, beq_iff_eq] at hnews
    obtain ⟨hlobby | rfl, hchanges⟩ := hnews
    · exact Or.inl ⟨p, hlobby, hchanges⟩
    · exact Or.inr hchanges

theorem changesProp_of_quiet (hquiet : g.tellsLobby update = false) {p : GameProp}
    (hp : p.updatesLobby = true ∨ p = .isVisible) : g.changesProp update p = false := by
  rw [Bool.eq_false_iff]
  intro hchanges
  rw [tellsLobby, List.any_eq_false] at hquiet
  refine hquiet p (by cases p <;> decide) ?_
  rw [hchanges, Bool.and_true, Bool.or_eq_true, beq_iff_eq]
  exact hp

/-- What an update of which the lobby is not told leaves of the lobby's table. -/
theorem table_insertGameProps_iff (settings : AppSettings) (hquiet : g.tellsLobby update = false) :
    (g.insertGameProps settings update).1.getLobbyGameProps.toFinmap =
      g.getLobbyGameProps.toFinmap ↔ g.KeepsShown update := by
  have hread : ∀ p : GameProp, p.updatesLobby = true →
      p.read (g.insertGameProps settings update).1 = p.read g := by
    intro p hp
    refine (read_insertGameProps_eq_iff settings update g ?_).mpr
      (changesProp_of_quiet hquiet (Or.inl hp))
    rintro rfl
    cases hp
  have hmax := Value.byte.inj (hread .maxPlayers rfl)
  have hopen := Value.bool.inj (hread .isOpen rfl)
  have hnames := Value.stringArray.inj (hread .lobbyProperties rfl)
  have hcount : (g.insertGameProps settings update).1.playerCount = g.playerCount := by
    obtain ⟨_, _, _, _, _, _, _, _, _, heq⟩ := propsOnly_insertGameProps settings update g
    rw [heq]
    rfl
  have hcustom : ∀ name, (g.insertGameProps settings update).1.customProps.lookup (.string name) =
      (update.lookup (.string name)).elim (g.customProps.lookup (.string name)) some := fun name =>
    propAt_insertGameProps settings update g (.string name)
  rw [lobbyTable_eq_iff]
  simp only [hmax, hopen, hcount, true_and, shown, hnames, hcustom]
  refine forall_congr' fun name => ?_
  by_cases hname : name ∈ g.lobbyProps
  · simp only [hname, true_imp_iff, if_true]
    cases update.lookup (.string name) with
    | none => exact iff_of_true rfl fun _ hnone => by cases hnone
    | some value => simp [eq_comm]
  · simp [hname]

end Update

end Game

/-- The operations that no listing has a part in, whatever state the room is in. -/
def RoomOp.isPlain : RoomOp → Bool
  | .insertGameProps _ | .applyGameProps .. | .commitCreation .. => false
  | .abortCreationTransaction .. | .addPeer _ | .removePeer _ => false
  | .setCustomProps _ | .setLobbyProps _ | .setDummyPeerCount _ => false
  | op => op.isHosted

namespace Game

theorem listedEntry_eq_iff {g g' : Game} (hjoinable : g'.isJoinable = g.isJoinable) :
    g'.listedEntry.map AList.toFinmap = g.listedEntry.map AList.toFinmap ↔
      (g.isJoinable = true →
        g'.getLobbyGameProps.toFinmap = g.getLobbyGameProps.toFinmap) := by
  unfold listedEntry
  rw [hjoinable]
  cases g.isJoinable <;> simp

/-- Two states of a room that no listing tells apart. -/
structure SameListing (g g' : Game) : Prop where
  isCreated : g'.isCreated = g.isCreated
  isVisible : g'.isVisible = g.isVisible
  isOpen : g'.isOpen = g.isOpen
  listedEntry : g'.listedEntry = g.listedEntry

theorem SameListing.refl (g : Game) : SameListing g g := ⟨rfl, rfl, rfl, rfl⟩

theorem SeatsOnly.sameListing {g g' : Game} (hseats : SeatsOnly g g') : SameListing g g' := by
  obtain ⟨_, _, _, _, _, _, rfl⟩ := hseats
  exact ⟨rfl, rfl, rfl, rfl⟩

theorem sameListing_updatePeer {found : GamePeer → Bool} {change : GamePeer → GamePeer} (g : Game) :
    SameListing g { g with peers := updatePeer found change g.peers } := by
  refine ⟨rfl, rfl, rfl, ?_⟩
  have hcount : ({ g with peers := updatePeer found change g.peers } : Game).playerCount =
      g.playerCount := by simp only [playerCount, length_updatePeer]
  simp only [listedEntry, getLobbyGameProps, builtinLobbyProps, hcount]
  rfl

end Game

namespace Room

open Game

/-- The property update that an operation makes, if the room takes it. -/
def propsUpdate (s : Room) : RoomOp → Option Hashtable
  | .insertGameProps update => some update
  | .applyGameProps update expected =>
    if expected.all fun e => s.game.expectGameProps e then some update else none
  | _ => none

/-- Whether an operation ends the creation of the room. -/
def isCommit (s : Room) : RoomOp → Bool
  | .commitCreation owner generation =>
    s.game.isCreationActive s.heap owner generation && (s.game.findPeer s.heap owner).isSome
  | _ => false

/-- Whether an operation itself tells the lobby of the room. -/
def tells (s : Room) (op : RoomOp) : Bool :=
  (s.propsUpdate op).any fun update => s.game.tellsLobby update

/-- An operation does not leave the room created and visible, and closed. -/
def LeavesOpen (s : Room) (op : RoomOp) : Prop :=
  s.game.isCreated = true ∨ s.isCommit op = true →
    flagAfter (s.propsUpdate op) .isVisible s.game.isVisible = true →
      flagAfter (s.propsUpdate op) .isOpen s.game.isOpen = true

/-- An operation keeps the table that the lobby is shown of the room.  The published count is a
byte, so that only `256` nodes that go at once could leave it. -/
def KeepsTable (s : Room) : RoomOp → Prop
  | .addPeer index => ∀ gp ∈ s.handedOut[index]?, ¬s.game.mayJoin s.heap gp
  | .removePeer (some r) => (s.heap.get r).isSome = true →
    (s.game.peers.countP fun gp => !stays s.heap r gp) % 256 = 0
  | .setCustomProps props => ∀ name ∈ s.game.lobbyProps,
    props.lookup (.string name) = s.game.customProps.lookup (.string name)
  | .setLobbyProps names => ∀ name ∈ names ++ s.game.lobbyProps,
    Value.string name ∈ s.game.customProps → (name ∈ names ↔ name ∈ s.game.lobbyProps)
  | .setDummyPeerCount count => count = s.game.dummyPeerCount
  | op => ∀ update ∈ s.propsUpdate op, s.game.KeepsShown update

/-- An operation keeps the room's entry in the full list. -/
def KeepsEntry (s : Room) (op : RoomOp) : Prop :=
  (s.game.isJoinable = true → s.KeepsTable op) ∧
    (s.isCommit op = true → ¬(s.game.isVisible = true ∧ s.game.isOpen = true))

instance (h : PeerHeap) (gp : GamePeer) (g : Game) : Decidable (g.mayJoin h gp) :=
  inferInstanceAs (Decidable (_ ∧ ∃ userId ∈ h.userId gp.peer, g.userJoined h userId = false))

instance (s : Room) (op : RoomOp) : Decidable (s.LeavesOpen op) :=
  inferInstanceAs (Decidable (_ ∨ _ → _ → _))

instance (s : Room) : ∀ op, Decidable (s.KeepsTable op)
  | .addPeer index =>
    inferInstanceAs (Decidable (∀ gp ∈ s.handedOut[index]?, ¬s.game.mayJoin s.heap gp))
  | .removePeer (some _) => inferInstanceAs (Decidable (_ → _ % 256 = 0))
  | .setCustomProps _ => inferInstanceAs (Decidable (∀ _ ∈ _, _ = _))
  | .setLobbyProps _ => inferInstanceAs (Decidable (∀ _ ∈ _, _ → (_ ↔ _)))
  | .setDummyPeerCount _ => inferInstanceAs (Decidable (_ = _))
  | .insertGameProps update =>
    inferInstanceAs (Decidable (∀ other ∈ s.propsUpdate (.insertGameProps update),
      s.game.KeepsShown other))
  | .applyGameProps update expected =>
    inferInstanceAs (Decidable (∀ other ∈ s.propsUpdate (.applyGameProps update expected),
      s.game.KeepsShown other))
  | .connect _ | .setPersistent _ _ | .disconnect _ | .tryBeginCreation _
  | .applyCreationSettings _ _ _ | .commitCreation _ _ | .abortCreationTransaction _ _
  | .setConfigState _ _ _ _ _ | .createPeer _ | .createPeerForActor _ _
  | .addPeerForCreation _ _ _ | .removePeer none | .reserveExpectedUser _ _
  | .removeExpectedUser _ | .removeExpectedUserIfGeneration _ _ | .runScheduledTask _
  | .insertActorProps _ _ | .applyInterestGroups _ _ _ | .editEventCache _ | .setTtlConfig _ _
  | .receiveUpdate _ _ => .isTrue fun _ hup => nomatch hup

instance (s : Room) (op : RoomOp) : Decidable (s.KeepsEntry op) :=
  inferInstanceAs (Decidable ((_ → _) ∧ (_ → ¬_)))

variable {settings : AppSettings} {s : Room} {op : RoomOp}

/-- The lobby's handlers are told of the room exactly by the operations that `tells` foresees. -/
theorem gameUpdate_mem_allEffects (settings : AppSettings) (s : Room)
    (hop : op.isHosted = true) :
    .gameUpdate ∈ s.allEffects settings op ↔ s.tells op = true := by
  cases op with
  | receiveUpdate isNew message => cases hop
  | insertGameProps update => exact gameUpdate_mem_insertGameProps settings update s.game
  | applyGameProps update expected =>
    simp only [allEffects, effects, applyGameProps, tells, propsUpdate]
    split
    · exact gameUpdate_mem_insertGameProps settings update s.game
    · exact iff_of_false List.not_mem_nil Bool.false_ne_true
  | _ => exact iff_of_false List.not_mem_nil Bool.false_ne_true

theorem sameListing_perform (settings : AppSettings) (s : Room) (hop : op.isPlain = true) :
    SameListing s.game (s.perform settings op).game := by
  cases op with
  | insertGameProps | applyGameProps | addPeer | removePeer | setCustomProps => cases hop
  | setLobbyProps | setDummyPeerCount | commitCreation | abortCreationTransaction => cases hop
  | setConfigState | receiveUpdate => cases hop
  | connect peer | setPersistent peer persistent =>
    simp only [perform]
    split <;> exact SameListing.refl _
  | tryBeginCreation owner =>
    simp only [perform]
    rcases tryBeginCreation_cases owner s.game with heq | ⟨-, hcreated, -, -, heq⟩
    · rw [heq]
      exact SameListing.refl _
    · rw [heq]
      refine ⟨rfl, rfl, rfl, ?_⟩
      simp only [listedEntry, isJoinable, hcreated, Bool.false_and, Bool.false_eq_true, if_false]
  | applyCreationSettings owner generation values =>
    simp only [perform, applyCreationSettings]
    split
    · next hactive =>
      have hcreating := (isCreationActive_iff.mp hactive).1
      refine ⟨rfl, rfl, rfl, ?_⟩
      simp [listedEntry, isJoinable, hcreating]
    · exact SameListing.refl _
  | addPeerForCreation index owner generation =>
    rcases addPeerForCreation_game_cases settings s index owner generation with
      heq | ⟨gp, userId, -, -, hactive, -, heq⟩
    · rw [heq]
      exact SameListing.refl _
    · have hcreating := (isCreationActive_iff.mp hactive).1
      rw [heq, emplacePeer_eq]
      refine ⟨rfl, rfl, rfl, ?_⟩
      simp [listedEntry, isJoinable, hcreating]
  | createPeer peer =>
    simp only [perform, handOut_game]
    rcases createPeer_game s.heap peer s.game with heq | heq <;> rw [heq] <;>
      exact ⟨rfl, rfl, rfl, rfl⟩
  | reserveExpectedUser userId ttlMs => exact (seatsOnly_reserve _ _ _).sameListing
  | removeExpectedUser userId => exact (seatsOnly_remove _ _).sameListing
  | removeExpectedUserIfGeneration userId generation =>
    exact (seatsOnly_removeIfGeneration _ _ _).sameListing
  | runScheduledTask task => exact (seatsOnly_runScheduledTask _ _).sameListing
  | insertActorProps actorId update =>
    obtain ⟨_, _, -, heq⟩ := insertActorProps_eq actorId update s.game
    simp only [perform, heq]
    exact sameListing_updatePeer s.game
  | applyInterestGroups peer add remove =>
    obtain ⟨_, _, -, heq⟩ := applyInterestGroups_eq s.heap peer add remove s.game
    simp only [perform, heq]
    exact sameListing_updatePeer s.game
  | _ => exact ⟨rfl, rfl, rfl, rfl⟩

/-- A caller whose connection is gone neither updates the properties nor commits. -/
theorem propsUpdate_of_dead_caller (hcaller : s.heap.lock op.caller ≠ op.caller) :
    s.propsUpdate op = none ∧ s.isCommit op = false := by
  cases op with
  | insertGameProps update | applyGameProps update expected => exact absurd rfl hcaller
  | commitCreation owner generation =>
    refine ⟨rfl, Bool.eq_false_iff.mpr fun hboth => hcaller ?_⟩
    exact lock_owner_of_active (Bool.and_eq_true_iff.mp hboth).1
  | _ => exact ⟨rfl, rfl⟩

/-- What becomes of the flags that a listing goes by, except where an attempt is given up. -/
theorem flags_step (settings : AppSettings) (s : Room) (hop : op.isHosted = true)
    (habort : ∀ owner generation, op = .abortCreationTransaction owner generation →
      s.game.isCreationActive s.heap owner generation = false) :
    (s.step settings op).game.isCreated = (s.game.isCreated || s.isCommit op) ∧
      (s.step settings op).game.isVisible =
        flagAfter (s.propsUpdate op) .isVisible s.game.isVisible ∧
      (s.step settings op).game.isOpen = flagAfter (s.propsUpdate op) .isOpen s.game.isOpen := by
  have hstays : s.propsUpdate op = none → s.isCommit op = false → ∀ {g : Game},
      g.isCreated = s.game.isCreated → g.isVisible = s.game.isVisible → g.isOpen = s.game.isOpen →
      g.isCreated = (s.game.isCreated || s.isCommit op) ∧
        g.isVisible = flagAfter (s.propsUpdate op) .isVisible s.game.isVisible ∧
        g.isOpen = flagAfter (s.propsUpdate op) .isOpen s.game.isOpen := by
    intro hupdate hcommit g hcreated hvisible hopen
    rw [hupdate, hcommit, Bool.or_false]
    exact ⟨hcreated, hvisible, hopen⟩
  have hinsert : ∀ update, (s.game.insertGameProps settings update).1.isCreated =
      s.game.isCreated := by
    intro update
    obtain ⟨_, _, _, _, _, _, _, _, _, heq⟩ := propsOnly_insertGameProps settings update s.game
    rw [heq]
  by_cases hcaller : s.heap.lock op.caller = op.caller
  · have hstep : s.step settings op = s.perform settings op := if_pos hcaller
    have hplain : op.isPlain = true → SameListing s.game (s.perform settings op).game :=
      sameListing_perform settings s
    rw [hstep]
    cases op with
    | receiveUpdate | setConfigState => cases hop
    | insertGameProps update =>
      rw [show s.isCommit (.insertGameProps update) = false from rfl, Bool.or_false]
      exact ⟨hinsert update, isVisible_insertGameProps settings update s.game,
        isOpen_insertGameProps settings update s.game⟩
    | applyGameProps update expected =>
      simp only [perform, applyGameProps, propsUpdate, isCommit, Bool.or_false]
      split
      · exact ⟨hinsert update, isVisible_insertGameProps settings update s.game,
          isOpen_insertGameProps settings update s.game⟩
      · exact ⟨rfl, rfl, rfl⟩
    | commitCreation owner generation =>
      simp only [perform, propsUpdate, isCommit, commitCreation]
      split
      · next hcommit =>
        rw [hcommit, Bool.or_true]
        exact ⟨rfl, rfl, rfl⟩
      · next hcommit =>
        rw [Bool.eq_false_iff.mpr hcommit, Bool.or_false]
        exact ⟨rfl, rfl, rfl⟩
    | abortCreationTransaction owner generation =>
      simp only [perform]
      rw [abortCreationTransaction_of_inactive (habort owner generation rfl)]
      exact hstays rfl rfl rfl rfl rfl
    | addPeer index =>
      rcases addPeer_game_cases settings s index with heq | ⟨gp, userId, -, -, heq⟩
      · rw [heq]
        exact hstays rfl rfl rfl rfl rfl
      · rw [heq, emplacePeer_eq]
        exact hstays rfl rfl rfl rfl rfl
    | removePeer peer =>
      cases peer with
      | none => exact hstays rfl rfl rfl rfl rfl
      | some r =>
        obtain ⟨_, _, _, heq⟩ := removePeer_eq s.heap r s.game
        simp only [perform, heq]
        exact hstays rfl rfl rfl rfl rfl
    | setCustomProps | setLobbyProps | setDummyPeerCount => exact hstays rfl rfl rfl rfl rfl
    | _ =>
      obtain ⟨hcreated, hvisible, hopen, -⟩ := hplain rfl
      exact hstays rfl rfl hcreated hvisible hopen
  · obtain ⟨hupdate, hcommit⟩ := propsUpdate_of_dead_caller hcaller
    have hstep : s.step settings op = s := if_neg hcaller
    rw [hstep]
    exact hstays hupdate hcommit rfl rfl rfl

/-- A room that is created and visible after an operation is open exactly if `LeavesOpen` foresees
it. -/
theorem isOpen_step_iff (settings : AppSettings) (hlease : s.game.LeaseOnce)
    (hop : op.isHosted = true) :
    ((s.step settings op).game.isPublished = true → (s.step settings op).game.isOpen = true) ↔
      s.LeavesOpen op := by
  by_cases habort : ∀ owner generation, op = .abortCreationTransaction owner generation →
      s.game.isCreationActive s.heap owner generation = false
  · obtain ⟨hcreated, hvisible, hopen⟩ := flags_step settings s hop habort
    rw [isPublished, hcreated, hvisible, hopen, Bool.and_eq_true, Bool.or_eq_true, and_imp]
    rfl
  · -- The attempt is given up, and the room is one that is not created, as before.
    push Not at habort
    obtain ⟨owner, generation, rfl, hactive⟩ := habort
    rw [Bool.ne_false_iff] at hactive
    have hnot := hlease (isCreationActive_iff.mp hactive).1
    obtain ⟨_, heq⟩ := abortCreationTransaction_eq hactive
    have hstep : s.step settings (.abortCreationTransaction owner generation) =
        s.perform settings (.abortCreationTransaction owner generation) :=
      if_pos (lock_owner_of_active hactive)
    rw [hstep]
    simp only [perform, heq, isPublished, hnot.2, Bool.false_and]
    refine iff_of_true (fun hfalse => by cases hfalse) ?_
    rintro (hcreated | hcommit)
    · rw [hnot.1] at hcreated
      cases hcreated
    · cases hcommit

theorem keepsEntry_iff (hcommit : s.isCommit op = false) :
    s.KeepsEntry op ↔ (s.game.isJoinable = true → s.KeepsTable op) :=
  and_iff_left fun htrue => absurd (hcommit.symm.trans htrue) Bool.false_ne_true

/-- A peer that is added is counted. -/
theorem table_addPeer_iff (hcreating : s.game.isCreating = false) (gp : GamePeer) :
    (s.game.addPeer s.heap gp).2.getLobbyGameProps.toFinmap =
      s.game.getLobbyGameProps.toFinmap ↔ ¬s.game.mayJoin s.heap gp := by
  rcases addPeer_cases (h := s.heap) gp s.game with heq | ⟨userId, huser, -, hfree, hjoined, heq⟩
  · have hnot := (addPeer_counted_iff s.heap gp s.game).mp (by rw [heq]; exact counted_refl _)
    rw [heq]
    refine iff_of_true rfl fun hmay => hnot ⟨?_, hmay⟩
    rintro ⟨htrue, -⟩
    rw [hcreating] at htrue
    cases htrue
  · refine iff_of_false (fun htable => ?_) (not_not_intro ⟨hfree, userId, huser, hjoined⟩)
    rw [heq, emplacePeer_eq] at htable
    have hcount := playerCount_eq_iff.mp (lobbyTable_eq_iff.mp htable).2.2.1
    simp only [List.length_append, List.length_singleton] at hcount
    omega

theorem table_removePeer_iff (h : PeerHeap) (r : PeerRef) (g : Game) :
    (g.removePeer h (some r)).2.getLobbyGameProps.toFinmap = g.getLobbyGameProps.toFinmap ↔
      (g.peers.countP fun gp => !stays h r gp) % 256 = 0 := by
  obtain ⟨_, _, _, heq⟩ := removePeer_eq h r g
  have hlength : g.peers.length =
      (g.peers.filter (stays h r)).length + g.peers.countP fun gp => !stays h r gp := by
    rw [List.length_eq_countP_add_countP (stays h r), List.countP_eq_length_filter]
    simp only [Bool.not_eq_true, Bool.decide_eq_false]
  rw [lobbyTable_eq_iff, playerCount_eq_iff, heq]
  simp only [shown, true_and, implies_true, and_true]
  omega

theorem isJoinable_addPeer (h : PeerHeap) (gp : GamePeer) (g : Game) :
    (g.addPeer h gp).2.isJoinable = g.isJoinable := by
  rcases addPeer_cases (h := h) gp g with heq | ⟨userId, -, -, -, -, heq⟩
  · rw [heq]
  · rw [heq, emplacePeer_eq]
    rfl

/-- A direct write that bumps nothing is counted exactly if it keeps the table. -/
theorem table_iff_counted {g g' : Game} (hrevision : g'.stateRevision = g.stateRevision)
    (hcreated : g'.isCreated = g.isCreated) (hcreating : g'.isCreating = g.isCreating)
    (hvisible : g'.isVisible = g.isVisible) (husers : g'.expectedUsers = g.expectedUsers) :
    g'.getLobbyGameProps.toFinmap = g.getLobbyGameProps.toFinmap ↔ Counted g g' := by
  rw [counted_iff_of_same hrevision]
  simp only [published, hcreated, hcreating, hvisible, husers, Published.mk.injEq, true_and]

theorem listedEntry_insertGameProps_iff (settings : AppSettings) {update : Hashtable} {g : Game}
    (hquiet : g.tellsLobby update = false) :
    (g.insertGameProps settings update).1.listedEntry.map AList.toFinmap =
        g.listedEntry.map AList.toFinmap ↔ (g.isJoinable = true → g.KeepsShown update) := by
  have hvisible := (read_insertGameProps_eq_iff settings update g (by decide)).mpr
    (changesProp_of_quiet hquiet (Or.inr rfl))
  have hopen := (read_insertGameProps_eq_iff settings update g (p := .isOpen) (by decide)).mpr
    (changesProp_of_quiet hquiet (Or.inl rfl))
  rw [← table_insertGameProps_iff settings hquiet]
  apply listedEntry_eq_iff
  have hvisible := Value.bool.inj hvisible
  have hopen := Value.bool.inj hopen
  obtain ⟨_, _, _, _, _, _, _, _, _, heq⟩ := propsOnly_insertGameProps settings update g
  rw [heq] at hvisible hopen ⊢
  simp only [isJoinable] at hvisible hopen ⊢
  rw [hvisible, hopen]

/-- A commit keeps the entry exactly if the room is not shown then. -/
theorem listedEntry_commitCreation_iff (settings : AppSettings) (owner : Option PeerRef)
    (generation : Nat) :
    (s.perform settings (.commitCreation owner generation)).game.listedEntry.map AList.toFinmap =
        s.game.listedEntry.map AList.toFinmap ↔
      s.KeepsEntry (.commitCreation owner generation) := by
  simp only [perform, commitCreation, KeepsEntry, isCommit]
  split
  · next hcommit =>
    -- The room gets its entry only now.
    have hactive := (isCreationActive_iff.mp (Bool.and_eq_true_iff.mp hcommit).1).1
    rw [hcommit]
    cases hvisible : s.game.isVisible <;> cases hopen : s.game.isOpen <;>
      simp [listedEntry, isJoinable, hactive, hvisible, hopen]
  · next hcommit =>
    rw [Bool.eq_false_iff.mpr hcommit]
    refine iff_of_true rfl ⟨fun _ update hup => ?_, fun htrue => absurd htrue Bool.false_ne_true⟩
    cases hup

/-- A room whose attempt is given up had no entry. -/
theorem listedEntry_abortCreationTransaction (settings : AppSettings) (hlease : s.game.LeaseOnce)
    (owner : Option PeerRef) (generation : Nat) :
    (s.perform settings (.abortCreationTransaction owner generation)).game.listedEntry =
      s.game.listedEntry := by
  simp only [perform]
  by_cases hactive : s.game.isCreationActive s.heap owner generation = true
  · have hnot := hlease (isCreationActive_iff.mp hactive).1
    obtain ⟨_, heq⟩ := abortCreationTransaction_eq hactive
    simp only [heq, listedEntry, isJoinable, hnot.1, hnot.2, Bool.false_and]
    rfl
  · rw [abortCreationTransaction_of_inactive (Bool.eq_false_iff.mpr hactive)]

/-- What a caller whose connection is gone asks for keeps the table. -/
theorem keepsTable_of_dead_caller (hcaller : s.heap.lock op.caller ≠ op.caller) :
    s.KeepsTable op := by
  cases op with
  | removePeer peer =>
    cases peer with
    | none => exact fun update hup => by cases hup
    | some r => exact fun hlive => absurd (PeerHeap.lock_eq_some.mpr ⟨rfl, hlive⟩) hcaller
  | addPeer | setCustomProps | setLobbyProps | setDummyPeerCount => exact absurd rfl hcaller
  | insertGameProps | applyGameProps => exact absurd rfl hcaller
  | _ => exact fun update hup => by cases hup

/-- An operation of which the lobby is not told keeps the room's entry in the full list exactly if
`KeepsEntry` foresees it. -/
theorem listedEntry_step_iff (settings : AppSettings) (hlease : s.game.LeaseOnce)
    (hop : op.isHosted = true) (hquiet : s.tells op = false) :
    (s.step settings op).game.listedEntry.map AList.toFinmap =
        s.game.listedEntry.map AList.toFinmap ↔ s.KeepsEntry op := by
  by_cases hcaller : s.heap.lock op.caller = op.caller
  swap
  · obtain ⟨hupdate, hcommit⟩ := propsUpdate_of_dead_caller hcaller
    have hstep : s.step settings op = s := if_neg hcaller
    rw [hstep, keepsEntry_iff hcommit]
    exact iff_of_true rfl fun _ => keepsTable_of_dead_caller hcaller
  have hstep : s.step settings op = s.perform settings op := if_pos hcaller
  have hplain : op.isPlain = true → SameListing s.game (s.perform settings op).game :=
    sameListing_perform settings s
  have hcreating : s.game.isJoinable = true → s.game.isCreating = false := by
    intro hjoinable
    simp only [isJoinable, Bool.and_eq_true, Bool.not_eq_true'] at hjoinable
    exact hjoinable.1.1.2
  have hdirect : (s.perform settings op).game.isJoinable = s.game.isJoinable →
      ((s.perform settings op).game.listedEntry.map AList.toFinmap =
        s.game.listedEntry.map AList.toFinmap ↔ (s.game.isJoinable = true →
          (s.perform settings op).game.getLobbyGameProps.toFinmap =
            s.game.getLobbyGameProps.toFinmap)) := listedEntry_eq_iff
  rw [hstep]
  cases op with
  | receiveUpdate | setConfigState => cases hop
  | insertGameProps update =>
    rw [keepsEntry_iff rfl]
    simp only [perform, listedEntry_insertGameProps_iff settings hquiet]
    simp [KeepsTable, propsUpdate]
  | applyGameProps update expected =>
    rw [keepsEntry_iff rfl]
    simp only [perform, applyGameProps, KeepsTable, propsUpdate, tells] at hquiet ⊢
    split
    · next hexpected =>
      rw [if_pos hexpected, Option.any_some] at hquiet
      simp only [listedEntry_insertGameProps_iff settings hquiet]
      simp
    · simp
  | addPeer index =>
    rw [keepsEntry_iff rfl]
    simp only [perform, give, KeepsTable]
    cases hgp : s.handedOut[index]? with
    | none => simp
    | some gp =>
      simp only [Option.mem_def, Option.some.injEq, forall_eq']
      exact (listedEntry_eq_iff (isJoinable_addPeer s.heap gp s.game)).trans
        (imp_congr_right fun hjoin => table_addPeer_iff (hcreating hjoin) gp)
  | removePeer peer =>
    rw [keepsEntry_iff rfl]
    cases peer with
    | none => exact iff_of_true rfl fun _ update hup => by cases hup
    | some r =>
      have hlive : (s.heap.get r).isSome = true := (PeerHeap.lock_eq_some.mp hcaller).2
      simp only [perform, KeepsTable, hlive, true_imp_iff]
      rw [← table_removePeer_iff]
      apply listedEntry_eq_iff
      obtain ⟨_, _, _, heq⟩ := removePeer_eq s.heap r s.game
      rw [heq]
      rfl
  | setCustomProps props =>
    rw [keepsEntry_iff rfl]
    refine (hdirect rfl).trans (imp_congr_right fun _ => ?_)
    refine Iff.trans ?_ (setCustomProps_counted_iff props s.game)
    exact table_iff_counted rfl rfl rfl rfl rfl
  | setLobbyProps names =>
    rw [keepsEntry_iff rfl]
    refine (hdirect rfl).trans (imp_congr_right fun _ => ?_)
    have hcounted := setLobbyProps_counted_iff names s.game
    refine Iff.trans (Iff.trans ?_ hcounted) (forall_congr' fun name => ?_)
    · exact table_iff_counted rfl rfl rfl rfl rfl
    by_cases hname : name ∈ names ++ s.game.lobbyProps
    · simp only [hname, true_imp_iff]
    · rw [List.mem_append, not_or] at hname
      simp [hname]
  | setDummyPeerCount count =>
    rw [keepsEntry_iff rfl]
    refine (hdirect rfl).trans (imp_congr_right fun _ => ?_)
    refine Iff.trans ?_ (setDummyPeerCount_counted_iff count s.game)
    exact table_iff_counted rfl rfl rfl rfl rfl
  | commitCreation owner generation =>
    exact listedEntry_commitCreation_iff settings owner generation
  | abortCreationTransaction owner generation =>
    rw [keepsEntry_iff rfl, listedEntry_abortCreationTransaction settings hlease owner generation]
    exact iff_of_true rfl fun _ update hup => by cases hup
  | _ =>
    rw [keepsEntry_iff rfl, (hplain rfl).listedEntry]
    exact iff_of_true rfl fun _ update hup => by cases hup

end Room

end LuxonServer
