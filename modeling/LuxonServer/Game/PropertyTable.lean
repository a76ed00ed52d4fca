import LuxonServer.Game.Insertion

/-! The properties of a room as one table: what `get_game_props` has under a key, what an update
leaves there, and what the expected values are compared with. -/

namespace LuxonServer

namespace GameProp

/-- Whether a value is of the type of the property's field. -/
def hasType : GameProp → Value → Bool
  | maxPlayers, .byte _ => true
  | isVisible, .bool _ | isOpen, .bool _ => true
  | playerTTL, .int32 _ | emptyGameTTL, .int32 _ | masterClientId, .int32 _ => true
  | lobbyProperties, .stringArray _ => true
  | _, _ => false

theorem storeIf_isSome (p : GameProp) (g : Game) (value : Value) :
    (p.storeIf g value).isSome = p.hasType value := by
  cases p <;> cases value <;> rfl

/-- Whether the room takes a value for the property: the type fits, and the master is one that may
be changed. -/
def accepts (settings : AppSettings) (p : GameProp) (value : Value) : Bool :=
  p.hasType value && (p != masterClientId || settings.allowChangeMaster)

theorem read_ne_null (p : GameProp) (g : Game) : p.read g ≠ .null := by
  cases p <;> nofun

theorem not_accepts_null (settings : AppSettings) (p : GameProp) :
    p.accepts settings .null = false := by
  cases p <;> rfl

end GameProp

namespace Game

/-- The property under a key: a built-in one, or else a custom one. -/
def propAt (g : Game) : Value → Option Value
  | .byte code =>
    match GameProp.ofCode code with
    | some p => some (p.read g)
    | none => g.customProps.lookup (.byte code)
  | key => g.customProps.lookup key

/-- What an update with `value` leaves under a key that had `old`. -/
def stored (settings : AppSettings) (deleteNull : Bool) (key value : Value) (old : Option Value) :
    Option Value :=
  match key with
  | .byte code =>
    match GameProp.ofCode code with
    | some p => if p.accepts settings value then some value else old
    | none => old
  | .null => if deleteNull then none else old
  | _ => some value

section Stored

variable {settings : AppSettings} {deleteNull : Bool} {key value : Value} {old : Option Value}

theorem stored_builtin {code : UInt8} {p : GameProp} (hp : GameProp.ofCode code = some p) :
    stored settings deleteNull (.byte code) value old =
      if p.accepts settings value then some value else old := by
  unfold stored
  simp only [hp]

theorem stored_unknown {code : UInt8} (hp : GameProp.ofCode code = none) :
    stored settings deleteNull (.byte code) value old = old := by
  unfold stored
  simp only [hp]

theorem stored_null :
    stored settings deleteNull .null value old = if deleteNull then none else old := rfl

theorem stored_custom (hbyte : ∀ code, key ≠ .byte code) (hnull : key ≠ .null) :
    stored settings deleteNull key value old = some value := by
  cases key with
  | byte code => exact absurd rfl (hbyte code)
  | null => exact absurd rfl hnull
  | _ => rfl

end Stored

/-- An expected value is met: the property has it, or is absent where absence is what `null`
stands for. -/
def Meets (deleteNull : Bool) (g : Game) (key value : Value) : Prop :=
  g.propAt key = some value ∨ g.propAt key = none ∧ value = .null ∧ deleteNull = true

instance (deleteNull : Bool) (g : Game) (key value : Value) :
    Decidable (Meets deleteNull g key value) :=
  inferInstanceAs (Decidable (_ ∨ _))

section Reading

variable {g : Game}

theorem propAt_code (p : GameProp) : g.propAt (.byte p.code) = some (p.read g) := by
  simp only [propAt, GameProp.ofCode_code]

/-- A key that is none of the built-in ones. -/
theorem propAt_custom {key : Value} (hkey : ∀ p : GameProp, key ≠ .byte p.code) :
    g.propAt key = g.customProps.lookup key := by
  unfold propAt
  split
  · next code =>
    split
    · next p hp => exact absurd (by rw [GameProp.code_of_ofCode hp]) (hkey p)
    · rfl
  · rfl

/-- The table that the clients get, apart from the derived player count. -/
theorem lookup_getGameProps {key : Value} (hcount : key ≠ playerCountKey) :
    (g.getGameProps false).lookup key = g.propAt key := by
  by_cases hbuiltin : ∃ p : GameProp, key = .byte p.code
  · obtain ⟨p, rfl⟩ := hbuiltin
    rw [propAt_code]
    unfold getGameProps
    rw [AList.lookup_insert_ne hcount]
    cases p <;> simp [GameProp.propMap, GameProp.code]
  · have hne : ∀ p : GameProp, key ≠ .byte p.code := fun p heq => hbuiltin ⟨p, heq⟩
    rw [propAt_custom hne]
    unfold getGameProps
    rw [AList.lookup_insert_ne hcount]
    simp [GameProp.propMap, hne]

end Reading

section Writing

variable {settings : AppSettings} {deleteNull : Bool} {st : PropsUpdate} {g g' : Game}
  {entry : Σ _ : Value, Value} {key value : Value}

theorem propAt_congr (hread : ∀ p : GameProp, p.read g' = p.read g)
    (hcustom : g'.customProps = g.customProps) (key : Value) : g'.propAt key = g.propAt key := by
  unfold propAt
  simp only [hread, hcustom]

theorem propAt_insertProp_of_ne (hne : key ≠ entry.1) :
    (insertProp settings deleteNull st entry).game.propAt key = st.game.propAt key := by
  by_cases hbuiltin : ∃ p : GameProp, key = .byte p.code
  · obtain ⟨p, rfl⟩ := hbuiltin
    rw [propAt_code, propAt_code, read_insertProp hne.symm]
  · have hcustom : ∀ p : GameProp, key ≠ .byte p.code := fun p heq => hbuiltin ⟨p, heq⟩
    rw [propAt_custom hcustom, propAt_custom hcustom, customProps_insertProp_of_ne hne]

theorem propAt_insertProp_self (settings : AppSettings) (deleteNull : Bool) (st : PropsUpdate)
    (key value : Value) :
    (insertProp settings deleteNull st ⟨key, value⟩).game.propAt key =
      stored settings deleteNull key value (st.game.propAt key) := by
  cases key with
  | byte code =>
    unfold insertProp propAt stored
    simp only
    cases hp : GameProp.ofCode code with
    | none => rfl
    | some p =>
      simp only [insertBuiltin]
      have hstore := GameProp.storeIf_isSome p st.game value
      by_cases hforbidden : p = .masterClientId ∧ ¬settings.allowChangeMaster = true
      · have haccepts : p.accepts settings value = false := by
          simp [GameProp.accepts, hforbidden.1, hforbidden.2]
        rw [if_pos hforbidden, haccepts]
        rfl
      · have haccepts : p.accepts settings value = p.hasType value := by
          simp only [GameProp.accepts, Bool.and_eq_left_iff_imp, Bool.or_eq_true, bne_iff_ne]
          intro _
          by_contra hneither
          simp only [not_or, ne_eq, not_not] at hneither
          exact hforbidden hneither
        rw [if_neg hforbidden, haccepts, ← hstore]
        cases hs : p.storeIf st.game value with
        | none => rfl
        | some game => simp [GameProp.read_storeIf hs]
  | null =>
    simp only [insertProp, insertCustom, propAt, stored_null, ne_eq, not_true_eq_false, if_false]
    by_cases hboth : deleteNull = true ∧ Value.null ∈ st.game.customProps
    · rw [if_pos hboth]
      simp [hboth.1]
    · rw [if_neg hboth]
      split
      · next hdelete =>
        exact AList.lookup_eq_none.mpr fun hmem => hboth ⟨hdelete, hmem⟩
      · rfl
  | _ =>
    rw [stored_custom (by simp) (by simp)]
    simp only [insertProp, insertCustom, propAt, ne_eq, reduceCtorEq, not_false_eq_true, if_true]
    split
    · next hsame => exact hsame
    · exact AList.lookup_insert _

/-- `insert_game_props` stores what the update has under a key, and leaves the other keys. -/
theorem propAt_insertGameProps (settings : AppSettings) (update : Hashtable) (g : Game)
    (key : Value) :
    (g.insertGameProps settings update).1.propAt key =
      (update.lookup key).elim (g.propAt key) fun value =>
        stored settings (GameFlag.deleteNullProps.isSet g.flags) key value (g.propAt key) := by
  have hloop : (g.insertProps settings update).game.propAt key = _ :=
    AList.view_foldl (fun (st : PropsUpdate) key => st.game.propAt key) (stored settings _)
      (fun st entry => propAt_insertProp_self settings _ st entry.1 entry.2)
      (fun st entry key hne => propAt_insertProp_of_ne hne) { game := g } key
  rw [← hloop]
  unfold insertGameProps
  simp only
  split
  · exact propAt_congr (fun p => by cases p <;> rfl) rfl key
  · rfl

end Writing

section Expecting

variable {g : Game}

/-- `expect_game_props` compares every expected value with the table. -/
theorem expectGameProps_iff (expected : Hashtable) (g : Game) :
    g.expectGameProps expected = true ↔ ∀ key value, expected.lookup key = some value →
      Meets (GameFlag.deleteNullProps.isSet g.flags) g key value := by
  unfold expectGameProps
  simp only [Bool.and_eq_true, List.all_eq_true]
  constructor
  · rintro ⟨hbuiltin, hcustom⟩ key value hvalue
    by_cases hkey : ∃ p : GameProp, key = .byte p.code
    · obtain ⟨p, rfl⟩ := hkey
      have hp := hbuiltin p (by cases p <;> decide)
      simp only [hvalue, beq_iff_eq] at hp
      exact Or.inl (by rw [propAt_code, hp])
    · have hne : ∀ p : GameProp, key ≠ .byte p.code := fun p heq => hkey ⟨p, heq⟩
      have hentry := hcustom ⟨key, value⟩ (AList.mem_entries_iff.mpr hvalue)
      have hnone : (GameProp.propMap.any fun p => key == .byte p.code) = false := by
        simp [hne]
      simp only [hnone, Bool.false_eq_true, if_false] at hentry
      unfold Meets
      rw [propAt_custom hne]
      cases hl : g.customProps.lookup key with
      | none => simpa [hl] using hentry
      | some existing => simpa [hl] using hentry
  · intro hmeets
    constructor
    · intro p _
      split
      · rfl
      · next value hvalue =>
        rcases hmeets _ value hvalue with heq | ⟨hnone, -⟩
        · rw [propAt_code, Option.some.injEq] at heq
          simp [heq]
        · rw [propAt_code] at hnone
          cases hnone
    · rintro ⟨key, value⟩ hentry
      have hvalue := AList.mem_entries_iff.mp hentry
      split
      · rfl
      · next hnone =>
        have hne : ∀ p : GameProp, key ≠ .byte p.code := by
          rintro p rfl
          exact hnone (List.any_eq_true.mpr ⟨p, by cases p <;> decide, by simp⟩)
        have hentry := hmeets key value hvalue
        unfold Meets at hentry
        rw [propAt_custom hne] at hentry
        cases hl : g.customProps.lookup key with
        | none => simpa [hl] using hentry
        | some existing => simpa [hl] using hentry

end Expecting

end Game

end LuxonServer
