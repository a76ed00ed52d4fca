import LuxonServer.Game.SetProperties

/-! What a null in an update leaves in a property table while `DeleteNullProps` is set. -/

namespace LuxonServer.Game

/-- The law of `DeleteNullProps` for the keys of a table: an update replaces the values that it
has, removes those for which it has null, and leaves the others; and no value is null. -/
def DeletesNull (isKey : Value → Prop) (old update new : Hashtable) : Prop :=
  ∀ key, isKey key →
    new.lookup key =
      (update.lookup key).elim (old.lookup key) (fun v => if v = .null then none else some v) ∧
    new.lookup key ≠ some .null

/-- No key has null in the update, or keeps it from before. -/
def NullFree (isKey : Value → Prop) (old update : Hashtable) : Prop :=
  ∀ key, isKey key →
    update.lookup key ≠ some .null ∧ (update.lookup key = none → old.lookup key ≠ some .null)

/-- A merge that stores whatever the update has follows the law where no null is involved. -/
theorem deletesNull_iff {isKey : Value → Prop} {old update new : Hashtable}
    (hmerge : ∀ key, isKey key →
      new.lookup key = (update.lookup key).elim (old.lookup key) some) :
    DeletesNull isKey old update new ↔ NullFree isKey old update := by
  refine forall₂_congr fun key hkey => ?_
  rw [hmerge key hkey]
  cases update.lookup key with
  | none => simp
  | some value =>
    by_cases hnull : value = .null
    · simp [hnull]
    · simp [hnull]

/-- The keys of the custom properties; a byte names a built-in one. -/
def IsCustomKey (key : Value) : Prop := ∀ code, key ≠ .byte code

theorem propAt_of_isCustomKey {key : Value} (hkey : IsCustomKey key) (g : Game) :
    g.propAt key = g.customProps.lookup key :=
  propAt_custom fun p => hkey p.code

/-- `insert_game_props` stores a null like any other value. -/
theorem lookup_customProps_insertGameProps (settings : AppSettings) {update : Hashtable}
    (hupdate : Value.null ∉ update) (g : Game) {key : Value} (hkey : IsCustomKey key) :
    (g.insertGameProps settings update).1.customProps.lookup key =
      (update.lookup key).elim (g.customProps.lookup key) some := by
  rw [← propAt_of_isCustomKey hkey, ← propAt_of_isCustomKey hkey, propAt_insertGameProps]
  by_cases hnull : key = .null
  · subst hnull
    rw [AList.lookup_eq_none.mpr hupdate]
    rfl
  · cases update.lookup key with
    | none => rfl
    | some value => exact stored_custom hkey hnull

/-- The loop of `insert_actor_props`. -/
def insertActorProp (deleteNull : Bool) (props : Hashtable) (entry : Σ _ : Value, Value) :
    Hashtable :=
  if entry.1 ≠ .null then AList.insert entry.1 entry.2 props
  else if deleteNull then AList.erase entry.1 props
  else props

/-- The properties of an actor after `insert_actor_props`. -/
theorem findActor_insertActorProps {actorId : Int} {g : Game} {gp : GamePeer}
    (hgp : g.findActor actorId = some gp) (update : Hashtable) :
    (g.insertActorProps actorId update).2.findActor actorId =
      some { gp with
        actorProps := update.entries.foldl
          (insertActorProp (GameFlag.deleteNullProps.isSet g.flags)) gp.actorProps } := by
  unfold insertActorProps
  simp only [hgp, Option.isSome_some, if_true]
  exact find?_updatePeer
    (fun gp => { gp with
      actorProps := update.entries.foldl
        (insertActorProp (GameFlag.deleteNullProps.isSet g.flags)) gp.actorProps })
    (fun _ => rfl) hgp

/-- `insert_actor_props` stores a null like any other value. -/
theorem lookup_insertActorProp {update : Hashtable} (hupdate : Value.null ∉ update)
    (deleteNull : Bool) (props : Hashtable) (key : Value) :
    (update.entries.foldl (insertActorProp deleteNull) props).lookup key =
      (update.lookup key).elim (props.lookup key) some := by
  have hloop := AList.view_foldl (s := update) (f := insertActorProp deleteNull)
    (fun (props : Hashtable) key => props.lookup key)
    (fun key value old => if key ≠ .null then some value else if deleteNull then none else old)
    (by
      rintro props ⟨key, value⟩
      unfold insertActorProp
      split
      · rw [AList.lookup_insert]
      · split
        · rw [AList.lookup_erase]
        · rfl)
    (by
      rintro props ⟨key, value⟩ other hne
      unfold insertActorProp
      split
      · rw [AList.lookup_insert_ne hne]
      · split
        · rw [AList.lookup_erase_ne hne]
        · rfl) props key
  rw [hloop]
  by_cases hnull : key = .null
  · rw [hnull, AList.lookup_eq_none.mpr hupdate]
    rfl
  · simp [hnull]

/-- Both merges follow the law exactly where neither the update has null nor an old value is. -/
theorem deletesNull_insertProps_iff (settings : AppSettings) (g : Game) (update : Hashtable)
    (hupdate : Value.null ∉ update) (_hflag : GameFlag.deleteNullProps.isSet g.flags = true) :
    (DeletesNull IsCustomKey g.customProps update
        (g.insertGameProps settings update).1.customProps ↔
      NullFree IsCustomKey g.customProps update) ∧
    ∀ actorId gp, g.findActor actorId = some gp →
      ∃ gp', (g.insertActorProps actorId update).2.findActor actorId = some gp' ∧
        (DeletesNull (fun _ => True) gp.actorProps update gp'.actorProps ↔
          NullFree (fun _ => True) gp.actorProps update) := by
  refine ⟨deletesNull_iff fun key hkey =>
    lookup_customProps_insertGameProps settings hupdate g hkey, fun actorId gp hgp => ?_⟩
  exact ⟨_, findActor_insertActorProps hgp update,
    deletesNull_iff fun key _ => lookup_insertActorProp hupdate _ _ key⟩

/-- Ada chooses a map and nothing is null. -/
theorem deletesNull_insertProps_map :
    DeletesNull IsCustomKey Room.adas.game.customProps (AList.insert (.string "map") (.int32 1) ∅)
      (Room.adas.game.insertGameProps {}
        (AList.insert (.string "map") (.int32 1) ∅)).1.customProps := by
  have hempty : Room.adas.game.customProps = ∅ := rfl
  refine (deletesNull_insertProps_iff {} Room.adas.game _ (by decide) rfl).1.mpr fun key _ => ?_
  rw [hempty, AList.lookup_insert_eq]
  constructor
  · split <;> simp
  · simp

/-- The null that should take the map away stays, in the room and in the actor. -/
theorem not_deletesNull_noMap :
    let noMap : Hashtable := AList.insert (.string "map") .null ∅
    ¬DeletesNull IsCustomKey Room.adas.game.customProps noMap
        (Room.adas.game.insertGameProps {} noMap).1.customProps ∧
      ((Room.adas.game.insertActorProps 1 noMap).2.findActor 1).any
        (fun gp => gp.actorProps.lookup (.string "map") == some .null) = true := by
  refine ⟨fun hlaw => (hlaw (.string "map") (by simp [IsCustomKey])).2 ?_, by decide⟩
  decide

end LuxonServer.Game
