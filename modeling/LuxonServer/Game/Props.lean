import LuxonServer.Game.State

/-! The properties of a room: the built-in ones that `PROP_MAP` ties to fields of the room, the
custom ones, and the lobby's selection of them. -/

namespace LuxonServer

/-- The entries of `PROP_MAP`. -/
inductive GameProp where
  | maxPlayers
  | isVisible
  | isOpen
  | playerTTL
  | emptyGameTTL
  | masterClientId
  | lobbyProperties
  deriving DecidableEq, Repr

namespace GameProp

/-- `PROP_MAP`, in its order. -/
def propMap : List GameProp :=
  [maxPlayers, isVisible, isOpen, playerTTL, emptyGameTTL, masterClientId, lobbyProperties]

/-- The key of a built-in property. -/
def code : GameProp → UInt8
  | maxPlayers => 255
  | isVisible => 254
  | isOpen => 253
  | playerTTL => 246
  | emptyGameTTL => 245
  | masterClientId => 248
  | lobbyProperties => 250

/-- Whether a change of the property is a change for the lobby. -/
def updatesLobby : GameProp → Bool
  | maxPlayers | isOpen | lobbyProperties => true
  | _ => false

/-- The value of the property's field. -/
def read (g : Game) : GameProp → Value
  | maxPlayers => .byte g.maxPeers
  | isVisible => .bool g.isVisible
  | isOpen => .bool g.isOpen
  | playerTTL => .int32 g.playerTtl
  | emptyGameTTL => .int32 g.emptyGameTtl
  | masterClientId => .int32 g.masterActor
  | lobbyProperties => .stringArray g.lobbyProps

/-- `store_if`: the value goes into the property's field if it has the field's type. -/
def storeIf (g : Game) : GameProp → Value → Option Game
  | maxPlayers, .byte v => some { g with maxPeers := v }
  | isVisible, .bool v => some { g with isVisible := v }
  | isOpen, .bool v => some { g with isOpen := v }
  | playerTTL, .int32 v => some { g with playerTtl := v }
  | emptyGameTTL, .int32 v => some { g with emptyGameTtl := v }
  | masterClientId, .int32 v => some { g with masterActor := v }
  | lobbyProperties, .stringArray v => some { g with lobbyProps := v }
  | _, _ => none

/-- The built-in property with a key, as the `switch` finds it. -/
def ofCode (key : UInt8) : Option GameProp := propMap.find? fun p => p.code == key

@[simp] theorem ofCode_code (p : GameProp) : ofCode p.code = some p := by cases p <;> decide

theorem code_of_ofCode {key : UInt8} {p : GameProp} (hp : ofCode key = some p) : p.code = key := by
  simpa using List.find?_some hp

/-- A value that is stored is read back, and no other property changes. -/
theorem read_storeIf {p : GameProp} {value : Value} {g g' : Game}
    (hs : p.storeIf g value = some g') : p.read g' = value := by
  cases p <;> cases value <;> simp only [storeIf, reduceCtorEq, Option.some.injEq] at hs <;>
    subst hs <;> rfl

theorem read_storeIf_ne {p q : GameProp} {value : Value} {g g' : Game}
    (hs : p.storeIf g value = some g') (hne : q ≠ p) : q.read g' = q.read g := by
  cases p <;> cases value <;> simp only [storeIf, reduceCtorEq, Option.some.injEq] at hs <;>
    subst hs <;> cases q <;> first | rfl | exact absurd rfl hne

theorem eq_of_read_eq {p : GameProp} {value : Value} {g g' : Game}
    (hs : p.storeIf g value = some g') (hread : p.read g = p.read g') : g' = g := by
  cases p <;> cases value <;> simp only [storeIf, reduceCtorEq, Option.some.injEq] at hs <;>
    subst hs <;> simp only [read, Value.byte.injEq, Value.bool.injEq, Value.int32.injEq,
      Value.stringArray.injEq] at hread <;> rw [← hread]

theorem stateRevision_storeIf {p : GameProp} {value : Value} {g g' : Game}
    (hs : p.storeIf g value = some g') : g'.stateRevision = g.stateRevision := by
  cases p <;> cases value <;> simp only [storeIf, reduceCtorEq, Option.some.injEq] at hs <;>
    rw [← hs]

end GameProp

/-- A `GameUpdate` message.  What the receiver reads as optional is optional here; the revision
travels as a signed number. -/
structure GameUpdate where
  info : GameInfo
  created : Option Bool
  revision : Option Int
  creating : Option Bool
  expectedUsers : Option (List String)
  visible : Option Bool
  gameProperties : Option Hashtable

/-- What the clients of the lobby and the other processes are told about a room. -/
inductive Effect where
  /-- `game_update` of the lobby's handlers. -/
  | gameUpdate
  /-- `game_delete` of the lobby's handlers. -/
  | gameDelete
  /-- A broadcast to the other processes. -/
  | ipcBroadcast (message : GameUpdate)

namespace Game

/-- `get_game_prop`. -/
def getGameProp (key : Value) (g : Game) : Value :=
  let custom := (g.customProps.lookup key).getD .null
  match key with
  | .byte code =>
    match GameProp.ofCode code with
    | some p => p.read g
    | none => if key = playerCountKey then .byte g.playerCount else custom
  | _ => custom

/-- One lobby property, unless the room does not have it. -/
def addLobbyProp (g : Game) (table : Hashtable) (name : String) : Hashtable :=
  match g.customProps.lookup (.string name) with
  | none => table
  | some value => Hashtable.emplace (.string name) value table

/-- The part of `get_lobby_game_props` that is built in. -/
def builtinLobbyProps (g : Game) : Hashtable :=
  AList.insert (.byte GameProp.maxPlayers.code) (.byte g.maxPeers)
    (AList.insert (.byte GameProp.isOpen.code) (.bool g.isOpen)
      (AList.insert playerCountKey (.byte g.playerCount) ∅))

/-- `get_lobby_game_props`. -/
def getLobbyGameProps (g : Game) : Hashtable :=
  g.lobbyProps.foldl g.addLobbyProp g.builtinLobbyProps

/-- `get_game_props`. -/
def getGameProps (noCustom : Bool) (g : Game) : Hashtable :=
  let custom : Hashtable := if noCustom then ∅ else g.customProps
  AList.insert playerCountKey (.byte g.playerCount)
    (GameProp.propMap.foldl (fun table p => AList.insert (.byte p.code) (p.read g) table) custom)

/-- The message that `trigger_lobby_update` builds. -/
def gameUpdateMessage (g : Game) : GameUpdate where
  info := g.info
  created := some g.isCreated
  revision := some g.stateRevision
  creating := some g.isCreating
  expectedUsers := some g.expectedUsers.toList
  visible := some g.isVisible
  gameProperties := some g.getLobbyGameProps

/-- What `trigger_lobby_update` does; the room itself stays as it is. -/
def triggerLobbyUpdate (g : Game) : List Effect :=
  [.gameUpdate, .ipcBroadcast g.gameUpdateMessage]

/-- The variables of the loop in `insert_game_props`. -/
structure PropsUpdate where
  game : Game
  updateLobby : Bool := false
  changed : Bool := false

/-- The case of a built-in property: an identical value is no change, so that the echo of an
update neither counts nor is published again. -/
def insertBuiltin (settings : AppSettings) (p : GameProp) (value : Value) (st : PropsUpdate) :
    PropsUpdate :=
  if p = .masterClientId ∧ ¬settings.allowChangeMaster then st
  else
    match p.storeIf st.game value with
    | none => st
    | some game =>
      let valueChanged := p.read st.game != p.read game
      { game
        updateLobby := st.updateLobby || valueChanged && p.updatesLobby
        changed := st.changed || valueChanged }

/-- The case of a key that is no built-in one. -/
def insertCustom (deleteNull : Bool) (key value : Value) (st : PropsUpdate) : PropsUpdate :=
  let props := st.game.customProps
  if key ≠ .null then
    if props.lookup key = some value then st
    else
      { st with
        game := { st.game with customProps := AList.insert key value props }
        changed := true }
  else if deleteNull ∧ key ∈ props then
    { st with
      game := { st.game with customProps := AList.erase key props }
      changed := true }
  else st

def insertProp (settings : AppSettings) (deleteNull : Bool) (st : PropsUpdate)
    (entry : Σ _ : Value, Value) : PropsUpdate :=
  match entry.1 with
  | .byte code =>
    match GameProp.ofCode code with
    | none => st
    | some p => insertBuiltin settings p entry.2 st
  | key => insertCustom deleteNull key entry.2 st

/-- The loop of `insert_game_props`. -/
def insertProps (settings : AppSettings) (update : Hashtable) (g : Game) : PropsUpdate :=
  update.entries.foldl (insertProp settings (GameFlag.deleteNullProps.isSet g.flags))
    { game := g }

/-- `insert_game_props`. -/
def insertGameProps (settings : AppSettings) (update : Hashtable) (g : Game) :
    Game × List Effect :=
  let st := g.insertProps settings update
  let g' :=
    if st.changed then { st.game with stateRevision := st.game.stateRevision + 1 } else st.game
  let visibilityChanged := g.isVisible != g'.isVisible
  let hidden := if visibilityChanged ∧ g.isVisible then [Effect.gameDelete] else []
  let published := if st.updateLobby ∨ visibilityChanged then g'.triggerLobbyUpdate else []
  (g', hidden ++ published)

/-- `expect_game_props`. -/
def expectGameProps (expected : Hashtable) (g : Game) : Bool :=
  let builtinOk (p : GameProp) : Bool :=
    match expected.lookup (.byte p.code) with
    | none => true
    | some value => value == p.read g
  let deleteNull := GameFlag.deleteNullProps.isSet g.flags
  let customOk (entry : Σ _ : Value, Value) : Bool :=
    if GameProp.propMap.any fun p => entry.1 == .byte p.code then true
    else
      match g.customProps.lookup entry.1 with
      | none => entry.2 == .null && deleteNull
      | some value => value == entry.2
  GameProp.propMap.all builtinOk && expected.entries.all customOk

/-- `apply_game_props`. -/
def applyGameProps (settings : AppSettings) (update : Hashtable) (expected : Option Hashtable)
    (g : Game) : Bool × Game × List Effect :=
  if expected.all fun e => g.expectGameProps e then (true, g.insertGameProps settings update)
  else (false, g, [])

/-- `g'` differs from `g` in properties only. -/
def PropsOnly (g g' : Game) : Prop :=
  ∃ isOpen isVisible playerTtl emptyGameTtl maxPeers masterActor customProps lobbyProps
    stateRevision,
    g' = { g with
      isOpen, isVisible, playerTtl, emptyGameTtl, maxPeers, masterActor, customProps, lobbyProps,
      stateRevision }

theorem PropsOnly.refl (g : Game) : PropsOnly g g := ⟨_, _, _, _, _, _, _, _, _, rfl⟩

theorem PropsOnly.trans {g g' g'' : Game} (h₁ : PropsOnly g g') (h₂ : PropsOnly g' g'') :
    PropsOnly g g'' := by
  obtain ⟨_, _, _, _, _, _, _, _, _, rfl⟩ := h₁
  obtain ⟨_, _, _, _, _, _, _, _, _, rfl⟩ := h₂
  exact ⟨_, _, _, _, _, _, _, _, _, rfl⟩

theorem propsOnly_storeIf {p : GameProp} {value : Value} {g g' : Game}
    (hs : p.storeIf g value = some g') : PropsOnly g g' := by
  cases p <;> cases value <;> simp only [GameProp.storeIf, reduceCtorEq, Option.some.injEq] at hs <;>
    exact ⟨_, _, _, _, _, _, _, _, _, hs.symm⟩

theorem propsOnly_insertProp (settings : AppSettings) (deleteNull : Bool) (st : PropsUpdate)
    (entry : Σ _ : Value, Value) :
    PropsOnly st.game (insertProp settings deleteNull st entry).game := by
  unfold insertProp
  split
  · split
    · exact PropsOnly.refl _
    · unfold insertBuiltin
      split
      · exact PropsOnly.refl _
      · split
        · exact PropsOnly.refl _
        · next hs => exact propsOnly_storeIf hs
  · unfold insertCustom
    simp only
    split
    · split
      · exact PropsOnly.refl _
      · exact ⟨_, _, _, _, _, _, _, _, _, rfl⟩
    · split
      · exact ⟨_, _, _, _, _, _, _, _, _, rfl⟩
      · exact PropsOnly.refl _

theorem propsOnly_insertProps (settings : AppSettings) (update : Hashtable) (g : Game) :
    PropsOnly g (g.insertProps settings update).game := by
  suffices hfold : ∀ (deleteNull : Bool) (l : List (Σ _ : Value, Value)) (st : PropsUpdate),
      PropsOnly st.game (l.foldl (insertProp settings deleteNull) st).game from hfold _ _ _
  intro deleteNull l
  induction l with
  | nil => exact fun st => PropsOnly.refl st.game
  | cons entry l ih => exact fun st => (propsOnly_insertProp settings deleteNull st entry).trans (ih _)

theorem propsOnly_insertGameProps (settings : AppSettings) (update : Hashtable) (g : Game) :
    PropsOnly g (g.insertGameProps settings update).1 := by
  unfold insertGameProps
  simp only
  split
  · exact (propsOnly_insertProps settings update g).trans ⟨_, _, _, _, _, _, _, _, _, rfl⟩
  · exact propsOnly_insertProps settings update g

theorem propsOnly_applyGameProps (settings : AppSettings) (update : Hashtable)
    (expected : Option Hashtable) (g : Game) :
    PropsOnly g (g.applyGameProps settings update expected).2.1 := by
  unfold applyGameProps
  split
  · exact propsOnly_insertGameProps settings update g
  · exact PropsOnly.refl g

/-- A built-in property that the update does not name stays as it is. -/
theorem read_insertProp {settings : AppSettings} {deleteNull : Bool} {st : PropsUpdate}
    {entry : Σ _ : Value, Value} {q : GameProp} (hkey : entry.1 ≠ .byte q.code) :
    q.read (insertProp settings deleteNull st entry).game = q.read st.game := by
  unfold insertProp
  split
  · next code hcode =>
    split
    · rfl
    · next p hp =>
      have hother : q ≠ p := by
        rintro rfl
        exact hkey (by rw [hcode, GameProp.code_of_ofCode hp])
      unfold insertBuiltin
      split
      · rfl
      · split
        · rfl
        · next game hs => exact GameProp.read_storeIf_ne hs hother
  · unfold insertCustom
    simp only
    split <;> split <;> rfl

theorem read_insertGameProps (settings : AppSettings) {update : Hashtable} {q : GameProp}
    (hkey : Value.byte q.code ∉ update) (g : Game) :
    q.read (g.insertGameProps settings update).1 = q.read g := by
  have hentries : ∀ entry ∈ update.entries, entry.1 ≠ .byte q.code := by
    intro entry hentry heq
    exact hkey (heq ▸ List.mem_map_of_mem (f := Sigma.fst) hentry)
  have hfold : ∀ (l : List (Σ _ : Value, Value)) (st : PropsUpdate) (deleteNull : Bool),
      (∀ entry ∈ l, entry.1 ≠ .byte q.code) →
      q.read (l.foldl (insertProp settings deleteNull) st).game = q.read st.game := by
    intro l
    induction l with
    | nil => exact fun _ _ _ => rfl
    | cons entry l ih =>
      intro st deleteNull hl
      rw [List.foldl_cons, ih _ _ fun e he => hl e (List.mem_cons_of_mem _ he),
        read_insertProp (hl entry List.mem_cons_self)]
  have hprops : q.read (g.insertProps settings update).game = q.read g :=
    hfold update.entries { game := g } _ hentries
  unfold insertGameProps
  simp only
  split
  · rw [← hprops]
    cases q <;> rfl
  · exact hprops

theorem read_applyGameProps (settings : AppSettings) {update : Hashtable} {q : GameProp}
    (hkey : Value.byte q.code ∉ update) (expected : Option Hashtable) (g : Game) :
    q.read (g.applyGameProps settings update expected).2.1 = q.read g := by
  unfold applyGameProps
  split
  · exact read_insertGameProps settings hkey g
  · rfl

/-- An entry that is not counted as a change leaves the room as it is. -/
theorem insertProp_spec (settings : AppSettings) (deleteNull : Bool) (st : PropsUpdate)
    (entry : Σ _ : Value, Value) :
    let st' := insertProp settings deleteNull st entry
    st'.game.stateRevision = st.game.stateRevision ∧
      (st.changed = true → st'.changed = true) ∧
      (st'.changed = false → st'.game = st.game) := by
  intro st'
  simp only [st', insertProp]
  split
  · split
    · exact ⟨rfl, id, fun _ => rfl⟩
    · unfold insertBuiltin
      split
      · exact ⟨rfl, id, fun _ => rfl⟩
      · split
        · exact ⟨rfl, id, fun _ => rfl⟩
        · next hs =>
          refine ⟨GameProp.stateRevision_storeIf hs, fun hchanged => by simp [hchanged], ?_⟩
          intro hsame
          simp only [Bool.or_eq_false_iff, bne_eq_false_iff_eq] at hsame
          exact GameProp.eq_of_read_eq hs hsame.2
  · unfold insertCustom
    simp only
    split <;> split
    · exact ⟨rfl, id, fun _ => rfl⟩
    · exact ⟨rfl, fun _ => rfl, fun hsame => by cases hsame⟩
    · exact ⟨rfl, fun _ => rfl, fun hsame => by cases hsame⟩
    · exact ⟨rfl, id, fun _ => rfl⟩

theorem insertProps_spec (settings : AppSettings) (deleteNull : Bool)
    (entries : List (Σ _ : Value, Value)) (st : PropsUpdate) :
    let st' := entries.foldl (insertProp settings deleteNull) st
    st'.game.stateRevision = st.game.stateRevision ∧
      (st.changed = true → st'.changed = true) ∧
      (st'.changed = false → st'.game = st.game) := by
  induction entries generalizing st with
  | nil => exact ⟨rfl, id, fun _ => rfl⟩
  | cons entry entries ih =>
    obtain ⟨hrevision, hchanged, hsame⟩ := insertProp_spec settings deleteNull st entry
    obtain ⟨hrevision', hchanged', hsame'⟩ := ih (insertProp settings deleteNull st entry)
    refine ⟨hrevision'.trans hrevision, fun h => hchanged' (hchanged h), fun h => ?_⟩
    have hfirst : (insertProp settings deleteNull st entry).changed = false := by
      by_contra htrue
      rw [List.foldl_cons, hchanged' (Bool.eq_true_of_not_eq_false htrue)] at h
      cases h
    exact (hsame' h).trans (hsame hfirst)

theorem insertGameProps_cases (settings : AppSettings) (update : Hashtable) (g : Game) :
    (g.insertGameProps settings update).1 = g ∨
      (g.insertGameProps settings update).1.stateRevision = g.stateRevision + 1 := by
  obtain ⟨hrevision, -, hsame⟩ := insertProps_spec settings
    (GameFlag.deleteNullProps.isSet g.flags) update.entries { game := g }
  unfold insertGameProps
  simp only
  split
  · exact Or.inr (congrArg (· + 1) hrevision)
  · next hchanged => exact Or.inl (hsame (Bool.eq_false_iff.mpr hchanged))

/-- The custom property that the lobby is shown under a name. -/
def shown (name : String) (g : Game) : Option Value :=
  if name ∈ g.lobbyProps then g.customProps.lookup (.string name) else none

theorem lookup_addLobbyProp (g : Game) (table : Hashtable) (name : String) (key : Value) :
    (g.addLobbyProp table name).lookup key =
      (table.lookup key).or
        (if key = .string name then g.customProps.lookup key else none) := by
  unfold addLobbyProp
  cases hcustom : g.customProps.lookup (.string name) with
  | none =>
    simp only
    split
    · next hkey => rw [hkey, hcustom, Option.or_none]
    · rw [Option.or_none]
  | some value =>
    simp only [Hashtable.lookup_emplace]
    by_cases hkey : key = .string name
    · subst hkey
      by_cases hmem : Value.string name ∈ table
      · obtain ⟨v, hv⟩ := AList.mem_iff_lookup.mp hmem
        simp [hmem, hv]
      · simp [hmem, hcustom, AList.lookup_eq_none.mpr hmem]
    · simp [hkey]

theorem lookup_getLobbyGameProps (g : Game) (key : Value) :
    g.getLobbyGameProps.lookup key =
      (g.builtinLobbyProps.lookup key).or
        (if ∃ name ∈ g.lobbyProps, key = .string name then g.customProps.lookup key else none) := by
  unfold getLobbyGameProps
  generalize g.lobbyProps = names
  generalize g.builtinLobbyProps = table
  induction names generalizing table with
  | nil => simp
  | cons name names ih =>
    rw [List.foldl_cons, ih, lookup_addLobbyProp, Option.or_assoc]
    congr 1
    by_cases hkey : key = .string name
    · cases hcustom : g.customProps.lookup key <;> simp [hkey]
    · simp [hkey]

theorem lookup_builtinLobbyProps (g : Game) (key : Value) :
    g.builtinLobbyProps.lookup key =
      if key = .byte GameProp.maxPlayers.code then some (.byte g.maxPeers)
      else if key = .byte GameProp.isOpen.code then some (.bool g.isOpen)
      else if key = playerCountKey then some (.byte g.playerCount) else none := by
  simp only [builtinLobbyProps, AList.lookup_insert_eq, AList.lookup_empty]

theorem lookup_getLobbyGameProps_string (g : Game) (name : String) :
    g.getLobbyGameProps.lookup (.string name) = g.shown name := by
  rw [lookup_getLobbyGameProps, lookup_builtinLobbyProps]
  simp [playerCountKey, shown]

theorem lookup_getLobbyGameProps_of_ne (g : Game) {key : Value} (hkey : ∀ name, key ≠ .string name) :
    g.getLobbyGameProps.lookup key = g.builtinLobbyProps.lookup key := by
  rw [lookup_getLobbyGameProps]
  simp [hkey]

end Game

end LuxonServer
