import LuxonServer.Game.SetProperties

/-! A client that got the properties of its room when it joined, and has overwritten its copy with
every property event since: when the copy is what `get_game_props` returns. -/

namespace LuxonServer

/-- What an event says of a key: its value, and with `DeleteNullProps` that it is gone. -/
def told (deleteNull : Bool) (value : Value) : Option Value :=
  if deleteNull ∧ value = .null then none else some value

/-- One entry of an event. -/
def overwriteProp (deleteNull : Bool) (copy : Hashtable) (entry : Σ _ : Value, Value) :
    Hashtable :=
  match told deleteNull entry.2 with
  | some value => AList.insert entry.1 value copy
  | none => AList.erase entry.1 copy

/-- The client's copy after an event. -/
def overwrite (deleteNull : Bool) (props copy : Hashtable) : Hashtable :=
  props.entries.foldl (overwriteProp deleteNull) copy

theorem lookup_overwrite (deleteNull : Bool) (props copy : Hashtable) (key : Value) :
    (overwrite deleteNull props copy).lookup key =
      (props.lookup key).elim (copy.lookup key) fun value => told deleteNull value := by
  refine AList.view_foldl (fun (copy : Hashtable) key => copy.lookup key)
    (fun _ value _ => told deleteNull value) ?_ ?_ copy key
  · rintro copy ⟨key, value⟩
    unfold overwriteProp
    cases told deleteNull value with
    | none => exact AList.lookup_erase _ _
    | some value => exact AList.lookup_insert _
  · rintro copy ⟨key, value⟩ other hne
    unfold overwriteProp
    cases told deleteNull value with
    | none => exact AList.lookup_erase_ne hne
    | some value => exact AList.lookup_insert_ne hne

/-- What an entry of the event says is what becomes of the property: a built-in key is one whose
field takes the value, or has it; another byte has the value already; the null key is deleted, or
has the value already; and under any other key the value is one that stays in the table. -/
def Echoed (settings : AppSettings) (deleteNull : Bool) (g : Game) (key value : Value) : Prop :=
  match key with
  | .byte code =>
    match GameProp.ofCode code with
    | some p => p.accepts settings value = true ∨ p.read g = value
    | none => g.customProps.lookup (.byte code) = told deleteNull value
  | .null =>
    if deleteNull then value = .null else g.customProps.lookup .null = some value
  | _ => ¬(deleteNull = true ∧ value = .null)

namespace Game

theorem told_eq_stored_iff {settings : AppSettings} {deleteNull : Bool} {g : Game}
    {key value : Value} :
    told deleteNull value = stored settings deleteNull key value (g.propAt key) ↔
      Echoed settings deleteNull g key value := by
  unfold Echoed
  cases key with
  | byte code =>
    cases hp : GameProp.ofCode code with
    | none => simp only [stored_unknown hp, propAt, hp, eq_comm]
    | some p =>
      simp only [stored_builtin hp, propAt, hp]
      by_cases hnull : value = .null
      · subst hnull
        have hread := p.read_ne_null g
        simp only [GameProp.not_accepts_null, Bool.false_eq_true, if_false, false_or, hread,
          iff_false]
        unfold told
        split
        · simp
        · exact fun heq => hread (Option.some.inj heq).symm
      · simp only [told, hnull, and_false, if_false]
        split
        · next haccepts => simp [haccepts]
        · next haccepts => simp [haccepts, eq_comm]
  | null =>
    cases deleteNull with
    | false => simp [stored_null, propAt, told, eq_comm]
    | true => simp [stored_null, told]
  | _ => simp [stored_custom, told]

end Game

/-- A room and the copy of its properties that one of its clients has. -/
structure Follower where
  game : Game
  copy : Hashtable

namespace Follower

/-- The client when it has joined. -/
def join (g : Game) : Follower where
  game := g
  copy := g.getGameProps false

/-- A request reaches the room, and its event the client. -/
def step (settings : AppSettings) (f : Follower) (call : PropertyCall) : Follower :=
  let out := call.outcome settings f.game
  { game := out.game
    copy :=
      match out.event with
      | none => f.copy
      | some event =>
        overwrite (GameFlag.deleteNullProps.isSet out.game.flags) event.properties f.copy }

/-- The copy is the table, apart from the derived player count. -/
def Agrees (f : Follower) : Prop :=
  ∀ key, key ≠ playerCountKey → f.copy.lookup key = (f.game.getGameProps false).lookup key

/-- Everything that an accepted update says comes true. -/
def Faithful (settings : AppSettings) (f : Follower) (call : PropertyCall) : Prop :=
  ∀ props, call.Accepted f.game props → ∀ key value, props.lookup key = some value →
    key ≠ playerCountKey →
      Echoed settings (GameFlag.deleteNullProps.isSet f.game.flags) f.game key value

variable {settings : AppSettings} {f : Follower} {call : PropertyCall}

theorem agrees_step_iff (hbroadcast : call.request.broadcast = true) (hf : f.Agrees) :
    (f.step settings call).Agrees ↔ f.Faithful settings call := by
  rcases PropertyCall.outcome_cases settings f.game call with
    ⟨props, haccepted⟩ | ⟨hnone, -, hgame, hevent⟩
  · obtain ⟨actorId, hout⟩ := PropertyCall.outcome_of_accepted settings haccepted
    have hflags : (f.game.insertGameProps settings props).1.flags = f.game.flags := by
      obtain ⟨_, _, _, _, _, _, _, _, _, heq⟩ :=
        Game.propsOnly_insertGameProps settings props f.game
      rw [heq]
    have hstep : f.step settings call =
        { game := (f.game.insertGameProps settings props).1
          copy := overwrite (GameFlag.deleteNullProps.isSet f.game.flags) props f.copy } := by
      unfold step
      rw [hout, hbroadcast]
      simp only [if_true, hflags]
      rfl
    have hkey : ∀ key, key ≠ playerCountKey →
        ((f.step settings call).copy.lookup key =
            ((f.step settings call).game.getGameProps false).lookup key ↔
          ∀ value, props.lookup key = some value →
            Echoed settings (GameFlag.deleteNullProps.isSet f.game.flags) f.game key value) := by
      intro key hcount
      have hold : f.copy.lookup key = f.game.propAt key :=
        (hf key hcount).trans (Game.lookup_getGameProps hcount)
      rw [hstep, lookup_overwrite, Game.lookup_getGameProps hcount, Game.propAt_insertGameProps,
        hold]
      cases hvalue : props.lookup key with
      | none => simp
      | some value =>
        simp only [Option.elim_some, Option.some.injEq, forall_eq']
        exact Game.told_eq_stored_iff
    constructor
    · intro hagrees other hother key value hvalue hcount
      obtain rfl := haccepted.unique hother
      exact (hkey key hcount).mp (hagrees key hcount) value hvalue
    · intro hfaithful key hcount
      exact (hkey key hcount).mpr fun value hvalue => hfaithful props haccepted key value hvalue hcount
  · have hstep : f.step settings call = f := by
      simp only [step, hgame, hevent]
    rw [hstep]
    exact iff_of_true hf fun props haccepted => absurd haccepted (hnone props)

/-- A client that joins any room and hears of every update since then has the room's properties
throughout, exactly if each update is faithful. -/
theorem agrees_iff (settings : AppSettings) (g : Game) {calls : List PropertyCall}
    (hbroadcast : ∀ call ∈ calls, call.request.broadcast = true) :
    Transition.Always (step settings) Agrees (join g) calls ↔
      Transition.EachStep (step settings) (Faithful settings) (join g) calls := by
  have hkeeps : Transition.Keeps (step settings) (fun _ call => call.request.broadcast = true)
      fun _ => True := fun _ _ h _ => h
  have heach : Transition.EachStep (step settings) (fun _ call => call.request.broadcast = true)
      (join g) calls := Transition.eachStep_of_forall fun call hcall _ => hbroadcast call hcall
  refine Transition.always_iff_eachStep hkeeps ?_ trivial ?_ heach
  · exact fun f call _ hcall hf => agrees_step_iff hcall hf
  · exact fun key _ => rfl

/-- Ada's request for one property. -/
def adasCall (key value : Value) : PropertyCall where
  heap := Room.adas.heap
  peer := some 1
  request :=
    { broadcast := true
      properties := some (AList.insert key value ∅)
      expectedValues := none }

/-- The limit of the room is changed, and then the map. -/
theorem agrees_iff_map_change :
    Transition.Always (step {}) Agrees (join Room.adas.game)
      [adasCall (.byte 255) (.byte 8), adasCall (.string "map") (.int32 2)] := by
  refine (agrees_iff {} Room.adas.game (by decide)).mpr ⟨?_, ?_, trivial⟩
  all_goals
    intro props haccepted key value hvalue _
    obtain rfl : _ = props := Option.some.inj haccepted.properties
    simp only [AList.lookup_insert_eq, AList.lookup_empty] at hvalue
    split at hvalue
    · next hkey =>
      subst hkey
      cases hvalue
      first | exact Or.inl (by decide) | exact nofun
    · cases hvalue

/-- A property is set and then deleted with a null value: the client takes it off its copy, and
the room keeps it with the value null. -/
theorem not_agrees_null_value :
    ¬Transition.Always (step {}) Agrees (join Room.adas.game)
      [adasCall (.string "map") (.int32 2), adasCall (.string "map") .null] := by
  intro halways
  have hlast := halways.last (.string "map") (by decide)
  revert hlast
  decide

end Follower

end LuxonServer
