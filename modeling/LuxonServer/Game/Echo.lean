import LuxonServer.Game.Replica

/-! The echo of a `GameUpdate`: what a second copy of a message does to the room that has had the
first. -/

namespace LuxonServer.Game

/-- Two states of a room are the same but for the generations of its reservations. -/
structure Unmoved (g g' : Game) : Prop where
  seats : SeatsOnly g g'
  expectedUsers : ∀ userId, userId ∈ g'.expectedUsers ↔ userId ∈ g.expectedUsers

section Congruence

variable {g g' : Game}

theorem SeatsOnly.read (hg : SeatsOnly g g') (p : GameProp) : p.read g' = p.read g := by
  obtain ⟨_, _, _, _, _, _, rfl⟩ := hg
  cases p <;> rfl

/-- The reservations of a room have no part in what becomes of a field. -/
theorem SeatsOnly.storeIf (hg : SeatsOnly g g') (p : GameProp) (value : Value) :
    p.storeIf g value = none ∧ p.storeIf g' value = none ∨
      ∃ h h', p.storeIf g value = some h ∧ p.storeIf g' value = some h' ∧ SeatsOnly h h' := by
  obtain ⟨users, generations, next, reserved, removed, scheduled, rfl⟩ := hg
  cases p <;> cases value <;>
    first
    | exact Or.inl ⟨rfl, rfl⟩
    | exact Or.inr ⟨_, _, rfl, rfl, users, generations, next, reserved, removed, scheduled, rfl⟩

/-- Two states of the loop in `insert_game_props` that differ in reservations. -/
structure PropsUpdate.Alike (st st' : PropsUpdate) : Prop where
  game : SeatsOnly st.game st'.game
  changed : st'.changed = st.changed

theorem PropsUpdate.Alike.insertProp {st st' : PropsUpdate} (hst : st.Alike st')
    (settings : AppSettings) (deleteNull : Bool) (entry : Σ _ : Value, Value) :
    (insertProp settings deleteNull st entry).Alike (insertProp settings deleteNull st' entry) := by
  have hprops : st'.game.customProps = st.game.customProps := by
    obtain ⟨_, _, _, _, _, _, heq⟩ := hst.game
    rw [heq]
  unfold Game.insertProp
  split
  · split
    · exact hst
    · next p _ =>
      unfold insertBuiltin
      split
      · exact hst
      · rcases hst.game.storeIf p entry.2 with ⟨hnone, hnone'⟩ | ⟨h, h', hs, hs', hseats⟩
        · rw [hnone, hnone']
          exact hst
        · rw [hs, hs']
          exact ⟨hseats, by simp only [hst.game.read, hseats.read, hst.changed]⟩
  · unfold insertCustom
    simp only [hprops]
    obtain ⟨users, generations, next, reserved, removed, scheduled, heq⟩ := hst.game
    split <;> split
    · exact hst
    · exact ⟨⟨users, generations, next, reserved, removed, scheduled, by rw [heq]⟩, rfl⟩
    · exact ⟨⟨users, generations, next, reserved, removed, scheduled, by rw [heq]⟩, rfl⟩
    · exact hst

theorem SeatsOnly.changed_insertProps (hg : SeatsOnly g g') (settings : AppSettings)
    (update : Hashtable) :
    (g'.insertProps settings update).changed = (g.insertProps settings update).changed := by
  have hflags : g'.flags = g.flags := by
    obtain ⟨_, _, _, _, _, _, rfl⟩ := hg
    rfl
  have hfold : ∀ (entries : List (Σ _ : Value, Value)) {st st' : PropsUpdate}, st.Alike st' →
      (entries.foldl (insertProp settings (GameFlag.deleteNullProps.isSet g.flags)) st).Alike
        (entries.foldl (insertProp settings (GameFlag.deleteNullProps.isSet g.flags)) st') := by
    intro entries
    induction entries with
    | nil => exact id
    | cons entry entries ih => exact fun hst => ih (hst.insertProp settings _ entry)
  unfold insertProps
  rw [hflags]
  have hst : PropsUpdate.Alike { game := g } { game := g' } := ⟨hg, rfl⟩
  exact (hfold update.entries hst).changed

end Congruence

section Unchanged

variable {settings : AppSettings} {update : Hashtable} {g : Game}

/-- Only a change is published. -/
def PropsUpdate.Coherent (st : PropsUpdate) : Prop := st.updateLobby = true → st.changed = true

theorem PropsUpdate.Coherent.insertProp {st : PropsUpdate} (hst : st.Coherent)
    (settings : AppSettings) (deleteNull : Bool) (entry : Σ _ : Value, Value) :
    (insertProp settings deleteNull st entry).Coherent := by
  unfold Game.insertProp
  split
  · split
    · exact hst
    · unfold insertBuiltin
      split
      · exact hst
      · split
        · exact hst
        · intro hup
          simp only [Bool.or_eq_true, Bool.and_eq_true] at hup ⊢
          exact hup.imp hst And.left
  · unfold insertCustom
    simp only
    split <;> split
    · exact hst
    · exact fun _ => rfl
    · exact fun _ => rfl
    · exact hst

/-- An update without news leaves the room as it is and is told to nobody. -/
theorem insertGameProps_of_unchanged (hsame : (g.insertProps settings update).changed = false) :
    g.insertGameProps settings update = (g, []) := by
  obtain ⟨-, -, hgame⟩ := insertProps_spec settings (GameFlag.deleteNullProps.isSet g.flags)
    update.entries { game := g }
  have hquiet : (g.insertProps settings update).Coherent :=
    List.foldlRecOn update.entries _ (fun hup => by cases hup)
      fun _ hst entry _ => hst.insertProp settings _ entry
  have hgame : (g.insertProps settings update).game = g := hgame hsame
  have hup : (g.insertProps settings update).updateLobby = false :=
    Bool.eq_false_iff.mpr fun hup => by simp [hquiet hup] at hsame
  unfold insertGameProps
  simp [hsame, hgame, hup]

theorem stateRevision_of_changed (hchanged : (g.insertProps settings update).changed = true) :
    (g.insertGameProps settings update).1.stateRevision = g.stateRevision + 1 := by
  obtain ⟨hrevision, -, -⟩ := insertProps_spec settings (GameFlag.deleteNullProps.isSet g.flags)
    update.entries { game := g }
  unfold insertGameProps
  simp only [hchanged, if_true]
  exact congrArg (· + 1) hrevision

end Unchanged

section Twice

variable {m : GameUpdate} {g : Game}

/-- The room has what a message says besides the properties. -/
structure Settled (m : GameUpdate) (g : Game) : Prop where
  flags : g.applyUpdateFlags m = g
  expectedUsers : ∀ users, m.expectedUsers = some users →
    ∀ userId, userId ∈ g.expectedUsers ↔ userId ≠ "" ∧ userId ∈ users

theorem Unmoved.refl (g : Game) : Unmoved g g := ⟨SeatsOnly.refl g, fun _ => Iff.rfl⟩

theorem getD_getD_self {α : Type} (o : Option α) (a : α) : o.getD (o.getD a) = o.getD a := by
  cases o <;> rfl

theorem settled_applyUpdateState (m : GameUpdate) (g : Game) : Settled m (g.applyUpdateState m) := by
  have hflags : ∀ g' : Game, SeatsOnly (g.applyUpdateFlags m) g' → g'.applyUpdateFlags m = g' := by
    rintro _ ⟨_, _, _, _, _, _, rfl⟩
    simp only [applyUpdateFlags, getD_getD_self]
  unfold applyUpdateState
  cases husers : m.expectedUsers with
  | none => exact ⟨hflags _ (SeatsOnly.refl _), by simp [husers]⟩
  | some users =>
    refine ⟨hflags _ (seatsOnly_replaceExpectedUsers users _), ?_⟩
    intro others hothers userId
    rw [husers, Option.some.injEq] at hothers
    rw [← hothers]
    exact mem_replaceExpectedUsers

theorem Settled.unmoved (hg : Settled m g) : Unmoved g (g.applyUpdateState m) := by
  unfold applyUpdateState
  rw [hg.flags]
  cases husers : m.expectedUsers with
  | none => exact Unmoved.refl g
  | some users =>
    refine ⟨seatsOnly_replaceExpectedUsers users g, fun userId => ?_⟩
    rw [show userId ∈ g.expectedUsers ↔ _ from hg.expectedUsers users husers userId]
    exact mem_replaceExpectedUsers

theorem Settled.playerCount (hg : Settled m g) (props : Hashtable) :
    Settled m (g.applyPlayerCount props) where
  flags := by
    have hflags := hg.flags
    simp only [applyUpdateFlags, applyPlayerCount] at hflags ⊢
    cases g
    simp only [mk.injEq, true_and, and_true] at hflags ⊢
    exact hflags
  expectedUsers := hg.expectedUsers

/-- The player count of a message is that of a room that has had it. -/
theorem Unmoved.playerCount {g' : Game} (hg : Unmoved (g.applyPlayerCount props) g') :
    g'.applyPlayerCount props = g' := by
  obtain ⟨⟨_, _, _, _, _, _, rfl⟩, -⟩ := hg
  simp only [applyPlayerCount, getD_getD_self]

/-- What a second copy of an update does to the room that has had the first. -/
theorem receiveUpdate_twice {revision : Nat} (hrevision : remoteRevision m = some revision)
    (settings : AppSettings) (isNew : Bool) (haccepts : g.acceptsUpdate isNew m = true) :
    let once := (g.receiveUpdate settings isNew m).1
    (once.receiveUpdate settings false m).2 = [] ∧
      Unmoved once (once.receiveUpdate settings false m).1 := by
  intro once
  by_cases hagain : once.acceptsUpdate false m = true
  swap
  · -- the first copy was news, and its count is past the revision of the message
    rw [show once.receiveUpdate settings false m = (once, []) from if_neg hagain]
    exact ⟨rfl, Unmoved.refl once⟩
  rw [show once.receiveUpdate settings false m = once.applyUpdate settings m from if_pos hagain]
  have hstate := settled_applyUpdateState m g
  have honce : once = (g.applyUpdate settings m).1 := congrArg Prod.fst (if_pos haccepts)
  unfold applyUpdate applyUpdateProps at honce ⊢
  cases hprops : m.gameProperties with
  | none =>
    rw [hprops] at honce
    rw [honce]
    exact ⟨rfl, hstate.unmoved⟩
  | some props =>
    have hbase := hstate.playerCount props
    have hmoved := hbase.unmoved
    simp only [hprops] at honce ⊢
    have hquiet : (((g.applyUpdateState m).applyPlayerCount props).insertProps
        settings props).changed = false := by
      by_contra hchanged
      have hnext := stateRevision_of_changed (Bool.eq_true_of_not_eq_false hchanged)
      have hrev : ((g.applyUpdateState m).applyPlayerCount props).stateRevision = revision := by
        rw [← hbase.flags]
        simp only [applyUpdateFlags, hrevision, Option.getD_some]
      rw [hrev, ← honce] at hnext
      simp only [acceptsUpdate, hrevision, Bool.false_or, decide_eq_true_eq] at hagain
      omega
    have hquiet' := (hmoved.seats.changed_insertProps settings props).trans hquiet
    rw [insertGameProps_of_unchanged hquiet] at honce
    rw [honce, hmoved.playerCount, insertGameProps_of_unchanged hquiet']
    exact ⟨rfl, hmoved⟩

end Twice

end LuxonServer.Game
