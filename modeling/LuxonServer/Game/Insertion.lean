import LuxonServer.Game.Props

/-! What `insert_game_props` leaves of a room when every entry of the update fits: each entry
holds afterwards, nothing else changes, and the bump and the publication tell whether an entry was
news. -/

namespace LuxonServer.Game

/-- The room has what an entry of an update says.  A built-in key without a field says nothing. -/
def Has (g : Game) (entry : Σ _ : Value, Value) : Prop :=
  match entry.1 with
  | .byte code => ∀ p, GameProp.ofCode code = some p → p.read g = entry.2
  | key => g.customProps.lookup key = some entry.2

/-- The entry is one that a room takes: a value of the field's type, or a custom property. -/
def Fits (settings : AppSettings) (entry : Σ _ : Value, Value) : Prop :=
  match entry.1 with
  | .byte code => ∀ p, GameProp.ofCode code = some p →
    (p = .masterClientId → settings.allowChangeMaster = true) ∧
      ∀ g, (p.storeIf g entry.2).isSome = true
  | key => key ≠ .null

/-- A change of the key's property is published. -/
def publishes : Value → Bool
  | .byte code => (GameProp.ofCode code).any GameProp.updatesLobby
  | _ => false

section Entries

variable {settings : AppSettings} {deleteNull : Bool} {st : PropsUpdate} {g g' : Game}
  {entry other : Σ _ : Value, Value}

theorem customProps_storeIf {p : GameProp} {value : Value} (hs : p.storeIf g value = some g') :
    g'.customProps = g.customProps := by
  cases p <;> cases value <;> simp only [GameProp.storeIf, reduceCtorEq, Option.some.injEq] at hs <;>
    rw [← hs]

theorem has_congr (hread : ∀ p : GameProp, p.read g' = p.read g)
    (hcustom : g'.customProps = g.customProps) : g'.Has entry ↔ g.Has entry := by
  unfold Has
  simp only [hread, hcustom]

theorem has_setRevision (revision : Nat) :
    { g with stateRevision := revision }.Has entry ↔ g.Has entry :=
  has_congr (fun p => by cases p <;> rfl) rfl

/-- An entry that fits is stored, as a change if it is news. -/
theorem insertProp_news (deleteNull : Bool) (st : PropsUpdate) (hfits : Fits settings entry) :
    let st' := insertProp settings deleteNull st entry
    st'.game.Has entry ∧ (st.game.Has entry → st' = st) ∧
      (¬st.game.Has entry →
        st'.changed = true ∧ st'.updateLobby = (st.updateLobby || publishes entry.1)) := by
  obtain ⟨key, value⟩ := entry
  intro st'
  cases key with
  | byte code =>
    simp only [st', insertProp, Has, publishes]
    simp only [Fits] at hfits
    cases hp : GameProp.ofCode code with
    | none => simp
    | some p =>
      obtain ⟨hmaster, hstore⟩ := hfits p hp
      obtain ⟨game, hs⟩ := Option.isSome_iff_exists.mp (hstore st.game)
      have hread := GameProp.read_storeIf hs
      have hallowed : ¬(p = .masterClientId ∧ ¬settings.allowChangeMaster = true) :=
        fun hboth => hboth.2 (hmaster hboth.1)
      simp only [insertBuiltin, if_neg hallowed, hs, Option.some.injEq, forall_eq', Option.any_some]
      refine ⟨hread, fun hold => ?_, fun hnews => ?_⟩
      · have hsame : game = st.game := GameProp.eq_of_read_eq hs (hold.trans hread.symm)
        rw [hsame]
        simp
      · have hne : (p.read st.game != p.read game) = true := by
          rw [bne_iff_ne, hread]
          exact hnews
        rw [hne]
        simp
  | _ =>
    simp only [Fits] at hfits
    simp only [st', insertProp, insertCustom, Has, publishes, Bool.or_false]
    rw [if_pos hfits]
    split
    · next hsame => exact ⟨hsame, fun _ => rfl, fun hnews => absurd hsame hnews⟩
    · next hnews =>
      exact ⟨AList.lookup_insert _, fun hsame => absurd hsame hnews, fun _ => ⟨rfl, rfl⟩⟩

/-- Only the key of the entry is written. -/
theorem customProps_insertProp_of_ne {key : Value} (hne : key ≠ entry.1) :
    (insertProp settings deleteNull st entry).game.customProps.lookup key =
      st.game.customProps.lookup key := by
  unfold insertProp
  split
  · split
    · rfl
    · unfold insertBuiltin
      split
      · rfl
      · split
        · rfl
        · next hs => rw [customProps_storeIf hs]
  · unfold insertCustom
    simp only
    split
    · split
      · rfl
      · exact AList.lookup_insert_ne hne
    · split
      · exact AList.lookup_erase_ne hne
      · rfl

theorem has_insertProp_of_ne (hne : other.1 ≠ entry.1) :
    (insertProp settings deleteNull st entry).game.Has other ↔ st.game.Has other := by
  obtain ⟨key', value'⟩ := other
  have hread : ∀ p : GameProp, key' = .byte p.code →
      p.read (insertProp settings deleteNull st entry).game = p.read st.game := by
    rintro p rfl
    apply read_insertProp
    exact hne.symm
  cases key' with
  | byte code =>
    simp only [Has]
    apply forall₂_congr
    intro p hp
    rw [hread p (by rw [GameProp.code_of_ofCode hp])]
  | _ => simp only [Has, customProps_insertProp_of_ne hne]

end Entries

/-- The loop, from any state on: its entries hold afterwards, other keys stay as they are, and what
it counts and publishes are the entries that were news. -/
theorem insertProps_news {settings : AppSettings} (deleteNull : Bool)
    {entries : List (Σ _ : Value, Value)} (hkeys : (entries.map Sigma.fst).Nodup)
    (hfits : ∀ entry ∈ entries, Fits settings entry) (st : PropsUpdate) :
    let st' := entries.foldl (insertProp settings deleteNull) st
    (∀ entry ∈ entries, st'.game.Has entry) ∧
      (∀ other : Σ _ : Value, Value, other.1 ∉ entries.map Sigma.fst →
        (st'.game.Has other ↔ st.game.Has other)) ∧
      (st'.changed = true ↔ st.changed = true ∨ ∃ entry ∈ entries, ¬st.game.Has entry) ∧
      (st'.updateLobby = true ↔
        st.updateLobby = true ∨ ∃ entry ∈ entries, ¬st.game.Has entry ∧ publishes entry.1 = true) := by
  induction entries generalizing st with
  | nil => simp
  | cons entry entries ih =>
    rw [List.map_cons, List.nodup_cons] at hkeys
    have hentry := hfits entry List.mem_cons_self
    obtain ⟨hhas, hold, hnews⟩ := insertProp_news deleteNull st hentry
    obtain ⟨hall, hother, hchanged, hpublished⟩ := ih hkeys.2
      (fun e he => hfits e (List.mem_cons_of_mem _ he)) (insertProp settings deleteNull st entry)
    have hkey : ∀ e ∈ entries, e.1 ≠ entry.1 := by
      intro e he heq
      exact hkeys.1 (heq ▸ List.mem_map_of_mem he)
    have hrest : ∀ e ∈ entries,
        ((insertProp settings deleteNull st entry).game.Has e ↔ st.game.Has e) :=
      fun e he => has_insertProp_of_ne (hkey e he)
    simp only [List.foldl_cons]
    refine ⟨?_, ?_, ?_, ?_⟩
    · intro e he
      rcases List.mem_cons.mp he with rfl | he
      · exact (hother e hkeys.1).mpr hhas
      · exact hall e he
    · intro other hnot
      rw [List.map_cons, List.mem_cons, not_or] at hnot
      rw [hother other hnot.2, has_insertProp_of_ne hnot.1]
    · have hlater : (∃ e ∈ entries, ¬(insertProp settings deleteNull st entry).game.Has e) ↔
          ∃ e ∈ entries, ¬st.game.Has e :=
        exists_congr fun e => and_congr_right fun he => not_congr (hrest e he)
      rw [hchanged, hlater, List.exists_mem_cons_iff]
      by_cases hpresent : st.game.Has entry
      · rw [hold hpresent]
        simp [hpresent]
      · simp [hpresent, (hnews hpresent).1]
    · have hlater : (∃ e ∈ entries, ¬(insertProp settings deleteNull st entry).game.Has e ∧
            publishes e.1 = true) ↔ ∃ e ∈ entries, ¬st.game.Has e ∧ publishes e.1 = true :=
        exists_congr fun e => and_congr_right fun he => and_congr_left' (not_congr (hrest e he))
      rw [hpublished, hlater, List.exists_mem_cons_iff]
      by_cases hpresent : st.game.Has entry
      · rw [hold hpresent]
        simp [hpresent]
      · simp [hpresent, (hnews hpresent).2, or_assoc]

section Update

variable {settings : AppSettings} {update : Hashtable} {g : Game}

theorem insertGameProps_news (settings : AppSettings)
    (hfits : ∀ entry ∈ update.entries, Fits settings entry)
    (hvisible : Value.byte GameProp.isVisible.code ∉ update) (g : Game) :
    let after := g.insertGameProps settings update
    let news := ∃ entry ∈ update.entries, ¬g.Has entry
    let published := ∃ entry ∈ update.entries, ¬g.Has entry ∧ publishes entry.1 = true
    (∀ entry ∈ update.entries, after.1.Has entry) ∧
      (∀ other : Σ _ : Value, Value, other.1 ∉ update → (after.1.Has other ↔ g.Has other)) ∧
      (news → after.1.stateRevision = g.stateRevision + 1) ∧
      (¬news → after.1.stateRevision = g.stateRevision) ∧
      (published → after.2 = after.1.triggerLobbyUpdate) ∧ (¬published → after.2 = []) := by
  have hkeys : (update.entries.map Sigma.fst).Nodup := update.keys_nodup
  obtain ⟨hall, hother, hchanged, hpublished⟩ := insertProps_news
    (GameFlag.deleteNullProps.isSet g.flags) hkeys hfits { game := g }
  obtain ⟨hrevision, -, -⟩ := insertProps_spec settings
    (GameFlag.deleteNullProps.isSet g.flags) update.entries { game := g }
  have hread := read_insertGameProps settings hvisible g
  have hsame : ∀ entry, ((g.insertGameProps settings update).1.Has entry ↔
      (g.insertProps settings update).game.Has entry) := by
    intro entry
    unfold insertGameProps
    simp only
    split
    · exact has_setRevision _
    · exact Iff.rfl
  simp only [Bool.false_eq_true, false_or] at hchanged hpublished
  intro after news published
  have hvisibility : (g.isVisible != after.1.isVisible) = false := by
    simp only [GameProp.read, Value.bool.injEq] at hread
    simp only [after, hread, bne_self_eq_false]
  refine ⟨fun entry hentry => (hsame entry).mpr (hall entry hentry),
    fun other hnot => (hsame other).trans (hother other hnot), ?_, ?_, ?_, ?_⟩
  · intro hnews
    simp only [after, insertGameProps, insertProps, hchanged.mpr hnews, if_true]
    exact congrArg (· + 1) hrevision
  · intro hnews
    have hsame := Bool.eq_false_iff.mpr (hnews ∘ hchanged.mp)
    simp only [after, insertGameProps, insertProps, hsame, Bool.false_eq_true, if_false]
    exact hrevision
  · intro hpub
    simp only [after, insertGameProps, insertProps] at hvisibility ⊢
    simp only [hvisibility, hpublished.mpr hpub, Bool.false_eq_true, false_and, if_false, true_or,
      if_true, List.nil_append]
  · intro hpub
    simp only [after, insertGameProps, insertProps] at hvisibility ⊢
    have hquiet := Bool.eq_false_iff.mpr (hpub ∘ hpublished.mp)
    simp only [hvisibility, hquiet, Bool.false_eq_true, false_and, or_self, if_false,
      List.nil_append]

end Update

theorem mem_getLobbyGameProps_iff {o : Game} {entry : Σ _ : Value, Value} :
    entry ∈ o.getLobbyGameProps.entries ↔
      entry = ⟨.byte GameProp.maxPlayers.code, .byte o.maxPeers⟩ ∨
        entry = ⟨.byte GameProp.isOpen.code, .bool o.isOpen⟩ ∨
        entry = ⟨playerCountKey, .byte o.playerCount⟩ ∨
        ∃ name value, o.shown name = some value ∧ entry = ⟨.string name, value⟩ := by
  obtain ⟨key, value⟩ := entry
  rw [AList.mem_entries_iff]
  by_cases hkey : ∃ name, key = .string name
  · obtain ⟨name, rfl⟩ := hkey
    rw [lookup_getLobbyGameProps_string]
    simp [playerCountKey]
  · have hne : ∀ name, key ≠ .string name := fun name heq => hkey ⟨name, heq⟩
    rw [lookup_getLobbyGameProps_of_ne o hne, lookup_builtinLobbyProps]
    simp only [Sigma.mk.injEq, hne, false_and, and_false, exists_false, or_false, heq_eq_eq]
    by_cases hmax : key = .byte GameProp.maxPlayers.code
    · subst hmax
      simp [GameProp.code, playerCountKey, eq_comm]
    · by_cases hopen : key = .byte GameProp.isOpen.code
      · subst hopen
        simp [GameProp.code, playerCountKey, eq_comm]
      · by_cases hcount : key = playerCountKey
        · subst hcount
          simp [GameProp.code, playerCountKey, eq_comm]
        · simp [hmax, hopen, hcount]

theorem fits_getLobbyGameProps (settings : AppSettings) {o : Game} {entry : Σ _ : Value, Value}
    (hentry : entry ∈ o.getLobbyGameProps.entries) : Fits settings entry := by
  rcases mem_getLobbyGameProps_iff.mp hentry with rfl | rfl | rfl | ⟨name, value, -, rfl⟩
  · simp only [Fits, GameProp.ofCode_code, Option.some.injEq, forall_eq']
    exact ⟨nofun, fun _ => rfl⟩
  · simp only [Fits, GameProp.ofCode_code, Option.some.injEq, forall_eq']
    exact ⟨nofun, fun _ => rfl⟩
  · have hnone : GameProp.ofCode 252 = none := by decide
    simp [Fits, playerCountKey, hnone]
  · simp [Fits]

theorem notMem_getLobbyGameProps {o : Game} {p : GameProp} (hmax : p ≠ .maxPlayers)
    (hopen : p ≠ .isOpen) : Value.byte p.code ∉ o.getLobbyGameProps := by
  intro hmem
  obtain ⟨value, hvalue⟩ := AList.mem_iff_lookup.mp hmem
  rw [lookup_getLobbyGameProps_of_ne o (by simp), lookup_builtinLobbyProps] at hvalue
  cases p <;> simp [GameProp.code, playerCountKey] at hvalue hmax hopen

end LuxonServer.Game
