import Mathlib.Logic.Function.Basic
import LuxonServer.Registry

/-! How long a lobby lives: it is in its app's table exactly as long as a pointer to it is left,
which a room of the lobby has, a client that has joined it, or a request that asks for it. -/

namespace LuxonServer

namespace App

/-- The lobbies of the app are those with a pointer left; `holders` counts the pointers that are not
the rooms'. -/
structure Held (holders : LobbyId → Nat) (app : App) : Prop where
  fresh : ∀ ref, ref ∈ app.live → ref < app.nextRef
  handles : ∀ id lobby, app.lobbies.lookup id = some lobby → lobby.handles = holders id
  pointed : ∀ id, id ∈ app.lobbies ↔
    holders id ≠ 0 ∨ ∃ ref g, app.live.lookup ref = some g ∧ g.lobbyId = id

variable {app : App} {holders : LobbyId → Nat} {id : LobbyId}

theorem Held.sound (h : app.Held holders) : app.Sound :=
  ⟨fun ref g hg => (h.pointed _).mpr (Or.inr ⟨ref, g, hg, rfl⟩), h.fresh⟩

theorem Held.of_isEmpty (hempty : app.IsEmpty) : app.Held fun _ => 0 := by
  obtain ⟨hlobbies, -, hlive⟩ := hempty
  constructor
  · intro ref hmem
    simp [hlive] at hmem
  · intro id lobby hl
    simp [hlobbies] at hl
  · intro id
    simp [hlobbies, hlive]

theorem lookup_getLobby (id : LobbyId) (app : App) (key : LobbyId) :
    (app.getLobby id).lobbies.lookup key =
      if key = id then
        some ((app.lobbies.lookup id).elim { handles := 1 } fun lobby =>
          { lobby with handles := lobby.handles + 1 })
      else app.lobbies.lookup key := by
  unfold getLobby
  split
  · next hmem =>
    obtain ⟨lobby, hlobby⟩ := AList.mem_iff_lookup.mp hmem
    rw [lookup_modifyLobby]
    split
    · next hkey => rw [hkey, hlobby]; rfl
    · rfl
  · next hnew =>
    rw [AList.lookup_insert_eq, AList.lookup_eq_none.mpr hnew]
    rfl

/-- What a request finds when it has asked for a lobby. -/
theorem Held.lookup_getLobby (h : app.Held holders) (id key : LobbyId) :
    (app.getLobby id).lobbies.lookup key =
      if key = id then
        some { games := (app.lobbies.lookup id).elim [] Lobby.games, handles := holders id + 1 }
      else app.lobbies.lookup key := by
  rw [App.lookup_getLobby id app key]
  split
  · cases hold : app.lobbies.lookup id with
    | none =>
      have hnone : holders id = 0 := by
        by_contra hsome
        exact AList.lookup_eq_none.mp hold ((h.pointed id).mpr (Or.inl hsome))
      rw [hnone]
      rfl
    | some lobby =>
      rw [← h.handles id lobby hold]
      rfl
  · rfl

theorem Held.getLobby (h : app.Held holders) (id : LobbyId) :
    (app.getLobby id).Held (Function.update holders id (holders id + 1)) := by
  obtain ⟨_, hframe⟩ := getLobby_frame id app
  have hlive : (app.getLobby id).live = app.live := by rw [hframe]
  refine ⟨by rw [hframe]; exact h.fresh, fun key lobby hl => ?_, fun key => ?_⟩
  · rw [h.lookup_getLobby] at hl
    split at hl
    · next hkey =>
      cases hl
      rw [hkey, Function.update_self]
    · next hkey =>
      rw [Function.update_of_ne hkey]
      exact h.handles key lobby hl
  · rw [← AList.lookup_isSome, h.lookup_getLobby, hlive]
    split
    · next hkey =>
      rw [hkey, Function.update_self]
      simp
    · next hkey =>
      rw [Function.update_of_ne hkey, AList.lookup_isSome]
      exact h.pointed key

/-- A pointer that is dropped was the last. -/
theorem Held.abandoned_iff_last (h : app.Held holders) (hid : holders id ≠ 0) :
    (app.modifyLobby id fun lobby => { lobby with handles := lobby.handles - 1 }).abandoned id =
        true ↔
      holders id = 1 ∧ ∀ ref g, app.live.lookup ref = some g → g.lobbyId ≠ id := by
  obtain ⟨_, hframe⟩ := modifyLobby_frame id
    (fun lobby => { lobby with handles := lobby.handles - 1 }) app
  obtain ⟨lobby, hlobby⟩ := AList.mem_iff_lookup.mp ((h.pointed id).mpr (Or.inl hid))
  have hhandles := h.handles id lobby hlobby
  rw [abandoned_iff, lookup_modifyLobby, if_pos rfl, hlobby]
  refine and_congr ?_ (by rw [hframe])
  simp only [Option.map_some, Option.some.injEq, forall_eq']
  omega

theorem lookup_releaseLobby (id : LobbyId) (app : App) (key : LobbyId) :
    (app.releaseLobby id).lobbies.lookup key =
      if key = id ∧ (app.modifyLobby id fun lobby =>
        { lobby with handles := lobby.handles - 1 }).abandoned id = true then none
      else if key = id then
        (app.lobbies.lookup key).map fun lobby => { lobby with handles := lobby.handles - 1 }
      else app.lobbies.lookup key := by
  unfold releaseLobby
  rw [lookup_collect, lookup_modifyLobby]

theorem Held.releaseLobby (h : app.Held holders) (id : LobbyId) (hid : holders id ≠ 0) :
    (app.releaseLobby id).Held (Function.update holders id (holders id - 1)) := by
  obtain ⟨_, hframe⟩ := releaseLobby_frame id app
  have hlive : (app.releaseLobby id).live = app.live := by rw [hframe]
  refine ⟨by rw [hframe]; exact h.fresh, fun key lobby hl => ?_, fun key => ?_⟩
  · rw [lookup_releaseLobby] at hl
    split at hl
    · cases hl
    · split at hl
      · next hkey =>
        obtain ⟨old, hold, rfl⟩ := Option.map_eq_some_iff.mp hl
        rw [hkey, Function.update_self]
        exact congrArg (· - 1) (h.handles id old (hkey ▸ hold))
      · next hkey =>
        rw [Function.update_of_ne hkey]
        exact h.handles key lobby hl
  · have hlast := h.abandoned_iff_last hid
    rw [← AList.lookup_isSome, lookup_releaseLobby, hlive]
    by_cases hkey : key = id
    · subst hkey
      rw [Function.update_self]
      have hthere : (app.lobbies.lookup key).isSome :=
        AList.lookup_isSome.mpr ((h.pointed key).mpr (Or.inl hid))
      split
      · next hends =>
        obtain ⟨hone, hnone⟩ := hlast.mp hends.2
        rw [hone]
        simpa using hnone
      · next hstays =>
        rw [if_pos rfl, Option.isSome_map, hthere]
        refine iff_of_true rfl ?_
        by_cases hone : holders key = 1
        · right
          by_contra hnone
          exact hstays ⟨rfl, hlast.mpr ⟨hone, fun ref g hg hlobby => hnone ⟨ref, g, hg, hlobby⟩⟩⟩
        · left
          omega
    · rw [Function.update_of_ne hkey, if_neg fun hboth => hkey hboth.1, if_neg hkey,
        AList.lookup_isSome]
      exact h.pointed key

theorem Held.addGame (h : app.Held holders) (hid : id ∈ app.lobbies) (gameId address : String) :
    (app.addGame id gameId address).Held holders := by
  have hs := h.sound
  refine ⟨(hs.addGame hid gameId address).fresh, fun key lobby hl => ?_, fun key => ?_⟩
  · rw [lookup_lobbies_addGame] at hl
    split at hl
    · obtain ⟨old, hold, rfl⟩ := Option.map_eq_some_iff.mp hl
      exact h.handles key old hold
    · exact h.handles key lobby hl
  · have hmem : key ∈ (app.addGame id gameId address).lobbies ↔ key ∈ app.lobbies :=
      mem_modifyLobby id _ _ key
    rw [hmem, h.pointed]
    simp only [live_addGame_iff hs]
    constructor
    · rintro (hsome | ⟨ref, hg⟩)
      · exact Or.inl hsome
      · exact Or.inr ⟨ref, Or.inr hg⟩
    · rintro (hsome | ⟨ref, ⟨-, hkey⟩ | hg⟩)
      · exact Or.inl hsome
      · obtain rfl : id = key := hkey
        exact (h.pointed id).mp hid
      · exact Or.inr ⟨ref, hg⟩

theorem Held.dropGame (h : app.Held holders) (ref : GameRef) :
    (app.dropGame ref).1.Held holders := by
  cases hl : app.live.lookup ref with
  | none =>
    rw [App.dropGame, hl]
    exact h
  | some g =>
    obtain ⟨-, hgone, hkept⟩ := dropGame_spec hl
    have hlast : app.LastOf ref g.lobbyId ↔ holders g.lobbyId = 0 ∧
        ∀ other g', app.live.lookup other = some g' → g'.lobbyId = g.lobbyId → other = ref := by
      obtain ⟨lobby, hlobby⟩ := AList.mem_iff_lookup.mp (h.sound.lobby ref g hl)
      rw [LastOf, hlobby, ← h.handles _ lobby hlobby]
      simp
    refine ⟨(h.sound.dropGame ref).fresh, fun key lobby hlobby => ?_, fun key => ?_⟩
    · rw [hkept key] at hlobby
      · exact h.handles key lobby hlobby
      · rintro ⟨hends, rfl⟩
        rw [hgone hends] at hlobby
        cases hlobby
    · simp only [live_dropGame_iff hl]
      by_cases hends : app.LastOf ref g.lobbyId ∧ key = g.lobbyId
      · obtain ⟨hends, rfl⟩ := hends
        have hout : g.lobbyId ∉ (app.dropGame ref).1.lobbies :=
          AList.lookup_eq_none.mp (hgone hends)
        rw [hlast] at hends
        refine iff_of_false hout ?_
        rintro (hsome | ⟨other, hne, g', hg', hid⟩)
        · exact hsome hends.1
        · exact hne (hends.2 other g' hg' hid)
      · rw [← AList.lookup_isSome, hkept key hends, AList.lookup_isSome, h.pointed]
        constructor
        · rintro (hsome | ⟨other, g', hg', hid⟩)
          · exact Or.inl hsome
          · by_cases hother : other = ref
            · subst hother
              obtain rfl : g = g' := Option.some.inj (hl.symm.trans hg')
              by_contra hnone
              rw [not_or, not_not] at hnone
              refine hends ⟨hlast.mpr ⟨hid ▸ hnone.1, fun o o' ho hkey => ?_⟩, hid.symm⟩
              by_contra hne
              exact hnone.2 ⟨o, hne, o', ho, hkey.trans hid⟩
            · exact Or.inr ⟨other, hother, g', hg', hid⟩
        · rintro (hsome | ⟨other, -, hg'⟩)
          · exact Or.inl hsome
          · exact Or.inr ⟨other, hg'⟩

/-- A room changes, and stays in its lobby. -/
theorem Held.setGame (h : app.Held holders) {ref : GameRef} {g g' : Game}
    (hg : app.live.lookup ref = some g) (hlobby : g'.lobbyId = g.lobbyId) :
    ({ app with live := app.live.insert ref g' } : App).Held holders := by
  refine ⟨fun other hother => ?_, h.handles, fun key => ?_⟩
  · rcases (AList.mem_insert _).mp hother with rfl | hold
    · exact h.fresh other (AList.mem_iff_lookup.mpr ⟨g, hg⟩)
    · exact h.fresh other hold
  · refine (h.pointed key).trans (or_congr Iff.rfl ?_)
    simp only [AList.lookup_insert_eq]
    constructor
    · rintro ⟨other, o, ho, hid⟩
      by_cases hother : other = ref
      · subst hother
        obtain rfl : g = o := Option.some.inj (hg.symm.trans ho)
        exact ⟨other, g', if_pos rfl, hlobby.trans hid⟩
      · exact ⟨other, o, (if_neg hother).trans ho, hid⟩
    · rintro ⟨other, o, ho, hid⟩
      split at ho
      · cases ho
        exact ⟨ref, g, hg, hlobby.symm.trans hid⟩
      · exact ⟨other, o, ho, hid⟩

theorem Held.congr {holders' : LobbyId → Nat} (h : app.Held holders)
    (heq : ∀ id, holders id = holders' id) : app.Held holders' := by
  obtain rfl : holders = holders' := funext heq
  exact h

/-- A request that asks for a lobby gives its pointer back. -/
theorem Held.release (hholders : (app.Held (Function.update holders id (holders id + 1)))) :
    (app.releaseLobby id).Held holders := by
  have hafter := hholders.releaseLobby id (by simp)
  rw [Function.update_self, Nat.add_sub_cancel, Function.update_idem, Function.update_eq_self]
    at hafter
  exact hafter

/-- A request gives its pointer to a lobby back, and has changed nothing of the lobbies but the list
of its own: a lobby that was there before is left with that list. -/
theorem Held.lookup_release (h : app.Held holders) {id : LobbyId} (after : App)
    (games : List GameRef) (hlive : ∀ ref, after.live.lookup ref = app.live.lookup ref)
    (hlobbies : ∀ key, after.lobbies.lookup key =
      if key = id then some { games, handles := holders id + 1 } else app.lobbies.lookup key)
    (key : LobbyId) : (after.releaseLobby id).lobbies.lookup key =
      if key = id then (app.lobbies.lookup key).map fun lobby => { lobby with games }
      else app.lobbies.lookup key := by
  obtain ⟨_, hframe⟩ := modifyLobby_frame id
    (fun lobby => { lobby with handles := lobby.handles - 1 }) after
  have hends : (after.modifyLobby id fun lobby =>
      { lobby with handles := lobby.handles - 1 }).abandoned id = true ↔ id ∉ app.lobbies := by
    rw [abandoned_iff, lookup_modifyLobby, if_pos rfl, hlobbies, if_pos rfl, h.pointed, not_or,
      not_not]
    refine and_congr (by simp) ?_
    rw [hframe]
    simp [hlive]
  rw [lookup_releaseLobby, hlobbies]
  by_cases hkey : key = id
  · subst hkey
    by_cases hmem : key ∈ app.lobbies
    · obtain ⟨lobby, hlobby⟩ := AList.mem_iff_lookup.mp hmem
      rw [if_neg fun hboth => hends.mp hboth.2 hmem, if_pos rfl, if_pos rfl, if_pos rfl, hlobby,
        ← h.handles key lobby hlobby]
      rfl
    · rw [if_pos ⟨rfl, hends.mpr hmem⟩, if_pos rfl, AList.lookup_eq_none.mpr hmem]
      rfl
  · rw [if_neg fun hboth => hkey hboth.1, if_neg hkey, if_neg hkey, if_neg hkey]

/-- A request that does nothing leaves every lobby as it was. -/
theorem Held.getLobby_releaseLobby (h : app.Held holders) (id key : LobbyId) :
    ((app.getLobby id).releaseLobby id).lobbies.lookup key = app.lobbies.lookup key := by
  obtain ⟨_, hframe⟩ := getLobby_frame id app
  rw [h.lookup_release _ _ (by rw [hframe]; exact fun _ => rfl) (h.lookup_getLobby id)]
  split
  · next hkey =>
    subst hkey
    cases app.lobbies.lookup key <;> rfl
  · rfl

end App

end LuxonServer
