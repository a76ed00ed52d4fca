import LuxonServer.Registry

/-! The lists of rooms that a client of a lobby gets: the full list of `get_game_list`, and the
batches of `HandleSlowUpdate`. -/

namespace LuxonServer

/-- `LobbyType::Default`. -/
def defaultLobbyType : UInt8 := 0

/-- `GameProps::Removed`. -/
def removedKey : Value := .byte 251

/-- The entry of a room that is taken off the list. -/
def removedEntry : Hashtable := AList.insert removedKey (.bool true) ∅

/-- The rooms of a `GameList` event, by their ids. -/
abbrev GameList := AList fun _ : String => Hashtable

/-- `fres->emplace(game->id, props)`. -/
def GameList.emplace (gameId : String) (props : Hashtable) (list : GameList) : GameList :=
  if gameId ∈ list then list else list.insert gameId props

/-- An entry of `pending_game_list_updates_`. -/
inductive GameListUpdate where
  | update (game : GameRef)
  | delete (gameId : String)
  deriving DecidableEq, Repr

namespace Game

/-- Whether a batch shows the room. -/
def isPublished (g : Game) : Bool := g.isCreated && g.isVisible

/-- The entry of the room in a batch. -/
def batchEntry (g : Game) : Hashtable := if g.isPublished then g.getLobbyGameProps else removedEntry

/-- `get_group` of the sort: open and not full, full, closed. -/
def listGroup (g : Game) : Nat :=
  if g.isOpen ∧ (g.maxPeers = 0 ∨ g.peers.length < g.maxPeers.toNat) then 0
  else if ¬g.isOpen then 2
  else 1

/-- The order of the list. -/
def listedBefore (a b : Game) : Bool :=
  if a.listGroup ≠ b.listGroup then a.listGroup < b.listGroup else a.info.id ≤ b.info.id

end Game

namespace App

/-- The rooms that `get_game_list` collects. -/
def collectGames (lobby : LobbyId) (gameFilter : Game → Bool) (app : App) : List Game :=
  (((app.lobbies.lookup lobby).map Lobby.games).getD []).filterMap fun weak =>
    (app.live.lookup weak).filter fun g => g.isJoinable && gameFilter g

/-- `get_game_list`, for a client that has joined a lobby. -/
def getGameList (lobby : LobbyId) (gameFilter : Game → Bool) (app : App) : GameList :=
  match app.collectGames lobby gameFilter with
  | [] => ∅
  | [g] => GameList.emplace g.info.id g.getLobbyGameProps ∅
  | games =>
    ((games.mergeSort Game.listedBefore).take 500).foldl
      (fun fres g => fres.emplace g.info.id g.getLobbyGameProps) ∅

/-- One turn of the loop over `pending_game_list_updates_`. -/
def batchUpdate (app : App) (list : GameList) : GameListUpdate → GameList
  | .update weak =>
    match app.live.lookup weak with
    | none => list
    | some g => list.insert g.info.id g.batchEntry
  | .delete gameId => list.insert gameId removedEntry

/-- The batch of `HandleSlowUpdate`. -/
def gameListBatch (pending : List GameListUpdate) (app : App) : GameList :=
  pending.foldl app.batchUpdate ∅

end App

/-- What the client does with an entry of a batch. -/
def GameList.applyEntry (list : GameList) (entry : Σ _ : String, Hashtable) : GameList :=
  if entry.2.lookup removedKey = some (.bool true) then list.erase entry.1
  else list.insert entry.1 entry.2

/-- What the client makes of a batch. -/
def GameList.apply (batch list : GameList) : GameList := batch.entries.foldl applyEntry list

/-- What an entry says of a room. -/
def GameList.told (props : Hashtable) : Option Hashtable :=
  if props.lookup removedKey = some (.bool true) then none else some props

theorem GameList.lookup_apply (batch list : GameList) (gameId : String) :
    (batch.apply list).lookup gameId = (batch.lookup gameId).elim (list.lookup gameId) told := by
  refine AList.view_foldl (fun (list : GameList) gameId => list.lookup gameId)
    (fun _ props _ => told props) ?_ ?_ list gameId
  · rintro list ⟨gameId, props⟩
    unfold applyEntry told
    split
    · exact AList.lookup_erase _ _
    · exact AList.lookup_insert _
  · rintro list ⟨gameId, props⟩ other hne
    unfold applyEntry
    split
    · exact AList.lookup_erase_ne hne
    · exact AList.lookup_insert_ne hne

theorem GameList.told_removedEntry : told removedEntry = none := by decide

namespace Game

/-- No room has the property that marks an entry as removed. -/
theorem told_getLobbyGameProps (g : Game) :
    GameList.told g.getLobbyGameProps = some g.getLobbyGameProps := by
  have hnone : g.getLobbyGameProps.lookup removedKey = none := by
    rw [lookup_getLobbyGameProps_of_ne g (by simp [removedKey]), lookup_builtinLobbyProps]
    rfl
  unfold GameList.told
  rw [hnone]
  rfl

/-- What a batch with the room tells the client of it. -/
def shownEntry (g : Game) : Option Hashtable :=
  if g.isPublished then some g.getLobbyGameProps else none

/-- What the full list tells the client of the room. -/
def listedEntry (g : Game) : Option Hashtable :=
  if g.isJoinable then some g.getLobbyGameProps else none

theorem told_batchEntry (g : Game) : GameList.told g.batchEntry = g.shownEntry := by
  unfold batchEntry shownEntry
  split
  · exact told_getLobbyGameProps g
  · exact GameList.told_removedEntry

end Game

namespace App

/-- What holds of the indexes even after rooms have been dropped: a lobby's list has each of its
rooms once, and otherwise only pointers that no longer lock. -/
structure Indexed (app : App) : Prop where
  sound : app.Sound
  mapped : app.Mapped
  listed : ∀ id lobby, app.lobbies.lookup id = some lobby → ∀ ref g,
    app.live.lookup ref = some g → (ref ∈ lobby.games ↔ g.lobbyId = id)
  nodup : ∀ id lobby, app.lobbies.lookup id = some lobby → lobby.games.Nodup
  older : ∀ id lobby, app.lobbies.lookup id = some lobby → ∀ ref ∈ lobby.games, ref < app.nextRef

/-- The room of a lobby with an id. -/
def roomIn (lobby : LobbyId) (gameId : String) (app : App) : Option Game :=
  ((app.games.lookup gameId).bind app.live.lookup).filter fun g => g.lobbyId = lobby

variable {app : App} {lobby : LobbyId} {gameId : String}

theorem Mapped.roomIn_eq_some (hm : app.Mapped) {g : Game} : app.roomIn lobby gameId = some g ↔
    ∃ ref, app.live.lookup ref = some g ∧ g.info.id = gameId ∧ g.lobbyId = lobby := by
  unfold roomIn
  simp only [Option.filter_eq_some_iff, Option.bind_eq_some_iff, decide_eq_true_eq]
  constructor
  · rintro ⟨⟨ref, href, hg⟩, hlobby⟩
    obtain ⟨g', hg', hid⟩ := (hm gameId ref).mp href
    rw [hg] at hg'
    cases hg'
    exact ⟨ref, hg, hid, hlobby⟩
  · rintro ⟨ref, hg, hid, hlobby⟩
    exact ⟨⟨ref, (hm gameId ref).mpr ⟨g, hg, hid⟩, hg⟩, hlobby⟩

theorem Mapped.roomIn_of_live (hm : app.Mapped) {ref : GameRef} {g : Game}
    (hg : app.live.lookup ref = some g) : app.roomIn g.lobbyId g.info.id = some g :=
  hm.roomIn_eq_some.mpr ⟨ref, hg, rfl, rfl⟩

section List

theorem lookup_emplaceAll (games : List Game) (list : GameList) (gameId : String) :
    (games.foldl (fun fres g => fres.emplace g.info.id g.getLobbyGameProps) list).lookup gameId =
      (list.lookup gameId).or
        ((games.find? fun g => g.info.id == gameId).map Game.getLobbyGameProps) := by
  induction games generalizing list with
  | nil => rw [List.foldl_nil, List.find?_nil, Option.map_none, Option.or_none]
  | cons g games ih =>
    rw [List.foldl_cons, ih, List.find?_cons]
    unfold GameList.emplace
    by_cases hid : g.info.id = gameId
    · subst hid
      by_cases hmem : g.info.id ∈ list
      · obtain ⟨props, hprops⟩ := AList.mem_iff_lookup.mp hmem
        simp [hmem, hprops]
      · simp [hmem, AList.lookup_eq_none.mpr hmem]
    · have hbeq : (g.info.id == gameId) = false := beq_eq_false_iff_ne.mpr hid
      rw [hbeq]
      split
      · rfl
      · rw [AList.lookup_insert_ne (Ne.symm hid)]

theorem Indexed.mem_collectGames (hi : app.Indexed) {gameFilter : Game → Bool} {g : Game} :
    g ∈ app.collectGames lobby gameFilter ↔
      app.roomIn lobby g.info.id = some g ∧ g.isJoinable = true ∧ gameFilter g = true := by
  unfold collectGames
  rw [List.mem_filterMap, hi.mapped.roomIn_eq_some]
  simp only [Option.filter_eq_some_iff, Bool.and_eq_true, true_and]
  constructor
  · rintro ⟨ref, href, hg, hshown⟩
    cases hl : app.lobbies.lookup lobby with
    | none => simp [hl] at href
    | some l =>
      simp only [hl, Option.map_some, Option.getD_some] at href
      exact ⟨⟨ref, hg, (hi.listed lobby l hl ref g hg).mp href⟩, hshown⟩
  · rintro ⟨⟨ref, hg, hlobby⟩, hshown⟩
    obtain ⟨l, hl⟩ := AList.mem_iff_lookup.mp (hi.sound.lobby ref g hg)
    rw [hlobby] at hl
    refine ⟨ref, ?_, hg, hshown⟩
    simp only [hl, Option.map_some, Option.getD_some]
    exact (hi.listed lobby l hl ref g hg).mpr hlobby

/-- No list collects more rooms than there are. -/
theorem Indexed.length_collectGames (hi : app.Indexed) (gameFilter : Game → Bool) :
    (app.collectGames lobby gameFilter).length ≤ app.liveCount := by
  have hkeys : ∀ refs : List GameRef, refs.Nodup →
      (refs.filterMap fun weak => (app.live.lookup weak).filter fun g =>
        g.isJoinable && gameFilter g).length ≤ app.liveCount := by
    intro refs hnodup
    have hlive : (refs.filter fun weak => decide (weak ∈ app.live)).length ≤ app.liveCount := by
      have hsub : (refs.filter fun weak => decide (weak ∈ app.live)).toFinset ⊆
          app.live.keys.toFinset := by
        intro ref href
        rw [List.mem_toFinset, List.mem_filter, decide_eq_true_eq] at href
        exact List.mem_toFinset.mpr (AList.mem_keys.mp href.2)
      have hcard := Finset.card_le_card hsub
      rw [List.toFinset_card_of_nodup (hnodup.filter _),
        List.toFinset_card_of_nodup app.live.keys_nodup] at hcard
      rwa [AList.keys, List.keys, List.length_map] at hcard
    refine le_trans ?_ hlive
    clear hlive hnodup
    induction refs with
    | nil => exact le_rfl
    | cons ref refs ih =>
      cases hl : app.live.lookup ref with
      | none =>
        have hnot : ref ∉ app.live := AList.lookup_eq_none.mp hl
        simpa [hl, hnot] using ih
      | some g =>
        have hmem : ref ∈ app.live := AList.mem_iff_lookup.mpr ⟨g, hl⟩
        rw [List.filterMap_cons, List.filter_cons_of_pos (by simpa using hmem), hl]
        split
        · exact Nat.le_succ_of_le ih
        · exact Nat.succ_le_succ ih
  unfold collectGames
  cases hl : app.lobbies.lookup lobby with
  | none => exact Nat.zero_le _
  | some l => exact hkeys l.games (hi.nodup lobby l hl)

/-- The full list of a lobby without more than `500` rooms has each of its joinable rooms. -/
theorem Indexed.lookup_getGameList (hi : app.Indexed) (hfew : app.liveCount ≤ 500)
    (gameId : String) : (app.getGameList lobby (fun _ => true)).lookup gameId =
      (app.roomIn lobby gameId).bind Game.listedEntry := by
  have hmem : ∀ g, g ∈ app.collectGames lobby (fun _ => true) ↔
      app.roomIn lobby g.info.id = some g ∧ g.isJoinable = true ∧ true = true :=
    fun g => hi.mem_collectGames
  have hcount : (app.collectGames lobby fun _ => true).length ≤ app.liveCount :=
    hi.length_collectGames _
  have hlist : ∀ games : List Game, (∀ g, g ∈ games ↔ g ∈ app.collectGames lobby fun _ => true) →
      (games.foldl (fun fres g => fres.emplace g.info.id g.getLobbyGameProps) (∅ : GameList)).lookup
        gameId = (app.roomIn lobby gameId).bind Game.listedEntry := by
    intro games hsame
    rw [lookup_emplaceAll, AList.lookup_empty, Option.none_or]
    cases hfind : games.find? fun g => g.info.id == gameId with
    | none =>
      rw [List.find?_eq_none] at hfind
      cases hroom : app.roomIn lobby gameId with
      | none => rfl
      | some g =>
        have hid := (hi.mapped.roomIn_eq_some.mp hroom).choose_spec.2.1
        have hnot : ¬g.isJoinable = true := by
          intro hjoinable
          refine hfind g ((hsame g).mpr ((hmem g).mpr ⟨?_, hjoinable, rfl⟩)) (by simpa using hid)
          rw [hid, hroom]
        simp [Game.listedEntry, hnot]
    | some g =>
      have hid : g.info.id = gameId := by simpa using List.find?_some hfind
      obtain ⟨hroom, hjoinable, -⟩ :=
        (hmem g).mp ((hsame g).mp (List.mem_of_find?_eq_some hfind))
      rw [hid] at hroom
      simp [hroom, Game.listedEntry, hjoinable]
  unfold getGameList
  split
  · next hnil => exact hlist [] fun g => by rw [hnil]
  · next g hone => exact hlist [g] fun g => by rw [hone]
  · rw [List.take_of_length_le]
    · exact hlist _ fun g => List.mem_mergeSort
    · rw [List.length_mergeSort]
      exact hcount.trans hfew

end List

section Batch

/-- The entry that a notification puts into the batch under an id. -/
def entryOf (app : App) (gameId : String) : GameListUpdate → Option Hashtable
  | .update weak =>
    (app.live.lookup weak).bind fun g => if g.info.id = gameId then some g.batchEntry else none
  | .delete id => if id = gameId then some removedEntry else none

theorem lookup_batchUpdate (list : GameList) (notice : GameListUpdate) (gameId : String) :
    (app.batchUpdate list notice).lookup gameId =
      (app.entryOf gameId notice).or (list.lookup gameId) := by
  cases notice with
  | update weak =>
    simp only [batchUpdate, entryOf]
    cases hl : app.live.lookup weak with
    | none => rfl
    | some g =>
      simp only [AList.lookup_insert_eq, Option.bind_some, eq_comm (a := gameId)]
      split <;> rfl
  | delete id =>
    simp only [batchUpdate, entryOf, AList.lookup_insert_eq, eq_comm (a := gameId)]
    split <;> rfl

/-- The entry of a batch under an id is the one of the last notification that has any. -/
theorem lookup_gameListBatch (pending : List GameListUpdate) (app : App) (gameId : String) :
    (app.gameListBatch pending).lookup gameId = (pending.filterMap (app.entryOf gameId)).getLast? := by
  unfold gameListBatch
  induction pending using List.reverseRecOn with
  | nil => rfl
  | append_singleton pending notice ih =>
    rw [List.foldl_append, List.foldl_cons, List.foldl_nil, lookup_batchUpdate, ih,
      List.filterMap_append]
    cases hentry : app.entryOf gameId notice with
    | none => simp [hentry]
    | some props => simp [hentry]

end Batch

end App

namespace App.Indexed

variable {app app' : App}

theorem of_isEmpty (hempty : app.IsEmpty) : app.Indexed := by
  obtain ⟨hlobbies, hgames, hlive⟩ := hempty
  have hnone : ∀ id lobby, app.lobbies.lookup id = some lobby → False := by
    intro id lobby hl
    rw [hlobbies] at hl
    cases hl
  constructor
  · exact ⟨fun _ _ hl => by simp [hlive] at hl, fun _ hmem => by simp [hlive] at hmem⟩
  · intro id ref
    simp [hgames, hlive]
  · exact fun id lobby hl => (hnone id lobby hl).elim
  · exact fun id lobby hl => (hnone id lobby hl).elim
  · exact fun id lobby hl => (hnone id lobby hl).elim

/-- A change of the lobbies that adds only empty lists, and takes none from a room. -/
theorem of_lobbies (hi : app.Indexed) (hs : app'.Sound) (hm : app'.Mapped)
    (hlive : app'.live = app.live) (hnext : app'.nextRef = app.nextRef)
    (hlobbies : ∀ id lobby, app'.lobbies.lookup id = some lobby →
      lobby.games = [] ∧ app.lobbies.lookup id = none ∨
        ∃ old, app.lobbies.lookup id = some old ∧ old.games = lobby.games) : app'.Indexed := by
  constructor
  · exact hs
  · exact hm
  · intro id lobby hl ref g hg
    rw [hlive] at hg
    rcases hlobbies id lobby hl with ⟨hnil, hnone⟩ | ⟨old, hold, hgames⟩
    · rw [hnil]
      refine iff_of_false List.not_mem_nil ?_
      rintro rfl
      have hmem := hi.sound.lobby ref g hg
      exact AList.lookup_eq_none.mp hnone hmem
    · rw [← hgames]
      exact hi.listed id old hold ref g hg
  · intro id lobby hl
    rcases hlobbies id lobby hl with ⟨hnil, -⟩ | ⟨old, hold, hgames⟩
    · rw [hnil]
      exact List.nodup_nil
    · rw [← hgames]
      exact hi.nodup id old hold
  · intro id lobby hl
    rw [hnext]
    rcases hlobbies id lobby hl with ⟨hnil, -⟩ | ⟨old, hold, hgames⟩
    · rw [hnil]
      exact fun ref href => (List.not_mem_nil href).elim
    · rw [← hgames]
      exact hi.older id old hold

theorem getLobby (hi : app.Indexed) (id : LobbyId) : (app.getLobby id).Indexed := by
  obtain ⟨lobbies, hframe⟩ := getLobby_frame id app
  refine hi.of_lobbies (hi.sound.getLobby id) ?_ (by rw [hframe]) (by rw [hframe]) ?_
  · rw [hframe]
    exact hi.mapped
  · intro key lobby hl
    unfold App.getLobby at hl
    split at hl
    · obtain ⟨old, hold, rfl | rfl⟩ := lookup_of_lookup_modifyLobby hl
      · exact Or.inr ⟨old, hold, rfl⟩
      · exact Or.inr ⟨lobby, hold, rfl⟩
    · next hnew =>
      rw [AList.lookup_insert_eq] at hl
      split at hl
      · next hkey =>
        cases hl
        exact Or.inl ⟨rfl, hkey ▸ AList.lookup_eq_none.mpr hnew⟩
      · exact Or.inr ⟨lobby, hl, rfl⟩

theorem releaseLobby (hi : app.Indexed) (id : LobbyId) : (app.releaseLobby id).Indexed := by
  obtain ⟨lobbies, hframe⟩ := releaseLobby_frame id app
  refine hi.of_lobbies (hi.sound.releaseLobby id) ?_ (by rw [hframe]) (by rw [hframe]) ?_
  · rw [hframe]
    exact hi.mapped
  · intro key lobby hl
    unfold App.releaseLobby at hl
    rw [lookup_collect] at hl
    split at hl
    · cases hl
    · obtain ⟨old, hold, rfl | rfl⟩ := lookup_of_lookup_modifyLobby hl
      · exact Or.inr ⟨old, hold, rfl⟩
      · exact Or.inr ⟨lobby, hold, rfl⟩

theorem addGame (hi : app.Indexed) {lobby : LobbyId} (hlobby : lobby ∈ app.lobbies) {id : String}
    (address : String) (hid : app.games.lookup id = none) :
    (app.addGame lobby id address).Indexed := by
  obtain ⟨lobbies, hframe⟩ := addGame_frame lobby id address app
  have hold : ∀ key l, (app.addGame lobby id address).lobbies.lookup key = some l →
      ∃ l', app.lobbies.lookup key = some l' ∧
        l.games = if key = lobby then l'.games ++ [app.nextRef] else l'.games := by
    intro key l hl
    rw [lookup_lobbies_addGame] at hl
    split at hl
    · next hkey =>
      obtain ⟨l', hl', rfl⟩ := Option.map_eq_some_iff.mp hl
      exact ⟨l', hl', by rw [if_pos hkey]⟩
    · next hkey => exact ⟨l, hl, by rw [if_neg hkey]⟩
  have hnot : ∀ key l', app.lobbies.lookup key = some l' → app.nextRef ∉ l'.games :=
    fun key l' hl' hmem => Nat.lt_irrefl _ (hi.older key l' hl' _ hmem)
  constructor
  · exact hi.sound.addGame hlobby id address
  · exact hi.mapped.addGame hi.sound hid
  · intro key l hl ref g hg
    obtain ⟨l', hl', hgames⟩ := hold key l hl
    rw [hgames]
    simp only [hframe, AList.lookup_insert_eq] at hg
    split at hg
    · next href =>
      cases hg
      subst href
      have hkey : (app.newGame lobby id address).lobbyId = lobby := rfl
      rw [hkey]
      split
      · next heq => simp [heq]
      · next hne => exact iff_of_false (hnot key l' hl') fun heq => hne heq.symm
    · next href =>
      rw [← hi.listed key l' hl' ref g hg]
      split
      · simp [href]
      · rfl
  · intro key l hl
    obtain ⟨l', hl', hgames⟩ := hold key l hl
    rw [hgames]
    split
    · rw [List.nodup_append]
      refine ⟨hi.nodup key l' hl', List.nodup_singleton _, ?_⟩
      rintro a ha b hb rfl
      rw [List.mem_singleton.mp hb] at ha
      exact hnot key l' hl' ha
    · exact hi.nodup key l' hl'
  · intro key l hl ref href
    obtain ⟨l', hl', hgames⟩ := hold key l hl
    have hnext : (app.addGame lobby id address).nextRef = app.nextRef + 1 := by rw [hframe]
    rw [hnext]
    rw [hgames] at href
    split at href
    · rcases List.mem_append.mp href with hbefore | hlast
      · exact Nat.lt_succ_of_lt (hi.older key l' hl' ref hbefore)
      · rw [List.mem_singleton.mp hlast]
        exact Nat.lt_succ_self _
    · exact Nat.lt_succ_of_lt (hi.older key l' hl' ref href)

theorem dropGame (hi : app.Indexed) {ref : GameRef} {g : Game} (hg : app.live.lookup ref = some g) :
    (app.dropGame ref).1.Indexed := by
  obtain ⟨⟨lobbies, hframe⟩, hgone, hkept⟩ := dropGame_spec hg
  have hold : ∀ key l, (app.dropGame ref).1.lobbies.lookup key = some l →
      app.lobbies.lookup key = some l := by
    intro key l hl
    rwa [hkept] at hl
    rintro ⟨hlast, rfl⟩
    rw [hgone hlast] at hl
    cases hl
  constructor
  · exact hi.sound.dropGame ref
  · exact hi.mapped.dropGame hg
  · intro key l hl other g' hother
    simp only [hframe, AList.lookup_erase_eq] at hother
    split at hother
    · cases hother
    · exact hi.listed key l (hold key l hl) other g' hother
  · exact fun key l hl => hi.nodup key l (hold key l hl)
  · rw [hframe] at hold ⊢
    exact fun key l hl => hi.older key l (hold key l hl)

theorem createGame (hi : app.Indexed) {lobby : LobbyId} (hlobby : lobby ∈ app.lobbies)
    (id address : String) (orGet : Bool) : (app.createGame lobby id address orGet).2.1.Indexed := by
  rcases createGame_cases lobby id address orGet app with heq | ⟨hid, heq⟩
  · rw [heq]
    exact hi
  · rw [heq]
    exact hi.addGame hlobby address hid

/-- A room changes, and keeps its name. -/
theorem setGame (hi : app.Indexed) {ref : GameRef} {g g' : Game}
    (hg : app.live.lookup ref = some g) (hinfo : g'.info = g.info) :
    ({ app with live := app.live.insert ref g' } : App).Indexed := by
  have hlobby : g'.lobbyId = g.lobbyId := by simp only [Game.lobbyId, hinfo]
  have hmem : ref ∈ app.live := AList.mem_iff_lookup.mpr ⟨g, hg⟩
  constructor
  · constructor
    · intro other o ho
      simp only [AList.lookup_insert_eq] at ho
      split at ho
      · cases ho
        rw [hlobby]
        exact hi.sound.lobby ref g hg
      · exact hi.sound.lobby other o ho
    · intro other hother
      rcases (AList.mem_insert _).mp hother with rfl | hold
      · exact hi.sound.fresh other hmem
      · exact hi.sound.fresh other hold
  · intro id other
    rw [hi.mapped id other]
    simp only [AList.lookup_insert_eq]
    by_cases hother : other = ref
    · subst hother
      simp [hg, hinfo]
    · simp [hother]
  · intro id lobby hl other o ho
    simp only [AList.lookup_insert_eq] at ho
    split at ho
    · next hother =>
      cases ho
      rw [hlobby, hother]
      exact hi.listed id lobby hl ref g hg
    · exact hi.listed id lobby hl other o ho
  · exact hi.nodup
  · exact hi.older

end App.Indexed

end LuxonServer
