import Mathlib.Algebra.BigOperators.Group.Finset.Basic
import LuxonServer.Lib.Run
import LuxonServer.Game.Props

/-! The rooms of an app as its indexes see them: the lobbies' lists and the app's map, both of weak
pointers, and the `Game` objects that they point to. -/

namespace LuxonServer

/-- `LobbyId`: the name and the type. -/
abbrev LobbyId := String × UInt8

/-- The lobby that a room belongs to. -/
def Game.lobbyId (g : Game) : LobbyId := (g.info.lobbyName, g.info.lobbyType)

/-- `Lobby`: its list of weak pointers, and how many shared pointers to it there are besides those
of its rooms. -/
structure Lobby where
  games : List GameRef := []
  handles : Nat := 0
  deriving DecidableEq, Repr

/-- `App`.  `lobbies` are `lobbies_`, whose entries the lobbies' deleter erases; `games` is
`games_`; `live` are the `Game` objects with a shared pointer left.  `endpoints` are the addresses
in the configuration of the process. -/
structure App where
  id : String
  version : String
  settings : AppSettings := {}
  endpoints : List String := []
  lobbies : AList (fun _ : LobbyId => Lobby) := ∅
  games : AList (fun _ : String => GameRef) := ∅
  live : AList (fun _ : GameRef => Game) := ∅
  nextRef : GameRef := 0

namespace App

/-- `weak_ptr<Game>::lock`. -/
def lock (weak : GameRef) (app : App) : Option GameRef := if weak ∈ app.live then some weak else none

/-- `get_game_count`. -/
def getGameCount (app : App) : Nat :=
  app.lobbies.entries.foldl (fun fres entry => fres + entry.2.games.length) 0

/-- How many rooms are alive. -/
def liveCount (app : App) : Nat := app.live.entries.length

/-- A change of the `Lobby` object with an id. -/
def modifyLobby (id : LobbyId) (change : Lobby → Lobby) (app : App) : App :=
  match app.lobbies.lookup id with
  | none => app
  | some lobby => { app with lobbies := app.lobbies.insert id (change lobby) }

/-- Whether no shared pointer to the lobby is left. -/
def abandoned (id : LobbyId) (app : App) : Bool :=
  (app.lobbies.lookup id).all (fun lobby => lobby.handles == 0) &&
    app.live.entries.all fun entry => entry.2.lobbyId != id

/-- The deleter of a lobby runs with its last shared pointer. -/
def collect (id : LobbyId) (app : App) : App :=
  if app.abandoned id then { app with lobbies := app.lobbies.erase id } else app

/-- `get_lobby`, whose caller keeps the shared pointer. -/
def getLobby (id : LobbyId) (app : App) : App :=
  if id ∈ app.lobbies then
    app.modifyLobby id fun lobby => { lobby with handles := lobby.handles + 1 }
  else { app with lobbies := app.lobbies.insert id { handles := 1 } }

/-- Such a shared pointer is dropped. -/
def releaseLobby (id : LobbyId) (app : App) : App :=
  (app.modifyLobby id fun lobby => { lobby with handles := lobby.handles - 1 }).collect id

/-- `get_static_endpoint_address_str`: empty if no endpoint has the address. -/
def staticEndpointAddress (address : String) (app : App) : String :=
  if address ∈ app.endpoints then address else ""

/-- The constructor of `Game`. -/
def newGame (lobby : LobbyId) (id address : String) (app : App) : Game where
  info :=
    { appId := app.id
      appVersion := app.version
      lobbyName := lobby.1
      lobbyType := lobby.2
      id
      serverAddress := app.staticEndpointAddress address }

/-- The room that `create_game` makes, in both indexes. -/
def addGame (lobby : LobbyId) (id address : String) (app : App) : App :=
  { app with
    live := app.live.insert app.nextRef (app.newGame lobby id address)
    games := app.games.insert id app.nextRef
    nextRef := app.nextRef + 1
  }.modifyLobby lobby fun lobby => { lobby with games := lobby.games ++ [app.nextRef] }

/-- `create_game` of the lobby. -/
def createGame (lobby : LobbyId) (id address : String) (orGet : Bool) (app : App) :
    Except (ErrorCode × String) (Option GameRef) × App × List Effect :=
  if id = "" then (.error (.gameIdNotExists, "Game id can't be empty"), app, [])
  else
    match app.games.lookup id with
    | some weak =>
      if orGet then (.ok (app.lock weak), app, [])
      else (.error (.gameIdAlreadyExists, "Game id already exists"), app, [])
    | none =>
      if app.settings.maxGameCount ≠ 0 ∧ app.getGameCount ≥ app.settings.maxGameCount then
        (.error (.serverFull, "Game count limit reached!"), app, [])
      else (.ok (some app.nextRef), app.addGame lobby id address, [.gameUpdate])

/-- The custom deleter of a room, which runs when no shared pointer to `ref` is left. -/
def deleteGame (ref : GameRef) (g : Game) (app : App) : App :=
  { app with games := app.games.erase g.info.id }.modifyLobby g.lobbyId fun lobby =>
    { lobby with games := lobby.games.eraseP fun weak => app.lock weak == some ref }

/-- The last shared pointer to a room is dropped; the room's own pointer to its lobby goes with
it. -/
def dropGame (ref : GameRef) (app : App) : App × List Effect :=
  match app.live.lookup ref with
  | none => (app, [])
  | some g =>
    (({ app with live := app.live.erase ref }.deleteGame ref g).collect g.lobbyId,
      if g.isVisible then [.gameDelete] else [])

end App

/-- What happens to an app's rooms. -/
inductive AppOp where
  | getLobby (id : LobbyId)
  | releaseLobby (id : LobbyId)
  | createGame (lobby : LobbyId) (id address : String) (orGet : Bool)
  | dropGame (ref : GameRef)
  deriving DecidableEq, Repr

namespace App

/-- A step of the app; `create_game` needs a lobby to be called on. -/
def step (app : App) : AppOp → App
  | .getLobby id => app.getLobby id
  | .releaseLobby id => app.releaseLobby id
  | .createGame lobby id address orGet =>
    if lobby ∈ app.lobbies then (app.createGame lobby id address orGet).2.1 else app
  | .dropGame ref => (app.dropGame ref).1

/-- An app without rooms. -/
def IsEmpty (app : App) : Prop := app.lobbies = ∅ ∧ app.games = ∅ ∧ app.live = ∅

section Lookup

variable {app : App}

theorem modifyLobby_frame (id : LobbyId) (change : Lobby → Lobby) (app : App) :
    ∃ lobbies, app.modifyLobby id change = { app with lobbies } := by
  unfold modifyLobby
  split <;> exact ⟨_, rfl⟩

theorem lookup_modifyLobby (id : LobbyId) (change : Lobby → Lobby) (app : App) (key : LobbyId) :
    (app.modifyLobby id change).lobbies.lookup key =
      if key = id then (app.lobbies.lookup key).map change else app.lobbies.lookup key := by
  unfold modifyLobby
  split
  · next hl =>
    split
    · next hkey => rw [hkey, hl, Option.map_none]
    · rfl
  · next lobby hl =>
    rw [AList.lookup_insert_eq]
    split
    · next hkey => rw [hkey, hl, Option.map_some]
    · rfl

/-- A lobby after a change is one that was there, or the change of it. -/
theorem lookup_of_lookup_modifyLobby {id key : LobbyId} {change : Lobby → Lobby} {app : App}
    {lobby : Lobby} (hl : (app.modifyLobby id change).lobbies.lookup key = some lobby) :
    ∃ old, app.lobbies.lookup key = some old ∧ (lobby = change old ∨ lobby = old) := by
  rw [lookup_modifyLobby] at hl
  split at hl
  · obtain ⟨old, hold, rfl⟩ := Option.map_eq_some_iff.mp hl
    exact ⟨old, hold, Or.inl rfl⟩
  · exact ⟨lobby, hl, Or.inr rfl⟩

theorem collect_frame (id : LobbyId) (app : App) :
    ∃ lobbies, app.collect id = { app with lobbies } := by
  unfold collect
  split <;> exact ⟨_, rfl⟩

theorem lookup_collect (id : LobbyId) (app : App) (key : LobbyId) :
    (app.collect id).lobbies.lookup key =
      if key = id ∧ app.abandoned id = true then none else app.lobbies.lookup key := by
  unfold collect
  by_cases habandoned : app.abandoned id = true
  · rw [if_pos habandoned, AList.lookup_erase_eq]
    simp [habandoned]
  · rw [if_neg habandoned]
    simp [habandoned]

theorem abandoned_iff {id : LobbyId} : app.abandoned id = true ↔
    (∀ lobby, app.lobbies.lookup id = some lobby → lobby.handles = 0) ∧
      ∀ ref g, app.live.lookup ref = some g → g.lobbyId ≠ id := by
  unfold abandoned
  rw [Bool.and_eq_true]
  refine and_congr ?_ ?_
  · cases app.lobbies.lookup id <;> simp
  · simp only [List.all_eq_true, bne_iff_ne, ne_eq]
    constructor
    · intro hall ref g hl
      exact hall ⟨ref, g⟩ (AList.mem_entries_iff.mpr hl)
    · rintro hall ⟨ref, g⟩ hmem
      exact hall ref g (AList.mem_entries_iff.mp hmem)

/-- The deleter looks for a pointer that locks to the dying room, and there is none. -/
theorem eraseP_lock_of_dead {ref : GameRef} (hdead : ref ∉ app.live) (games : List GameRef) :
    games.eraseP (fun weak => app.lock weak == some ref) = games := by
  apply List.eraseP_of_forall_not
  intro weak _
  unfold lock
  split
  · next hlive =>
    rw [beq_iff_eq, Option.some.injEq]
    rintro rfl
    exact hdead hlive
  · simp

end Lookup

/-- Each lobby's list has one entry for each room of the lobby, and no other. -/
def Listed (app : App) : Prop :=
  ∀ id lobby, app.lobbies.lookup id = some lobby → lobby.games.Nodup ∧
    ∀ ref, ref ∈ lobby.games ↔ ∃ g, app.live.lookup ref = some g ∧ g.lobbyId = id

/-- The map has the ids of the rooms, each with its room. -/
def Mapped (app : App) : Prop :=
  ∀ id ref, app.games.lookup id = some ref ↔ ∃ g, app.live.lookup ref = some g ∧ g.info.id = id

/-- The indexes agree with the rooms that are alive, and so does what is counted by them. -/
structure Consistent (app : App) : Prop where
  listed : app.Listed
  mapped : app.Mapped
  counted : app.getGameCount = app.liveCount
  capped : ∀ lobby id address orGet,
    (app.createGame lobby id address orGet).1 = .error (.serverFull, "Game count limit reached!") ↔
      id ≠ "" ∧ id ∉ app.games ∧ app.settings.maxGameCount ≠ 0 ∧
        app.liveCount ≥ app.settings.maxGameCount

/-- What holds of an app in any case: a room keeps its lobby alive, and no room is yet to come. -/
structure Sound (app : App) : Prop where
  lobby : ∀ ref g, app.live.lookup ref = some g → g.lobbyId ∈ app.lobbies
  fresh : ∀ ref, ref ∈ app.live → ref < app.nextRef

section Counting

variable {app : App}

/-- The lists together have one entry for each room. -/
theorem getGameCount_eq (hsound : app.Sound) (hlisted : app.Listed) :
    app.getGameCount = app.liveCount := by
  let refs : Finset GameRef := app.live.keys.toFinset
  let lobbyOf : GameRef → Option LobbyId := fun ref => (app.live.lookup ref).map Game.lobbyId
  have hmem : ∀ ref, ref ∈ refs ↔ ref ∈ app.live := fun ref => by
    rw [List.mem_toFinset, AList.mem_keys]
  have hcard : refs.card = app.liveCount := by
    rw [List.toFinset_card_of_nodup app.live.keys_nodup, liveCount, AList.keys, List.keys,
      List.length_map]
  have hlobby : ∀ ref ∈ refs, lobbyOf ref ∈ (app.lobbies.keys.map some).toFinset := by
    intro ref href
    obtain ⟨g, hg⟩ := AList.mem_iff_lookup.mp ((hmem ref).mp href)
    simp only [lobbyOf, hg, Option.map_some, List.mem_toFinset]
    exact List.mem_map_of_mem (AList.mem_keys.mp (hsound.lobby ref g hg))
  have hfiber : ∀ entry ∈ app.lobbies.entries,
      (refs.filter fun ref => lobbyOf ref = some entry.1).card = entry.2.games.length := by
    rintro ⟨id, lobby⟩ hentry
    obtain ⟨hnodup, hgames⟩ := hlisted id lobby (AList.mem_entries_iff.mp hentry)
    have hset : (refs.filter fun ref => lobbyOf ref = some id) = lobby.games.toFinset := by
      ext ref
      rw [Finset.mem_filter, hmem, List.mem_toFinset, hgames, AList.mem_iff_lookup]
      simp only [lobbyOf, Option.map_eq_some_iff]
      constructor
      · exact fun hboth => hboth.2
      · rintro ⟨g, hg, hid⟩
        exact ⟨⟨g, hg⟩, g, hg, hid⟩
    rw [hset, List.toFinset_card_of_nodup hnodup]
  have hcount : app.getGameCount =
      (app.lobbies.entries.map fun entry => entry.2.games.length).sum := by
    rw [List.sum_eq_foldl, List.foldl_map]
    rfl
  rw [← hcard, Finset.card_eq_sum_card_fiberwise hlobby,
    List.sum_toFinset _ (app.lobbies.keys_nodup.map (Option.some_injective _)), hcount]
  rw [AList.keys, List.keys, List.map_map, List.map_map]
  exact congrArg List.sum (List.map_congr_left fun entry hentry => (hfiber entry hentry).symm)

theorem consistent_of_listed (hsound : app.Sound) (hlisted : app.Listed)
    (hmapped : app.Mapped) : app.Consistent := by
  have hcounted := getGameCount_eq hsound hlisted
  refine ⟨hlisted, hmapped, hcounted, fun lobby id address orGet => ?_⟩
  unfold createGame
  by_cases hempty : id = ""
  · simp [hempty]
  cases hlookup : app.games.lookup id with
  | some weak =>
    have hmem : id ∈ app.games := AList.mem_iff_lookup.mpr ⟨weak, hlookup⟩
    cases orGet <;> simp [hempty, hmem]
  | none =>
    have hmem : id ∉ app.games := AList.lookup_eq_none.mp hlookup
    simp only [hempty, if_false, hcounted, ne_eq, not_false_eq_true, true_and, hmem]
    split
    · next hfull => simp [hfull]
    · next hfull => simp [hfull]

end Counting

section Keeping

variable {app : App}

theorem mem_modifyLobby (id : LobbyId) (change : Lobby → Lobby) (app : App) (key : LobbyId) :
    key ∈ (app.modifyLobby id change).lobbies ↔ key ∈ app.lobbies := by
  rw [← AList.lookup_isSome, ← AList.lookup_isSome, lookup_modifyLobby]
  split
  · rw [Option.isSome_map]
  · rfl

theorem mem_getLobby (id : LobbyId) (app : App) : id ∈ (app.getLobby id).lobbies := by
  unfold getLobby
  split
  · next hmem => exact (mem_modifyLobby id _ _ id).mpr hmem
  · exact (AList.mem_insert _).mpr (Or.inl rfl)

theorem Sound.modifyLobby (hs : app.Sound) (id : LobbyId) (change : Lobby → Lobby) :
    (app.modifyLobby id change).Sound := by
  obtain ⟨lobbies, hframe⟩ := modifyLobby_frame id change app
  constructor
  · intro ref g hl
    rw [mem_modifyLobby]
    rw [hframe] at hl
    exact hs.lobby ref g hl
  · rw [hframe]
    exact hs.fresh

theorem Sound.collect (hs : app.Sound) (id : LobbyId) : (app.collect id).Sound := by
  obtain ⟨lobbies, hframe⟩ := collect_frame id app
  constructor
  · intro ref g hl
    rw [hframe] at hl
    rw [← AList.lookup_isSome, lookup_collect, if_neg]
    · exact AList.lookup_isSome.mpr (hs.lobby ref g hl)
    · rintro ⟨hid, habandoned⟩
      exact (abandoned_iff.mp habandoned).2 ref g hl hid
  · rw [hframe]
    exact hs.fresh

theorem Listed.modifyLobby (hl : app.Listed) (id : LobbyId) {change : Lobby → Lobby}
    (hchange : ∀ lobby, (change lobby).games = lobby.games) :
    (app.modifyLobby id change).Listed := by
  obtain ⟨lobbies, hframe⟩ := modifyLobby_frame id change app
  intro key lobby hlookup
  have hlive : (app.modifyLobby id change).live = app.live := by rw [hframe]
  rw [hlive]
  obtain ⟨old, hold, rfl | rfl⟩ := lookup_of_lookup_modifyLobby hlookup
  · rw [hchange]
    exact hl key old hold
  · exact hl key lobby hold

theorem Listed.collect (hl : app.Listed) (id : LobbyId) : (app.collect id).Listed := by
  obtain ⟨lobbies, hframe⟩ := collect_frame id app
  intro key lobby hlookup
  have hlive : (app.collect id).live = app.live := by rw [hframe]
  rw [hlive]
  rw [lookup_collect] at hlookup
  split at hlookup
  · cases hlookup
  · exact hl key lobby hlookup

theorem Mapped.modifyLobby (hm : app.Mapped) (id : LobbyId) (change : Lobby → Lobby) :
    (app.modifyLobby id change).Mapped := by
  obtain ⟨lobbies, hframe⟩ := modifyLobby_frame id change app
  rw [hframe]
  exact hm

theorem Mapped.collect (hm : app.Mapped) (id : LobbyId) : (app.collect id).Mapped := by
  obtain ⟨lobbies, hframe⟩ := collect_frame id app
  rw [hframe]
  exact hm

end Keeping

section Lobbies

variable {app : App}

theorem getLobby_frame (id : LobbyId) (app : App) :
    ∃ lobbies, app.getLobby id = { app with lobbies } := by
  unfold getLobby
  split
  · exact modifyLobby_frame id _ app
  · exact ⟨_, rfl⟩

theorem releaseLobby_frame (id : LobbyId) (app : App) :
    ∃ lobbies, app.releaseLobby id = { app with lobbies } := by
  obtain ⟨_, hmodify⟩ := modifyLobby_frame id
    (fun lobby => { lobby with handles := lobby.handles - 1 }) app
  obtain ⟨_, hcollect⟩ := collect_frame id
    (app.modifyLobby id fun lobby => { lobby with handles := lobby.handles - 1 })
  unfold releaseLobby
  rw [hcollect, hmodify]
  exact ⟨_, rfl⟩

theorem getLobby_releaseLobby_frame (id : LobbyId) (app : App) :
    ∃ lobbies, (app.getLobby id).releaseLobby id = { app with lobbies } := by
  obtain ⟨_, hget⟩ := getLobby_frame id app
  obtain ⟨lobbies, hrelease⟩ := releaseLobby_frame id (app.getLobby id)
  refine ⟨lobbies, ?_⟩
  rw [hrelease, hget]

theorem Sound.getLobby (hs : app.Sound) (id : LobbyId) : (app.getLobby id).Sound := by
  unfold App.getLobby
  split
  · exact hs.modifyLobby id _
  · exact ⟨fun ref g hl => (AList.mem_insert _).mpr (Or.inr (hs.lobby ref g hl)), hs.fresh⟩

/-- A lobby that is new has no rooms yet, since a room would have kept it alive. -/
theorem Consistent.getLobby (hc : app.Consistent) (hs : app.Sound) (id : LobbyId) :
    (app.getLobby id).Consistent := by
  refine consistent_of_listed (hs.getLobby id) ?_ ?_
  · unfold App.getLobby
    split
    · exact hc.listed.modifyLobby id fun _ => rfl
    · next hnew =>
      intro key lobby hlookup
      rw [AList.lookup_insert_eq] at hlookup
      split at hlookup
      · next hkey =>
        cases hlookup
        refine ⟨List.nodup_nil, fun ref => iff_of_false List.not_mem_nil ?_⟩
        rintro ⟨g, hg, hid⟩
        have hmem := hs.lobby ref g hg
        rw [hid, hkey] at hmem
        exact hnew hmem
      · exact hc.listed key lobby hlookup
  · unfold App.getLobby
    split
    · exact hc.mapped.modifyLobby id _
    · exact hc.mapped

theorem Sound.releaseLobby (hs : app.Sound) (id : LobbyId) : (app.releaseLobby id).Sound :=
  (hs.modifyLobby id _).collect id

theorem Consistent.releaseLobby (hc : app.Consistent) (hs : app.Sound) (id : LobbyId) :
    (app.releaseLobby id).Consistent := by
  refine consistent_of_listed (hs.releaseLobby id) (Listed.collect (hc.listed.modifyLobby id ?_) id)
    ((hc.mapped.modifyLobby id _).collect id)
  exact fun _ => rfl

end Lobbies

section Creating

variable {app : App}

/-- A request makes the room and gets it, or it changes nothing. -/
theorem createGame_made (lobby : LobbyId) (id address : String) (orGet : Bool) (app : App) :
    (app.createGame lobby id address orGet).2 = (app, []) ∨
      app.games.lookup id = none ∧ app.createGame lobby id address orGet =
        (.ok (some app.nextRef), app.addGame lobby id address, [.gameUpdate]) := by
  unfold createGame
  split
  · exact Or.inl rfl
  · split
    · split <;> exact Or.inl rfl
    · next hlookup =>
      split
      · exact Or.inl rfl
      · exact Or.inr ⟨hlookup, rfl⟩

/-- A request makes the room and tells the lobby of it, or it changes nothing. -/
theorem createGame_result (lobby : LobbyId) (id address : String) (orGet : Bool) (app : App) :
    (app.createGame lobby id address orGet).2 = (app, []) ∨
      app.games.lookup id = none ∧
        (app.createGame lobby id address orGet).2 =
          (app.addGame lobby id address, [.gameUpdate]) :=
  (createGame_made lobby id address orGet app).imp_right fun ⟨hid, heq⟩ =>
    ⟨hid, congrArg Prod.snd heq⟩

theorem createGame_cases (lobby : LobbyId) (id address : String) (orGet : Bool) (app : App) :
    (app.createGame lobby id address orGet).2.1 = app ∨
      app.games.lookup id = none ∧
        (app.createGame lobby id address orGet).2.1 = app.addGame lobby id address := by
  rcases createGame_result lobby id address orGet app with heq | ⟨hid, heq⟩
  · exact Or.inl (congrArg Prod.fst heq)
  · exact Or.inr ⟨hid, congrArg Prod.fst heq⟩

theorem addGame_frame (lobby : LobbyId) (id address : String) (app : App) :
    ∃ lobbies, app.addGame lobby id address =
      { app with
        lobbies
        live := app.live.insert app.nextRef (app.newGame lobby id address)
        games := app.games.insert id app.nextRef
        nextRef := app.nextRef + 1 } :=
  modifyLobby_frame lobby _ _

theorem lookup_lobbies_addGame (lobby : LobbyId) (id address : String) (app : App)
    (key : LobbyId) : (app.addGame lobby id address).lobbies.lookup key =
      if key = lobby then
        (app.lobbies.lookup key).map fun l => { l with games := l.games ++ [app.nextRef] }
      else app.lobbies.lookup key :=
  lookup_modifyLobby lobby _ _ key

theorem Sound.lookup_nextRef (hs : app.Sound) : app.live.lookup app.nextRef = none :=
  AList.lookup_eq_none.mpr fun hmem => Nat.lt_irrefl _ (hs.fresh _ hmem)

theorem live_addGame_iff (hs : app.Sound) {lobby : LobbyId} {id address : String} {ref : GameRef}
    {P : Game → Prop} :
    (∃ g, (app.addGame lobby id address).live.lookup ref = some g ∧ P g) ↔
      (ref = app.nextRef ∧ P (app.newGame lobby id address)) ∨
        ∃ g, app.live.lookup ref = some g ∧ P g := by
  obtain ⟨lobbies, hframe⟩ := addGame_frame lobby id address app
  rw [hframe]
  simp only [AList.lookup_insert_eq]
  by_cases href : ref = app.nextRef
  · subst href
    simp [hs.lookup_nextRef]
  · simp [href]

theorem Sound.addGame (hs : app.Sound) {lobby : LobbyId} (hlobby : lobby ∈ app.lobbies)
    (id address : String) : (app.addGame lobby id address).Sound := by
  have hmem : ∀ key, key ∈ (app.addGame lobby id address).lobbies ↔ key ∈ app.lobbies :=
    fun key => mem_modifyLobby lobby _ _ key
  constructor
  · intro ref g hl
    rw [hmem]
    obtain ⟨lobbies, hframe⟩ := addGame_frame lobby id address app
    simp only [hframe, AList.lookup_insert_eq] at hl
    split at hl
    · cases hl
      exact hlobby
    · exact hs.lobby ref g hl
  · obtain ⟨lobbies, hframe⟩ := addGame_frame lobby id address app
    rw [hframe]
    intro ref hmem
    rcases (AList.mem_insert _).mp hmem with rfl | hold
    · exact Nat.lt_succ_self _
    · exact Nat.lt_succ_of_lt (hs.fresh ref hold)

theorem Mapped.addGame (hm : app.Mapped) (hs : app.Sound) {lobby : LobbyId} {id address : String}
    (hid : app.games.lookup id = none) : (app.addGame lobby id address).Mapped := by
  intro key ref
  rw [live_addGame_iff hs]
  obtain ⟨lobbies, hframe⟩ := addGame_frame lobby id address app
  rw [hframe]
  simp only [AList.lookup_insert_eq]
  by_cases hkey : key = id
  · subst hkey
    have hnone : ¬∃ g, app.live.lookup ref = some g ∧ g.info.id = key := by
      rw [← hm key ref, hid]
      exact Option.some_ne_none _ ∘ Eq.symm
    rw [if_pos rfl, or_iff_left hnone, Option.some.injEq, eq_comm]
    exact (and_iff_left rfl).symm
  · rw [if_neg hkey, hm key ref]
    have hother : (app.newGame lobby id address).info.id ≠ key := fun heq => hkey heq.symm
    simp [hother]

theorem Consistent.addGame (hc : app.Consistent) (hs : app.Sound) {lobby : LobbyId}
    (hlobby : lobby ∈ app.lobbies) {id : String} (address : String)
    (hid : app.games.lookup id = none) : (app.addGame lobby id address).Consistent := by
  refine consistent_of_listed (hs.addGame hlobby id address) ?_ (hc.mapped.addGame hs hid)
  intro key l hlookup
  rw [lookup_lobbies_addGame] at hlookup
  have hnot : ∀ l', app.lobbies.lookup key = some l' → app.nextRef ∉ l'.games := by
    intro l' hl' hmem
    obtain ⟨g, hg, -⟩ := ((hc.listed key l' hl').2 _).mp hmem
    rw [hs.lookup_nextRef] at hg
    cases hg
  split at hlookup
  · next hkey =>
    obtain ⟨l', hl', rfl⟩ := Option.map_eq_some_iff.mp hlookup
    obtain ⟨hnodup, hgames⟩ := hc.listed key l' hl'
    refine ⟨?_, fun ref => ?_⟩
    · exact List.nodup_append.mpr ⟨hnodup, List.nodup_singleton _, fun a ha b hb heq =>
        hnot l' hl' (List.mem_singleton.mp hb ▸ heq ▸ ha)⟩
    · rw [live_addGame_iff hs, List.mem_append, hgames, List.mem_singleton, or_comm, hkey]
      simp [newGame, Game.lobbyId]
  · next hkey =>
    obtain ⟨hnodup, hgames⟩ := hc.listed key l hlookup
    refine ⟨hnodup, fun ref => ?_⟩
    rw [live_addGame_iff hs, hgames]
    have hother : (app.newGame lobby id address).lobbyId ≠ key := fun heq => hkey heq.symm
    simp [hother]

end Creating

section Dropping

variable {app : App} {ref : GameRef} {g : Game}

/-- The room's drop ends its lobby: no one else has a pointer to it. -/
def LastOf (app : App) (ref : GameRef) (id : LobbyId) : Prop :=
  (∀ lobby, app.lobbies.lookup id = some lobby → lobby.handles = 0) ∧
    ∀ other g, app.live.lookup other = some g → g.lobbyId = id → other = ref

/-- The deleter of a room leaves the lobby as it is: the pointer that it looks for no longer
locks. -/
theorem lookup_deleteGame (hdead : ref ∉ app.live) (g : Game) (key : LobbyId) :
    (app.deleteGame ref g).lobbies.lookup key = app.lobbies.lookup key := by
  unfold deleteGame
  rw [lookup_modifyLobby]
  simp only [eraseP_lock_of_dead hdead]
  split
  · exact Option.map_id'
  · rfl

theorem deleteGame_frame (ref : GameRef) (g : Game) (app : App) : ∃ lobbies,
    app.deleteGame ref g = { app with lobbies, games := app.games.erase g.info.id } :=
  modifyLobby_frame _ _ _

/-- What the deleters leave: the map loses the room, and the lobby goes with its last pointer. -/
theorem dropGame_spec (hl : app.live.lookup ref = some g) :
    (∃ lobbies, (app.dropGame ref).1 =
      { app with lobbies, live := app.live.erase ref, games := app.games.erase g.info.id }) ∧
      (app.LastOf ref g.lobbyId → (app.dropGame ref).1.lobbies.lookup g.lobbyId = none) ∧
      ∀ key, ¬(app.LastOf ref g.lobbyId ∧ key = g.lobbyId) →
        (app.dropGame ref).1.lobbies.lookup key = app.lobbies.lookup key := by
  have hdrop : (app.dropGame ref).1 =
      ({ app with live := app.live.erase ref }.deleteGame ref g).collect g.lobbyId := by
    simp only [dropGame, hl]
  have hdead : ref ∉ ({ app with live := app.live.erase ref } : App).live := by simp
  have hlobbies := lookup_deleteGame hdead g
  obtain ⟨lobbies, hframe⟩ := deleteGame_frame ref g { app with live := app.live.erase ref }
  have hlast : ({ app with live := app.live.erase ref }.deleteGame ref g).abandoned g.lobbyId = true ↔
      app.LastOf ref g.lobbyId := by
    rw [abandoned_iff, hlobbies]
    apply and_congr Iff.rfl
    rw [hframe]
    simp only [AList.lookup_erase_eq]
    constructor
    · intro hall other g' hother hid
      by_contra hne
      exact hall other g' (by rw [if_neg hne, hother]) hid
    · intro hall other g' hother hid
      split at hother
      · cases hother
      · next hne => exact hne (hall other g' hother hid)
  refine ⟨?_, ?_, ?_⟩
  · obtain ⟨lobbies', hframe'⟩ := collect_frame g.lobbyId
      ({ app with live := app.live.erase ref }.deleteGame ref g)
    rw [hdrop, hframe', hframe]
    exact ⟨_, rfl⟩
  · intro hends
    rw [hdrop, lookup_collect, if_pos ⟨rfl, hlast.mpr hends⟩]
  · intro key hkeep
    rw [hdrop, lookup_collect, if_neg, hlobbies]
    rintro ⟨hkey, habandoned⟩
    exact hkeep ⟨hlast.mp habandoned, hkey⟩

theorem Sound.dropGame (hs : app.Sound) (ref : GameRef) : (app.dropGame ref).1.Sound := by
  cases hl : app.live.lookup ref with
  | none =>
    simp only [App.dropGame, hl]
    exact hs
  | some g =>
    obtain ⟨⟨lobbies, hframe⟩, -, hkept⟩ := dropGame_spec hl
    constructor
    · intro other g' hother
      simp only [hframe, AList.lookup_erase_eq] at hother
      split at hother
      · cases hother
      · next hne =>
        rw [← AList.lookup_isSome, hkept]
        · exact AList.lookup_isSome.mpr (hs.lobby other g' hother)
        · rintro ⟨hlast, hid⟩
          exact hne (hlast.2 other g' hother hid)
    · rw [hframe]
      intro other hmem
      exact hs.fresh other (AList.mem_erase.mp hmem).2

theorem live_dropGame_iff (hl : app.live.lookup ref = some g) {other : GameRef} {P : Game → Prop} :
    (∃ g', (app.dropGame ref).1.live.lookup other = some g' ∧ P g') ↔
      other ≠ ref ∧ ∃ g', app.live.lookup other = some g' ∧ P g' := by
  obtain ⟨⟨lobbies, hframe⟩, -, -⟩ := dropGame_spec hl
  simp only [hframe, AList.lookup_erase_eq]
  by_cases hother : other = ref
  · simp [hother]
  · simp [hother]

theorem Mapped.dropGame (hm : app.Mapped) (hl : app.live.lookup ref = some g) :
    (app.dropGame ref).1.Mapped := by
  obtain ⟨⟨lobbies, hframe⟩, -, -⟩ := dropGame_spec hl
  intro key other
  rw [live_dropGame_iff hl, ← hm key other, hframe]
  simp only [AList.lookup_erase_eq]
  by_cases hkey : key = g.info.id
  · have hthis : app.games.lookup key = some ref := (hm key ref).mpr ⟨g, hl, hkey.symm⟩
    rw [if_pos hkey, hthis]
    simp [eq_comm]
  · rw [if_neg hkey, iff_and_self]
    rintro hother rfl
    obtain ⟨g', hg', hid⟩ := (hm key other).mp hother
    rw [hl] at hg'
    cases hg'
    exact hkey hid.symm

/-- The drop of a room keeps the indexes consistent exactly if it ends the lobby: otherwise the
lobby's list keeps a pointer that no longer locks. -/
theorem dropGame_consistent_iff (hc : app.Consistent) (hs : app.Sound)
    (hl : app.live.lookup ref = some g) :
    (app.dropGame ref).1.Consistent ↔ app.LastOf ref g.lobbyId := by
  obtain ⟨-, hgone, hkept⟩ := dropGame_spec hl
  constructor
  · intro hafter
    by_contra hstays
    obtain ⟨lobby, hlobby⟩ := AList.mem_iff_lookup.mp (hs.lobby ref g hl)
    have hmem := ((hc.listed g.lobbyId lobby hlobby).2 ref).mpr ⟨g, hl, rfl⟩
    have hlobby' : (app.dropGame ref).1.lobbies.lookup g.lobbyId = some lobby := by
      rw [hkept _ fun hboth => hstays hboth.1, hlobby]
    exact ((live_dropGame_iff hl).mp (((hafter.listed _ _ hlobby').2 ref).mp hmem)).1 rfl
  · intro hends
    refine consistent_of_listed (hs.dropGame ref) ?_ (hc.mapped.dropGame hl)
    intro key lobby hlobby
    by_cases hkey : key = g.lobbyId
    · rw [hkey, hgone hends] at hlobby
      cases hlobby
    · rw [hkept key fun hboth => hkey hboth.2] at hlobby
      obtain ⟨hnodup, hgames⟩ := hc.listed key lobby hlobby
      refine ⟨hnodup, fun other => ?_⟩
      rw [live_dropGame_iff hl, hgames, iff_and_self]
      rintro ⟨g', hg', hid⟩ rfl
      rw [hl] at hg'
      cases hg'
      exact hkey hid.symm

end Dropping

/-- When a step keeps the indexes consistent: a drop does when it ends the lobby with the room. -/
def KeepsIndexes (app : App) : AppOp → Prop
  | .dropGame ref => ∀ g, app.live.lookup ref = some g → app.LastOf ref g.lobbyId
  | _ => True

variable {app : App}

theorem Sound.step (hs : app.Sound) (op : AppOp) : (app.step op).Sound := by
  cases op with
  | getLobby id => exact hs.getLobby id
  | releaseLobby id => exact hs.releaseLobby id
  | dropGame ref => exact hs.dropGame ref
  | createGame lobby id address orGet =>
    simp only [App.step]
    split
    · next hlobby =>
      rcases createGame_cases lobby id address orGet app with heq | ⟨-, heq⟩
      · rwa [heq]
      · rw [heq]
        exact hs.addGame hlobby id address
    · exact hs

theorem step_consistent_iff (hc : app.Consistent) (hs : app.Sound) (op : AppOp) :
    (app.step op).Consistent ↔ app.KeepsIndexes op := by
  cases op with
  | getLobby id => exact iff_of_true (hc.getLobby hs id) trivial
  | releaseLobby id => exact iff_of_true (hc.releaseLobby hs id) trivial
  | dropGame ref =>
    simp only [App.step, KeepsIndexes]
    cases hl : app.live.lookup ref with
    | none =>
      simp only [App.dropGame, hl]
      exact iff_of_true hc fun _ hnone => by cases hnone
    | some g =>
      simp only [Option.some.injEq, forall_eq']
      exact dropGame_consistent_iff hc hs hl
  | createGame lobby id address orGet =>
    refine iff_of_true ?_ trivial
    simp only [App.step]
    split
    · next hlobby =>
      rcases createGame_cases lobby id address orGet app with heq | ⟨hid, heq⟩
      · rwa [heq]
      · rw [heq]
        exact hc.addGame hs hlobby address hid
    · exact hc

/-- In a run of an app without rooms the indexes are consistent throughout exactly if every drop of
a room ends its lobby as well. -/
theorem registry_consistent_iff (hempty : app.IsEmpty) (ops : List AppOp) :
    Transition.Always step Consistent app ops ↔ Transition.EachStep step KeepsIndexes app ops := by
  obtain ⟨hlobbies, hgames, hlive⟩ := hempty
  have hs : app.Sound :=
    ⟨fun _ _ hl => by simp [hlive] at hl, fun _ hmem => by simp [hlive] at hmem⟩
  have hc : app.Consistent := by
    refine consistent_of_listed hs (fun _ _ hl => ?_) fun _ _ => ?_
    · simp [hlobbies] at hl
    · simp [hgames, hlive]
  refine Transition.always_iff_eachStep (fun _ op hs _ => hs.step op)
    (fun _ op hs _ hc => step_consistent_iff hc hs op) hs hc
    (Transition.eachStep_of_forall (C := fun _ _ => True) fun _ _ _ => trivial)

/-- Two rooms in one lobby, of which the first is dropped. -/
def twoRooms : List AppOp :=
  [.getLobby ("lobby", 0), .createGame ("lobby", 0) "a" "host" false,
    .createGame ("lobby", 0) "b" "host" false, .dropGame 0]

/-- The lobby still counts both rooms, and with a cap of two a third one is refused. -/
theorem registry_inconsistent :
    let app : App := { id := "app", version := "1.0", settings := { maxGameCount := 2 } }
    app.IsEmpty ∧ ¬Transition.Always step Consistent app twoRooms ∧
      ((Transition.run step app twoRooms).createGame ("lobby", 0) "c" "host" false).1 =
        .error (.serverFull, "Game count limit reached!") := by
  refine ⟨⟨rfl, rfl, rfl⟩, fun halways => ?_, rfl⟩
  have hcounted := halways.last.counted
  revert hcounted
  decide

/-- The indexes stay consistent when the lobby goes with its only room. -/
theorem registry_consistent_single :
    let app : App := { id := "app", version := "1.0", endpoints := ["host"] }
    Transition.Always step Consistent app
      [.getLobby ("lobby", 0), .createGame ("lobby", 0) "a" "host" false,
        .releaseLobby ("lobby", 0), .dropGame 0] := by
  refine (registry_consistent_iff ⟨rfl, rfl, rfl⟩ _).mpr ⟨trivial, trivial, trivial, ?_, trivial⟩
  intro g hg
  let game : Game := { info := ⟨"app", "1.0", "lobby", 0, "a", "host"⟩ }
  obtain rfl : game = g := Option.some.inj hg
  refine ⟨fun lobby hlobby => ?_, fun other g' hother _ => ?_⟩
  · obtain rfl : (⟨[0], 0⟩ : Lobby) = lobby := Option.some.inj hlobby
    rfl
  · have hlive : (AList.insert 0 game ∅ : AList fun _ : GameRef => Game).lookup other = some g' :=
      hother
    rw [AList.lookup_insert_eq] at hlive
    split at hlive
    · assumption
    · cases hlive

end App

end LuxonServer
