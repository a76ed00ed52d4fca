import LuxonServer.Registry
import LuxonServer.Game.Mirror

/-! A process as the receiver of `GameUpdate` messages: the rooms of other processes that it tracks
in `external_games_`. -/

namespace LuxonServer

/-- `matches_game_info`. -/
def Game.matchesGameInfo (info : GameInfo) (g : Game) : Bool :=
  info.id == g.info.id && info.appId == g.info.appId && info.appVersion == g.info.appVersion

/-- The lobby that a message is about. -/
def GameUpdate.lobbyId (m : GameUpdate) : LobbyId := (m.info.lobbyName, m.info.lobbyType)

/-- Whether a message calls the lobby's handlers. -/
def Effect.isNotice : Effect → Bool
  | .gameUpdate | .gameDelete => true
  | .ipcBroadcast _ => false

/-- The server manager of a process, as far as it keeps the rooms of one app. -/
structure Process where
  app : App
  externalGames : List GameRef := []

namespace Process

/-- The room of `external_games_` that a message is about. -/
def tracked (info : GameInfo) (p : Process) : Option GameRef :=
  p.externalGames.find? fun ref => (p.app.live.lookup ref).any (Game.matchesGameInfo info)

/-- A room that is not tracked yet is created in the lobby of the message.  A message for another
app does not concern this one. -/
def trackGame (m : GameUpdate) (p : Process) : Option GameRef × Process × List Effect :=
  if m.info.appId ≠ p.app.id ∨ m.info.appVersion ≠ p.app.version then (none, p, [])
  else
    let app := p.app.getLobby m.lobbyId
    if m.info.serverAddress = "" then (none, { p with app := app.releaseLobby m.lobbyId }, [])
    else
      match app.createGame m.lobbyId m.info.id m.info.serverAddress true with
      | (.ok (some ref), app, effects) =>
        (some ref,
          { app := app.releaseLobby m.lobbyId
            externalGames := p.externalGames ++ [ref] },
          effects)
      | (_, app, effects) => (none, { p with app := app.releaseLobby m.lobbyId }, effects)

/-- The room that a message is about, and whether it is new. -/
def findGame (m : GameUpdate) (p : Process) : Option (GameRef × Bool) × Process × List Effect :=
  match p.tracked m.info with
  | some ref => (some (ref, false), p, [])
  | none =>
    let (ref, p, effects) := p.trackGame m
    (ref.map fun ref => (ref, true), p, effects)

/-- The update of a room that is tracked. -/
def updateGame (m : GameUpdate) (ref : GameRef) (isNew : Bool) (p : Process) :
    Process × List Effect :=
  match p.app.live.lookup ref with
  | none => (p, [])
  | some g =>
    let (g, effects) := g.receiveUpdate p.app.settings isNew m
    ({ p with app := { p.app with live := p.app.live.insert ref g } }, effects)

/-- `process_ipc_event` on a `GameUpdate`. -/
def processGameUpdate (m : GameUpdate) (p : Process) : Process × List Effect :=
  match p.findGame m with
  | (none, p, effects) => (p, effects)
  | (some (ref, isNew), p, effects) =>
    let (p, more) := p.updateGame m ref isNew
    (p, effects ++ more)

/-- The process's replica of a room. -/
def replica (info : GameInfo) (p : Process) : Option Game :=
  (p.tracked info).bind fun ref => p.app.live.lookup ref

/-- The update gets as far as the room: there is one, or one is made, and the revision check lets
it through. -/
def Applies (m : GameUpdate) (p : Process) : Prop :=
  ∃ found ∈ (p.findGame m).1, ∃ g ∈ (p.findGame m).2.1.app.live.lookup found.1,
    g.acceptsUpdate found.2 m = true

instance (m : GameUpdate) (p : Process) : Decidable (p.Applies m) :=
  inferInstanceAs (Decidable (∃ _ ∈ _, _))

/-- The revision check drops the update. -/
def Discards (m : GameUpdate) (p : Process) : Prop :=
  ∃ found ∈ (p.findGame m).1, ∃ g ∈ (p.findGame m).2.1.app.live.lookup found.1,
    ¬g.acceptsUpdate found.2 m = true

instance (m : GameUpdate) (p : Process) : Decidable (p.Discards m) :=
  inferInstanceAs (Decidable (∃ _ ∈ _, _))

/-- The room of a name is not in the process at all. -/
structure Absent (info : GameInfo) (p : Process) : Prop where
  tracked : p.tracked info = none
  games : p.app.games.lookup info.id = none

/-- Whether the process makes a replica for the message. -/
def CanTrack (m : GameUpdate) (p : Process) : Prop :=
  m.info.appId = p.app.id ∧ m.info.appVersion = p.app.version ∧ m.info.serverAddress ≠ "" ∧
    m.info.id ≠ "" ∧
    ¬(p.app.settings.maxGameCount ≠ 0 ∧
      (p.app.getLobby m.lobbyId).getGameCount ≥ p.app.settings.maxGameCount)

/-- The room that the process makes for the message. -/
def newReplica (m : GameUpdate) (p : Process) : Game :=
  p.app.newGame m.lobbyId m.info.id m.info.serverAddress

variable {p : Process} {m : GameUpdate} {k : Game}

theorem bare_newReplica (m : GameUpdate) (p : Process) : (p.newReplica m).Bare := ⟨rfl, rfl⟩

theorem matches_of_replica {info : GameInfo} (hk : p.replica info = some k) :
    ∃ ref, p.tracked info = some ref ∧ p.app.live.lookup ref = some k := by
  obtain ⟨ref, href, hlookup⟩ := Option.bind_eq_some_iff.mp hk
  exact ⟨ref, href, hlookup⟩

theorem info_receiveUpdate (settings : AppSettings) (isNew : Bool) (m : GameUpdate) (g : Game) :
    (g.receiveUpdate settings isNew m).1.info = g.info := by
  refine Game.receiveUpdate_induction (P := fun g' => g'.info = g.info) rfl (fun _ h => h)
    (fun g' users h => ?_) (fun _ _ h => h) (fun g' g'' h hprops => ?_) settings isNew
  · obtain ⟨_, _, _, _, _, _, heq⟩ := Game.seatsOnly_replaceExpectedUsers users g'
    rw [heq]
    exact h
  · obtain ⟨_, _, _, _, _, _, _, _, _, rfl⟩ := hprops
    exact h

/-- A change of a room that keeps its name does not change what is tracked. -/
theorem tracked_insert {ref : GameRef} {g g' : Game} (hg : p.app.live.lookup ref = some g)
    (hinfo : g'.info = g.info) (info : GameInfo) :
    ({ p with app := { p.app with live := p.app.live.insert ref g' } } : Process).tracked info =
      p.tracked info := by
  unfold tracked
  refine congrArg (fun f => p.externalGames.find? f) (funext fun other => ?_)
  simp only [AList.lookup_insert_eq]
  split
  · next heq =>
    rw [heq, hg]
    simp only [Option.any_some, Game.matchesGameInfo, hinfo]
  · rfl

theorem processGameUpdate_of_replica (hk : p.replica m.info = some k) :
    let after := p.processGameUpdate m
    after.1.replica m.info = some (k.receiveUpdate p.app.settings false m).1 ∧
      after.2 = (k.receiveUpdate p.app.settings false m).2 ∧
      after.1.app.settings = p.app.settings := by
  obtain ⟨ref, href, hlookup⟩ := matches_of_replica hk
  have hprocess : p.processGameUpdate m =
      ({ p with app := { p.app with
          live := p.app.live.insert ref (k.receiveUpdate p.app.settings false m).1 } },
        (k.receiveUpdate p.app.settings false m).2) := by
    simp only [processGameUpdate, findGame, href, updateGame, hlookup, List.nil_append]
  rw [hprocess]
  refine ⟨?_, rfl, rfl⟩
  unfold replica
  rw [tracked_insert hlookup (info_receiveUpdate _ _ _ _), href]
  exact AList.lookup_insert _

/-- A room that the process does not have is created, or not. -/
theorem trackGame_cases (habsent : p.Absent m.info) :
    (¬p.CanTrack m ∧ ∃ lobbies,
        p.trackGame m = (none, { p with app := { p.app with lobbies } }, [])) ∨
      p.CanTrack m ∧ ∃ lobbies games,
        p.trackGame m =
          (some p.app.nextRef,
            { app :=
                { p.app with
                  lobbies, games
                  live := p.app.live.insert p.app.nextRef (p.newReplica m)
                  nextRef := p.app.nextRef + 1 }
              externalGames := p.externalGames ++ [p.app.nextRef] },
            [.gameUpdate]) := by
  by_cases happ : m.info.appId ≠ p.app.id ∨ m.info.appVersion ≠ p.app.version
  · refine Or.inl ⟨fun hcan => ?_, p.app.lobbies, if_pos happ⟩
    exact happ.elim (absurd hcan.1) (absurd hcan.2.1)
  rw [trackGame, if_neg happ]
  rw [not_or, ne_eq, ne_eq, not_not, not_not] at happ
  obtain ⟨_, hget⟩ := App.getLobby_frame m.lobbyId p.app
  have hgames : (p.app.getLobby m.lobbyId).games.lookup m.info.id = none := by
    rw [hget]
    exact habsent.games
  have hsettings : (p.app.getLobby m.lobbyId).settings = p.app.settings := by rw [hget]
  have hback := App.getLobby_releaseLobby_frame m.lobbyId p.app
  by_cases haddress : m.info.serverAddress = ""
  · obtain ⟨lobbies, hback⟩ := hback
    refine Or.inl ⟨fun hcan => hcan.2.2.1 haddress, lobbies, ?_⟩
    simp only [haddress, if_true, hback]
  by_cases hid : m.info.id = ""
  · obtain ⟨lobbies, hback⟩ := hback
    refine Or.inl ⟨fun hcan => hcan.2.2.2.1 hid, lobbies, ?_⟩
    simp only [if_neg haddress, App.createGame, if_pos hid, hback]
  by_cases hfull : p.app.settings.maxGameCount ≠ 0 ∧
      (p.app.getLobby m.lobbyId).getGameCount ≥ p.app.settings.maxGameCount
  · obtain ⟨lobbies, hback⟩ := hback
    refine Or.inl ⟨fun hcan => hcan.2.2.2.2 hfull, lobbies, ?_⟩
    simp only [if_neg haddress, App.createGame, if_neg hid, hgames, hsettings, if_pos hfull, hback]
  · refine Or.inr ⟨⟨happ.1, happ.2, haddress, hid, hfull⟩, ?_⟩
    simp only [if_neg haddress, App.createGame, if_neg hid, hgames, hsettings, if_neg hfull]
    obtain ⟨_, hadd⟩ := App.addGame_frame m.lobbyId m.info.id m.info.serverAddress
      (p.app.getLobby m.lobbyId)
    obtain ⟨_, hrelease⟩ := App.releaseLobby_frame m.lobbyId
      ((p.app.getLobby m.lobbyId).addGame m.lobbyId m.info.id m.info.serverAddress)
    rw [hrelease, hadd, hget]
    exact ⟨_, _, rfl⟩

theorem tracked_trackGame (hcan : p.CanTrack m) (htracked : p.tracked m.info = none)
    (lobbies : AList fun _ : LobbyId => Lobby) (games : AList fun _ : String => GameRef)
    (nextRef : GameRef) :
    ({ app := { p.app with
          lobbies, games, nextRef
          live := p.app.live.insert p.app.nextRef (p.newReplica m) }
       externalGames := p.externalGames ++ [p.app.nextRef] } : Process).tracked m.info =
      some p.app.nextRef := by
  have hmatches : (p.newReplica m).matchesGameInfo m.info = true := by
    simp [Game.matchesGameInfo, newReplica, App.newGame, hcan.1, hcan.2.1]
  have hnone := List.find?_eq_none.mp htracked
  unfold tracked
  refine List.find?_concat ?_ fun other hother hne => ?_
  · rw [AList.lookup_insert]
    exact hmatches
  · rw [AList.lookup_insert_ne hne]
    exact Bool.eq_false_iff.mpr (hnone other hother)

theorem processGameUpdate_of_absent (habsent : p.Absent m.info) :
    let after := p.processGameUpdate m
    let update := (p.newReplica m).receiveUpdate p.app.settings true m
    after.1.app.settings = p.app.settings ∧
      (¬p.CanTrack m → after.1.Absent m.info ∧ after.2 = []) ∧
      (p.CanTrack m → after.1.replica m.info = some update.1 ∧ after.2 = .gameUpdate :: update.2) := by
  rcases trackGame_cases habsent with ⟨hcannot, lobbies, heq⟩ | ⟨hcan, lobbies, games, heq⟩
  · have hprocess : p.processGameUpdate m = ({ p with app := { p.app with lobbies } }, []) := by
      simp only [processGameUpdate, findGame, habsent.tracked, heq, Option.map_none]
    rw [hprocess]
    exact ⟨rfl, fun _ => ⟨⟨habsent.tracked, habsent.games⟩, rfl⟩, fun hcan => absurd hcan hcannot⟩
  · have htracked := tracked_trackGame hcan habsent.tracked lobbies games (p.app.nextRef + 1)
    generalize hmade : ({ app := _, externalGames := _ } : Process) = made at heq htracked
    have hlookup : made.app.live.lookup p.app.nextRef = some (p.newReplica m) := by
      rw [← hmade]
      exact AList.lookup_insert _
    have hsettings : made.app.settings = p.app.settings := by rw [← hmade]
    have hprocess : p.processGameUpdate m =
        ({ made with app := { made.app with
            live := made.app.live.insert p.app.nextRef
              ((p.newReplica m).receiveUpdate p.app.settings true m).1 } },
          .gameUpdate :: ((p.newReplica m).receiveUpdate p.app.settings true m).2) := by
      simp only [processGameUpdate, findGame, habsent.tracked, heq, Option.map_some, updateGame,
        hlookup, hsettings, List.singleton_append]
    rw [hprocess]
    refine ⟨hsettings, fun hcannot => absurd hcan hcannot, fun _ => ⟨?_, rfl⟩⟩
    unfold replica
    rw [tracked_insert hlookup (info_receiveUpdate _ _ _ _), htracked]
    exact AList.lookup_insert _

theorem applies_of_replica (hk : p.replica m.info = some k) :
    p.Applies m ↔ k.acceptsUpdate false m = true := by
  obtain ⟨ref, href, hlookup⟩ := matches_of_replica hk
  simp only [Applies, findGame, href, Option.mem_def, Option.some.injEq, exists_eq_left', hlookup]

theorem discards_of_replica (hk : p.replica m.info = some k) :
    p.Discards m ↔ ¬k.acceptsUpdate false m = true := by
  obtain ⟨ref, href, hlookup⟩ := matches_of_replica hk
  simp only [Discards, findGame, href, Option.mem_def, Option.some.injEq, exists_eq_left', hlookup]

theorem acceptsUpdate_new (m : GameUpdate) (g : Game) : g.acceptsUpdate true m = true := by
  unfold Game.acceptsUpdate
  split <;> rfl

theorem applies_of_absent (habsent : p.Absent m.info) : p.Applies m ↔ p.CanTrack m := by
  rcases trackGame_cases habsent with ⟨hcannot, lobbies, heq⟩ | ⟨hcan, lobbies, games, heq⟩
  · simp [Applies, findGame, habsent.tracked, heq, hcannot]
  · simp [Applies, findGame, habsent.tracked, heq, hcan, acceptsUpdate_new]

theorem not_discards_of_absent (habsent : p.Absent m.info) : ¬p.Discards m := by
  rcases trackGame_cases habsent with ⟨-, lobbies, heq⟩ | ⟨-, lobbies, games, heq⟩
  · simp [Discards, findGame, habsent.tracked, heq]
  · simp [Discards, findGame, habsent.tracked, heq, acceptsUpdate_new]

end Process

end LuxonServer
