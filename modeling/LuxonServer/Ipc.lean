import LuxonServer.Tokens
import LuxonServer.Convergence
import LuxonServer.Lobby.GameList
import LuxonServer.Game.Echo

/-! The links of a process to its parent and to its subprocesses: what it does, and what it sends,
while it handles the messages that arrive over them. -/

namespace LuxonServer

/-- A link: to the parent, or to the subprocess for a port. -/
inductive IpcLink where
  | parent
  | child (port : UInt16)
  deriving DecidableEq, Repr

/-- The messages between processes. -/
inductive IpcMessage where
  | gameUpdate (message : GameUpdate)
  | gameDelete (info : GameInfo)
  | token (message : TokenMessage)

/-- What a process sends, and which handlers of its lobbies it calls. -/
structure IpcActivity where
  sent : List (IpcLink × IpcMessage) := []
  called : List Effect := []

instance : Append IpcActivity := ⟨fun a b => ⟨a.sent ++ b.sent, a.called ++ b.called⟩⟩

/-- `ServerManager` with its links: `parentIpc` and `subprocesses` tell which of them are open. -/
structure ServerManager where
  process : Process
  tokens : TokenStore := {}
  heap : PeerHeap := fun _ => .unused
  handedOut : GameRef → List GamePeer := fun _ => []
  parentIpc : Bool := false
  subprocesses : AList (fun _ : UInt16 => Bool) := ∅
  ipcBroadcastSkip : Option IpcLink := none

namespace ServerManager

/-- `ipc_broadcast`. -/
def ipcBroadcast (message : IpcMessage) (sm : ServerManager) : List (IpcLink × IpcMessage) :=
  let links := (IpcLink.parent, sm.parentIpc) ::
    sm.subprocesses.entries.map fun entry => (.child entry.1, entry.2)
  (links.filter fun link => some link.1 ≠ sm.ipcBroadcastSkip ∧ link.2).map fun link =>
    (link.1, message)

/-- The effects of an operation on a room. -/
def publish (effects : List Effect) (sm : ServerManager) : IpcActivity where
  sent := effects.flatMap fun effect =>
    match effect with
    | .ipcBroadcast message => sm.ipcBroadcast (.gameUpdate message)
    | _ => []
  called := effects.filter Effect.isNotice

/-- A change of the rooms. -/
def setApp (app : App) (sm : ServerManager) : ServerManager :=
  { sm with process := { sm.process with app } }

/-- The last pointer to a room is dropped; a room in `external_games_` has a pointer left.
`~Game` tells the other processes. -/
def dropGame (ref : GameRef) (sm : ServerManager) : ServerManager × IpcActivity :=
  if ref ∈ sm.process.externalGames then (sm, {})
  else
    match sm.process.app.live.lookup ref with
    | none => (sm, {})
    | some g =>
      let (app, effects) := sm.process.app.dropGame ref
      (sm.setApp app, ⟨sm.ipcBroadcast (.gameDelete g.info), effects⟩)

/-- Rooms lose their last pointers one after another. -/
def dropGames : List GameRef → ServerManager → ServerManager × IpcActivity
  | [], sm => (sm, {})
  | ref :: refs, sm =>
    let (sm, first) := sm.dropGame ref
    let (sm, rest) := sm.dropGames refs
    (sm, first ++ rest)

/-- A `GameDelete` takes the room out of `external_games_`; it is to expire at once. -/
def untrackGame (info : GameInfo) (sm : ServerManager) : ServerManager :=
  match sm.process.tracked info with
  | none => sm
  | some ref =>
    match sm.process.app.live.lookup ref with
    | none => sm
    | some g =>
      let app := sm.process.app
      { sm with
        process :=
          { app := { app with live := app.live.insert ref { g with emptyGameTtl := 0 } }
            externalGames := sm.process.externalGames.erase ref } }

/-- `process_ipc_event`.  `released` are the rooms that lose their last pointer on the way: the one
that a `GameDelete` is about, or those that the records of a token kept. -/
def processIpcEvent (message : IpcMessage) (released : List GameRef) (sm : ServerManager) :
    ServerManager × IpcActivity :=
  match message with
  | .gameUpdate update =>
    let (process, effects) := sm.process.processGameUpdate update
    ({ sm with process }, sm.publish effects)
  | .gameDelete info => (sm.untrackGame info).dropGames released
  | .token message => { sm with tokens := sm.tokens.receive message }.dropGames released

/-- `process_parent_ipc_message` and `process_child_ipc_message`. -/
def processIpcMessage (sender : IpcLink) (message : IpcMessage) (released : List GameRef)
    (sm : ServerManager) : ServerManager × IpcActivity :=
  { sm with ipcBroadcastSkip := some sender }.processIpcEvent message released

/-- A link opens or closes. -/
def setLink (link : IpcLink) (isOpen : Bool) (sm : ServerManager) : ServerManager :=
  match link with
  | .parent => { sm with parentIpc := isOpen }
  | .child port => { sm with subprocesses := sm.subprocesses.insert port isOpen }

end ServerManager

/-- What happens in a process with links. -/
inductive IpcOp where
  /-- The next message of a link. -/
  | receive (sender : IpcLink) (message : IpcMessage) (released : List GameRef)
  | setLink (link : IpcLink) (isOpen : Bool)
  | connection (peer : PeerRef) (slot : PeerSlot)
  /-- A request to create a room; the caller has a pointer to the lobby meanwhile. -/
  | createGame (lobby : LobbyId) (id address : String) (orGet : Bool)
  /-- An operation on a room. -/
  | room (ref : GameRef) (op : RoomOp)
  /-- The last pointer to a room is dropped. -/
  | dropGame (ref : GameRef)
  | storeToken (pp : PeerPersistent)
  | loadToken (token : String) (fresh : Option String)
  | expireToken (task : RecordExpiry)

namespace ServerManager

/-- What happens outside the loops that receive messages. -/
def perform (sm : ServerManager) : IpcOp → ServerManager
  | .receive _ _ _ => sm
  | .setLink link isOpen => sm.setLink link isOpen
  | .connection peer slot => { sm with heap := Function.update sm.heap peer slot }
  | .createGame lobby id address orGet =>
    sm.setApp
      (((sm.process.app.getLobby lobby).createGame lobby id address orGet).2.1.releaseLobby lobby)
  | .room ref op =>
    match sm.process.app.live.lookup ref with
    | none => sm
    | some g =>
      let app := sm.process.app
      let s := Room.step app.settings ⟨sm.heap, g, sm.handedOut ref⟩ op
      { sm.setApp { app with live := app.live.insert ref s.game } with
        heap := s.heap
        handedOut := Function.update sm.handedOut ref s.handedOut }
  | .dropGame ref => (sm.dropGame ref).1
  | .storeToken pp => { sm with tokens := sm.tokens.storePersistentPeer pp }
  | .loadToken token fresh => { sm with tokens := (sm.tokens.loadPersistentPeer token fresh).2.1 }
  | .expireToken task => { sm with tokens := sm.tokens.expire task }

/-- A step of the process.  The loops reset the skipped link before anything else happens. -/
def step (sm : ServerManager) (op : IpcOp) : ServerManager :=
  match op with
  | .receive sender message released => (sm.processIpcMessage sender message released).1
  | op => { sm with ipcBroadcastSkip := none }.perform op

/-- A process that has just started. -/
def IsFresh (sm : ServerManager) : Prop :=
  sm.process.app.IsEmpty ∧ sm.process.externalGames = []

/-- The states that a process can be in. -/
def Reachable : ServerManager → Prop := Transition.Reachable step IsFresh fun _ _ => True

end ServerManager

namespace App

/-- The rooms are in their indexes, and are named as rooms of the app. -/
structure Named (app : App) : Prop where
  indexed : app.Indexed
  infos : ∀ ref g, app.live.lookup ref = some g →
    g.info.appId = app.id ∧ g.info.appVersion = app.version

namespace Named

variable {app : App}

theorem of_isEmpty (hempty : app.IsEmpty) : app.Named where
  indexed := Indexed.of_isEmpty hempty
  infos ref g hg := by
    rw [hempty.2.2] at hg
    cases hg

theorem getLobby (hn : app.Named) (id : LobbyId) : (app.getLobby id).Named where
  indexed := hn.indexed.getLobby id
  infos := by
    obtain ⟨lobbies, hframe⟩ := getLobby_frame id app
    rw [hframe]
    exact hn.infos

theorem releaseLobby (hn : app.Named) (id : LobbyId) : (app.releaseLobby id).Named where
  indexed := hn.indexed.releaseLobby id
  infos := by
    obtain ⟨lobbies, hframe⟩ := releaseLobby_frame id app
    rw [hframe]
    exact hn.infos

theorem createGame (hn : app.Named) {lobby : LobbyId} (hlobby : lobby ∈ app.lobbies)
    (id address : String) (orGet : Bool) : (app.createGame lobby id address orGet).2.1.Named where
  indexed := hn.indexed.createGame hlobby id address orGet
  infos := by
    rcases createGame_cases lobby id address orGet app with heq | ⟨-, heq⟩
    · rw [heq]
      exact hn.infos
    · obtain ⟨lobbies, hframe⟩ := addGame_frame lobby id address app
      rw [heq, hframe]
      intro ref g hg
      simp only [AList.lookup_insert_eq] at hg
      split at hg
      · cases hg
        exact ⟨rfl, rfl⟩
      · exact hn.infos ref g hg

theorem dropGame (hn : app.Named) (ref : GameRef) : (app.dropGame ref).1.Named := by
  cases hg : app.live.lookup ref with
  | none =>
    simp only [App.dropGame, hg]
    exact hn
  | some g =>
    refine ⟨hn.indexed.dropGame hg, ?_⟩
    obtain ⟨⟨lobbies, hframe⟩, -, -⟩ := dropGame_spec hg
    rw [hframe]
    intro other g' hother
    simp only [AList.lookup_erase_eq] at hother
    split at hother
    · cases hother
    · exact hn.infos other g' hother

theorem setGame (hn : app.Named) {ref : GameRef} {g g' : Game} (hg : app.live.lookup ref = some g)
    (hinfo : g'.info = g.info) : ({ app with live := app.live.insert ref g' } : App).Named where
  indexed := hn.indexed.setGame hg hinfo
  infos other g'' hother := by
    simp only [AList.lookup_insert_eq] at hother
    split at hother
    · cases hother
      rw [hinfo]
      exact hn.infos ref g hg
    · exact hn.infos other g'' hother

/-- The room that a request gets has the id of the request; the others stay as they are. -/
theorem lookup_createGame (hn : app.Named) (lobby : LobbyId) (id address : String) (orGet : Bool)
    (ref : GameRef) (hok : (app.createGame lobby id address orGet).1 = .ok (some ref)) :
    (∃ g, (app.createGame lobby id address orGet).2.1.live.lookup ref = some g ∧ g.info.id = id) ∧
      ∀ other, other ≠ ref →
        (app.createGame lobby id address orGet).2.1.live.lookup other = app.live.lookup other := by
  unfold App.createGame at hok ⊢
  split
  · next hid => simp [hid] at hok
  · next hid =>
    rw [if_neg hid] at hok
    cases hweak : app.games.lookup id with
    | some weak =>
      simp only [hweak] at hok ⊢
      obtain ⟨g, hg, hgid⟩ := (hn.indexed.mapped id weak).mp hweak
      have hlock : app.lock weak = some weak := if_pos (AList.mem_iff_lookup.mpr ⟨g, hg⟩)
      cases orGet with
      | false => cases hok
      | true =>
        simp only [if_true, hlock, Except.ok.injEq, Option.some.injEq] at hok ⊢
        rw [← hok]
        exact ⟨⟨g, hg, hgid⟩, fun _ _ => trivial⟩
    | none =>
      simp only [hweak] at hok ⊢
      split at hok
      · cases hok
      · next hfull =>
        cases hok
        obtain ⟨lobbies, hframe⟩ := addGame_frame lobby id address app
        rw [if_neg hfull, hframe]
        exact ⟨⟨_, AList.lookup_insert _, rfl⟩, fun other hne => AList.lookup_insert_ne hne⟩

end Named

theorem createGame_frame (lobby : LobbyId) (id address : String) (orGet : Bool) (app : App) :
    ∃ lobbies games live nextRef, (app.createGame lobby id address orGet).2.1 =
      { app with lobbies, games, live, nextRef } := by
  rcases createGame_cases lobby id address orGet app with heq | ⟨-, heq⟩
  · exact ⟨_, _, _, _, heq⟩
  · obtain ⟨_, hframe⟩ := addGame_frame lobby id address app
    exact ⟨_, _, _, _, heq.trans hframe⟩

end App

namespace Process

variable {p : Process} {m : GameUpdate}

/-- The room that a process starts to track is the one that it finds for the message from then
on. -/
theorem trackGame_spec (hn : p.app.Named) (m : GameUpdate) (htracked : p.tracked m.info = none) :
    (p.trackGame m).2.1.app.Named ∧ (p.trackGame m).2.1.app.settings = p.app.settings ∧
      ∀ ref, (p.trackGame m).1 = some ref → (p.trackGame m).2.1.tracked m.info = some ref := by
  by_cases happ : m.info.appId ≠ p.app.id ∨ m.info.appVersion ≠ p.app.version
  · rw [trackGame, if_pos happ]
    exact ⟨hn, rfl, by simp⟩
  rw [trackGame, if_neg happ]
  rw [not_or, ne_eq, ne_eq, not_not, not_not] at happ
  have hget := hn.getLobby m.lobbyId
  have hframe := App.getLobby_frame m.lobbyId p.app
  have hmem := App.mem_getLobby m.lobbyId p.app
  simp only
  generalize p.app.getLobby m.lobbyId = app at hget hframe hmem
  obtain ⟨lobbies, rfl⟩ := hframe
  split
  · obtain ⟨lobbies', hrelease⟩ := App.releaseLobby_frame m.lobbyId { p.app with lobbies }
    refine ⟨hget.releaseLobby _, ?_, by simp⟩
    rw [hrelease]
  have hmade := hget.createGame hmem m.info.id m.info.serverAddress true
  have hframe := App.createGame_frame m.lobbyId m.info.id m.info.serverAddress true
    { p.app with lobbies }
  have hlookup := hget.lookup_createGame m.lobbyId m.info.id m.info.serverAddress true
  generalize App.createGame m.lobbyId m.info.id m.info.serverAddress true { p.app with lobbies } =
    made at hmade hframe hlookup ⊢
  obtain ⟨result, app, effects⟩ := made
  obtain ⟨lobbies', hrelease⟩ := App.releaseLobby_frame m.lobbyId app
  have hreleased := hmade.releaseLobby m.lobbyId
  simp only at hmade hframe hlookup
  obtain ⟨_, _, live, _, rfl⟩ := hframe
  split
  · next ref app effects heq =>
    cases heq
    refine ⟨hreleased, by rw [hrelease], fun ref' href => ?_⟩
    cases href
    obtain ⟨⟨g, hg, hid⟩, hother⟩ := hlookup ref rfl
    obtain ⟨happId, hversion⟩ := hmade.infos ref g hg
    have hmatches : g.matchesGameInfo m.info = true := by
      simp [Game.matchesGameInfo, hid, happId, hversion, happ]
    have hnone := List.find?_eq_none.mp htracked
    unfold tracked
    rw [hrelease]
    refine List.find?_concat ?_ fun other hmember hne => ?_
    · rw [hg]
      exact hmatches
    · rw [hother other hne]
      exact Bool.eq_false_iff.mpr (hnone other hmember)
  · next heq =>
    cases heq
    exact ⟨hreleased, by rw [hrelease], by simp⟩

theorem findGame_spec (hn : p.app.Named) (m : GameUpdate) :
    (p.findGame m).2.1.app.Named ∧ (p.findGame m).2.1.app.settings = p.app.settings ∧
      ∀ found, (p.findGame m).1 = some found → (p.findGame m).2.1.tracked m.info = some found.1 := by
  unfold findGame
  cases htracked : p.tracked m.info with
  | some ref =>
    refine ⟨hn, rfl, ?_⟩
    rintro found ⟨⟩
    exact htracked
  | none =>
    obtain ⟨hnamed, hsettings, hfound⟩ := trackGame_spec hn m htracked
    refine ⟨hnamed, hsettings, fun found hsome => ?_⟩
    obtain ⟨ref, href, rfl⟩ := Option.map_eq_some_iff.mp hsome
    exact hfound ref href

theorem named_processGameUpdate (hn : p.app.Named) (m : GameUpdate) :
    (p.processGameUpdate m).1.app.Named := by
  obtain ⟨hnamed, -, -⟩ := findGame_spec hn m
  unfold processGameUpdate
  generalize p.findGame m = found at hnamed
  obtain ⟨_ | ⟨ref, isNew⟩, p', effects⟩ := found
  · exact hnamed
  · simp only [updateGame]
    split
    · exact hnamed
    · next g hg => exact hnamed.setGame hg (info_receiveUpdate _ _ _ _)

/-- An update that gets as far as the room has its effect on the replica. -/
theorem replica_of_applies (hn : p.app.Named) (happlies : p.Applies m) :
    ∃ (g : Game) (isNew : Bool), g.acceptsUpdate isNew m = true ∧
      (p.processGameUpdate m).1.replica m.info =
        some (g.receiveUpdate p.app.settings isNew m).1 ∧
      (p.processGameUpdate m).1.app.settings = p.app.settings := by
  obtain ⟨-, hsettings, hfound⟩ := findGame_spec hn m
  obtain ⟨⟨ref, isNew⟩, hsome, g, hg, haccepts⟩ := happlies
  refine ⟨g, isNew, haccepts, ?_⟩
  unfold processGameUpdate
  generalize p.findGame m = found at hsettings hfound hsome hg
  obtain ⟨_, p', effects⟩ := found
  cases hsome
  have htracked := hfound (ref, isNew) rfl
  simp only [updateGame, Option.mem_def] at hg hsettings htracked ⊢
  rw [hg]
  refine ⟨?_, hsettings⟩
  unfold replica
  rw [tracked_insert hg (info_receiveUpdate _ _ _ _), htracked, ← hsettings]
  exact AList.lookup_insert _

end Process

namespace ServerManager

variable {sm : ServerManager}

theorem named_dropGame (hn : sm.process.app.Named) (ref : GameRef) :
    (sm.dropGame ref).1.process.app.Named := by
  unfold dropGame
  split
  · exact hn
  · split
    · exact hn
    · exact hn.dropGame ref

theorem named_dropGames (sm : ServerManager) (hn : sm.process.app.Named) (refs : List GameRef) :
    (sm.dropGames refs).1.process.app.Named := by
  induction refs generalizing sm with
  | nil => exact hn
  | cons ref refs ih => exact ih _ (named_dropGame hn ref)

theorem named_untrackGame (hn : sm.process.app.Named) (info : GameInfo) :
    (sm.untrackGame info).process.app.Named := by
  unfold untrackGame
  split
  · exact hn
  · split
    · exact hn
    · next g hg => exact hn.setGame hg rfl

theorem named_processIpcEvent (sm : ServerManager) (hn : sm.process.app.Named)
    (message : IpcMessage) (released : List GameRef) :
    (sm.processIpcEvent message released).1.process.app.Named := by
  cases message with
  | gameUpdate update => exact Process.named_processGameUpdate hn update
  | gameDelete info => exact named_dropGames _ (named_untrackGame hn info) released
  | token message => exact named_dropGames { sm with tokens := sm.tokens.receive message } hn released

theorem named_perform (sm : ServerManager) (hn : sm.process.app.Named) (op : IpcOp) :
    (sm.perform op).process.app.Named := by
  cases op with
  | setLink link isOpen => cases link <;> exact hn
  | createGame lobby id address orGet =>
    exact ((hn.getLobby lobby).createGame (App.mem_getLobby lobby _) id address orGet).releaseLobby
      lobby
  | room ref op =>
    simp only [perform]
    split
    · exact hn
    · next g hg => exact hn.setGame hg (Room.info_step _ ⟨sm.heap, g, sm.handedOut ref⟩ op)
  | dropGame ref => exact named_dropGame hn ref
  | _ => exact hn

theorem named_keeps : Transition.Keeps step (fun _ _ => True)
    fun sm : ServerManager => sm.process.app.Named := by
  intro sm op hn _
  cases op with
  | receive sender message released =>
    exact named_processIpcEvent { sm with ipcBroadcastSkip := some sender } hn message released
  | _ => exact named_perform { sm with ipcBroadcastSkip := none } hn _

theorem Reachable.named (hs : sm.Reachable) : sm.process.app.Named := by
  refine Transition.Reachable.invariant (I := fun sm => sm.process.app.Named) hs ?_ named_keeps
  exact fun _ hfresh => App.Named.of_isEmpty hfresh.1

/-- Nothing is sent over the link that is skipped. -/
def Quiet (link : IpcLink) (a : IpcActivity) : Prop := ∀ sent ∈ a.sent, sent.1 ≠ link

theorem ne_of_mem_ipcBroadcast {link : IpcLink} (hskip : sm.ipcBroadcastSkip = some link)
    (message : IpcMessage) : ∀ sent ∈ sm.ipcBroadcast message, sent.1 ≠ link := by
  intro sent hsent
  obtain ⟨entry, hentry, rfl⟩ := List.mem_map.mp hsent
  have hother := (List.mem_filter.mp hentry).2
  rintro rfl
  simp [hskip] at hother

theorem quiet_publish {link : IpcLink} (hskip : sm.ipcBroadcastSkip = some link)
    (effects : List Effect) : Quiet link (sm.publish effects) := by
  intro sent hsent
  obtain ⟨effect, -, hsent⟩ := List.mem_flatMap.mp hsent
  cases effect with
  | ipcBroadcast message => exact ne_of_mem_ipcBroadcast hskip _ sent hsent
  | _ => cases hsent

theorem quiet_dropGame {link : IpcLink} (hskip : sm.ipcBroadcastSkip = some link) (ref : GameRef) :
    Quiet link (sm.dropGame ref).2 ∧ (sm.dropGame ref).1.ipcBroadcastSkip = some link := by
  unfold dropGame
  split
  · exact ⟨by simp [Quiet], hskip⟩
  · split
    · exact ⟨by simp [Quiet], hskip⟩
    · exact ⟨ne_of_mem_ipcBroadcast hskip _, hskip⟩

theorem quiet_dropGames (sm : ServerManager) {link : IpcLink}
    (hskip : sm.ipcBroadcastSkip = some link) (refs : List GameRef) :
    Quiet link (sm.dropGames refs).2 := by
  induction refs generalizing sm with
  | nil => simp [Quiet, dropGames]
  | cons ref refs ih =>
    obtain ⟨hfirst, hskip'⟩ := quiet_dropGame hskip ref
    intro sent hsent
    rcases List.mem_append.mp hsent with hnow | hlater
    · exact hfirst sent hnow
    · exact ih _ hskip' sent hlater

theorem skip_untrackGame (info : GameInfo) (sm : ServerManager) :
    (sm.untrackGame info).ipcBroadcastSkip = sm.ipcBroadcastSkip := by
  unfold untrackGame
  split
  · rfl
  · split <;> rfl

/-- The skipped link covers every broadcast that a message leads to. -/
theorem quiet_processIpcMessage (sender : IpcLink) (message : IpcMessage)
    (released : List GameRef) (sm : ServerManager) :
    Quiet sender (sm.processIpcMessage sender message released).2 := by
  cases message with
  | gameUpdate update => exact quiet_publish rfl _
  | gameDelete info => exact quiet_dropGames _ (skip_untrackGame info _) released
  | token message =>
    exact quiet_dropGames
      { sm with ipcBroadcastSkip := some sender, tokens := sm.tokens.receive message } rfl released

/-- Nothing goes back over the link that a message came from.  And when a process has accepted an
update with a revision, a second copy of it, over any link, is passed on to nobody, tells no lobby
anything, and leaves the replica as it was. -/
theorem gameUpdate_idempotent (hs : sm.Reachable) :
    (∀ sender message released,
      ∀ sent ∈ (sm.processIpcMessage sender message released).2.sent, sent.1 ≠ sender) ∧
    ∀ sender again (m : GameUpdate), (Game.remoteRevision m).isSome = true →
      sm.process.Applies m →
      let once := (sm.processIpcMessage sender (.gameUpdate m) []).1
      let twice := once.processIpcMessage again (.gameUpdate m) []
      twice.2.sent = [] ∧ twice.2.called = [] ∧
        ∃ k k', once.process.replica m.info = some k ∧
          twice.1.process.replica m.info = some k' ∧ Game.Unmoved k k' := by
  refine ⟨fun sender message released => quiet_processIpcMessage sender message released sm, ?_⟩
  intro sender again m hrevision happlies once twice
  obtain ⟨revision, hrevision⟩ := Option.isSome_iff_exists.mp hrevision
  obtain ⟨g, isNew, haccepts, hreplica, hsettings⟩ := Process.replica_of_applies hs.named happlies
  obtain ⟨hquiet, hunmoved⟩ :=
    Game.receiveUpdate_twice hrevision sm.process.app.settings isNew haccepts
  obtain ⟨hreplica', heffects, -⟩ := Process.processGameUpdate_of_replica hreplica
  rw [hsettings] at hreplica' heffects
  rw [hquiet] at heffects
  have htwice : twice.2 = { once with ipcBroadcastSkip := some again }.publish
      ((sm.process.processGameUpdate m).1.processGameUpdate m).2 := rfl
  rw [htwice, heffects]
  exact ⟨rfl, rfl, _, _, hreplica, hreplica', hunmoved⟩

/-- A parent passes the update of a new room on to its other subprocess, once. -/
theorem gameUpdate_idempotent_relayed :
    let sm : ServerManager :=
      { process := Process.idle
        subprocesses := (∅ : AList fun _ : UInt16 => Bool).insert 5056 true |>.insert 5057 true }
    let m : GameUpdate :=
      { info :=
          { appId := "app", appVersion := "1.0", lobbyName := "", lobbyType := 0, id := "room"
            serverAddress := "host" }
        created := some true
        revision := some 3
        creating := some false
        expectedUsers := some ["ada"]
        visible := some true
        gameProperties := some ((∅ : Hashtable).insert (.byte 255) (.byte 4)) }
    let once := sm.processIpcMessage (.child 5056) (.gameUpdate m) []
    once.2.sent.map Prod.fst = [.child 5057] ∧
      (once.1.processIpcMessage (.child 5056) (.gameUpdate m) []).2.sent = [] := by
  intro sm m once
  have hsm : sm.Reachable := .init ⟨⟨rfl, rfl, rfl⟩, rfl⟩
  refine ⟨by decide, ((gameUpdate_idempotent hsm).2 (.child 5056) (.child 5056) m rfl ?_).1⟩
  decide

end ServerManager

end LuxonServer
