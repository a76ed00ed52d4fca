import LuxonServer.Lobby.Listing
import LuxonServer.Lobby.Watch

/-! The list of a client that stays in a lobby: when it is the list that `get_game_list` would
compute, if the batch were sent now. -/

namespace LuxonServer

/-- A step of the client's process that is no request of the client, nor of a plugin or another
process. -/
def LobbyOp.isHosted : LobbyOp → Bool
  | .room _ op _ => op.isHosted
  | op => op.stays

theorem LobbyOp.stays_of_isHosted {op : LobbyOp} (hop : op.isHosted = true) :
    op.stays = true := by
  cases op with
  | room ref op trigger => rfl
  | _ => exact hop

namespace App

/-- Attempts in no room of the app belong to one that is created. -/
def LeasesOnce (app : App) : Prop := ∀ ref g, app.live.lookup ref = some g → g.LeaseOnce

/-- The rooms with an id are the same in both. -/
def SameFor (gameId : String) (app app' : App) : Prop :=
  ∀ ref g, g.info.id = gameId → (app'.live.lookup ref = some g ↔ app.live.lookup ref = some g)

variable {app app' : App} {gameId : String}

theorem sameFor_insert {ref : GameRef} {g' : Game} {lobbies : AList fun _ : LobbyId => Lobby}
    {games : AList fun _ : String => GameRef} {nextRef : GameRef} (hid : g'.info.id ≠ gameId)
    (hold : ∀ g, app.live.lookup ref = some g → g.info.id ≠ gameId) :
    SameFor gameId app
      { app with lobbies, games, nextRef, live := app.live.insert ref g' } := by
  intro other o ho
  simp only [AList.lookup_insert_eq]
  split
  · next heq =>
    refine iff_of_false ?_ fun hlive => hold o (heq ▸ hlive) ho
    rintro ⟨⟩
    exact hid ho
  · rfl

theorem sameFor_erase {ref : GameRef} {lobbies : AList fun _ : LobbyId => Lobby}
    {games : AList fun _ : String => GameRef}
    (hold : ∀ g, app.live.lookup ref = some g → g.info.id ≠ gameId) :
    SameFor gameId app { app with lobbies, games, live := app.live.erase ref } := by
  intro other o ho
  simp only [AList.lookup_erase_eq]
  split
  · next heq => exact iff_of_false nofun fun hlive => hold o (heq ▸ hlive) ho
  · rfl

theorem SameFor.roomIn (hsame : SameFor gameId app app') (hm : app.Mapped) (hm' : app'.Mapped)
    (lobby : LobbyId) : app'.roomIn lobby gameId = app.roomIn lobby gameId := by
  apply Option.ext
  intro g
  rw [hm.roomIn_eq_some, hm'.roomIn_eq_some]
  refine exists_congr fun ref => ?_
  rw [← and_assoc, ← and_assoc, and_congr_left_iff, and_congr_left_iff]
  exact fun _ hid => hsame ref g hid

theorem SameFor.entryOf (hsame : SameFor gameId app app') (notice : GameListUpdate) :
    app'.entryOf gameId notice = app.entryOf gameId notice := by
  cases notice with
  | delete id => rfl
  | update ref =>
    apply Option.ext
    intro props
    simp only [App.entryOf, Option.bind_eq_some_iff, Option.ite_none_right_eq_some]
    refine exists_congr fun g => ?_
    rw [and_congr_left_iff]
    exact fun hid => hsame ref g hid.1

end App

/-- What holds besides while the client stays, as long as no plugin and no other process hides a
room: a room that is not published is not in the client's list, or is deleted from it next. -/
structure ViewSound (lobby : LobbyId) (arrivals : List GameListUpdate) (w : LobbyWorld) : Prop
    extends Watched lobby arrivals w where
  leases : w.app.LeasesOnce
  gone : ∀ gameId, w.app.publishedIn lobby gameId = none →
    .delete gameId ∈ arrivals ∨ w.copy.lookup gameId = none

namespace LobbyWorld

variable {w : LobbyWorld}

/-- A room that is hidden is one that is not created, or has not been asked about. -/
theorem leasesOnce_step (hleases : w.app.LeasesOnce) {op : LobbyOp}
    (hop : ∀ ref roomOp trigger, op = .room ref roomOp trigger → roomOp.isHosted = true) :
    (w.step op).app.LeasesOnce := by
  intro ref g hg
  cases op with
  | connection peer slot => exact hleases ref g hg
  | createGame lobby id address orGet =>
    replace hg : (w.createGame lobby id address orGet).app.live.lookup ref = some g := hg
    rcases createGame_spec lobby id address orGet w with ⟨_, happ, -⟩ | ⟨_, -, happ, -⟩
    · rw [happ] at hg
      exact hleases ref g hg
    · simp only [happ, AList.lookup_insert_eq] at hg
      split at hg
      · cases hg
        exact nofun
      · exact hleases ref g hg
  | room other roomOp trigger =>
    cases hother : w.app.live.lookup other with
    | none =>
      simp only [step, perform, hother] at hg
      exact hleases ref g hg
    | some o =>
      simp only [step, perform, hother, act, AList.lookup_insert_eq] at hg
      split at hg
      · cases hg
        exact Room.leaseOnce_step _ (hleases other o hother) (hop other roomOp trigger rfl)
      · exact hleases ref g hg
  | dropGame other =>
    replace hg : (w.app.dropGame other).1.live.lookup ref = some g := hg
    cases hother : w.app.live.lookup other with
    | none =>
      simp only [App.dropGame, hother] at hg
      exact hleases ref g hg
    | some o =>
      obtain ⟨⟨_, hframe⟩, -, -⟩ := App.dropGame_spec hother
      simp only [hframe, AList.lookup_erase_eq] at hg
      split at hg
      · cases hg
      · exact hleases ref g hg
  | joinLobby requested =>
    obtain ⟨_, hframe⟩ := joinLobby_frame w requested
    replace hg : (w.joinLobby requested).app.live.lookup ref = some g := hg
    rw [hframe] at hg
    exact hleases ref g hg
  | leaveLobby =>
    obtain ⟨_, hframe⟩ := leaveLobby_frame w
    replace hg : w.leaveLobby.app.live.lookup ref = some g := hg
    rw [hframe] at hg
    exact hleases ref g hg
  | handleSlowUpdate =>
    replace hg : w.handleSlowUpdate.app.live.lookup ref = some g := hg
    rw [handleSlowUpdate_app] at hg
    exact hleases ref g hg

/-- Only a batch changes the list of a client that stays. -/
theorem copy_step {op : LobbyOp} (hop : op.stays = true) (hflush : op ≠ .handleSlowUpdate) :
    (w.step op).copy = w.copy := by
  cases op with
  | joinLobby requested => cases hop
  | leaveLobby => cases hop
  | handleSlowUpdate => exact absurd rfl hflush
  | room ref roomOp trigger =>
    simp only [step, perform]
    split <;> rfl
  | _ => rfl

theorem copy_handleSlowUpdate (w : LobbyWorld) : w.handleSlowUpdate.copy = w.viewNow := by
  unfold handleSlowUpdate
  split
  · next hnil =>
    simp only [viewNow, batch, hnil]
    rfl
  · rfl

end LobbyWorld

theorem App.Mapped.publishedIn_eq_none {app : App} (hm : app.Mapped) {lobby : LobbyId}
    {gameId : String} : app.publishedIn lobby gameId = none ↔
      ∀ ref g, app.live.lookup ref = some g → g.info.id = gameId → g.lobbyId = lobby →
        g.isPublished = false := by
  unfold App.publishedIn
  rw [Option.bind_eq_none_iff]
  simp only [hm.roomIn_eq_some, Game.shownEntry, ite_eq_right_iff, reduceCtorEq, imp_false,
    Bool.not_eq_true]
  constructor
  · exact fun hnone ref g hg hid hlobby => hnone g ⟨ref, hg, hid, hlobby⟩
  · rintro hnone g ⟨ref, hg, hid, hlobby⟩
    exact hnone ref g hg hid hlobby

namespace Watched

open LobbyWorld

variable {w : LobbyWorld} {lobby : LobbyId} {arrivals : List GameListUpdate} {gameId : String}

/-- A room that stops being published has been deleted in the step. -/
theorem delete_of_unpublished (hw : Watched lobby arrivals w) (hleases : w.app.LeasesOnce)
    (hdefault : lobby.2 = defaultLobbyType)
    {op : LobbyOp} (hop : op.isHosted = true) (hflush : op ≠ .handleSlowUpdate)
    (hbefore : w.app.publishedIn lobby gameId ≠ none)
    (hafter : (w.step op).app.publishedIn lobby gameId = none) :
    .delete gameId ∈ (w.heard op).map Prod.snd := by
  have hm := hw.indexed.mapped
  have hm' := (indexed_step hw.indexed op).mapped
  rw [ne_eq, hm.publishedIn_eq_none] at hbefore
  rw [hm'.publishedIn_eq_none] at hafter
  push Not at hbefore
  obtain ⟨ref, g, hg, hid, hlobby, hpublished⟩ := hbefore
  rw [Bool.ne_false_iff] at hpublished
  have hgone : (w.step op).app.live.lookup ref ≠ some g := by
    intro hstill
    rw [hafter ref g hstill hid hlobby] at hpublished
    cases hpublished
  rcases step_cases hw.joined hdefault (LobbyOp.stays_of_isHosted hop) hflush with
    ⟨lobbies, happ, -⟩ | ⟨lobbies, other, id, address, -, happ, -⟩ |
    ⟨changed, o, roomOp, trigger, rfl, ho, happ, hnotices⟩ |
    ⟨lobbies, dropped, o, rfl, ho, happ, hdelete⟩
  · rw [happ] at hgone
    exact absurd hg hgone
  · rw [happ] at hgone
    have hne : ref ≠ w.app.nextRef :=
      Nat.ne_of_lt (hw.indexed.sound.fresh ref (AList.mem_iff_lookup.mpr ⟨g, hg⟩))
    simp only [AList.lookup_insert_eq, if_neg hne] at hgone
    exact absurd hg hgone
  · by_cases hsame : ref = changed
    · subst hsame
      rw [hg] at ho
      cases ho
      have hunpublished := hafter ref ((w.roomAt ref g).step w.app.settings roomOp).game
        (by rw [happ]; exact AList.lookup_insert _)
        ((congrArg GameInfo.id (Room.info_step _ (w.roomAt ref g) roomOp)).trans hid)
        (by simp only [Game.lobbyId, Room.info_step]; exact hlobby)
      have heffect := Room.gameDelete_mem_allEffects (s := w.roomAt ref g)
        (hleases ref g hg) hop hpublished hunpublished
      rw [hnotices, if_pos hlobby]
      refine List.mem_filterMap.mpr ⟨.gameDelete, List.mem_append_left _ heffect, ?_⟩
      rw [Effect.notice, hid]
    · rw [happ] at hgone
      simp only [AList.lookup_insert_eq, if_neg hsame] at hgone
      exact absurd hg hgone
  · by_cases hsame : ref = dropped
    · subst hsame
      rw [hg] at ho
      cases ho
      simp only [Game.isPublished, Bool.and_eq_true] at hpublished
      rw [hdelete, if_pos ⟨hlobby, hpublished.2⟩, hid]
      exact List.mem_singleton.mpr rfl
    · rw [happ] at hgone
      simp only [AList.lookup_erase_eq, if_neg hsame] at hgone
      exact absurd hg hgone

end Watched

namespace ViewSound

open LobbyWorld

variable {w : LobbyWorld} {lobby : LobbyId} {arrivals : List GameListUpdate} {gameId : String}

/-- The client does not see what is not published. -/
theorem viewNow_of_unpublished (hv : ViewSound lobby arrivals w)
    (hnone : w.app.publishedIn lobby gameId = none) : w.viewNow.lookup gameId = none := by
  rw [viewNow, GameList.lookup_apply]
  cases hbatch : w.batch.lookup gameId with
  | some props =>
    rw [hv.batch_of_unpublished hnone hbatch]
    exact GameList.told_removedEntry
  | none =>
    rcases hv.gone gameId hnone with hdelete | hcopy
    · obtain ⟨props, hprops⟩ := hv.batch_of_delete hdelete
      rw [hprops] at hbatch
      cases hbatch
    · exact hcopy

theorem step (hv : ViewSound lobby arrivals w) (hdefault : lobby.2 = defaultLobbyType)
    {op : LobbyOp} (hop : op.isHosted = true) :
    ViewSound lobby (w.arrivalsAfter arrivals op) (w.step op) := by
  have hstays := LobbyOp.stays_of_isHosted hop
  have hwatched := hv.toWatched.step hdefault hstays
  refine ⟨hwatched, leasesOnce_step hv.leases ?_, fun gameId hnone => ?_⟩
  · rintro ref roomOp trigger rfl
    exact hop
  · by_cases hflush : op = .handleSlowUpdate
    · subst hflush
      have happ : (w.step .handleSlowUpdate).app = w.app := handleSlowUpdate_app w
      have hcopy : (w.step .handleSlowUpdate).copy = w.viewNow := copy_handleSlowUpdate w
      rw [happ] at hnone
      rw [hcopy]
      exact Or.inr (hv.viewNow_of_unpublished hnone)
    · rw [Watched.arrivalsAfter_eq arrivals hflush, copy_step hstays hflush, List.mem_append]
      by_cases hbefore : w.app.publishedIn lobby gameId = none
      · exact (hv.gone gameId hbefore).imp_left Or.inl
      · refine Or.inl (Or.inr ?_)
        exact hv.delete_of_unpublished hv.leases hdefault hop hflush hbefore hnone

end ViewSound

namespace LobbyWorld

/-- The client's list is the one that `get_game_list` would compute, if the batch were sent now. -/
def Current (lobby : LobbyId) (w : LobbyWorld) : Prop :=
  ∀ gameId, (w.viewNow.lookup gameId).map AList.toFinmap =
    ((w.app.getGameList lobby fun _ => true).lookup gameId).map AList.toFinmap

/-- Whether the next batch tells of the room after an operation: the operation does, or it has been
told of already. -/
def isDue (ref : GameRef) (g : Game) (op : RoomOp) (trigger : Bool) (w : LobbyWorld) : Bool :=
  trigger || (w.roomAt ref g).tells op ||
    decide (.update ref ∈ w.handler.pendingGameListUpdates)

/-- When an operation on a room of the lobby keeps it so, said of the room before the operation: if
the next batch tells of the room, the room is not left published and closed; otherwise its entry in
the full list is kept. -/
def KeepsCurrent (lobby : LobbyId) (w : LobbyWorld) : LobbyOp → Prop
  | .room ref op trigger =>
    ∀ g ∈ w.app.live.lookup ref, g.lobbyId = lobby →
      if w.isDue ref g op trigger = true then (w.roomAt ref g).LeavesOpen op
      else (w.roomAt ref g).KeepsEntry op
  | _ => True

instance (lobby : LobbyId) (w : LobbyWorld) : ∀ op, Decidable (w.KeepsCurrent lobby op)
  | .room ref op trigger =>
    inferInstanceAs (Decidable (∀ g ∈ w.app.live.lookup ref, g.lobbyId = lobby →
      if w.isDue ref g op trigger = true then (w.roomAt ref g).LeavesOpen op
      else (w.roomAt ref g).KeepsEntry op))
  | .connection _ _ | .createGame _ _ _ _ | .dropGame _ | .joinLobby _ | .leaveLobby
  | .handleSlowUpdate => .isTrue trivial

/-- Few enough rooms and notifications for the caps not to matter. -/
def Small (w : LobbyWorld) : Prop :=
  w.handler.pendingGameListUpdates.length < 500 ∧ w.app.liveCount < 500

instance : DecidablePred Small := fun _ => inferInstanceAs (Decidable (_ ∧ _))

end LobbyWorld

namespace Watched

open LobbyWorld

variable {w : LobbyWorld} {lobby : LobbyId} {gameId : String}

/-- The client sees a room as the next batch shows it if the batch does, and as before otherwise. -/
theorem viewNow_of_room (hw : Watched lobby w.handler.pendingGameListUpdates w) {ref : GameRef}
    {g : Game} (hg : w.app.live.lookup ref = some g) (hlobby : g.lobbyId = lobby) :
    w.viewNow.lookup g.info.id =
      if .update ref ∈ w.handler.pendingGameListUpdates then g.shownEntry
      else w.copy.lookup g.info.id := by
  have hanswered := hw.notices.renewed ref g hg hlobby
  rw [viewNow, GameList.lookup_apply]
  split
  · next hupdate =>
    obtain ⟨before, after, hpending, hafter⟩ := hanswered.exists_split hupdate
    rw [hw.batch_of_update hg hpending hafter]
    exact g.told_batchEntry
  · next hupdate =>
    cases hbatch : w.batch.lookup g.info.id with
    | none => rfl
    | some props =>
      obtain ⟨notice, hnotice, hentry⟩ := hw.mem_of_batch hbatch
      rcases hw.entryOf_cases hnotice hentry with ⟨rfl, -⟩ | ⟨other, o, rfl, ho, hid, -, -⟩
      · obtain ⟨before, after, hpending⟩ := List.append_of_mem hnotice
        refine absurd ?_ hupdate
        rw [hpending]
        exact List.mem_append_right _ (List.mem_cons_of_mem _ (hanswered before after hpending))
      · rw [hw.indexed.mapped.eq_of_id hg ho hid] at hnotice
        exact absurd hnotice hupdate

/-- What the client sees under the id of no room that the step is about stays as it is. -/
theorem viewNow_step_of_same {op : LobbyOp} (hstays : op.stays = true)
    (hflush : op ≠ .handleSlowUpdate)
    (hpending : (w.step op).handler.pendingGameListUpdates =
      w.handler.pendingGameListUpdates ++ (w.heard op).map Prod.snd)
    (hsame : App.SameFor gameId w.app (w.step op).app)
    (hnone : ∀ notice ∈ (w.heard op).map Prod.snd,
      (w.step op).app.entryOf gameId notice = none) :
    (w.step op).viewNow.lookup gameId = w.viewNow.lookup gameId := by
  rw [viewNow, viewNow, GameList.lookup_apply, GameList.lookup_apply, copy_step hstays hflush,
    batch, batch, App.lookup_gameListBatch, App.lookup_gameListBatch, hpending,
    List.filterMap_append, List.filterMap_eq_nil_iff.mpr hnone, List.append_nil,
    funext hsame.entryOf]

end Watched

theorem Game.listedEntry_of_shownEntry {g : Game} (hnone : g.shownEntry = none) :
    g.listedEntry = none := by
  unfold shownEntry isPublished at hnone
  unfold listedEntry isJoinable
  revert hnone
  cases g.isCreated <;> cases g.isVisible <;> simp

/-- A published room is in the full list unless it is closed. -/
theorem Game.shownEntry_eq_listedEntry_iff {g : Game} (hlease : g.LeaseOnce) :
    g.shownEntry.map AList.toFinmap = g.listedEntry.map AList.toFinmap ↔
      (g.isPublished = true → g.isOpen = true) := by
  unfold shownEntry listedEntry isPublished isJoinable
  cases hcreated : g.isCreated with
  | false => simp
  | true =>
    have hcreating : g.isCreating = false := by
      by_contra htrue
      have hthis := (hlease (Bool.eq_true_of_not_eq_false htrue)).1
      rw [hcreated] at hthis
      cases hthis
    cases g.isVisible <;> cases g.isOpen <;> simp [hcreating]

namespace ViewSound

open LobbyWorld

variable {w : LobbyWorld} {lobby : LobbyId} {gameId : String}

/-- The client sees what the full list has under an id. -/
def SeesListed (lobby : LobbyId) (w : LobbyWorld) (gameId : String) : Prop :=
  (w.viewNow.lookup gameId).map AList.toFinmap =
    ((w.app.roomIn lobby gameId).bind Game.listedEntry).map AList.toFinmap

theorem current_iff (hv : ViewSound lobby w.handler.pendingGameListUpdates w)
    (hfew : w.app.liveCount ≤ 500) : w.Current lobby ↔ ∀ gameId, SeesListed lobby w gameId := by
  refine forall_congr' fun gameId => ?_
  rw [hv.indexed.lookup_getGameList hfew, SeesListed]

/-- The client sees nothing under the id of a room that is not published, and rightly so. -/
theorem seesListed_of_unpublished (hv : ViewSound lobby w.handler.pendingGameListUpdates w)
    (hnone : w.app.publishedIn lobby gameId = none) : SeesListed lobby w gameId := by
  unfold SeesListed
  rw [hv.viewNow_of_unpublished hnone]
  rw [App.publishedIn] at hnone
  cases hroom : w.app.roomIn lobby gameId with
  | none => rfl
  | some g =>
    rw [hroom, Option.bind_some] at hnone
    rw [Option.bind_some, g.listedEntry_of_shownEntry hnone]

/-- A room of the lobby, seen as the next batch shows it or as before. -/
theorem seesListed_room_iff (hv : ViewSound lobby w.handler.pendingGameListUpdates w)
    {ref : GameRef} {g : Game} (hg : w.app.live.lookup ref = some g) (hlobby : g.lobbyId = lobby) :
    SeesListed lobby w g.info.id ↔
      if .update ref ∈ w.handler.pendingGameListUpdates then
        g.isPublished = true → g.isOpen = true
      else (w.copy.lookup g.info.id).map AList.toFinmap = g.listedEntry.map AList.toFinmap := by
  have hroom := hv.indexed.mapped.roomIn_of_live hg
  rw [hlobby] at hroom
  rw [SeesListed, hv.viewNow_of_room hg hlobby, hroom, Option.bind_some]
  split
  · exact Game.shownEntry_eq_listedEntry_iff (hv.leases ref g hg)
  · rfl

/-- What the client sees under an id that the step is not about. -/
theorem seesListed_step (hv : ViewSound lobby w.handler.pendingGameListUpdates w)
    (gameId : String) (op : LobbyOp) (hstays : op.stays = true)
    (hflush : op ≠ .handleSlowUpdate)
    (hpending : (w.step op).handler.pendingGameListUpdates =
      w.handler.pendingGameListUpdates ++ (w.heard op).map Prod.snd)
    (hsame : App.SameFor gameId w.app (w.step op).app)
    (hnone : ∀ notice ∈ (w.heard op).map Prod.snd, w.app.entryOf gameId notice = none)
    (hsees : SeesListed lobby w gameId) : SeesListed lobby (w.step op) gameId := by
  have hview := Watched.viewNow_step_of_same hstays hflush hpending hsame fun notice hnotice => by
    rw [hsame.entryOf, hnone notice hnotice]
  unfold SeesListed
  rw [hview, hsame.roomIn hv.indexed.mapped (indexed_step hv.indexed op).mapped]
  exact hsees

/-- The next batch tells of the room exactly if `isDue` foresees it. -/
theorem isDue_iff (w : LobbyWorld) (ref : GameRef) (g : Game) {roomOp : RoomOp}
    (hop : roomOp.isHosted = true) (trigger : Bool) : w.isDue ref g roomOp trigger = true ↔
      .update ref ∈ w.handler.pendingGameListUpdates ++
        (w.roomEffects ref g roomOp trigger).filterMap (Effect.notice ref g.info.id) := by
  have hnotice : ∀ effects : List Effect,
      .update ref ∈ effects.filterMap (Effect.notice ref g.info.id) ↔ .gameUpdate ∈ effects := by
    intro effects
    rw [List.mem_filterMap]
    constructor
    · rintro ⟨effect, heffect, hupdate⟩
      cases effect with
      | gameUpdate => exact heffect
      | gameDelete => cases hupdate
      | ipcBroadcast message => cases hupdate
    · exact fun hupdate => ⟨.gameUpdate, hupdate, rfl⟩
  rw [List.mem_append, hnotice, roomEffects, List.mem_append,
    Room.gameUpdate_mem_allEffects _ _ hop, isDue, Bool.or_eq_true, Bool.or_eq_true,
    decide_eq_true_eq]
  cases trigger with
  | false => simp [or_comm]
  | true => simp [Game.triggerLobbyUpdate]

theorem seesListed_room_step_iff (hv : ViewSound lobby w.handler.pendingGameListUpdates w)
    (hdefault : lobby.2 = defaultLobbyType) {ref : GameRef} {g : Game} {roomOp : RoomOp}
    {trigger : Bool} (hg : w.app.live.lookup ref = some g) (hop : roomOp.isHosted = true)
    {w' : LobbyWorld}
    (hw' : w.step (.room ref roomOp trigger) = w')
    (hv' : ViewSound lobby w'.handler.pendingGameListUpdates w')
    (hpending : w'.handler.pendingGameListUpdates = w.handler.pendingGameListUpdates ++
      (w.heard (.room ref roomOp trigger)).map Prod.snd)
    (hsees : SeesListed lobby w g.info.id) :
    SeesListed lobby w' g.info.id ↔ w.KeepsCurrent lobby (.room ref roomOp trigger) := by
  obtain ⟨happ, hheard⟩ := step_room trigger hv.joined hdefault hg roomOp
  rw [hw'] at happ
  have hinfo : ((w.roomAt ref g).step w.app.settings roomOp).game.info = g.info :=
    Room.info_step _ _ _
  have hlive : w'.app.live.lookup ref =
      some ((w.roomAt ref g).step w.app.settings roomOp).game := by
    rw [happ]
    exact AList.lookup_insert _
  have hlease : (w.roomAt ref g).game.LeaseOnce := hv.leases ref g hg
  have hopen := Room.isOpen_step_iff w.app.settings hlease hop
  have hentry := Room.listedEntry_step_iff w.app.settings hlease hop
  have hgame : (w.roomAt ref g).game = g := rfl
  rw [hgame] at hentry
  simp only [KeepsCurrent, isDue_iff w ref g hop, hg, Option.mem_def, Option.some.injEq,
    forall_eq']
  generalize ((w.roomAt ref g).step w.app.settings roomOp).game = g' at hinfo hlive hopen hentry
  have hlobby : g'.lobbyId = g.lobbyId := by simp only [Game.lobbyId, hinfo]
  by_cases hours : g.lobbyId = lobby
  · have hroom := hv'.seesListed_room_iff hlive (hlobby.trans hours)
    rw [hinfo, hpending, hheard, if_pos hours] at hroom
    rw [hroom]
    simp only [hours, true_imp_iff]
    split
    · exact hopen
    · next hupdate =>
      rw [hv.seesListed_room_iff hg hours,
        if_neg fun hmem => hupdate (List.mem_append_left _ hmem)] at hsees
      have hcopy : w'.copy = w.copy := by
        rw [← hw']
        exact copy_step rfl (by simp)
      have hquiet : (w.roomAt ref g).tells roomOp = false := by
        rw [Bool.eq_false_iff]
        intro htells
        refine hupdate ((isDue_iff w ref g hop trigger).mp ?_)
        rw [isDue, htells, Bool.or_true, Bool.true_or]
      rw [hcopy, hsees, eq_comm]
      exact hentry hquiet
  · refine iff_of_true (hv'.seesListed_of_unpublished ?_) fun heq => absurd heq hours
    rw [hv'.indexed.mapped.publishedIn_eq_none]
    intro other o ho hid holobby
    have hsame := hv'.indexed.mapped.eq_of_id hlive ho (by rw [hid, hinfo])
    rw [hsame, hlive] at ho
    cases ho
    exact absurd (hlobby.symm.trans holobby) hours

theorem arrivalsAfter_of_short (hv : ViewSound lobby w.handler.pendingGameListUpdates w)
    {op : LobbyOp} (hshort : (w.step op).handler.pendingGameListUpdates.length < 500) :
    w.arrivalsAfter w.handler.pendingGameListUpdates op =
      (w.step op).handler.pendingGameListUpdates := by
  have hqueued := hv.queued_step op
  rw [hqueued] at hshort
  rw [hqueued, BoundedQueue.pushAll_of_lt hshort, List.nil_append]

/-- A step that is no operation on a room keeps the client's list current. -/
theorem seesListed_step_of_no_room (hv : ViewSound lobby w.handler.pendingGameListUpdates w)
    (hdefault : lobby.2 = defaultLobbyType) {op : LobbyOp} (hstays : op.stays = true)
    (hflush : op ≠ .handleSlowUpdate)
    (hroom : ∀ ref g roomOp trigger, op = .room ref roomOp trigger →
      w.app.live.lookup ref ≠ some g)
    (hv' : ViewSound lobby (w.step op).handler.pendingGameListUpdates (w.step op))
    (hpending : (w.step op).handler.pendingGameListUpdates =
      w.handler.pendingGameListUpdates ++ (w.heard op).map Prod.snd)
    (hsees : ∀ gameId, SeesListed lobby w gameId) (gameId : String) :
    SeesListed lobby (w.step op) gameId := by
  have hother := hv.seesListed_step gameId op hstays hflush hpending
  rcases step_cases hv.joined hdefault hstays hflush with ⟨lobbies, happ, hnil⟩ |
    ⟨lobbies, other, id, address, hfree, happ, hone⟩ |
    ⟨ref, g, roomOp, trigger, rfl, hg, -, -⟩ | ⟨lobbies, ref, g, rfl, hg, happ, hdelete⟩
  · rw [happ, hnil] at hother
    exact hother (fun _ _ _ => Iff.rfl) (fun _ hn => absurd hn List.not_mem_nil) (hsees gameId)
  · by_cases hid : gameId = id
    · -- The room is new, and no one is shown it.
      apply hv'.seesListed_of_unpublished
      rw [hv'.indexed.mapped.publishedIn_eq_none]
      intro ref g hg hgid _
      simp only [happ, AList.lookup_insert_eq] at hg
      split at hg
      · cases hg
        rfl
      · have hmapped := (hv.indexed.mapped gameId ref).mpr ⟨g, hg, hgid⟩
        rw [hid, hfree] at hmapped
        cases hmapped
    · rw [happ, hone] at hother
      refine hother (App.sameFor_insert (Ne.symm hid) fun g hg => ?_) (fun notice hn => ?_)
        (hsees gameId)
      · rw [hv.indexed.sound.lookup_nextRef] at hg
        cases hg
      · split at hn
        · rw [List.mem_singleton.mp hn, App.entryOf, hv.indexed.sound.lookup_nextRef]
          rfl
        · cases hn
  · exact absurd hg (hroom ref g roomOp trigger rfl)
  · by_cases hid : gameId = g.info.id
    · apply hv'.seesListed_of_unpublished
      rw [hv'.indexed.mapped.publishedIn_eq_none]
      intro other o ho hoid _
      simp only [happ, AList.lookup_erase_eq] at ho
      split at ho
      · cases ho
      · next hne => exact absurd (hv.indexed.mapped.eq_of_id hg ho (hoid.trans hid)) hne
    · rw [happ, hdelete] at hother
      refine hother (App.sameFor_erase fun o ho => ?_) (fun notice hn => ?_) (hsees gameId)
      · rw [hg] at ho
        cases ho
        exact Ne.symm hid
      · split at hn
        · rw [List.mem_singleton.mp hn, App.entryOf, if_neg (Ne.symm hid)]
        · cases hn

/-- An operation on a room leaves the other ids alone. -/
theorem seesListed_room_step (hv : ViewSound lobby w.handler.pendingGameListUpdates w)
    (hdefault : lobby.2 = defaultLobbyType) {ref : GameRef} {g : Game} {roomOp : RoomOp}
    {trigger : Bool} (hg : w.app.live.lookup ref = some g)
    (hpending : (w.step (.room ref roomOp trigger)).handler.pendingGameListUpdates =
      w.handler.pendingGameListUpdates ++ (w.heard (.room ref roomOp trigger)).map Prod.snd)
    (hid : gameId ≠ g.info.id) (hsees : SeesListed lobby w gameId) :
    SeesListed lobby (w.step (.room ref roomOp trigger)) gameId := by
  obtain ⟨happ, hheard⟩ := step_room trigger hv.joined hdefault hg roomOp
  have hother := hv.seesListed_step gameId (.room ref roomOp trigger) rfl nofun hpending
  rw [happ, hheard] at hother
  have hold : ∀ o, w.app.live.lookup ref = some o → o.info.id ≠ gameId := by
    rintro o ho rfl
    rw [hg] at ho
    cases ho
    exact hid rfl
  refine hother (App.sameFor_insert ?_ hold) (fun notice hn => ?_) hsees
  · rw [Room.info_step]
    exact Ne.symm hid
  · split at hn
    · obtain ⟨effect, -, heffect⟩ := List.mem_filterMap.mp hn
      cases effect <;> simp only [Effect.notice, Option.some.injEq, reduceCtorEq] at heffect
      · simp [← heffect, App.entryOf, hg, Ne.symm hid]
      · simp [← heffect, App.entryOf, Ne.symm hid]
    · cases hn

theorem current_step_iff (hv : ViewSound lobby w.handler.pendingGameListUpdates w)
    (hdefault : lobby.2 = defaultLobbyType) {op : LobbyOp} (hop : op.isHosted = true)
    (hshort : (w.step op).handler.pendingGameListUpdates.length < 500)
    (hfew : w.app.liveCount ≤ 500) (hfew' : (w.step op).app.liveCount ≤ 500)
    (hcurrent : w.Current lobby) : (w.step op).Current lobby ↔ w.KeepsCurrent lobby op := by
  have hstays := LobbyOp.stays_of_isHosted hop
  have harrivals := hv.arrivalsAfter_of_short hshort
  have hv' := hv.step hdefault hop
  rw [harrivals] at hv'
  rw [hv.current_iff hfew] at hcurrent
  rw [hv'.current_iff hfew']
  by_cases hflush : op = .handleSlowUpdate
  · subst hflush
    refine iff_of_true (fun gameId => ?_) trivial
    have hbatch : (w.step .handleSlowUpdate).batch = ∅ := by
      rw [batch, pending_step]
      have hnil := pending_handleSlowUpdate w
      simp only [perform, hnil]
      rfl
    have hcopy : (w.step .handleSlowUpdate).copy = w.viewNow := copy_handleSlowUpdate w
    have happ : (w.step .handleSlowUpdate).app = w.app := handleSlowUpdate_app w
    unfold SeesListed
    rw [viewNow, hbatch, GameList.lookup_apply, hcopy, happ]
    exact hcurrent gameId
  rw [Watched.arrivalsAfter_eq _ hflush] at harrivals
  by_cases hroom : ∃ ref g roomOp trigger, op = .room ref roomOp trigger ∧
      w.app.live.lookup ref = some g
  · obtain ⟨ref, g, roomOp, trigger, rfl, hg⟩ := hroom
    rw [← hv.seesListed_room_step_iff hdefault hg hop rfl hv' harrivals.symm
      (hcurrent g.info.id)]
    refine ⟨fun hall => hall _, fun hone gameId => ?_⟩
    by_cases hid : gameId = g.info.id
    · rwa [hid]
    · exact hv.seesListed_room_step hdefault hg harrivals.symm hid (hcurrent gameId)
  · refine iff_of_true (hv.seesListed_step_of_no_room hdefault hstays hflush ?_ hv'
      harrivals.symm hcurrent) ?_
    · exact fun ref g roomOp trigger heq hg => hroom ⟨ref, g, roomOp, trigger, heq, hg⟩
    · cases op with
      | room ref roomOp trigger =>
        exact fun g hg => absurd ⟨ref, g, roomOp, trigger, rfl, hg⟩ hroom
      | _ => trivial

end ViewSound

namespace LobbyWorld

variable {w : LobbyWorld} {lobby : LobbyId}

/-- The client has not joined a lobby yet. -/
structure Unjoined (w : LobbyWorld) : Prop where
  indexed : w.app.Indexed
  joined : w.handler.joinedLobby = none
  pending : w.handler.pendingGameListUpdates = []
  leases : w.app.LeasesOnce

theorem IsFresh.unjoined (hfresh : w.IsFresh) : w.Unjoined := by
  obtain ⟨hempty, hhandler, -⟩ := hfresh
  refine ⟨App.Indexed.of_isEmpty hempty, by rw [hhandler], by rw [hhandler], ?_⟩
  intro ref g hg
  rw [hempty.2.2] at hg
  cases hg

theorem Unjoined.step (hw : w.Unjoined) {op : LobbyOp} (hop : op.isHosted = true) :
    (w.step op).Unjoined := by
  have hheard : w.heard op = [] := by
    rw [heard, List.filter_eq_nil_iff]
    intro notice _
    rw [MasterServerHandler.hears, hw.joined]
    simp
  refine ⟨indexed_step hw.indexed op, ?_, ?_, leasesOnce_step hw.leases ?_⟩
  · rw [joinedLobby_step]
    rcases joinedLobby_perform w op with heq | ⟨-, rfl | ⟨requested, rfl⟩⟩
    · rw [heq, hw.joined]
    · cases hop
    · cases hop
  · rw [pending_step, hheard, List.map_nil, BoundedQueue.pushAll_nil]
    by_cases hflush : op = .handleSlowUpdate
    · rw [hflush]
      exact pending_handleSlowUpdate w
    · rw [pending_perform hflush, hw.pending]
  · rintro ref roomOp trigger rfl
    exact hop

/-- A client that has just joined has the full list, and nothing is pending. -/
theorem Unjoined.after_join (hw : w.Unjoined) {w' : LobbyWorld}
    (hw' : w.step (.joinLobby lobby) = w') :
    w'.app.Indexed ∧ w'.app.LeasesOnce ∧ w'.handler.joinedLobby = some lobby ∧
      w'.handler.pendingGameListUpdates = [] ∧
      w'.copy = w'.app.getGameList lobby fun _ => true := by
  have hrequested : w.handler.requestedLobby lobby = lobby := by
    rw [MasterServerHandler.requestedLobby, hw.joined, Option.getD_none, ite_self]
  subst hw'
  refine ⟨indexed_step hw.indexed _, leasesOnce_step hw.leases ?_, ?_, ?_, ?_⟩
  · intro ref roomOp trigger heq
    cases heq
  · rw [joinedLobby_step]
    exact congrArg some hrequested
  · rw [pending_step]
    exact hw.pending
  · simp only [LobbyWorld.step, perform, LobbyWorld.joinLobby, hrequested]

/-- The list that the client gets when it joins is current. -/
theorem Unjoined.joinLobby (hw : w.Unjoined) {w' : LobbyWorld}
    (hw' : w.step (.joinLobby lobby) = w') (hfew : w'.app.liveCount ≤ 500) :
    ViewSound lobby [] w' ∧ w'.Current lobby := by
  obtain ⟨hindexed, hleases, hjoined, hpending, hcopy⟩ := hw.after_join hw'
  refine ⟨⟨⟨hindexed, hjoined, hpending, NoticesSound.of_nil lobby _⟩, hleases, ?_⟩, ?_⟩
  · intro gameId hnone
    right
    rw [hcopy, hindexed.lookup_getGameList hfew]
    rw [App.publishedIn] at hnone
    cases hroom : w'.app.roomIn lobby gameId with
    | none => rfl
    | some g =>
      rw [hroom, Option.bind_some] at hnone
      exact g.listedEntry_of_shownEntry hnone
  · intro gameId
    rw [viewNow, batch, hpending, ← hcopy]
    rfl

/-- A client joins a default lobby and stays, in a process that starts without rooms: as long as
there are few enough rooms and notifications, its list is that of `get_game_list` whenever a batch
may be sent, exactly if every operation on a room of the lobby keeps it so. -/
theorem always_current_iff (hfresh : w.IsFresh) {before ops : List LobbyOp}
    (hbefore : ∀ op ∈ before, op.isHosted = true) (hops : ∀ op ∈ ops, op.isHosted = true)
    (lobby : LobbyId) (hdefault : lobby.2 = defaultLobbyType)
    (hsmall : Transition.Always step Small
      (Transition.run step w (before ++ [.joinLobby lobby])) ops) :
    Transition.Always step (Current lobby)
        (Transition.run step w (before ++ [.joinLobby lobby])) ops ↔
      Transition.EachStep step (KeepsCurrent lobby)
        (Transition.run step w (before ++ [.joinLobby lobby])) ops := by
  have hunjoined : (Transition.run step w before).Unjoined := by
    have hkeeps : Transition.Keeps step (fun _ op => op.isHosted = true) Unjoined :=
      fun _ _ hw hop => hw.step hop
    exact hkeeps.run hfresh.unjoined (Transition.eachStep_of_forall fun op hop _ => hbefore op hop)
  rw [Transition.run_append] at hsmall ⊢
  generalize hjoin : Transition.run step (Transition.run step w before) [.joinLobby lobby] = w₀
    at hsmall ⊢
  have hw₀ : (Transition.run step w before).step (.joinLobby lobby) = w₀ := hjoin
  obtain ⟨hview, hcurrent⟩ := hunjoined.joinLobby hw₀ hsmall.head.2.le
  have hpending : w₀.handler.pendingGameListUpdates = [] := hview.queued
  refine Transition.always_iff_eachStep
    (I := fun w => ViewSound lobby w.handler.pendingGameListUpdates w ∧ w.app.liveCount ≤ 500)
    (B := fun w op => op.isHosted = true ∧ (w.step op).Small) ?_ ?_
    ⟨hpending ▸ hview, hsmall.head.2.le⟩ hcurrent ?_
  · rintro w op ⟨hv, -⟩ ⟨hop, hshort, hfew⟩
    refine ⟨?_, hfew.le⟩
    rw [← hv.arrivalsAfter_of_short hshort]
    exact hv.step hdefault hop
  · rintro w op ⟨hv, hfew⟩ ⟨hop, hshort, hfew'⟩ hcurrent
    exact hv.current_step_iff hdefault hop hshort hfew hfew'.le hcurrent
  · exact (Transition.eachStep_of_forall fun op hop _ => hops op hop).and hsmall.eachStep_after

def adaCreates : List LobbyOp :=
  [.createGame ("lobby", 0) "room" "" false, .room 0 (.connect 1) false,
    .room 0 (.setPersistent 1 (some { userId := "ada", token := "a" })) false,
    .room 0 (.tryBeginCreation (some 1)) false, .room 0 (.createPeer (some 1)) false,
    .room 0 (.addPeerForCreation 0 (some 1) 1) true, .room 0 (.commitCreation (some 1) 1) true,
    .handleSlowUpdate]

/-- A client watches a room being created, and then its limit being set. -/
theorem always_current_iff_limit_set :
    Transition.Always step (Current ("lobby", 0))
      (Transition.run step start ([] ++ [.joinLobby ("lobby", 0)]))
      (adaCreates ++ [.room 0 (.insertGameProps (AList.insert (.byte 255) (.byte 4) ∅)) false]) :=
  (always_current_iff isFresh_start (by decide) (by decide) ("lobby", 0) rfl (by decide)).mpr
    (by decide)

/-- The room is closed: the next batch still shows it, and `get_game_list` does not. -/
theorem not_always_current_closed :
    let ops : List LobbyOp :=
      adaCreates ++ [.room 0 (.insertGameProps (AList.insert (.byte 253) (.bool false) ∅)) false]
    (∀ op ∈ ops, op.isHosted = true) ∧
      Transition.Always step Small
        (Transition.run step start ([] ++ [.joinLobby ("lobby", 0)])) ops ∧
      ¬Transition.Always step (Current ("lobby", 0))
        (Transition.run step start ([] ++ [.joinLobby ("lobby", 0)])) ops := by
  refine ⟨by decide, by decide, fun halways => ?_⟩
  have hlast := halways.last "room"
  revert hlast
  decide

end LobbyWorld

end LuxonServer
