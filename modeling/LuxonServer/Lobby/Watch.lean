import LuxonServer.Lobby.World

/-! A client that stays in one lobby: how the notifications that have come since the last batch go
with the rooms, and what the client would see if the batch were sent now. -/

namespace LuxonServer

namespace Game

/-- What an update tells the lobby when it hides the room, and when it is a change otherwise. -/
theorem insertGameProps_effects (settings : AppSettings) (update : Hashtable) (g : Game) :
    let g' := (g.insertGameProps settings update).1
    let effects := (g.insertGameProps settings update).2
    (g.isVisible = true → g'.isVisible = true) ∧
        (effects = [] ∨ effects = g'.triggerLobbyUpdate) ∨
      effects = .gameDelete :: g'.triggerLobbyUpdate := by
  intro g' effects
  simp only [g', effects, insertGameProps]
  generalize (if (g.insertProps settings update).changed = true then _ else _ : Game) = after
  cases hbefore : g.isVisible <;> cases hafter : after.isVisible
  · left
    refine ⟨by simp, ?_⟩
    simp only [bne_self_eq_false, Bool.false_eq_true, false_and, if_false, or_false,
      List.nil_append]
    split
    · exact Or.inr rfl
    · exact Or.inl rfl
  · exact Or.inl ⟨by simp, Or.inr (by simp)⟩
  · exact Or.inr (by simp)
  · left
    refine ⟨fun _ => rfl, ?_⟩
    simp only [bne_self_eq_false, Bool.false_eq_true, false_and, if_false, or_false,
      List.nil_append]
    split
    · exact Or.inr rfl
    · exact Or.inl rfl

end Game

namespace Room

open Game

variable {settings : AppSettings} {s : Room}

/-- The handlers of the lobby are called with a room that is deleted first if at all. -/
theorem allEffects_cases (settings : AppSettings) (s : Room) (op : RoomOp) :
    s.allEffects settings op = [] ∨ (∃ g : Game, s.allEffects settings op = g.triggerLobbyUpdate) ∨
      ∃ g : Game, s.allEffects settings op = .gameDelete :: g.triggerLobbyUpdate := by
  have hinsert : ∀ (update : Hashtable) (g : Game),
      (g.insertGameProps settings update).2 = [] ∨
        (∃ g' : Game, (g.insertGameProps settings update).2 = g'.triggerLobbyUpdate) ∨
        ∃ g' : Game, (g.insertGameProps settings update).2 = .gameDelete :: g'.triggerLobbyUpdate := by
    intro update g
    rcases insertGameProps_effects settings update g with ⟨-, hnil | hone⟩ | htwo
    · exact Or.inl hnil
    · exact Or.inr (Or.inl ⟨_, hone⟩)
    · exact Or.inr (Or.inr ⟨_, htwo⟩)
  cases op with
  | insertGameProps update => exact hinsert update s.game
  | applyGameProps update expected =>
    simp only [allEffects, effects, applyGameProps]
    split
    · exact hinsert update s.game
    · exact Or.inl rfl
  | receiveUpdate isNew message =>
    simp only [allEffects, receiveUpdate]
    split
    · simp only [applyUpdate, applyUpdateProps]
      split
      · exact Or.inl rfl
      · exact hinsert _ _
    · exact Or.inl rfl
  | _ => exact Or.inl rfl

end Room

namespace LobbyWorld

/-- The notifications since the last batch, after a step. -/
def arrivalsAfter (arrivals : List GameListUpdate) (w : LobbyWorld) : LobbyOp → List GameListUpdate
  | .handleSlowUpdate => []
  | op => arrivals ++ (w.heard op).map Prod.snd

/-- What the client would see if the batch were sent now. -/
def viewNow (w : LobbyWorld) : GameList := w.batch.apply w.copy

end LobbyWorld

/-- The client stays in its lobby. -/
def LobbyOp.stays : LobbyOp → Bool
  | .joinLobby _ | .leaveLobby => false
  | _ => true

/-- What the batches of a lobby show under an id, when they have shown every change. -/
def App.publishedIn (lobby : LobbyId) (gameId : String) (app : App) : Option Hashtable :=
  (app.roomIn lobby gameId).bind Game.shownEntry

/-- The notifications are about rooms of the lobby, and a room with an id that they delete has been
announced again. -/
structure NoticesSound (lobby : LobbyId) (arrivals : List GameListUpdate) (app : App) : Prop where
  older : ∀ ref, .update ref ∈ arrivals → ref < app.nextRef
  ours : ∀ ref g, .update ref ∈ arrivals → app.live.lookup ref = some g → g.lobbyId = lobby
  renewed : ∀ ref g, app.live.lookup ref = some g → g.lobbyId = lobby →
    arrivals.Answered (.delete g.info.id) (.update ref)

/-- A client is in a lobby, and the notifications since the last batch are `arrivals`. -/
structure Watched (lobby : LobbyId) (arrivals : List GameListUpdate) (w : LobbyWorld) : Prop where
  indexed : w.app.Indexed
  joined : w.handler.joinedLobby = some lobby
  queued : w.handler.pendingGameListUpdates =
    BoundedQueue.pushAll 500 GameListUpdate.isUpdate [] arrivals
  notices : NoticesSound lobby arrivals w.app

/-- No other room has the id of a room that is alive. -/
theorem App.Mapped.eq_of_id {app : App} (hm : app.Mapped) {ref other : GameRef} {g o : Game}
    (hg : app.live.lookup ref = some g) (ho : app.live.lookup other = some o)
    (hid : o.info.id = g.info.id) : other = ref := by
  have href := (hm g.info.id ref).mpr ⟨g, hg, rfl⟩
  have hother := (hm g.info.id other).mpr ⟨o, ho, hid⟩
  rw [href] at hother
  exact (Option.some.inj hother).symm

namespace LobbyWorld

variable {w : LobbyWorld} {lobby : LobbyId} {arrivals : List GameListUpdate}

/-- The notifications of an operation on a room: updates, behind a delete if it was hidden. -/
theorem roomNotices_cases (ref : GameRef) (g : Game) (op : RoomOp) (trigger : Bool)
    (w : LobbyWorld) :
    let notices := (w.roomEffects ref g op trigger).filterMap (Effect.notice ref g.info.id)
    ∃ n, notices = List.replicate n (.update ref) ∨
      notices = .delete g.info.id :: List.replicate (n + 1) (.update ref) := by
  intro notices
  simp only [notices, roomEffects]
  have htrigger : ∃ n, (if trigger = true then
      ((w.roomAt ref g).step w.app.settings op).game.triggerLobbyUpdate else []).filterMap
        (Effect.notice ref g.info.id) = List.replicate n (.update ref) := by
    cases trigger
    · exact ⟨0, rfl⟩
    · exact ⟨1, rfl⟩
  obtain ⟨n, hn⟩ := htrigger
  rw [List.filterMap_append, hn]
  rcases (w.roomAt ref g).allEffects_cases w.app.settings op with heq | ⟨g', heq⟩ | ⟨g', heq⟩
  · exact ⟨n, Or.inl (by rw [heq]; rfl)⟩
  · exact ⟨n + 1, Or.inl (by rw [heq]; rfl)⟩
  · exact ⟨n, Or.inr (by rw [heq]; rfl)⟩

theorem hears_eq (hjoined : w.handler.joinedLobby = some lobby)
    (hdefault : lobby.2 = defaultLobbyType) (other : LobbyId) :
    w.handler.hears other = decide (other = lobby) := by
  unfold MasterServerHandler.hears
  rw [hjoined]
  by_cases heq : other = lobby
  · simp [heq, hdefault]
  · simp [heq, Ne.symm heq]

/-- What an operation on a room leaves, and what the client hears of it. -/
theorem step_room (trigger : Bool) (hjoined : w.handler.joinedLobby = some lobby)
    (hdefault : lobby.2 = defaultLobbyType) {ref : GameRef} {g : Game}
    (hg : w.app.live.lookup ref = some g) (roomOp : RoomOp) :
    (w.step (.room ref roomOp trigger)).app =
        { w.app with
          live := w.app.live.insert ref ((w.roomAt ref g).step w.app.settings roomOp).game } ∧
      (w.heard (.room ref roomOp trigger)).map Prod.snd =
        if g.lobbyId = lobby then
          (w.roomEffects ref g roomOp trigger).filterMap (Effect.notice ref g.info.id)
        else [] := by
  constructor
  · simp only [step, perform, hg]
    rfl
  · rw [heard, notices_room hg, List.filter_map, List.map_map]
    simp only [Function.comp_def, hears_eq hjoined hdefault, List.map_id']
    by_cases heq : g.lobbyId = lobby <;> simp [heq]

/-- What a step that is no request of the client does to the rooms, and what the client hears. -/
theorem step_cases (hjoined : w.handler.joinedLobby = some lobby)
    (hdefault : lobby.2 = defaultLobbyType) {op : LobbyOp} (hop : op.stays = true)
    (hflush : op ≠ .handleSlowUpdate) :
    (∃ lobbies, (w.step op).app = { w.app with lobbies } ∧ w.heard op = []) ∨
      (∃ lobbies other id address, w.app.games.lookup id = none ∧
        (w.step op).app =
          { w.app with
            lobbies
            games := w.app.games.insert id w.app.nextRef
            live := w.app.live.insert w.app.nextRef (w.app.newGame other id address)
            nextRef := w.app.nextRef + 1 } ∧
        (w.heard op).map Prod.snd = if other = lobby then [.update w.app.nextRef] else []) ∨
      (∃ ref g roomOp trigger, op = .room ref roomOp trigger ∧ w.app.live.lookup ref = some g ∧
        (w.step op).app =
          { w.app with
            live := w.app.live.insert ref ((w.roomAt ref g).step w.app.settings roomOp).game } ∧
        (w.heard op).map Prod.snd =
          if g.lobbyId = lobby then
            (w.roomEffects ref g roomOp trigger).filterMap (Effect.notice ref g.info.id)
          else []) ∨
      ∃ lobbies ref g, op = .dropGame ref ∧ w.app.live.lookup ref = some g ∧
        (w.step op).app =
          { w.app with
            lobbies
            live := w.app.live.erase ref
            games := w.app.games.erase g.info.id } ∧
        (w.heard op).map Prod.snd =
          if g.lobbyId = lobby ∧ g.isVisible = true then [.delete g.info.id] else [] := by
  have hears := hears_eq hjoined hdefault
  cases op with
  | joinLobby requested => cases hop
  | leaveLobby => cases hop
  | handleSlowUpdate => exact absurd rfl hflush
  | connection peer slot => exact Or.inl ⟨_, rfl, rfl⟩
  | createGame other id address orGet =>
    rcases createGame_spec other id address orGet w with
      ⟨lobbies, happ, hnotices⟩ | ⟨lobbies, hid, happ, hnotices⟩
    · refine Or.inl ⟨lobbies, happ, ?_⟩
      rw [heard, hnotices, List.filter_nil]
    · refine Or.inr (Or.inl ⟨lobbies, other, id, address, hid, happ, ?_⟩)
      rw [heard, hnotices, List.filter_cons, hears]
      by_cases heq : other = lobby <;> simp [heq]
  | room ref roomOp trigger =>
    cases hg : w.app.live.lookup ref with
    | none =>
      refine Or.inl ⟨w.app.lobbies, ?_, ?_⟩
      · simp only [step, perform, hg]
      · simp only [heard, notices, hg, List.filter_nil]
    | some g =>
      exact Or.inr (Or.inr (Or.inl ⟨ref, g, roomOp, trigger, rfl, hg,
        step_room trigger hjoined hdefault hg roomOp⟩))
  | dropGame ref =>
    cases hg : w.app.live.lookup ref with
    | none =>
      refine Or.inl ⟨w.app.lobbies, ?_, ?_⟩
      · simp only [step, perform, App.dropGame, hg]
      · simp only [heard, notices, hg, List.filter_nil]
    | some g =>
      obtain ⟨⟨lobbies, hframe⟩, -, -⟩ := App.dropGame_spec hg
      refine Or.inr (Or.inr (Or.inr ⟨lobbies, ref, g, rfl, hg, hframe, ?_⟩))
      rw [heard, notices_dropGame hg]
      by_cases heq : g.lobbyId = lobby <;> cases g.isVisible <;> simp [hears, heq]

end LobbyWorld

namespace NoticesSound

variable {app : App} {lobby : LobbyId} {arrivals : List GameListUpdate}

theorem of_nil (lobby : LobbyId) (app : App) : NoticesSound lobby [] app :=
  ⟨fun _ hn => (List.not_mem_nil hn).elim, fun _ _ hn => (List.not_mem_nil hn).elim,
    fun _ _ _ _ => List.Answered.of_notMem List.not_mem_nil⟩

/-- A room is created, and the client hears of it if it is in the room's lobby. -/
theorem create (ha : NoticesSound lobby arrivals app) {lobbies : AList fun _ : LobbyId => Lobby}
    {games : AList fun _ : String => GameRef} {g : Game} :
    NoticesSound lobby
      (arrivals ++ if g.lobbyId = lobby then [.update app.nextRef] else [])
      { app with
        lobbies, games
        live := app.live.insert app.nextRef g
        nextRef := app.nextRef + 1 } := by
  have hnew : ∀ ref, .update ref ∈ (if g.lobbyId = lobby then [.update app.nextRef] else [] :
      List GameListUpdate) → ref = app.nextRef ∧ g.lobbyId = lobby := by
    intro ref
    split
    · next heq =>
      rw [List.mem_singleton, GameListUpdate.update.injEq]
      exact fun href => ⟨href, heq⟩
    · exact fun hmem => (List.not_mem_nil hmem).elim
  constructor
  · intro ref hn
    rcases List.mem_append.mp hn with hold | hnow
    · exact Nat.lt_succ_of_lt (ha.older ref hold)
    · rw [(hnew ref hnow).1]
      exact Nat.lt_succ_self _
  · intro ref o hn ho
    simp only [AList.lookup_insert_eq] at ho
    split at ho
    · next href =>
      cases ho
      rcases List.mem_append.mp hn with hold | hnow
      · exact absurd (ha.older ref hold) (href ▸ Nat.lt_irrefl _)
      · exact (hnew ref hnow).2
    · next href =>
      rcases List.mem_append.mp hn with hold | hnow
      · exact ha.ours ref o hold ho
      · exact absurd (hnew ref hnow).1 href
  · intro ref o ho hlobby
    simp only [AList.lookup_insert_eq] at ho
    split at ho
    · next href =>
      cases ho
      have hne : GameListUpdate.delete g.info.id ≠ .update app.nextRef := by simp
      rw [if_pos hlobby, href]
      exact List.Answered.concat hne arrivals
    · refine (ha.renewed ref o ho hlobby).append (List.Answered.of_notMem ?_)
      split <;> simp

/-- A room changes, and the client hears of it if it is in the room's lobby. -/
theorem change (ha : NoticesSound lobby arrivals app) (hi : app.Indexed) {ref : GameRef} {g g' : Game}
    (hg : app.live.lookup ref = some g) (hinfo : g'.info = g.info) {notices : List GameListUpdate}
    {n : Nat} (hnotices : notices = List.replicate n (.update ref) ∨
      notices = .delete g.info.id :: List.replicate (n + 1) (.update ref)) :
    NoticesSound lobby (arrivals ++ if g.lobbyId = lobby then notices else [])
      { app with live := app.live.insert ref g' } := by
  have hlobby : g'.lobbyId = g.lobbyId := by simp only [Game.lobbyId, hinfo]
  have hupdate : ∀ other, .update other ∈ notices → other = ref := by
    rcases hnotices with rfl | rfl <;> simp [List.mem_replicate]
  have hdelete : ∀ id, .delete id ∈ notices → id = g.info.id := by
    rcases hnotices with rfl | rfl <;> simp [List.mem_replicate]
  have hanswered : ∀ id, notices.Answered (.delete id) (.update ref) := by
    intro id
    have hne : GameListUpdate.delete id ≠ .update ref := by simp
    rcases hnotices with rfl | rfl
    · exact List.Answered.of_notMem (by simp [List.mem_replicate])
    · rw [List.replicate_succ', ← List.cons_append]
      exact List.Answered.concat hne _
  have hnew : ∀ other, .update other ∈ (if g.lobbyId = lobby then notices else []) →
      other = ref ∧ g.lobbyId = lobby := by
    intro other
    split
    · next heq => exact fun hmem => ⟨hupdate other hmem, heq⟩
    · exact fun hmem => (List.not_mem_nil hmem).elim
  constructor
  · intro other hn
    rcases List.mem_append.mp hn with hold | hnow
    · exact ha.older other hold
    · rw [(hnew other hnow).1]
      exact hi.sound.fresh ref (AList.mem_iff_lookup.mpr ⟨g, hg⟩)
  · intro other o hn ho
    simp only [AList.lookup_insert_eq] at ho
    split at ho
    · next href =>
      cases ho
      rw [hlobby]
      rcases List.mem_append.mp hn with hold | hnow
      · exact ha.ours ref g (href ▸ hold) hg
      · exact (hnew other hnow).2
    · next href =>
      rcases List.mem_append.mp hn with hold | hnow
      · exact ha.ours other o hold ho
      · exact absurd (hnew other hnow).1 href
  · intro other o ho holobby
    simp only [AList.lookup_insert_eq] at ho
    split at ho
    · next href =>
      cases ho
      rw [hlobby] at holobby
      rw [href, hinfo, if_pos holobby]
      exact (ha.renewed ref g hg holobby).append (hanswered _)
    · next href =>
      refine (ha.renewed other o ho holobby).append ?_
      split
      · refine List.Answered.of_notMem fun hmem => href ?_
        exact hi.mapped.eq_of_id hg ho (hdelete _ hmem)
      · exact List.Answered.of_notMem List.not_mem_nil

/-- A room ends, and the client hears of it if it is in the lobby and the room is not hidden. -/
theorem drop (ha : NoticesSound lobby arrivals app) (hm : app.Mapped) {ref : GameRef} {g : Game}
    (hg : app.live.lookup ref = some g) {lobbies : AList fun _ : LobbyId => Lobby}
    {games : AList fun _ : String => GameRef} {told : Prop} [Decidable told] :
    NoticesSound lobby (arrivals ++ if told then [.delete g.info.id] else [])
      { app with lobbies, games, live := app.live.erase ref } := by
  have hupdate : ∀ other, .update other ∈ arrivals ++ (if told then [.delete g.info.id] else [] :
      List GameListUpdate) → .update other ∈ arrivals := by
    intro other hn
    rcases List.mem_append.mp hn with hold | hnow
    · exact hold
    · split at hnow <;> simp at hnow
  have hlive : ∀ other o, (app.live.erase ref).lookup other = some o →
      other ≠ ref ∧ app.live.lookup other = some o := by
    intro other o ho
    rw [AList.lookup_erase_eq] at ho
    split at ho
    · cases ho
    · next hne => exact ⟨hne, ho⟩
  constructor
  · exact fun other hn => ha.older other (hupdate other hn)
  · exact fun other o hn ho => ha.ours other o (hupdate other hn) (hlive other o ho).2
  · intro other o ho hlobby
    obtain ⟨hne, hold⟩ := hlive other o ho
    refine (ha.renewed other o hold hlobby).append (List.Answered.of_notMem ?_)
    split
    · rw [List.mem_singleton, GameListUpdate.delete.injEq]
      exact fun hid => hne (hm.eq_of_id hg hold hid)
    · exact List.not_mem_nil

end NoticesSound

namespace Watched

open LobbyWorld

variable {w : LobbyWorld} {lobby : LobbyId} {arrivals : List GameListUpdate}

theorem queued_step (hw : Watched lobby arrivals w) (op : LobbyOp) :
    (w.step op).handler.pendingGameListUpdates =
      BoundedQueue.pushAll 500 GameListUpdate.isUpdate [] (w.arrivalsAfter arrivals op) := by
  have hpush : op ≠ .handleSlowUpdate → (w.step op).handler.pendingGameListUpdates =
      BoundedQueue.pushAll 500 GameListUpdate.isUpdate []
        (arrivals ++ (w.heard op).map Prod.snd) := by
    intro hop
    rw [pending_step, pending_perform hop, hw.queued, BoundedQueue.pushAll_append]
  cases op with
  | handleSlowUpdate =>
    rw [pending_step]
    exact pending_handleSlowUpdate w
  | _ => exact hpush nofun

theorem joined_step (hw : Watched lobby arrivals w) {op : LobbyOp} (hop : op.stays = true) :
    (w.step op).handler.joinedLobby = some lobby := by
  rw [joinedLobby_step]
  rcases joinedLobby_perform w op with heq | ⟨-, rfl | ⟨requested, rfl⟩⟩
  · rw [heq, hw.joined]
  · cases hop
  · cases hop

theorem arrivalsAfter_eq (arrivals : List GameListUpdate) {op : LobbyOp}
    (hflush : op ≠ .handleSlowUpdate) :
    w.arrivalsAfter arrivals op = arrivals ++ (w.heard op).map Prod.snd := by
  cases op with
  | handleSlowUpdate => exact absurd rfl hflush
  | _ => rfl

theorem step (hw : Watched lobby arrivals w) (hdefault : lobby.2 = defaultLobbyType) {op : LobbyOp}
    (hop : op.stays = true) : Watched lobby (w.arrivalsAfter arrivals op) (w.step op) := by
  refine ⟨indexed_step hw.indexed op, hw.joined_step hop, hw.queued_step op, ?_⟩
  by_cases hflush : op = .handleSlowUpdate
  · subst hflush
    exact NoticesSound.of_nil lobby _
  rw [arrivalsAfter_eq arrivals hflush]
  rcases step_cases hw.joined hdefault hop hflush with ⟨lobbies, happ, hnil⟩ |
    ⟨lobbies, other, id, address, -, happ, hone⟩ |
    ⟨ref, g, roomOp, trigger, rfl, hg, happ, hnotices⟩ | ⟨lobbies, ref, g, rfl, hg, happ, hdelete⟩
  · rw [happ, hnil, List.map_nil, List.append_nil]
    exact ⟨hw.notices.older, hw.notices.ours, hw.notices.renewed⟩
  · rw [happ, hone]
    exact hw.notices.create (g := w.app.newGame other id address)
  · obtain ⟨n, hn⟩ := roomNotices_cases ref g roomOp trigger w
    rw [happ, hnotices]
    exact hw.notices.change hw.indexed hg (Room.info_step _ _ _) hn
  · rw [happ, hdelete]
    exact hw.notices.drop hw.indexed.mapped hg

/-- What is pending has come since the last batch, and of that no delete is missing. -/
theorem mem_arrivals (hw : Watched lobby arrivals w) {notice : GameListUpdate}
    (hn : notice ∈ w.handler.pendingGameListUpdates) : notice ∈ arrivals := by
  rw [hw.queued] at hn
  exact (BoundedQueue.mem_of_mem_pushAll hn).resolve_left List.not_mem_nil

theorem delete_mem_pending (hw : Watched lobby arrivals w) {gameId : String}
    (hn : .delete gameId ∈ arrivals) :
    .delete gameId ∈ w.handler.pendingGameListUpdates := by
  rw [hw.queued]
  exact BoundedQueue.mem_pushAll_of_uncounted rfl hn

/-- An entry of the batch is that of a deleted room, or of the lobby's room with the id. -/
theorem entryOf_cases (hw : Watched lobby arrivals w) {notice : GameListUpdate}
    (hn : notice ∈ arrivals) {gameId : String} {props : Hashtable}
    (hentry : w.app.entryOf gameId notice = some props) :
    (notice = .delete gameId ∧ props = removedEntry) ∨
      ∃ ref g, notice = .update ref ∧ w.app.live.lookup ref = some g ∧ g.info.id = gameId ∧
        w.app.roomIn lobby gameId = some g ∧ props = g.batchEntry := by
  cases notice with
  | delete id =>
    simp only [App.entryOf, Option.ite_none_right_eq_some, Option.some.injEq] at hentry
    exact Or.inl ⟨by rw [hentry.1], hentry.2.symm⟩
  | update ref =>
    simp only [App.entryOf, Option.bind_eq_some_iff, Option.ite_none_right_eq_some,
      Option.some.injEq] at hentry
    obtain ⟨g, hg, hid, rfl⟩ := hentry
    refine Or.inr ⟨ref, g, rfl, hg, hid, ?_, rfl⟩
    rw [hw.indexed.mapped.roomIn_eq_some]
    exact ⟨ref, hg, hid, hw.notices.ours ref g hn hg⟩

/-- A delete that is pending has an entry under its id. -/
theorem batch_of_delete (hw : Watched lobby arrivals w) {gameId : String}
    (hn : .delete gameId ∈ arrivals) : ∃ props, w.batch.lookup gameId = some props := by
  rw [LobbyWorld.batch, App.lookup_gameListBatch, ← Option.isSome_iff_exists,
    List.getLast?_isSome, ne_eq, List.filterMap_eq_nil_iff]
  intro hnone
  have hthis := hnone _ (hw.delete_mem_pending hn)
  simp [App.entryOf] at hthis

theorem mem_of_batch (hw : Watched lobby arrivals w) {gameId : String} {props : Hashtable}
    (hbatch : w.batch.lookup gameId = some props) :
    ∃ notice ∈ arrivals, w.app.entryOf gameId notice = some props := by
  rw [LobbyWorld.batch, App.lookup_gameListBatch] at hbatch
  obtain ⟨notice, hnotice, hentry⟩ := List.mem_filterMap.mp (List.mem_of_getLast? hbatch)
  exact ⟨notice, hw.mem_arrivals hnotice, hentry⟩

/-- A room that is not published has no other entry than that of a deleted one. -/
theorem batch_of_unpublished (hw : Watched lobby arrivals w) {gameId : String}
    (hnone : w.app.publishedIn lobby gameId = none) {props : Hashtable}
    (hbatch : w.batch.lookup gameId = some props) : props = removedEntry := by
  obtain ⟨notice, hnotice, hentry⟩ := hw.mem_of_batch hbatch
  rcases hw.entryOf_cases hnotice hentry with ⟨-, heq⟩ | ⟨ref, g, -, -, -, hroom, rfl⟩
  · exact heq
  · rw [App.publishedIn, hroom, Option.bind_some] at hnone
    unfold Game.shownEntry at hnone
    unfold Game.batchEntry
    split at hnone
    · cases hnone
    · next hpublished => rw [if_neg hpublished]

/-- The entry of a room whose last update is pending, with no later delete of its id. -/
theorem batch_of_update (hw : Watched lobby arrivals w) {ref : GameRef} {g : Game}
    (hg : w.app.live.lookup ref = some g) {before after : List GameListUpdate}
    (hpending : w.handler.pendingGameListUpdates = before ++ .update ref :: after)
    (hafter : .delete g.info.id ∉ after) : w.batch.lookup g.info.id = some g.batchEntry := by
  have hentry : w.app.entryOf g.info.id (.update ref) = some g.batchEntry := by
    simp [App.entryOf, hg]
  obtain ⟨props, hprops⟩ : ∃ props, w.batch.lookup g.info.id = some props := by
    rw [LobbyWorld.batch, App.lookup_gameListBatch, ← Option.isSome_iff_exists,
      List.getLast?_isSome, ne_eq, List.filterMap_eq_nil_iff]
    intro hnone
    have hthis := hnone (.update ref) (by rw [hpending]; simp)
    rw [hentry] at hthis
    cases hthis
  rw [hprops]
  rw [LobbyWorld.batch, App.lookup_gameListBatch, hpending, List.filterMap_append,
    List.filterMap_cons, hentry, List.getLast?_append, List.getLast?_cons] at hprops
  cases hlast : (after.filterMap (w.app.entryOf g.info.id)).getLast? with
  | none =>
    rw [hlast] at hprops
    simpa using hprops.symm
  | some last =>
    rw [hlast] at hprops
    obtain rfl : last = props := by simpa using hprops
    obtain ⟨notice, hnotice, hnoticeEntry⟩ := List.mem_filterMap.mp (List.mem_of_getLast? hlast)
    have harrived : notice ∈ arrivals := by
      apply hw.mem_arrivals
      rw [hpending]
      exact List.mem_append_right _ (List.mem_cons_of_mem _ hnotice)
    rcases hw.entryOf_cases harrived hnoticeEntry with ⟨rfl, -⟩ | ⟨other, o, -, ho, hid, -, heq⟩
    · exact absurd hnotice hafter
    · have hother := hw.indexed.mapped.eq_of_id hg ho hid
      rw [hother, hg] at ho
      cases ho
      rw [heq]

end Watched

end LuxonServer
