import LuxonServer.Lobby.View

/-! The next batch of a client in a default lobby, after any number of notifications: what the cap
on the pending updates may cost, and what it never costs. -/

namespace LuxonServer

/-- The step is neither a request of the client nor a flush. -/
def LobbyOp.isBetween : LobbyOp → Bool
  | .joinLobby _ | .leaveLobby | .handleSlowUpdate => false
  | _ => true

/-- The step is no write of a plugin and no update of a replica. -/
def LobbyOp.sparesRooms : LobbyOp → Bool
  | .room _ op _ => op.isHosted
  | _ => true

namespace LobbyWorld

/-- The notifications of a run, as they reach the client. -/
def arrivalsOf : LobbyWorld → List LobbyOp → List GameListUpdate
  | _, [] => []
  | w, op :: ops => (w.heard op).map Prod.snd ++ (w.step op).arrivalsOf ops

/-- Every update of a room with no later delete of its id came when the cap was reached. -/
def CutOff (ref : GameRef) (gameId : String) (arrivals : List GameListUpdate) : Prop :=
  ∀ before after, arrivals = before ++ .update ref :: after → .delete gameId ∉ after →
    500 ≤ (BoundedQueue.pushAll 500 GameListUpdate.isUpdate [] before).length

end LobbyWorld

namespace Watched

open LobbyWorld

variable {w : LobbyWorld} {lobby : LobbyId} {arrivals : List GameListUpdate}

theorem of_isBetween {op : LobbyOp} (hop : op.isBetween = true) :
    op.stays = true ∧ op ≠ .handleSlowUpdate := by
  cases op with
  | joinLobby requested => cases hop
  | leaveLobby => cases hop
  | handleSlowUpdate => cases hop
  | _ => exact ⟨rfl, nofun⟩

theorem run (hw : Watched lobby arrivals w) (hdefault : lobby.2 = defaultLobbyType)
    {ops : List LobbyOp} (hops : ∀ op ∈ ops, op.isBetween = true) :
    Watched lobby (arrivals ++ w.arrivalsOf ops) (Transition.run LobbyWorld.step w ops) := by
  induction ops generalizing w arrivals with
  | nil =>
    rw [arrivalsOf, List.append_nil]
    exact hw
  | cons op ops ih =>
    obtain ⟨hstays, hflush⟩ := of_isBetween (hops op List.mem_cons_self)
    have hstep := hw.step hdefault hstays
    rw [arrivalsAfter_eq arrivals hflush] at hstep
    rw [arrivalsOf, ← List.append_assoc]
    exact ih hstep fun op hop => hops op (List.mem_cons_of_mem _ hop)

/-- A room with a notification has its final entry in the batch, or its last updates were cut
off. -/
theorem batch_of_arrival (hw : Watched lobby arrivals w) {ref : GameRef} {g : Game}
    (hg : w.app.live.lookup ref = some g) (hlobby : g.lobbyId = lobby)
    (hn : .update ref ∈ arrivals ∨ .delete g.info.id ∈ arrivals) :
    w.batch.lookup g.info.id = some g.batchEntry ∨
      .update ref ∈ arrivals ∧ CutOff ref g.info.id arrivals := by
  have hupdate : .update ref ∈ arrivals := by
    rcases hn with hupdate | hdelete
    · exact hupdate
    · obtain ⟨before, after, heq⟩ := List.append_of_mem hdelete
      have hlater := hw.notices.renewed ref g hg hlobby before after heq
      rw [heq]
      exact List.mem_append_right _ (List.mem_cons_of_mem _ hlater)
  by_cases hcut : CutOff ref g.info.id arrivals
  · exact Or.inr ⟨hupdate, hcut⟩
  · unfold CutOff at hcut
    push Not at hcut
    obtain ⟨before, after, heq, hafter, hroom⟩ := hcut
    obtain ⟨kept, hkept, hsub⟩ := BoundedQueue.pushAll_split after (Or.inr hroom)
    rw [← heq, ← hw.queued] at hkept
    exact Or.inl (hw.batch_of_update hg hkept fun hmem => hafter (hsub.subset hmem))

theorem batch_of_deleted (hw : Watched lobby arrivals w) {gameId : String}
    (hdelete : .delete gameId ∈ arrivals) (hnone : w.app.publishedIn lobby gameId = none) :
    w.batch.lookup gameId = some removedEntry := by
  obtain ⟨props, hprops⟩ := hw.batch_of_delete hdelete
  rw [hprops, hw.batch_of_unpublished hnone hprops]

/-- A room that has stopped being published on the way has been deleted. -/
theorem delete_of_unpublished_run (hw : Watched lobby arrivals w) (hleases : w.app.LeasesOnce)
    (hdefault : lobby.2 = defaultLobbyType) {ops : List LobbyOp}
    (hops : ∀ op ∈ ops, op.isBetween = true ∧ op.sparesRooms = true) {gameId : String}
    (hbefore : w.app.publishedIn lobby gameId ≠ none)
    (hafter : (Transition.run LobbyWorld.step w ops).app.publishedIn lobby gameId = none) :
    .delete gameId ∈ w.arrivalsOf ops := by
  induction ops generalizing w arrivals with
  | nil => exact absurd hafter hbefore
  | cons op ops ih =>
    obtain ⟨hbetween, hspares⟩ := hops op List.mem_cons_self
    obtain ⟨hstays, hflush⟩ := of_isBetween hbetween
    have hop : op.isHosted = true := by
      cases op with
      | room ref roomOp trigger => exact hspares
      | _ => exact hstays
    rw [arrivalsOf, List.mem_append]
    by_cases hstep : (w.step op).app.publishedIn lobby gameId = none
    · exact Or.inl (hw.delete_of_unpublished hleases hdefault hop hflush hbefore hstep)
    · right
      refine ih (hw.step hdefault hstays) (leasesOnce_step hleases ?_)
        (fun op hmem => hops op (List.mem_cons_of_mem _ hmem)) hstep hafter
      rintro ref roomOp trigger rfl
      exact hspares

end Watched

namespace LobbyWorld

theorem indexed_run {w : LobbyWorld} (hi : w.app.Indexed) (ops : List LobbyOp) :
    (Transition.run step w ops).app.Indexed := by
  have hkeeps : Transition.Keeps step (fun _ _ => True) fun w : LobbyWorld => w.app.Indexed :=
    fun _ op hi _ => indexed_step hi op
  exact hkeeps.run hi (Transition.eachStep_of_forall fun _ _ _ => trivial)

theorem leasesOnce_run {w : LobbyWorld} (hleases : w.app.LeasesOnce) {ops : List LobbyOp}
    (hops : ∀ op ∈ ops, op.sparesRooms = true) :
    (Transition.run step w ops).app.LeasesOnce := by
  have hkeeps : Transition.Keeps step (fun _ op => op.sparesRooms = true)
      fun w : LobbyWorld => w.app.LeasesOnce := by
    intro w op hleases hop
    refine leasesOnce_step hleases ?_
    rintro ref roomOp trigger rfl
    exact hop
  exact hkeeps.run hleases (Transition.eachStep_of_forall fun op hop _ => hops op hop)

/-- The batch after a flush and any number of notifications, for a client in a default lobby of a
process that started without rooms.  A room of which there was word has its final entry, unless all
updates since the last delete of its id were cut off; a deleted room that is not published again is
marked as removed; and where neither plugins nor other processes write to rooms, so is every room
that was published and is no longer. -/
theorem batch_complete {w : LobbyWorld} (hfresh : w.IsFresh) {history ops : List LobbyOp}
    {lobby : LobbyId} (hdefault : lobby.2 = defaultLobbyType)
    (hjoined : (Transition.run step w history).handler.joinedLobby = some lobby)
    (hflushed : (Transition.run step w history).handler.pendingGameListUpdates = [])
    (hops : ∀ op ∈ ops, op.isBetween = true) :
    let flushed := Transition.run step w history
    let arrivals := flushed.arrivalsOf ops
    let now := Transition.run step flushed ops
    (∀ ref g, now.app.live.lookup ref = some g → g.lobbyId = lobby →
      .update ref ∈ arrivals ∨ .delete g.info.id ∈ arrivals →
      now.batch.lookup g.info.id = some g.batchEntry ∨
        .update ref ∈ arrivals ∧ CutOff ref g.info.id arrivals) ∧
      (∀ gameId, .delete gameId ∈ arrivals → now.app.publishedIn lobby gameId = none →
        now.batch.lookup gameId = some removedEntry) ∧
      ((∀ op ∈ history ++ ops, op.sparesRooms = true) → ∀ gameId,
        flushed.app.publishedIn lobby gameId ≠ none → now.app.publishedIn lobby gameId = none →
        now.batch.lookup gameId = some removedEntry) := by
  intro flushed arrivals now
  have hunjoined := hfresh.unjoined
  have hstart : Watched lobby [] flushed :=
    ⟨indexed_run hunjoined.indexed history, hjoined, hflushed, NoticesSound.of_nil lobby _⟩
  have hw : Watched lobby arrivals now := hstart.run hdefault hops
  refine ⟨fun ref g hg hlobby hn => hw.batch_of_arrival hg hlobby hn,
    fun gameId hdelete hnone => hw.batch_of_deleted hdelete hnone, ?_⟩
  intro hspares gameId hbefore hafter
  have hleases : flushed.app.LeasesOnce :=
    leasesOnce_run hunjoined.leases fun op hop => hspares op (List.mem_append_left _ hop)
  refine hw.batch_of_deleted (hstart.delete_of_unpublished_run hleases hdefault ?_ hbefore hafter)
    hafter
  exact fun op hop => ⟨hops op hop, hspares op (List.mem_append_right _ hop)⟩

/-- A room that a client is watching is joined and given a limit, and dropped. -/
theorem batch_complete_room_dropped :
    let flushed := Transition.run step start ([.joinLobby ("lobby", 0)] ++ adaCreates)
    let now := Transition.run step flushed
      [.room 0 (.insertGameProps (AList.insert (.byte 255) (.byte 4) ∅)) false, .dropGame 0]
    now.batch.lookup "room" = some removedEntry := by
  obtain ⟨-, -, hgone⟩ := @batch_complete start isFresh_start
    ([.joinLobby ("lobby", 0)] ++ adaCreates)
    [.room 0 (.insertGameProps (AList.insert (.byte 255) (.byte 4) ∅)) false, .dropGame 0]
    ("lobby", 0) rfl (by decide) (by decide) (by decide)
  exact hgone (by decide) "room" (by decide) (by decide)

/-- Ada creates the second room of a lobby, and a client joins the lobby. -/
def busyLobby : List LobbyOp :=
  [.createGame ("lobby", 0) "busy" "" false, .createGame ("lobby", 0) "room" "" false,
    .room 1 (.connect 1) false,
    .room 1 (.setPersistent 1 (some { userId := "ada", token := "a" })) false,
    .room 1 (.tryBeginCreation (some 1)) false, .room 1 (.createPeer (some 1)) false,
    .room 1 (.addPeerForCreation 0 (some 1) 1) true, .room 1 (.commitCreation (some 1) 1) true,
    .joinLobby ("lobby", 0)]

/-- After five hundred updates of one room, the next batch leaves out that the other one was given
a limit. -/
theorem not_batch_complete_full :
    let joined := Transition.run step start busyLobby
    let ops := List.replicate 500 (.room 0 (.runScheduledTask (.keepAlive 0)) true) ++
      [.room 1 (.insertGameProps (AList.insert (.byte 255) (.byte 4) ∅)) false]
    let now := Transition.run step joined ops
    joined.handler = { joinedLobby := some ("lobby", 0) } ∧ (∀ op ∈ ops, op.isBetween = true) ∧
      .update 1 ∈ joined.arrivalsOf ops ∧
      now.app.publishedIn ("lobby", 0) "room" ≠ now.copy.lookup "room" ∧
      now.batch.lookup "room" = none := by
  refine ⟨by decide +kernel, by decide +kernel, by decide +kernel, fun hsame => ?_,
    by decide +kernel⟩
  have hlimit := congrArg (fun entry => entry.bind (AList.lookup (.byte 255))) hsame
  revert hlimit
  decide +kernel

end LobbyWorld

end LuxonServer
