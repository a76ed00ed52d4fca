import LuxonServer.Lobby.World

/-! A client that joins and leaves lobbies: when every batch that it is sent is about the lobby that
it is in. -/

namespace LuxonServer

/-- The process, with the lobby that each of the pending notifications came from. -/
structure TracedWorld where
  world : LobbyWorld
  pending : List (LobbyId × GameListUpdate) := []

namespace TracedWorld

/-- A step of the process. -/
def step (t : TracedWorld) (op : LobbyOp) : TracedWorld where
  world := t.world.step op
  pending :=
    match op with
    | .handleSlowUpdate => []
    | _ => BoundedQueue.pushAll 500 (fun notice => notice.2.isUpdate) t.pending (t.world.heard op)

/-- The lobby that an entry of the batch came from: that of the notification that it is made for. -/
def entryLobby (gameId : String) (t : TracedWorld) : Option LobbyId :=
  (t.pending.filterMap fun notice =>
    (t.world.app.entryOf gameId notice.2).map fun _ => notice.1).getLast?

/-- Every entry of the batch that is due came from the lobby that the client is in; in no lobby
there is none. -/
def Isolated (t : TracedWorld) : Prop :=
  ∀ gameId ∈ t.world.batch, ∃ lobby, t.entryLobby gameId = some lobby ∧
    t.world.handler.joinedLobby = some lobby

/-- Nothing is pending but updates of rooms that are gone, for which a batch has no entries. -/
def Settled (w : LobbyWorld) : Prop :=
  ∀ notice ∈ w.handler.pendingGameListUpdates, ∃ ref, notice = .update ref ∧ ref ∉ w.app.live

/-- A lobby is left, also for another one, only when no entry is due. -/
def LeavesSettled (t : TracedWorld) : LobbyOp → Prop
  | .leaveLobby => Settled t.world
  | .joinLobby requested =>
    t.world.handler.joinedLobby ≠ some (t.world.handler.requestedLobby requested) → Settled t.world
  | _ => True

/-- What holds on the way: every entry comes from the lobby that the client is in, whichever of the
rooms live on. -/
structure Sound (t : TracedWorld) : Prop where
  indexed : t.world.app.Indexed
  traced : t.pending.map Prod.snd = t.world.handler.pendingGameListUpdates
  older : ∀ lobby ref, (lobby, .update ref) ∈ t.pending → ref < t.world.app.nextRef
  origin : ∀ notice ∈ t.pending, (∀ ref, notice.2 = .update ref → ref ∈ t.world.app.live) →
    t.world.handler.joinedLobby = some notice.1

variable {t : TracedWorld}

/-- A notification has an entry in the batch unless it is the update of a room that is gone. -/
theorem entryOf_isSome_iff {app : App} {notice : GameListUpdate} :
    (∃ gameId, (app.entryOf gameId notice).isSome) ↔
      ∀ ref, notice = .update ref → ref ∈ app.live := by
  cases notice with
  | delete id => exact iff_of_true ⟨id, by simp [App.entryOf]⟩ nofun
  | update ref =>
    simp only [App.entryOf, GameListUpdate.update.injEq, forall_eq']
    constructor
    · rintro ⟨gameId, hsome⟩
      obtain ⟨props, hprops⟩ := Option.isSome_iff_exists.mp hsome
      obtain ⟨g, hg, -⟩ := Option.bind_eq_some_iff.mp hprops
      exact AList.mem_iff_lookup.mpr ⟨g, hg⟩
    · intro hlive
      obtain ⟨g, hg⟩ := AList.mem_iff_lookup.mp hlive
      exact ⟨g.info.id, by simp [hg]⟩

theorem settled_iff {w : LobbyWorld} : Settled w ↔
    ∀ notice ∈ w.handler.pendingGameListUpdates,
      ¬∀ ref, notice = .update ref → ref ∈ w.app.live := by
  refine forall_congr' fun notice => imp_congr_right fun _ => ?_
  simp only [not_forall, exists_prop]

/-- The entries of a batch come from notifications that have one. -/
theorem mem_batch_iff (hs : t.Sound) {gameId : String} :
    gameId ∈ t.world.batch ↔ (t.entryLobby gameId).isSome := by
  unfold LobbyWorld.batch entryLobby
  rw [← AList.lookup_isSome, App.lookup_gameListBatch, ← hs.traced, List.filterMap_map,
    List.getLast?_isSome, List.getLast?_isSome]
  simp only [ne_eq, List.filterMap_eq_nil_iff, Function.comp_apply, Option.map_eq_none_iff]

theorem Sound.isolated (hs : t.Sound) : t.Isolated := by
  intro gameId hmem
  obtain ⟨lobby, hlobby⟩ := Option.isSome_iff_exists.mp ((mem_batch_iff hs).mp hmem)
  refine ⟨lobby, hlobby, ?_⟩
  obtain ⟨notice, hnotice, hentry⟩ := List.mem_filterMap.mp (List.mem_of_getLast? hlobby)
  obtain ⟨props, hprops, rfl⟩ := Option.map_eq_some_iff.mp hentry
  apply hs.origin notice hnotice
  exact entryOf_isSome_iff.mp ⟨gameId, by rw [hprops]; rfl⟩

theorem mem_pending_step {op : LobbyOp} {notice : LobbyId × GameListUpdate}
    (hn : notice ∈ (t.step op).pending) : notice ∈ t.pending ∨ notice ∈ t.world.heard op := by
  have hpush : notice ∈ BoundedQueue.pushAll 500 (fun notice => notice.2.isUpdate) t.pending
      (t.world.heard op) → notice ∈ t.pending ∨ notice ∈ t.world.heard op :=
    BoundedQueue.mem_of_mem_pushAll
  cases op with
  | handleSlowUpdate => cases hn
  | _ => exact hpush hn

theorem traced_step (htraced : t.pending.map Prod.snd = t.world.handler.pendingGameListUpdates)
    (op : LobbyOp) :
    (t.step op).pending.map Prod.snd = (t.step op).world.handler.pendingGameListUpdates := by
  have hpush : op ≠ .handleSlowUpdate →
      (BoundedQueue.pushAll 500 (fun notice => notice.2.isUpdate) t.pending
        (t.world.heard op)).map Prod.snd = (t.world.step op).handler.pendingGameListUpdates := by
    intro hop
    rw [LobbyWorld.pending_step, LobbyWorld.pending_perform hop, ← htraced]
    exact BoundedQueue.map_pushAll (fun _ => rfl) _ _
  cases op with
  | handleSlowUpdate =>
    have hnil := LobbyWorld.pending_handleSlowUpdate t.world
    show [] = (t.world.step .handleSlowUpdate).handler.pendingGameListUpdates
    rw [LobbyWorld.pending_step]
    exact hnil.symm
  | _ => exact hpush nofun

/-- A lobby is left with nothing in the batch, so that all entries that come are of the next. -/
theorem Sound.step (ht : t.Sound) {op : LobbyOp} (hop : t.LeavesSettled op) :
    (t.step op).Sound := by
  obtain ⟨hnext, hlive⟩ := LobbyWorld.live_step (w := t.world) op
  constructor
  · exact LobbyWorld.indexed_step ht.indexed op
  · exact traced_step ht.traced op
  · intro lobby ref hn
    rcases mem_pending_step hn with hold | hnew
    · exact Nat.lt_of_lt_of_le (ht.older lobby ref hold) hnext
    · exact LobbyWorld.lt_nextRef_of_mem_notices ht.indexed (LobbyWorld.mem_heard hnew).1
  · intro notice hn hentry
    have hjoined : (t.step op).world.handler.joinedLobby =
        (t.world.perform op).handler.joinedLobby := LobbyWorld.joinedLobby_step op
    rw [hjoined]
    rcases mem_pending_step hn with hold | hnew
    · have hbefore : ∀ ref, notice.2 = .update ref → ref ∈ t.world.app.live := by
        intro ref href
        have hmem : (notice.1, GameListUpdate.update ref) ∈ t.pending := href ▸ hold
        exact hlive ref (hentry ref href) (ht.older _ _ hmem)
      have horigin := ht.origin notice hold hbefore
      have hpending : notice.2 ∈ t.world.handler.pendingGameListUpdates :=
        ht.traced ▸ List.mem_map_of_mem hold
      rcases LobbyWorld.joinedLobby_perform t.world op with heq | ⟨-, rfl | ⟨requested, rfl⟩⟩
      · rw [heq, horigin]
      · exact absurd hbefore (settled_iff.mp hop notice.2 hpending)
      · by_contra hother
        refine settled_iff.mp (hop fun hsame => hother ?_) notice.2 hpending hbefore
        rw [← horigin, hsame]
        rfl
    · obtain ⟨hnotice, horigin⟩ := LobbyWorld.mem_heard hnew
      rcases LobbyWorld.joinedLobby_perform t.world op with heq | ⟨hnil, -⟩
      · rw [heq, horigin]
      · rw [hnil] at hnotice
        cases hnotice

/-- A lobby that is left with an entry in the batch leaves the entry to the next. -/
theorem Sound.leavesSettled (ht : t.Sound) {op : LobbyOp} (hafter : (t.step op).Isolated) :
    t.LeavesSettled op := by
  -- The step of a request changes neither what is pending nor which rooms are alive.
  have hrequest : (t.step op).pending = t.pending →
      (t.step op).world.app.live = t.world.app.live →
      (t.step op).world.handler.pendingGameListUpdates =
        t.world.handler.pendingGameListUpdates →
      (t.step op).world.handler.joinedLobby ≠ t.world.handler.joinedLobby →
      Settled t.world := by
    intro hpending hlive hupdates hjoined
    rw [settled_iff]
    intro notice hnotice hentry
    obtain ⟨gameId, hsome⟩ := entryOf_isSome_iff.mpr hentry
    have hentryOf : ∀ notice, (t.step op).world.app.entryOf gameId notice =
        t.world.app.entryOf gameId notice := by
      intro notice
      cases notice with
      | update ref => simp only [App.entryOf, hlive]
      | delete id => rfl
    have hmem : gameId ∈ (t.step op).world.batch := by
      unfold LobbyWorld.batch
      rw [← AList.lookup_isSome, App.lookup_gameListBatch, List.getLast?_isSome, hupdates,
        ne_eq, List.filterMap_eq_nil_iff]
      intro hnone
      have hthis := hnone notice hnotice
      rw [hentryOf] at hthis
      rw [hthis] at hsome
      cases hsome
    obtain ⟨lobby, hlobby, hin⟩ := hafter gameId hmem
    obtain ⟨last, hlast, hlastEntry⟩ := List.mem_filterMap.mp (List.mem_of_getLast? hlobby)
    rw [hentryOf] at hlastEntry
    obtain ⟨props, hprops, rfl⟩ := Option.map_eq_some_iff.mp hlastEntry
    rw [hpending] at hlast
    have horigin := ht.origin last hlast (entryOf_isSome_iff.mp ⟨gameId, by rw [hprops]; rfl⟩)
    exact hjoined (hin.trans horigin.symm)
  cases op with
  | leaveLobby =>
    obtain ⟨_, happ⟩ := LobbyWorld.leaveLobby_frame t.world
    by_cases hin : t.world.handler.joinedLobby = none
    · rw [LeavesSettled, settled_iff]
      intro notice hnotice hentry
      rw [← ht.traced] at hnotice
      obtain ⟨traced, htraced, rfl⟩ := List.mem_map.mp hnotice
      have horigin := ht.origin traced htraced hentry
      rw [hin] at horigin
      cases horigin
    · refine hrequest rfl ?_ rfl fun heq => hin heq.symm
      show t.world.leaveLobby.app.live = _
      rw [happ]
  | joinLobby requested =>
    obtain ⟨_, happ⟩ := LobbyWorld.joinLobby_frame t.world requested
    intro hother
    refine hrequest rfl ?_ rfl fun heq => hother heq.symm
    show (t.world.joinLobby requested).app.live = _
    rw [happ]
  | _ => trivial

/-- In a process that starts without rooms, every batch of a client is about its lobby, whenever it
falls due, exactly if the client leaves a lobby only while nothing of it is due. -/
theorem isolated_iff {w : LobbyWorld} (hfresh : w.IsFresh) (ops : List LobbyOp) :
    Transition.Always step Isolated { world := w } ops ↔
      Transition.EachStep step LeavesSettled { world := w } ops := by
  obtain ⟨hempty, hhandler, -⟩ := hfresh
  have hsound : Sound { world := w } := by
    refine ⟨App.Indexed.of_isEmpty hempty, ?_, fun _ _ hn => (List.not_mem_nil hn).elim,
      fun _ hn => (List.not_mem_nil hn).elim⟩
    simp [hhandler]
  exact Transition.always_iff_eachStep_of_invariant (B := fun _ _ => True)
    (fun _ ht => ht.isolated) (fun _ _ ht _ hop => ht.step hop)
    (fun _ _ ht _ hafter => ht.leavesSettled hafter) hsound
    (Transition.eachStep_of_forall fun _ _ _ => trivial)

/-- The client hears of a new room, gets its batch and leaves. -/
theorem isolated_iff_leave_after_batch :
    Transition.Always step Isolated { world := .start }
      [.joinLobby ("lobby", 0), .createGame ("lobby", 0) "room" "" false, .handleSlowUpdate,
        .leaveLobby] := by
  refine (isolated_iff LobbyWorld.isFresh_start _).mpr ⟨fun _ => ?_, trivial, trivial, ?_, trivial⟩
  · exact fun _ hnotice => absurd hnotice List.not_mem_nil
  · exact fun _ hnotice => absurd hnotice List.not_mem_nil

/-- The client hears of a new room and leaves: the next batch still has the room. -/
theorem not_isolated_leave_before_batch :
    ¬Transition.Always step Isolated { world := .start }
      [.joinLobby ("lobby", 0), .createGame ("lobby", 0) "room" "" false, .leaveLobby] := by
  intro halways
  obtain ⟨lobby, -, hin⟩ := halways.last "room" (by decide)
  have hnone : (none : Option LobbyId) = some lobby := hin
  cases hnone

end TracedWorld

end LuxonServer
