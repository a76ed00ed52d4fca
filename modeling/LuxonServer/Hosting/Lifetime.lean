import LuxonServer.Hosting.Ownership

/-! How long a room lives.  The scheduler has a task for each reservation that was made less than
30 seconds ago, whatever has become of the reservation, and one for each time that a room is to be
kept for after its last peer has left; each of them has a pointer to the room.  The time that a task
is due at is stored in 32 bits, so it wraps 49.7 days after the start. -/

namespace LuxonServer

namespace Host

/-- A created room that no one is in, expected in or attached to, and that has been kept for long
enough.  All tasks that are due have run. -/
structure Overdue (w : Host) (ref : GameRef) (g : Game) : Prop where
  live : w.app.live.lookup ref = some g
  created : g.isCreated = true
  empty : g.activePeerCount = 0
  unreserved : g.expectedUsers = ∅
  unattached : ref ∉ w.attached
  unowned : ref ∉ w.owners
  late : w.emptied ref + g.emptyGameTtl.toNat ≤ w.now
  settled : ∀ task ∈ w.tasks, w.getTime ≤ task.executionTime.toNat

/-- No task has a pointer to a room that is overdue, so the room goes and its id is free. -/
def DiesOnTime (w : Host) : Prop :=
  ∀ ref g, w.Overdue ref g →
    (∀ task ∈ w.tasks, task.game ≠ ref) ∧ ref ∉ w.collect.app.live ∧
      g.info.id ∉ w.collect.app.games

/-- A task that was scheduled for the time has come due: the time is stored in 32 bits. -/
def IsOver (w : Host) (deadline : Nat) : Prop := deadline % 2 ^ 32 < w.now

/-- The reservations of a room that is overdue were made more than 30 seconds ago, and all the times
that it was to be kept for are over. -/
def RanOut (w : Host) : Prop :=
  ∀ ref g, w.Overdue ref g →
    (∀ t ∈ w.reservedAt ref, w.IsOver (t + 30000)) ∧
      ∀ deadline, (ref, deadline) ∈ w.keptUntil → w.IsOver deadline

/-- `startup_time_` has not wrapped. -/
def ClockFits (w : Host) : Prop := w.wide = true ∨ w.now < 2 ^ 32

end Host

namespace Game

/-- What a step does to the schedule of a room: it adds the ends of the reservations that are made,
and the tasks `kept`, or takes some task away. -/
def Queues (g g' : Game) (kept : List ScheduledTask) : Prop :=
  ∃ made, g'.scheduled.drop g.scheduled.length = made ++ kept ∧
    (made ≠ [] ↔ g.nextExpectedUserGeneration < g'.nextExpectedUserGeneration) ∧
    ∀ task ∈ made, ∃ userId generation, task = .expireReservation 30000 userId generation

variable {g g' : Game}

theorem Reserves.queues (h : Reserves g g') : Queues g g' [] := by
  obtain ⟨made, hscheduled, hnext, hmade⟩ := h
  refine ⟨made, by simp [hscheduled], ?_, hmade⟩
  rw [hnext, ← List.length_pos_iff]
  omega

theorem queues_runScheduledTask (task : ScheduledTask) (g : Game) :
    Queues g (g.runScheduledTask task) [] := by
  have hsame : (g.runScheduledTask task).scheduled.length ≤ g.scheduled.length ∧
      (g.runScheduledTask task).nextExpectedUserGeneration = g.nextExpectedUserGeneration := by
    unfold runScheduledTask
    split
    · have hlen : (g.scheduled.erase task).length ≤ g.scheduled.length :=
        List.length_erase_le
      cases task with
      | keepAlive ttlMs => exact ⟨hlen, rfl⟩
      | expireReservation ttlMs userId generation =>
        simp only [expireReservation]
        split <;> exact ⟨hlen, rfl⟩
    · exact ⟨Nat.le_refl _, rfl⟩
  exact ⟨[], by simp [hsame.1], by simp [hsame.2], by simp⟩

/-- The last peer leaves: the room is kept for its `EmptyRoomTTL`. -/
theorem queues_removePeer (h : PeerHeap) (peer : Option PeerRef) (g : Game) :
    Queues g (g.removePeer h peer).2
      (if ((g.removePeer h peer).1 && (g.removePeer h peer).2.peers.isEmpty) = true ∧
          g.emptyGameTtl > 0 then [.keepAlive g.emptyGameTtl.toNat] else []) := by
  cases peer with
  | none => exact ⟨[], by simp [removePeer], by simp [removePeer], by simp⟩
  | some r =>
    unfold removePeer
    simp only
    split
    · exact ⟨[], by simp, by simp, by simp⟩
    · split
      · next hpeers =>
        by_cases httl : g.emptyGameTtl > 0
        · exact ⟨[], by simp [httl, hpeers], by simp [httl], by simp⟩
        · exact ⟨[], by simp [httl], by simp [httl], by simp⟩
      · next hpeers =>
        refine ⟨[], ?_, ?_, by simp⟩
        · split <;> simp [hpeers]
        · split <;> simp

end Game

namespace Game

theorem reserves_emplacePeer (gp : GamePeer) (userId : String) (g : Game) :
    Reserves g (g.emplacePeer gp userId) := by
  rw [emplacePeer_eq]
  exact .of_same rfl rfl

/-- The rollback of an attempt makes the reservations again that ended during it. -/
theorem reserves_abort (h : PeerHeap) (owner : Option PeerRef) (generation : Nat) (g : Game) :
    Reserves g (g.abortCreationTransaction h owner generation).2 := by
  cases hactive : g.isCreationActive h owner generation with
  | false =>
    rw [abortCreationTransaction_of_inactive hactive]
    exact Reserves.refl g
  | true =>
    have hreleased : ∀ g : Game, Reserves g g.releaseReserved := fun g =>
      List.foldlRecOn _ _ (Reserves.refl g) fun _ hg entry _ =>
        hg.trans (reserves_removeIfGeneration entry.1 entry.2 _)
    have hrestored : ∀ g : Game, Reserves g g.restoreRemoved := by
      intro g
      apply List.foldlRecOn _ _ (Reserves.refl g)
      intro g' hg entry _
      split
      · exact hg
      · exact hg.trans (reserves_reserve entry.1 g')
    obtain ⟨_, heq⟩ := abortCreationTransaction_eq hactive
    rw [heq]
    have hretired : Reserves g
        { g.retireLive h with inactivePlayers := g.creationInitial.inactivePlayers } :=
      .of_same rfl rfl
    have hrollback : Reserves g (g.rollbackSeats h) :=
      hretired.trans ((hreleased _).trans (hrestored _))
    exact hrollback.trans (.of_same rfl rfl)

end Game

namespace Room

open Game

variable {settings : AppSettings}

theorem reserves_perform (s : Room) {op : RoomOp} (hop : op.isHandled = true)
    (hremove : ∀ peer, op ≠ .removePeer peer) :
    Reserves s.game (s.perform settings op).game := by
  have hprops : ∀ {g g' : Game}, PropsOnly g g' → Reserves g g' := by
    rintro g _ ⟨_, _, _, _, _, _, _, _, _, rfl⟩
    exact .of_same rfl rfl
  cases op with
  | connect peer => cases hop
  | setPersistent peer persistent => cases hop
  | disconnect peer => cases hop
  | runScheduledTask task => cases hop
  | receiveUpdate isNew message => cases hop
  | removePeer peer => exact absurd rfl (hremove peer)
  | tryBeginCreation owner =>
    rcases tryBeginCreation_cases owner s.game with heq | ⟨-, -, -, -, heq⟩
    · simp only [perform, heq]
      exact Reserves.refl _
    · simp only [perform, heq]
      exact .of_same rfl rfl
  | applyCreationSettings owner generation values =>
    simp only [perform, applyCreationSettings]
    split <;> exact .of_same rfl rfl
  | commitCreation owner generation =>
    simp only [perform, commitCreation]
    split <;> exact .of_same rfl rfl
  | abortCreationTransaction owner generation => exact reserves_abort s.heap owner generation s.game
  | createPeer peer =>
    simp only [perform, handOut_game]
    rcases createPeer_game s.heap peer s.game with heq | heq <;> rw [heq] <;>
      exact .of_same rfl rfl
  | addPeer index =>
    rcases addPeer_game_cases settings s index with heq | ⟨gp, userId, -, -, heq⟩
    · rw [heq]
      exact Reserves.refl _
    · rw [heq]
      exact reserves_emplacePeer gp userId s.game
  | addPeerForCreation index owner generation =>
    rcases addPeerForCreation_game_cases settings s index owner generation with
      heq | ⟨gp, userId, -, -, -, -, heq⟩
    · rw [heq]
      exact Reserves.refl _
    · rw [heq]
      exact reserves_emplacePeer gp userId s.game
  | reserveExpectedUser userId ttlMs =>
    obtain rfl : ttlMs = 30000 := by simpa [RoomOp.isHandled] using hop
    exact reserves_reserve userId s.game
  | removeExpectedUser userId => exact reserves_remove userId s.game
  | removeExpectedUserIfGeneration userId generation =>
    exact reserves_removeIfGeneration userId generation s.game
  | insertGameProps update => exact hprops (propsOnly_insertGameProps _ _ _)
  | applyGameProps update expected => exact hprops (propsOnly_applyGameProps _ _ _ _)
  | insertActorProps actorId update =>
    obtain ⟨_, _, -, heq⟩ := insertActorProps_eq actorId update s.game
    simp only [perform, heq]
    exact .of_same rfl rfl
  | applyInterestGroups peer add remove =>
    obtain ⟨_, _, -, heq⟩ := applyInterestGroups_eq s.heap peer add remove s.game
    simp only [perform, heq]
    exact .of_same rfl rfl
  | _ => exact .of_same rfl rfl

/-- The tasks of a room that an operation keeps it alive with. -/
def keepAlives (s : Room) (op : RoomOp) : List ScheduledTask :=
  if s.isEmptiedBy op ∧ s.game.emptyGameTtl > 0 then [.keepAlive s.game.emptyGameTtl.toNat] else []

theorem queues_step (s : Room) {op : RoomOp} (hop : op.isHandled = true) :
    Queues s.game (s.step settings op).game (s.keepAlives op) := by
  by_cases hremove : ∃ peer, op = .removePeer peer
  · obtain ⟨peer, rfl⟩ := hremove
    by_cases hcaller : s.heap.lock peer = peer
    · have hstep : s.step settings (.removePeer peer) = s.perform settings (.removePeer peer) :=
        if_pos hcaller
      have hempties : s.isEmptiedBy (.removePeer peer) =
          ((s.game.removePeer s.heap peer).1 &&
            (s.game.removePeer s.heap peer).2.peers.isEmpty) := by
        simp [isEmptiedBy, hcaller]
      rw [hstep, keepAlives, hempties]
      exact queues_removePeer s.heap peer s.game
    · have hstep : s.step settings (.removePeer peer) = s := if_neg hcaller
      rw [hstep]
      simpa [keepAlives, isEmptiedBy, hcaller] using (Reserves.refl s.game).queues
  · have hkept : s.keepAlives op = [] := by
      unfold keepAlives isEmptiedBy
      cases op with
      | removePeer peer => exact absurd ⟨peer, rfl⟩ hremove
      | _ => simp
    rw [hkept]
    refine step_induction (P := fun s' => Queues s.game s'.game []) (Reserves.refl s.game).queues
      fun _ => (reserves_perform s hop fun peer heq => hremove ⟨peer, heq⟩).queues

end Room

namespace App

/-- Every room only adds the ends of the reservations that it makes to its schedule. -/
def Queues (app app' : App) : Prop :=
  ∀ ref g', app'.live.lookup ref = some g' →
    Game.Queues ((app.live.lookup ref).getD { info := default }) g' []

variable {app app' : App}

theorem Queues.of_live (hlive : app'.live = app.live) : Queues app app' := by
  intro ref g' hg'
  rw [← hlive, hg', Option.getD_some]
  exact (Game.Reserves.refl g').queues

/-- One room changes, or is new. -/
theorem Queues.of_lookup (ref : GameRef) (g' : Game)
    (hqueues : Game.Queues ((app.live.lookup ref).getD { info := default }) g' [])
    (hlookup : ∀ other, app'.live.lookup other =
      if other = ref then some g' else app.live.lookup other) : Queues app app' := by
  intro other g'' hg''
  rw [hlookup] at hg''
  split at hg''
  · next hsame =>
    obtain rfl := Option.some.inj hg''
    rw [hsame]
    exact hqueues
  · rw [hg'', Option.getD_some]
    exact (Game.Reserves.refl g'').queues

theorem Queues.modifyGame {ref : GameRef} {change : Game → Game}
    (hchange : ∀ g, Game.Queues g (change g) []) : Queues app (app.modifyGame ref change) := by
  unfold App.modifyGame
  cases hg : app.live.lookup ref with
  | none => exact .of_live rfl
  | some g =>
    refine Queues.of_lookup ref (change g) ?_ fun other => AList.lookup_insert_eq _ _ _ _
    rw [hg]
    exact hchange g

/-- A room that is made starts with an empty schedule. -/
theorem Queues.made (hn : app.Numbered) (lobby : LobbyId) (id address : String)
    {change : Game → Game} (hchange : ∀ g, Game.Reserves g (change g)) :
    Queues app ((app.addGame lobby id address).modifyGame app.nextRef change) := by
  obtain ⟨_, hadd⟩ := addGame_frame lobby id address app
  have hnew : app.live.lookup app.nextRef = none :=
    AList.lookup_eq_none.mpr fun hmem => Nat.lt_irrefl _ (hn _ hmem)
  refine Queues.of_lookup app.nextRef (change (app.newGame lobby id address)) ?_ ?_
  · have hblank : Game.Reserves { info := default } (app.newGame lobby id address) :=
      .of_same rfl rfl
    rw [hnew]
    exact (hblank.trans (hchange _)).queues
  · intro other
    unfold App.modifyGame
    rw [lookup_addGame]
    simp only [AList.lookup_insert_eq]
    split
    · rfl
    · next hne => rw [hadd, AList.lookup_insert_ne hne]

theorem Queues.addGame (hn : app.Numbered) (lobby : LobbyId) (id address : String) :
    Queues app (app.addGame lobby id address) := by
  obtain ⟨_, hadd⟩ := addGame_frame lobby id address app
  have hnew : app.live.lookup app.nextRef = none :=
    AList.lookup_eq_none.mpr fun hmem => Nat.lt_irrefl _ (hn _ hmem)
  refine Queues.of_lookup app.nextRef (app.newGame lobby id address) ?_ ?_
  · rw [hnew]
    exact (Game.Reserves.of_same rfl rfl).queues
  · rw [hadd]
    exact fun other => AList.lookup_insert_eq _ _ _ _

theorem Queues.dropGame (hqueues : Queues app app') (ref : GameRef) :
    Queues app (app'.dropGame ref).1 := by
  cases hg : app'.live.lookup ref with
  | none =>
    simp only [App.dropGame, hg]
    exact hqueues
  | some g =>
    obtain ⟨⟨_, hframe⟩, -, -⟩ := dropGame_spec hg
    rw [hframe]
    intro other g' hg'
    simp only [AList.lookup_erase_eq] at hg'
    split at hg'
    · cases hg'
    · exact hqueues other g' hg'

/-- Lobbies do not matter. -/
theorem Queues.withLobby (lobby : LobbyId) (hqueues : Queues (app.getLobby lobby) app') :
    Queues app (app'.releaseLobby lobby) := by
  obtain ⟨_, hget⟩ := getLobby_frame lobby app
  obtain ⟨_, hrelease⟩ := releaseLobby_frame lobby app'
  rw [hget] at hqueues
  rw [hrelease]
  exact hqueues

theorem queues_createGame (hn : app.Numbered) (lobby : LobbyId) (id address : String)
    (orGet : Bool) : Queues app
      (((app.getLobby lobby).createGame lobby id address orGet).2.1.releaseLobby lobby) := by
  apply Queues.withLobby
  rcases createGame_cases lobby id address orGet (app.getLobby lobby) with heq | ⟨-, heq⟩
  · rw [heq]
    exact .of_live rfl
  · rw [heq]
    exact .addGame (KeepsSeats.getLobby hn lobby).numbered lobby id address

theorem queues_route (hn : app.Numbered) (h : PeerHeap) (userId : String)
    (request : RouteRequest) : Queues app (app.route h userId request).app := by
  obtain ⟨lobby, routing, hrouting, heq⟩ := routing_route h userId request app
  rw [heq]
  apply Queues.withLobby
  have hn' := (KeepsSeats.getLobby hn lobby).numbered
  generalize routing (app.getLobby lobby) = result at hrouting
  cases hrouting with
  | kept hnot => exact .of_live rfl
  | found ref hchange => exact .modifyGame fun g => (hchange g).queues
  | made lobby' gameId address hchange => exact .made hn' lobby' gameId address hchange
  | dropped lobby' gameId address hnot =>
    exact (Queues.addGame hn' lobby' gameId address).dropGame _

end App

namespace Host

/-- What an operation does to the schedule of the process.  `kept` are the tasks that rooms are kept
alive with after their last peer has left. -/
structure Schedules (kept : GameRef → List ScheduledTask) (w w' : Host) : Prop where
  now : w.now ≤ w'.now
  wide : w'.wide = w.wide
  reservedAt : w'.reservedAt = w.reservedAt
  tasks : ∀ task ∈ w'.tasks, task ∈ w.tasks
  ran : ∀ task ∈ w.tasks, task ∈ w'.tasks ∨ task.executionTime.toNat < w'.getTime
  rooms : ∀ ref g', w'.app.live.lookup ref = some g' →
    Game.Queues ((w.app.live.lookup ref).getD { info := default }) g' (kept ref)
  keptUntil : ∀ ref deadline, (ref, deadline) ∈ w'.keptUntil ↔
    (ref, deadline) ∈ w.keptUntil ∨ ∃ task ∈ kept ref, deadline = w'.now + task.ttlMs
  live : ∀ ref, ∀ task ∈ kept ref, ref ∈ w'.app.live

/-- The clock, the queue and what is known of the past. -/
def schedule (w : Host) :
    Nat × Bool × (GameRef → List Nat) × List RoomTask × List (GameRef × Nat) :=
  (w.now, w.wide, w.reservedAt, w.tasks, w.keptUntil)

variable {w w' : Host}

@[simp] theorem schedule_modify (peer : PeerRef) (change : Connection → Connection) (w : Host) :
    (w.modify peer change).schedule = w.schedule := by
  unfold modify
  split <;> rfl

@[simp] theorem schedule_storePersistentPeer (pp : PeerPersistent) (w : Host) :
    (w.storePersistentPeer pp).schedule = w.schedule := by
  unfold storePersistentPeer
  split <;> rfl

theorem schedule_credential (credentials : Credentials) (refreshToken : Bool) (w : Host) :
    (w.credential credentials refreshToken).2.schedule = w.schedule := by
  obtain ⟨_, _, hframe, -⟩ := credential_frame credentials refreshToken w
  rw [hframe]
  rfl

theorem schedule_authenticate (peer : PeerRef) (credentials : Credentials) (w : Host) :
    (w.authenticate peer credentials).schedule = w.schedule := by
  unfold authenticate
  split
  · rfl
  split
  · rfl
  split
  · exact (schedule_modify _ _ _).trans (schedule_credential _ _ _)
  · exact (schedule_modify _ _ _).trans (schedule_credential _ _ _)
  · have hcredential := schedule_credential credentials false w
    generalize w.credential credentials false = found at hcredential
    obtain ⟨persistent, w'⟩ := found
    cases persistent with
    | none => exact hcredential
    | some pp =>
      simp only
      split <;> exact (schedule_modify _ _ _).trans hcredential

theorem schedule_route (peer : PeerRef) (request : RouteRequest) (w : Host) :
    (w.route peer request).schedule = w.schedule := by
  unfold route
  split
  next pendingJoin pp hlookup =>
    simp only
    split
    · rfl
    · split
      · exact schedule_modify _ _ _
      · rfl
    · split
      · rfl
      · rw [schedule_storePersistentPeer, schedule_modify]
        rfl
  · rfl

theorem schedule_unsolicited (peer : PeerRef) (call : EnterCall) (w : Host) :
    (w.unsolicited peer call).schedule = w.schedule := by
  unfold unsolicited
  split
  next pendingJoin pp hlookup =>
    split
    · rfl
    · split
      · rfl
      · exact schedule_modify _ _ _
  · rfl

/-- An operation that leaves the clock and the queue alone, and takes no last peer away. -/
theorem Schedules.of_queues (hsame : w'.schedule = w.schedule)
    (hqueues : App.Queues w.app w'.app) : Schedules (fun _ => []) w w' := by
  obtain ⟨hnow, hwide, hreserved, htasks, hkept⟩ : w'.now = w.now ∧ w'.wide = w.wide ∧
      w'.reservedAt = w.reservedAt ∧ w'.tasks = w.tasks ∧ w'.keptUntil = w.keptUntil := by
    simpa [schedule] using hsame
  refine ⟨hnow.ge, hwide, hreserved, by simp [htasks], by simp +contextual [htasks], hqueues, ?_,
    by simp⟩
  simp [hkept]

/-- An operation on a room keeps it alive if the room has lost its last peer. -/
theorem schedules_onRoom (ref : GameRef) (op : RoomOp) (w : Host) :
    ∃ kept, Schedules kept w (w.onRoom ref op) := by
  have hsame : Schedules (fun _ => []) w w := .of_queues rfl (.of_live rfl)
  unfold onRoom
  split
  · exact ⟨_, hsame⟩
  next g hg =>
  split
  · next hop =>
    let s : Room := ⟨w.heap, g, w.handedOut ref⟩
    refine ⟨Function.update (fun _ => []) ref (s.keepAlives op), ?_⟩
    constructor
    · exact Nat.le_refl _
    · rfl
    · rfl
    · exact fun task hmem => hmem
    · exact fun task hmem => Or.inl hmem
    · intro other g' hg'
      simp only [AList.lookup_insert_eq] at hg'
      split at hg'
      · next hsame =>
        obtain rfl := Option.some.inj hg'
        rw [hsame, hg, Function.update_self]
        exact s.queues_step hop
      · next hne =>
        rw [hg', Function.update_of_ne hne]
        exact (Game.Reserves.refl g').queues
    · intro other deadline
      simp only [Room.keepAlives]
      by_cases hempties : s.isEmptiedBy op = true ∧ g.emptyGameTtl > 0
      · rw [if_pos hempties, if_pos hempties]
        by_cases hother : other = ref
        · simp [hother, ScheduledTask.ttlMs, s]
        · simp [hother]
      · rw [if_neg hempties, if_neg hempties]
        simp
    · intro other task hmem
      by_cases hother : other = ref
      · exact (AList.mem_insert _).mpr (Or.inl hother)
      · simp [hother] at hmem
  · exact ⟨_, hsame⟩

/-- What each operation does to the schedule. -/
theorem schedules_perform (hn : w.app.Numbered) (op : HostOp) :
    ∃ kept, Schedules kept w (w.perform op) := by
  have hquiet : ∀ {w' : Host}, w'.schedule = w.schedule → w'.app.live = w.app.live →
      ∃ kept, Schedules kept w w' :=
    fun hsame hlive => ⟨_, .of_queues hsame (.of_live hlive)⟩
  have hmodify : ∀ peer change, ∃ kept, Schedules kept w (w.modify peer change) :=
    fun peer change => hquiet (schedule_modify _ _ _) (by rw [app_modify])
  cases op with
  | tick ms =>
    refine ⟨fun _ => [], Nat.le_add_right _ _, rfl, rfl, fun _ hmem => hmem,
      fun _ hmem => Or.inl hmem, App.Queues.of_live rfl, by simp [perform], by simp⟩
  | runScheduledTask task =>
    simp only [perform]
    split
    · next hdue =>
      refine ⟨fun _ => [], Nat.le_refl _, rfl, rfl, fun _ hmem => List.mem_of_mem_erase hmem, ?_,
        App.Queues.modifyGame fun g => Game.queues_runScheduledTask task.task g, by simp, by simp⟩
      intro other hmem
      by_cases hsame : other = task
      · exact Or.inr (hsame ▸ hdue.2)
      · exact Or.inl ((List.mem_erase_of_ne hsame).mpr hmem)
    · exact hquiet rfl rfl
  | expireRecord task => exact hquiet rfl rfl
  | connect handler => exact hquiet rfl rfl
  | authenticate peer credentials =>
    obtain ⟨invitation, happ⟩ := app_authenticate peer credentials w
    refine ⟨_, .of_queues (schedule_authenticate peer credentials w) ?_⟩
    show App.Queues w.app (w.authenticate peer credentials).app
    rw [happ]
    cases invitation with
    | none => exact .of_live rfl
    | some info => exact App.queues_createGame hn _ _ _ _
  | route peer request =>
    refine ⟨_, .of_queues (schedule_route peer request w) ?_⟩
    show App.Queues w.app (w.route peer request).app
    rcases app_route peer request w with happ | ⟨userId, happ⟩
    · exact .of_live (by rw [happ])
    · rw [happ]
      exact App.queues_route hn w.heap userId request
  | unsolicited peer call =>
    refine ⟨_, .of_queues (schedule_unsolicited peer call w) ?_⟩
    show App.Queues w.app (w.unsolicited peer call).app
    rcases app_unsolicited peer call w with happ | happ
    · exact .of_live (by rw [happ])
    · rw [happ]
      unfold unsolicitedGame
      split
      · exact .of_live rfl
      split
      · exact App.queues_createGame hn _ _ _ _
      · exact .of_live rfl
  | room ref op => exact schedules_onRoom ref op w
  | retainJoin peer => exact hmodify _ _
  | releaseJoin peer => exact hmodify _ _
  | handleDisconnect peer => exact hmodify _ _
  | close peer =>
    simp only [perform]
    split
    · exact hquiet rfl rfl
    · split
      · exact hquiet rfl rfl
      · exact hquiet (schedule_storePersistentPeer _ _) (by rw [app_storePersistentPeer])
  | resetOwnership ref => exact hquiet rfl rfl

theorem ClockFits.getTime (hclock : w.ClockFits) : w.getTime = w.now := by
  unfold Host.getTime
  rcases hclock with hwide | hnow
  · rw [hwide]
    rfl
  · exact TaskQueue.getTime_of_lt hnow

/-- A clock that has not wrapped had not wrapped before. -/
theorem Schedules.clockFits {kept : GameRef → List ScheduledTask} (h : Schedules kept w w')
    (hclock : w'.ClockFits) : w.ClockFits :=
  hclock.imp (h.wide ▸ ·) fun hnow => Nat.lt_of_le_of_lt h.now hnow

/-- The time that is stored with a task, whether or not the clock counts beyond 32 bits. -/
theorem executionTime_eq (w : Host) (ttlMs : Nat) :
    (UInt32.ofNat (w.getTime + ttlMs)).toNat = (w.now + ttlMs) % 2 ^ 32 := by
  rw [UInt32.toNat_ofNat', getTime, TaskQueue.getTime]
  split
  · rfl
  · exact Nat.mod_add_mod _ _ _

/-- The queue has a task for each reservation and each parting that is recent, and no other tasks of
rooms. -/
structure Scheduled (w : Host) : Prop where
  numbered : w.app.Numbered
  tasks : ∀ task ∈ w.tasks,
    (∃ t ∈ w.reservedAt task.game, task.executionTime.toNat = (t + 30000) % 2 ^ 32) ∨
      ∃ deadline, (task.game, deadline) ∈ w.keptUntil ∧
        task.executionTime.toNat = deadline % 2 ^ 32
  reserved : w.ClockFits → ∀ ref, ∀ t ∈ w.reservedAt ref, ¬w.IsOver (t + 30000) →
    ∃ task ∈ w.tasks, task.game = ref ∧ task.executionTime.toNat = (t + 30000) % 2 ^ 32
  kept : w.ClockFits → ∀ ref deadline, (ref, deadline) ∈ w.keptUntil → ¬w.IsOver deadline →
    ∃ task ∈ w.tasks, task.game = ref ∧ task.executionTime.toNat = deadline % 2 ^ 32

theorem scheduled_of_isFresh (hw : w.IsFresh) : w.Scheduled := by
  have howned := owned_of_isFresh hw
  obtain ⟨-, -, -, htasks, hreserved, hkept⟩ := hw
  exact ⟨howned.numbered, by simp [htasks], by simp [hreserved], by simp [hkept]⟩

theorem mem_arrivals {before : App} {task : RoomTask} :
    task ∈ w.arrivals before ↔ ∃ g', w.app.live.lookup task.game = some g' ∧
      task.task ∈ g'.scheduled.drop
        ((before.live.lookup task.game).getD { info := default }).scheduled.length ∧
      task.executionTime = UInt32.ofNat (w.getTime + task.task.ttlMs) := by
  have hold : ∀ ref, ((before.live.lookup ref).elim 0 fun g => g.scheduled.length) =
      ((before.live.lookup ref).getD { info := default }).scheduled.length := by
    intro ref
    cases before.live.lookup ref <;> rfl
  simp only [arrivals, List.mem_flatMap, List.mem_map, hold]
  constructor
  · rintro ⟨⟨ref, g'⟩, hentry, scheduled, hscheduled, rfl⟩
    exact ⟨g', AList.mem_entries_iff.mp hentry, hscheduled, rfl⟩
  · rintro ⟨g', hg', hscheduled, htime⟩
    refine ⟨⟨task.game, g'⟩, AList.mem_entries_iff.mpr hg', task.task, hscheduled, ?_⟩
    rw [← htime]

theorem reservations_eq (ref : GameRef) (app : App) :
    app.reservations ref =
      ((app.live.lookup ref).getD { info := default }).nextExpectedUserGeneration := by
  unfold App.reservations
  cases app.live.lookup ref <;> rfl

/-- The tasks that arrive in the queue are those of the reservations that are made, and of the rooms
that lose their last peer. -/
theorem Schedules.arrivals {kept : GameRef → List ScheduledTask} (h : Schedules kept w w')
    {task : RoomTask} (hmem : task ∈ w'.arrivals w.app) :
    (w.app.reservations task.game < w'.app.reservations task.game ∧
        task.executionTime.toNat = (w'.now + 30000) % 2 ^ 32) ∨
      ∃ deadline, (task.game, deadline) ∈ w'.keptUntil ∧
        task.executionTime.toNat = deadline % 2 ^ 32 := by
  obtain ⟨g', hg', hscheduled, htime⟩ := mem_arrivals.mp hmem
  have hstored : task.executionTime.toNat = (w'.now + task.task.ttlMs) % 2 ^ 32 := by
    rw [htime, executionTime_eq]
  obtain ⟨made, hdrop, hgrows, hmade⟩ := h.rooms task.game g' hg'
  rw [hdrop, List.mem_append] at hscheduled
  rcases hscheduled with hnew | hkept
  · obtain ⟨userId, generation, htask⟩ := hmade _ hnew
    left
    rw [htask] at hstored
    refine ⟨?_, hstored⟩
    rw [reservations_eq, reservations_eq, hg', Option.getD_some]
    exact hgrows.mp (List.ne_nil_of_mem hnew)
  · right
    exact ⟨_, (h.keptUntil task.game _).mpr (Or.inr ⟨task.task, hkept, rfl⟩), hstored⟩

/-- A reservation that is made has its task in the queue. -/
theorem Schedules.exists_reserved {kept : GameRef → List ScheduledTask} (h : Schedules kept w w')
    {ref : GameRef} (hgrows : w.app.reservations ref < w'.app.reservations ref) :
    ∃ task ∈ w'.arrivals w.app, task.game = ref ∧
      task.executionTime.toNat = (w'.now + 30000) % 2 ^ 32 := by
  cases hg' : w'.app.live.lookup ref with
  | none => simp [App.reservations, hg'] at hgrows
  | some g' =>
    obtain ⟨made, hdrop, hiff, hmade⟩ := h.rooms ref g' hg'
    rw [reservations_eq, reservations_eq, hg', Option.getD_some] at hgrows
    obtain ⟨task, htask⟩ := List.exists_mem_of_ne_nil made (hiff.mpr hgrows)
    obtain ⟨userId, generation, heq⟩ := hmade task htask
    refine ⟨⟨UInt32.ofNat (w'.getTime + 30000), ref, task⟩, mem_arrivals.mpr ⟨g', hg', ?_, ?_⟩, rfl,
      executionTime_eq w' 30000⟩
    · rw [hdrop]
      exact List.mem_append_left _ htask
    · rw [heq]
      rfl

/-- A room that is kept alive has its task in the queue. -/
theorem Schedules.exists_kept {kept : GameRef → List ScheduledTask} (h : Schedules kept w w')
    {ref : GameRef} {task : ScheduledTask} (hkept : task ∈ kept ref) :
    ∃ entry ∈ w'.arrivals w.app, entry.game = ref ∧
      entry.executionTime.toNat = (w'.now + task.ttlMs) % 2 ^ 32 := by
  obtain ⟨g', hg'⟩ := AList.mem_iff_lookup.mp (h.live ref task hkept)
  obtain ⟨made, hdrop, -, -⟩ := h.rooms ref g' hg'
  refine ⟨⟨UInt32.ofNat (w'.getTime + task.ttlMs), ref, task⟩,
    mem_arrivals.mpr ⟨g', hg', ?_, rfl⟩, rfl, executionTime_eq w' task.ttlMs⟩
  rw [hdrop]
  exact List.mem_append_right _ hkept

/-- A task whose time is not over stays in the queue. -/
theorem Schedules.stays {kept : GameRef → List ScheduledTask} (h : Schedules kept w w')
    (hclock : w'.ClockFits) {ref : GameRef} {deadline : Nat} (hlate : ¬w'.IsOver deadline)
    (hbefore : ¬w.IsOver deadline →
      ∃ task ∈ w.tasks, task.game = ref ∧ task.executionTime.toNat = deadline % 2 ^ 32) :
    ∃ task ∈ w'.tasks, task.game = ref ∧ task.executionTime.toNat = deadline % 2 ^ 32 := by
  obtain ⟨task, hmem, hgame, htime⟩ :=
    hbefore fun hover => hlate (Nat.lt_of_lt_of_le hover h.now)
  refine ⟨task, (h.ran task hmem).resolve_right fun hdue => hlate ?_, hgame, htime⟩
  rwa [htime, hclock.getTime] at hdue

theorem Scheduled.step (hw : w.Scheduled) (op : HostOp) : (w.step op).Scheduled := by
  have hn := numbered_collect hw.numbered
  obtain ⟨kept, h⟩ := schedules_perform hn op
  have hnumbered := numbered_perform hn op
  simp only [Host.step]
  generalize w.collect.perform op = w' at h hnumbered ⊢
  have hsame : w'.reservedAt = w.reservedAt := h.reservedAt
  constructor
  · exact hnumbered
  · intro task hmem
    simp only
    rcases List.mem_append.mp hmem with hold | hnew
    · rcases hw.tasks task (h.tasks task hold) with ⟨t, ht, htime⟩ | ⟨deadline, hkept, htime⟩
      · left
        refine ⟨t, ?_, htime⟩
        rw [hsame]
        split
        · exact List.mem_append_left _ ht
        · exact ht
      · exact Or.inr ⟨deadline, (h.keptUntil _ _).mpr (Or.inl hkept), htime⟩
    · rcases h.arrivals hnew with ⟨hgrows, htime⟩ | hkept
      · left
        refine ⟨w'.now, ?_, htime⟩
        rw [if_pos hgrows]
        exact List.mem_append_right _ (List.mem_singleton.mpr rfl)
      · exact Or.inr hkept
  · intro hclock ref t ht hlate
    have hstays : t ∈ w.reservedAt ref → ∃ task ∈ w'.tasks, task.game = ref ∧
        task.executionTime.toNat = (t + 30000) % 2 ^ 32 := fun hold =>
      h.stays hclock hlate (hw.reserved (h.clockFits hclock) ref t hold)
    simp only at ht ⊢
    rw [hsame] at ht
    split at ht
    · next hgrows =>
      rcases List.mem_append.mp ht with hold | hnew
      · obtain ⟨task, hmem, htask⟩ := hstays hold
        exact ⟨task, List.mem_append_left _ hmem, htask⟩
      · rw [List.mem_singleton.mp hnew]
        obtain ⟨task, hmem, htask⟩ := h.exists_reserved hgrows
        exact ⟨task, List.mem_append_right _ hmem, htask⟩
    · obtain ⟨task, hmem, htask⟩ := hstays ht
      exact ⟨task, List.mem_append_left _ hmem, htask⟩
  · intro hclock ref deadline hmem hlate
    simp only at hmem ⊢
    rcases (h.keptUntil ref deadline).mp hmem with hold | ⟨task, hkept, htime⟩
    · obtain ⟨task, hmem, htask⟩ :=
        h.stays hclock hlate (hw.kept (h.clockFits hclock) ref deadline hold)
      exact ⟨task, List.mem_append_left _ hmem, htask⟩
    · obtain ⟨entry, hentry, hentrytime⟩ := h.exists_kept hkept
      rw [← htime] at hentrytime
      exact ⟨entry, List.mem_append_right _ hentry, hentrytime⟩

theorem Reachable.scheduled (hw : w.Reachable) : w.Scheduled :=
  hw.invariant (fun _ hfresh => scheduled_of_isFresh hfresh) fun _ op hs _ => hs.step op

/-- A room without a pointer goes, and frees its id. -/
theorem collect_drops {ref : GameRef} {g : Game} (hg : w.app.live.lookup ref = some g)
    (hheld : w.isHeld ref = false) :
    ref ∉ w.collect.app.live ∧ g.info.id ∉ w.collect.app.games := by
  let gone (app : App) : Prop := ref ∉ app.live ∧ g.info.id ∉ app.games
  have hgone : ∀ (app : App) (other : GameRef), gone app → gone (app.dropGame other).1 := by
    rintro app other ⟨hlive, hgames⟩
    cases hother : app.live.lookup other with
    | none =>
      simp only [App.dropGame, hother]
      exact ⟨hlive, hgames⟩
    | some g' =>
      obtain ⟨⟨_, hframe⟩, -, -⟩ := App.dropGame_spec hother
      rw [hframe]
      exact ⟨fun hmem => hlive (AList.mem_erase.mp hmem).2,
        fun hmem => hgames (AList.mem_erase.mp hmem).2⟩
  -- Until its own turn comes, the room stays as it is.
  have hloop : ∀ (refs : List GameRef) (app : App),
      gone app ∨ app.live.lookup ref = some g ∧ ref ∈ refs →
      gone (refs.foldl (fun app ref => (app.dropGame ref).1) app) := by
    intro refs
    induction refs with
    | nil =>
      rintro app (happ | ⟨-, hmem⟩)
      · exact happ
      · cases hmem
    | cons other refs ih =>
      rintro app (happ | ⟨hlookup, hmem⟩)
      · exact ih _ (Or.inl (hgone app other happ))
      · rw [List.foldl_cons]
        by_cases hother : ref = other
        · obtain ⟨⟨_, hframe⟩, -, -⟩ := App.dropGame_spec hlookup
          rw [← hother]
          refine ih _ (Or.inl ?_)
          rw [hframe]
          exact ⟨fun hmem => (AList.mem_erase.mp hmem).1 rfl,
            fun hmem => (AList.mem_erase.mp hmem).1 rfl⟩
        · refine ih _ (Or.inr ⟨?_, (List.mem_cons.mp hmem).resolve_left hother⟩)
          cases hlive : app.live.lookup other with
          | none =>
            simp only [App.dropGame, hlive]
            exact hlookup
          | some g' =>
            obtain ⟨⟨_, hframe⟩, -, -⟩ := App.dropGame_spec hlive
            rw [hframe]
            simp only [AList.lookup_erase_eq, if_neg hother]
            exact hlookup
  refine hloop _ w.app (Or.inr ⟨hg, List.mem_filter.mpr ⟨?_, by simp [hheld]⟩⟩)
  exact AList.mem_keys.mp (AList.mem_iff_lookup.mpr ⟨g, hg⟩)

/-- As long as the clock has not wrapped, overdue rooms die on time if and only if all that was
scheduled for them has run out. -/
theorem diesOnTime_iff (hw : w.Reachable) (hclock : w.ClockFits) : w.DiesOnTime ↔ w.RanOut := by
  have hs := hw.scheduled
  constructor
  · intro hdies ref g hoverdue
    obtain ⟨hnone, -⟩ := hdies ref g hoverdue
    refine ⟨fun t ht => ?_, fun deadline hkept => ?_⟩
    · by_contra hlate
      obtain ⟨task, hmem, hgame, -⟩ := hs.reserved hclock ref t ht hlate
      exact hnone task hmem hgame
    · by_contra hlate
      obtain ⟨task, hmem, hgame, -⟩ := hs.kept hclock ref deadline hkept hlate
      exact hnone task hmem hgame
  · intro hran ref g hoverdue
    obtain ⟨hreserved, hkept⟩ := hran ref g hoverdue
    have hnone : ∀ task ∈ w.tasks, task.game ≠ ref := by
      rintro task hmem rfl
      have hsettled := hoverdue.settled task hmem
      rw [hclock.getTime] at hsettled
      rcases hs.tasks task hmem with ⟨t, ht, htime⟩ | ⟨deadline, hmem, htime⟩
      · have hover : (t + 30000) % 2 ^ 32 < w.now := hreserved t ht
        omega
      · have hover : deadline % 2 ^ 32 < w.now := hkept _ hmem
        omega
    refine ⟨hnone, collect_drops hoverdue.live ?_⟩
    simp only [isHeld, hoverdue.unowned, hoverdue.unattached, decide_false, Bool.false_or]
    simpa using hnone

/-- A clock of 32 bits never passes the last time that can be stored: after the wrap it depends on
when the tasks were run which of them are left, and this one always is. -/
theorem last_task_stays (hw : w.Reachable) (hwide : w.wide = false) {task : RoomTask}
    (hmem : task ∈ w.tasks) (hlast : task.executionTime.toNat = 2 ^ 32 - 1) (ops : List HostOp) :
    task ∈ (Transition.run step w ops).tasks := by
  have hkeeps : Transition.Keeps step (fun _ _ => True)
      fun w => w.Scheduled ∧ w.wide = false ∧ task ∈ w.tasks := by
    rintro w op ⟨hs, hwide, hmem⟩ -
    obtain ⟨kept, h⟩ := schedules_perform (numbered_collect hs.numbered) op
    have hwide' : (w.collect.perform op).wide = false := h.wide.trans hwide
    refine ⟨hs.step op, hwide', List.mem_append_left _ ?_⟩
    refine (h.ran task hmem).resolve_right fun hdue => ?_
    rw [hlast, getTime, TaskQueue.getTime, hwide', if_neg Bool.false_ne_true] at hdue
    omega
  exact (hkeeps.run ⟨hw.scheduled, hwide, hmem⟩
    (Transition.eachStep_of_forall fun _ _ _ => trivial)).2.2

/-- Ada comes to a room that she is to create, creates it and leaves it again. -/
def visit (request : RouteRequest) : Host :=
  Transition.run step start
    [.connect .masterServer, .authenticate 0 (.standard "ada" "a"), .route 0 request,
      .connect (.gameServer false), .authenticate 1 (.token "a" "b"),
      .room 0 (.tryBeginCreation (some 1)), .room 0 (.createPeer (some 1)),
      .room 0 (.addPeerForCreation 0 (some 1) 1), .room 0 (.commitCreation (some 1) 1),
      .room 0 (.removePeer (some 1)), .handleDisconnect 1, .close 1]

theorem reachable_visit (request : RouteRequest) : (visit request).Reachable :=
  (Transition.Reachable.init ⟨⟨rfl, rfl, rfl⟩, rfl, rfl, rfl, fun _ => rfl, rfl⟩).run
    (Transition.eachStep_of_forall fun _ _ _ => trivial)

/-- The reservation that she had as a `JoinGame` is used up, and its task has the room. -/
theorem not_diesOnTime :
    ¬(visit (.joinGame { lobby := ("lobby", 0), gameId := "room", joinMode := 1 })).DiesOnTime := by
  set w := visit (.joinGame { lobby := ("lobby", 0), gameId := "room", joinMode := 1 }) with hw
  intro hdies
  have hsome : (w.app.live.lookup 0).isSome = true := by
    rw [hw]
    decide +kernel
  obtain ⟨g, hg⟩ := Option.isSome_iff_exists.mp hsome
  have hroom : (w.app.live.lookup 0).all (fun g => g.isCreated && g.activePeerCount == 0 &&
      decide (g.expectedUsers = ∅) && g.emptyGameTtl == 0) = true := by
    rw [hw]
    decide +kernel
  have hhost : 0 ∉ w.attached ∧ 0 ∉ w.owners ∧ w.emptied 0 = 0 ∧
      (∀ task ∈ w.tasks, w.getTime ≤ task.executionTime.toNat) ∧
        ∃ task ∈ w.tasks, task.game = 0 := by
    rw [hw]
    decide +kernel
  rw [hg] at hroom
  simp only [Option.all_some, Bool.and_eq_true, decide_eq_true_eq, beq_iff_eq] at hroom
  obtain ⟨⟨⟨hcreated, hempty⟩, hunreserved⟩, httl⟩ := hroom
  obtain ⟨hattached, howners, hemptied, hsettled, task, hmem, hgame⟩ := hhost
  refine (hdies 0 g ⟨hg, hcreated, hempty, hunreserved, hattached, howners, ?_, hsettled⟩).1
    task hmem hgame
  simp [hemptied, httl]

/-- A `CreateGame` has no reservation, and its room goes at once. -/
theorem diesOnTime_unreserved :
    (visit (.createGame { lobby := ("lobby", 0), gameId := "room" })).DiesOnTime :=
  (diesOnTime_iff (reachable_visit _) (Or.inl (by decide +kernel))).mpr (by
    intro ref g hoverdue
    have hkeys : (visit (.createGame { lobby := ("lobby", 0), gameId := "room" })).app.live.keys =
        [0] := by
      decide +kernel
    have hnone : (visit (.createGame { lobby := ("lobby", 0), gameId := "room" })).reservedAt 0 =
        [] := by
      decide +kernel
    have hkept : (visit (.createGame { lobby := ("lobby", 0), gameId := "room" })).keptUntil =
        [] := by
      decide +kernel
    have hmem := AList.mem_keys.mp (AList.mem_iff_lookup.mpr ⟨g, hoverdue.live⟩)
    obtain rfl : ref = 0 := by simpa [hkeys] using hmem
    simp [hnone, hkept])

end Host

end LuxonServer
