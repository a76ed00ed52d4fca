import LuxonServer.Replication

/-! The replica of a room behind a first-in, first-out link from its owner: when no message of the
owner is lost to the revision check, so that the replica ends up with the owner's last snapshot. -/

namespace LuxonServer

def Effect.message? : Effect → Option GameUpdate
  | .ipcBroadcast message => some message
  | _ => none

namespace Room

open Game

/-- What an operation itself calls and sends. -/
def effects (settings : AppSettings) (s : Room) : RoomOp → List Effect
  | .insertGameProps update => (s.game.insertGameProps settings update).2
  | .applyGameProps update expected => (s.game.applyGameProps settings update expected).2.2
  | _ => []

/-- The messages of an operation, and of the `trigger_lobby_update` that may follow it. -/
def messages (settings : AppSettings) (s : Room) (op : RoomOp × Bool) : List GameUpdate :=
  (s.effects settings op.1 ++
    if op.2 then (s.step settings op.1).game.triggerLobbyUpdate else []).filterMap Effect.message?

/-- The messages of a run of the owner. -/
def outbox (settings : AppSettings) : Room → List (RoomOp × Bool) → List GameUpdate
  | _, [] => []
  | s, op :: ops => s.messages settings op ++ (s.step settings op.1).outbox settings ops

/-- The room at each of the messages. -/
def snapshots (settings : AppSettings) : Room → List (RoomOp × Bool) → List Game
  | _, [] => []
  | s, op :: ops =>
    List.replicate (s.messages settings op).length (s.step settings op.1).game ++
      (s.step settings op.1).snapshots settings ops

variable {settings : AppSettings} {s : Room}

/-- A property update sends the room as it leaves it. -/
theorem message_insertGameProps {update : Hashtable} {g : Game} {m : GameUpdate}
    (hm : m ∈ (g.insertGameProps settings update).2.filterMap Effect.message?) :
    m = (g.insertGameProps settings update).1.gameUpdateMessage := by
  unfold insertGameProps at hm ⊢
  simp only at hm ⊢
  generalize (if (g.insertProps settings update).changed = true then _ else _ : Game) = g' at hm ⊢
  rw [List.filterMap_append, List.mem_append] at hm
  rcases hm with hm | hm
  · split at hm <;> simp [Effect.message?] at hm
  · split at hm
    · simpa [triggerLobbyUpdate, Effect.message?, eq_comm] using hm
    · simp at hm

theorem eq_of_mem_messages {op : RoomOp × Bool} {m : GameUpdate}
    (hm : m ∈ s.messages settings op) : m = (s.step settings op.1).game.gameUpdateMessage := by
  obtain ⟨op, trigger⟩ := op
  unfold messages at hm
  rw [List.filterMap_append, List.mem_append] at hm
  rcases hm with hm | hm
  · cases op with
    | insertGameProps update => exact message_insertGameProps hm
    | applyGameProps update expected =>
      have hstep : (s.step settings (.applyGameProps update expected)).game =
          (s.game.applyGameProps settings update expected).2.1 := rfl
      rw [hstep]
      simp only [effects] at hm
      unfold applyGameProps at hm ⊢
      split at hm
      · next hexpected =>
        rw [if_pos hexpected]
        exact message_insertGameProps hm
      · simp at hm
    | _ => simp [effects] at hm
  · cases trigger with
    | false => simp at hm
    | true => simpa [triggerLobbyUpdate, Effect.message?, eq_comm] using hm

theorem outbox_eq (ops : List (RoomOp × Bool)) :
    s.outbox settings ops = (s.snapshots settings ops).map gameUpdateMessage := by
  induction ops generalizing s with
  | nil => rfl
  | cons op ops ih =>
    rw [outbox, snapshots, List.map_append, List.map_replicate, ih]
    congr 1
    exact List.eq_replicate_iff.mpr ⟨rfl, fun m hm => eq_of_mem_messages hm⟩

end Room

namespace Game

/-- A room keeps its name, and its revision does not go back. -/
structure Continues (g g' : Game) : Prop where
  info : g'.info = g.info
  revision : g.stateRevision ≤ g'.stateRevision

variable {g g' : Game}

theorem Continues.refl (g : Game) : Continues g g := ⟨rfl, le_rfl⟩

theorem SeatsOnly.continues (hseats : SeatsOnly g g') : Continues g g' := by
  obtain ⟨_, _, _, _, _, _, rfl⟩ := hseats
  exact ⟨rfl, le_rfl⟩

theorem continues_emplacePeer (gp : GamePeer) (userId : String) (g : Game) :
    Continues g (g.emplacePeer gp userId) := by
  rw [emplacePeer_eq]
  exact ⟨rfl, le_rfl⟩

theorem continues_insertGameProps (settings : AppSettings) (update : Hashtable) (g : Game) :
    Continues g (g.insertGameProps settings update).1 := by
  constructor
  · obtain ⟨_, _, _, _, _, _, _, _, _, heq⟩ := propsOnly_insertGameProps settings update g
    rw [heq]
  · rcases insertGameProps_cases settings update g with heq | hbump
    · rw [heq]
    · rw [hbump]
      exact Nat.le_succ _

end Game

namespace Room

open Game

variable {settings : AppSettings} {s : Room}

theorem perform_continues (settings : AppSettings) (s : Room) {op : RoomOp}
    (hlocal : op.isLocal = true) : Continues s.game (s.perform settings op).game := by
  cases op with
  | receiveUpdate isNew message => cases hlocal
  | connect peer | setPersistent peer persistent =>
    simp only [perform]
    split <;> exact Continues.refl s.game
  | tryBeginCreation owner =>
    rcases tryBeginCreation_cases owner s.game with heq | ⟨-, -, -, -, heq⟩
    · simp only [perform, heq]
      exact Continues.refl s.game
    · simp only [perform, heq]
      exact ⟨rfl, Nat.le_succ _⟩
  | applyCreationSettings owner generation values =>
    simp only [perform, applyCreationSettings]
    split
    · exact ⟨rfl, Nat.le_succ _⟩
    · exact Continues.refl s.game
  | commitCreation owner generation =>
    rcases commitCreation_cases s.heap owner generation s.game with heq | ⟨-, -, heq⟩
    · simp only [perform, heq]
      exact Continues.refl s.game
    · simp only [perform, heq]
      exact ⟨rfl, Nat.le_succ _⟩
  | abortCreationTransaction owner generation =>
    by_cases hactive : s.game.isCreationActive s.heap owner generation = true
    · obtain ⟨_, heq⟩ := abortCreationTransaction_eq hactive
      simp only [perform, heq]
      exact ⟨rfl, Nat.le_succ _⟩
    · simp only [perform, abortCreationTransaction_of_inactive (Bool.eq_false_iff.mpr hactive)]
      exact Continues.refl s.game
  | createPeer peer =>
    rcases createPeer_game s.heap peer s.game with heq | heq
    · simp only [perform, handOut_game, heq]
      exact Continues.refl s.game
    · simp only [perform, handOut_game, heq]
      exact ⟨rfl, le_rfl⟩
  | addPeer index =>
    rcases addPeer_game_cases settings s index with heq | ⟨gp, userId, -, -, heq⟩
    · rw [heq]
      exact Continues.refl s.game
    · rw [heq]
      exact continues_emplacePeer gp userId s.game
  | addPeerForCreation index owner generation =>
    rcases addPeerForCreation_game_cases settings s index owner generation with
      heq | ⟨gp, userId, -, -, -, -, heq⟩
    · rw [heq]
      exact Continues.refl s.game
    · rw [heq]
      exact continues_emplacePeer gp userId s.game
  | removePeer peer =>
    cases peer with
    | none => exact Continues.refl s.game
    | some r =>
      obtain ⟨_, _, _, heq⟩ := removePeer_eq s.heap r s.game
      simp only [perform, heq]
      exact ⟨rfl, le_rfl⟩
  | reserveExpectedUser userId ttlMs => exact (seatsOnly_reserve userId ttlMs s.game).continues
  | removeExpectedUser userId => exact (seatsOnly_remove userId s.game).continues
  | removeExpectedUserIfGeneration userId generation =>
    exact (seatsOnly_removeIfGeneration userId generation s.game).continues
  | runScheduledTask task => exact (seatsOnly_runScheduledTask task s.game).continues
  | insertGameProps update => exact continues_insertGameProps settings update s.game
  | applyGameProps update expected =>
    simp only [perform, applyGameProps]
    split
    · exact continues_insertGameProps settings update s.game
    · exact Continues.refl s.game
  | insertActorProps actorId update =>
    obtain ⟨_, _, -, heq⟩ := insertActorProps_eq actorId update s.game
    simp only [perform, heq]
    exact ⟨rfl, le_rfl⟩
  | applyInterestGroups peer add remove =>
    obtain ⟨_, _, -, heq⟩ := applyInterestGroups_eq s.heap peer add remove s.game
    simp only [perform, heq]
    exact ⟨rfl, le_rfl⟩
  | setConfigState | setTtlConfig => exact ⟨rfl, Nat.le_succ _⟩
  | disconnect | createPeerForActor => exact Continues.refl s.game
  | editEventCache | setCustomProps | setLobbyProps | setDummyPeerCount => exact ⟨rfl, le_rfl⟩

theorem info_step (settings : AppSettings) (s : Room) (op : RoomOp) :
    (s.step settings op).game.info = s.game.info := by
  refine step_induction (P := fun s' => s'.game.info = s.game.info) rfl fun _ => ?_
  cases hlocal : op.isLocal with
  | true => exact (perform_continues settings s hlocal).info
  | false =>
    cases op with
    | receiveUpdate isNew message => exact Process.info_receiveUpdate settings isNew message s.game
    | _ => cases hlocal

/-- What is known of the snapshots of a room's own process: they have the room's name and no
nameless user, and their revisions are in order. -/
theorem snapshots_sound (hs : Reachable settings s) {ops : List (RoomOp × Bool)}
    (hlocal : ∀ op ∈ ops, op.1.isLocal = true) :
    (∀ o ∈ s.snapshots settings ops, Continues s.game o ∧ "" ∉ o.expectedUsers) ∧
      (s.snapshots settings ops).Pairwise fun o o' => o.stateRevision ≤ o'.stateRevision := by
  induction ops generalizing s with
  | nil => exact ⟨fun _ ho => absurd ho List.not_mem_nil, List.Pairwise.nil⟩
  | cons op ops ih =>
    have hs' : Reachable settings (s.step settings op.1) := hs.step trivial
    have hop := hlocal op List.mem_cons_self
    have hcontinues : Continues s.game (s.step settings op.1).game :=
      step_induction (P := fun s' => Continues s.game s'.game) (Continues.refl s.game)
        fun _ => perform_continues settings s hop
    obtain ⟨hrest, hordered⟩ := ih hs' fun op' hop' => hlocal op' (List.mem_cons_of_mem op hop')
    rw [snapshots]
    constructor
    · intro o ho
      rcases List.mem_append.mp ho with ho | ho
      · obtain rfl := List.eq_of_mem_replicate ho
        exact ⟨hcontinues, hs'.valid.seats.named⟩
      · obtain ⟨hlater, hnamed⟩ := hrest o ho
        exact ⟨⟨hlater.info.trans hcontinues.info, hcontinues.revision.trans hlater.revision⟩,
          hnamed⟩
    · refine List.pairwise_append.mpr ⟨?_, hordered, fun o ho o' ho' => ?_⟩
      · exact List.pairwise_replicate.mpr (Or.inr le_rfl)
      · obtain rfl := List.eq_of_mem_replicate ho
        exact (hrest o' ho').1.revision

end Room

/-- A message that says something new is followed by one of a later revision only: the replica
counts the news once more, and would take a message of the same revision for an old one. -/
def Announced.Spaced : Announced → List Game → Prop
  | _, [] => True
  | a, o :: os =>
    (∀ o' ∈ os.head?, a.News o → o.stateRevision < o'.stateRevision) ∧ (a.learn o).Spaced os

instance Announced.Spaced.decidable : ∀ (a : Announced) (os : List Game), Decidable (a.Spaced os)
  | _, [] => .isTrue trivial
  | a, o :: os =>
    have := Announced.Spaced.decidable (a.learn o) os
    inferInstanceAs (Decidable ((∀ o' ∈ os.head?, _ → _) ∧ (a.learn o).Spaced os))

namespace Process

/-- A message arrives. -/
def receive (p : Process) (m : GameUpdate) : Process := (p.processGameUpdate m).1

/-- The messages arrive one by one, none is dropped by the revision check, and after the last one
the replica agrees with the owner's last snapshot. -/
def Converges (info : GameInfo) (last : Option Game) (p : Process) (ms : List GameUpdate) : Prop :=
  Transition.EachStep receive (fun p m => ¬p.Discards m) p ms ∧
    ∀ o ∈ last, ∃ k ∈ (Transition.run receive p ms).replica info, o.Mirrors k

instance (info : GameInfo) (last : Option Game) (p : Process) (ms : List GameUpdate) :
    Decidable (p.Converges info last ms) :=
  inferInstanceAs (Decidable (_ ∧ ∀ _ ∈ _, ∃ _ ∈ _, _))

section Receiving

variable {info : GameInfo} {p : Process} {k : Game} {os : List Game}

/-- None of the snapshots is dropped. -/
abbrev Lossless (p : Process) (os : List Game) : Prop :=
  Transition.EachStep deliver (fun p o => ¬p.Discards o.gameUpdateMessage) p os

theorem discards_iff {o : Game} (hk : p.replica o.info = some k) :
    ¬p.Discards o.gameUpdateMessage ↔ k.stateRevision ≤ o.stateRevision := by
  rw [discards_of_replica (m := o.gameUpdateMessage) hk, not_not, Game.acceptsUpdate_message]
  exact or_iff_right Bool.false_ne_true

theorem deliver_next {o : Game} (hk : p.replica o.info = some k) (hbare : k.Bare)
    (hle : k.stateRevision ≤ o.stateRevision) :
    ∃ k', (p.deliver o).replica o.info = some k' ∧ k'.Bare ∧ Game.Updated o k k' ∧
      (k.announced.News o → k'.stateRevision = o.stateRevision + 1) ∧
      (¬k.announced.News o → k'.stateRevision = o.stateRevision) := by
  have haccepts := (Game.acceptsUpdate_message false o k).mpr (Or.inr hle)
  have hu := Game.updated_applyUpdate p.app.settings o k
  obtain ⟨hnews, hold, -, -⟩ := Game.applyUpdate_news p.app.settings o k
  exact ⟨_, (deliver_of_accepts hk haccepts).1, hu.bare hbare, hu, hnews, hold⟩

/-- The replica is not ahead of the next snapshot, unless it has counted news that the owner has
not. -/
theorem keepsUp_iff {a : Announced} {o o' : Game}
    (hnews : a.News o → k.stateRevision = o.stateRevision + 1)
    (hold : ¬a.News o → k.stateRevision = o.stateRevision)
    (hnext : o.stateRevision ≤ o'.stateRevision) :
    k.stateRevision ≤ o'.stateRevision ↔ (a.News o → o.stateRevision < o'.stateRevision) := by
  by_cases hn : a.News o
  · rw [hnews hn, Nat.succ_le_iff]
    exact (imp_iff_right hn).symm
  · rw [hold hn]
    exact iff_of_true hnext fun h => absurd h hn

/-- From a known replica on: nothing is dropped exactly if the next snapshot is not behind the
replica and each later one keeps its distance. -/
theorem lossless_iff (hk : p.replica info = some k) (hbare : k.Bare)
    (hinfo : ∀ o ∈ os, o.info = info)
    (hordered : os.Pairwise fun o o' => o.stateRevision ≤ o'.stateRevision) :
    p.Lossless os ↔
      (∀ o ∈ os.head?, k.stateRevision ≤ o.stateRevision) ∧ k.announced.Spaced os := by
  induction os generalizing p k with
  | nil => simp [Announced.Spaced]
  | cons o os ih =>
    have ho := hinfo o List.mem_cons_self
    subst ho
    have hcons : p.Lossless (o :: os) ↔
        ¬p.Discards o.gameUpdateMessage ∧ (p.deliver o).Lossless os := Iff.rfl
    rw [hcons, discards_iff hk]
    simp only [List.head?_cons, Option.mem_def, Option.some.injEq, forall_eq', Announced.Spaced]
    apply and_congr_right
    intro hle
    obtain ⟨k', hk', hbare', hu, hnews, hold⟩ := deliver_next hk hbare hle
    rw [List.pairwise_cons] at hordered
    rw [← hu.announced, ih hk' hbare' (fun o' ho' => hinfo o' (List.mem_cons_of_mem o ho'))
      hordered.2]
    exact and_congr_left' (forall₂_congr fun o' ho' =>
      keepsUp_iff hnews hold (hordered.1 o' (List.mem_of_mem_head? ho')))

theorem mirrors_last (hk : p.replica info = some k) (hbare : k.Bare)
    (hinfo : ∀ o ∈ os, o.info = info) (hnamed : ∀ o ∈ os, "" ∉ o.expectedUsers)
    (hlossless : p.Lossless os) :
    ∀ o ∈ os.getLast?, ∃ k ∈ (Transition.run deliver p os).replica info, o.Mirrors k := by
  induction os generalizing p k with
  | nil => exact fun _ ho => by cases ho
  | cons o os ih =>
    have ho := hinfo o List.mem_cons_self
    subst ho
    obtain ⟨hkeeps, hrest⟩ := hlossless
    obtain ⟨k', hk', hbare', hu, -, -⟩ := deliver_next hk hbare ((discards_iff hk).mp hkeeps)
    cases os with
    | nil =>
      intro last hlast
      obtain rfl : o = last := by simpa using hlast
      exact ⟨k', hk', hu.mirrors hbare (hnamed _ List.mem_cons_self)⟩
    | cons o' os =>
      rw [List.getLast?_cons_cons]
      exact ih hk' hbare' (fun o'' ho'' => hinfo o'' (List.mem_cons_of_mem o ho''))
        (fun o'' ho'' => hnamed o'' (List.mem_cons_of_mem o ho'')) hrest

theorem deliver_first {o : Game} (habsent : p.Absent o.info)
    (hcan : p.CanTrack o.gameUpdateMessage) :
    ∃ k', (p.deliver o).replica o.info = some k' ∧ k'.Bare ∧
      Game.Updated o (p.newReplica o.gameUpdateMessage) k' ∧
      (Announced.News {} o → k'.stateRevision = o.stateRevision + 1) ∧
      (¬Announced.News {} o → k'.stateRevision = o.stateRevision) := by
  have hbare := bare_newReplica o.gameUpdateMessage p
  have hu := Game.updated_applyUpdate p.app.settings o (p.newReplica o.gameUpdateMessage)
  obtain ⟨hnews, hold, -, -⟩ :=
    Game.applyUpdate_news p.app.settings o (p.newReplica o.gameUpdateMessage)
  exact ⟨_, (deliver_of_canTrack habsent hcan).1, hu.bare hbare, hu, hnews, hold⟩

theorem absent_run (habsent : p.Absent info) (haddress : info.serverAddress = "")
    (hinfo : ∀ o ∈ os, o.info = info) : (Transition.run deliver p os).Absent info := by
  refine Transition.Keeps.run (C := fun _ o => o.info = info) (I := Absent info) ?_ habsent
    (Transition.eachStep_of_forall fun o ho _ => hinfo o ho)
  rintro p o habsent rfl
  exact ((processGameUpdate_of_absent (m := o.gameUpdateMessage) habsent).2.1
    fun hcan => hcan.2.2.1 haddress).1

/-- The first message decides whether there is a replica at all, the others whether it keeps up. -/
theorem follows_iff (habsent : p.Absent info)
    (hcan : info.serverAddress ≠ "" → ∀ o ∈ os, p.CanTrack o.gameUpdateMessage)
    (hinfo : ∀ o ∈ os, o.info = info) (hnamed : ∀ o ∈ os, "" ∉ o.expectedUsers)
    (hordered : os.Pairwise fun o o' => o.stateRevision ≤ o'.stateRevision) :
    (p.Lossless os ∧ ∀ o ∈ os.getLast?,
        ∃ k ∈ (Transition.run deliver p os).replica info, o.Mirrors k) ↔
      (os ≠ [] → info.serverAddress ≠ "") ∧ Announced.Spaced {} os := by
  cases os with
  | nil => simp [Announced.Spaced]
  | cons o os =>
    have ho := hinfo o List.mem_cons_self
    subst ho
    by_cases haddress : o.info.serverAddress = ""
    · refine iff_of_false ?_ fun hboth => hboth.1 (List.cons_ne_nil _ _) haddress
      rintro ⟨-, hlast⟩
      obtain ⟨k, hk, -⟩ := hlast _ (List.getLast?_eq_getLast_of_ne_nil (List.cons_ne_nil o os))
      have hgone := absent_run habsent haddress hinfo
      rw [replica, hgone.tracked] at hk
      cases hk
    obtain ⟨k, hk, hbare, hu, hnews, hold⟩ :=
      deliver_first habsent (hcan haddress o List.mem_cons_self)
    rw [List.pairwise_cons] at hordered
    have hrest := fun o' ho' => hinfo o' (List.mem_cons_of_mem o ho')
    have hlossless : p.Lossless (o :: os) ↔ Announced.Spaced {} (o :: os) := by
      have hcons : p.Lossless (o :: os) ↔
          ¬p.Discards o.gameUpdateMessage ∧ (p.deliver o).Lossless os := Iff.rfl
      have hlearned : k.announced = Announced.learn {} o := hu.announced
      rw [hcons, and_iff_right (not_discards_of_absent habsent),
        lossless_iff hk hbare hrest hordered.2, hlearned]
      exact and_congr_left' (forall₂_congr fun o' ho' =>
        keepsUp_iff hnews hold (hordered.1 o' (List.mem_of_mem_head? ho')))
    rw [hlossless]
    constructor
    · rintro ⟨hspaced, -⟩
      exact ⟨fun _ => haddress, hspaced⟩
    · rintro ⟨-, hspaced⟩
      refine ⟨hspaced, ?_⟩
      cases os with
      | nil =>
        intro last hlast
        obtain rfl : o = last := by simpa using hlast
        exact ⟨k, hk, hu.mirrors (bare_newReplica _ _) (hnamed _ List.mem_cons_self)⟩
      | cons o' os =>
        rw [List.getLast?_cons_cons]
        exact mirrors_last hk hbare hrest (fun o'' ho'' => hnamed o'' (List.mem_cons_of_mem o ho''))
          (hlossless.mpr hspaced).2

end Receiving

/-- The messages of an owner's run reach a process that does not have the room, and has no cap on
rooms: none is dropped and the replica ends up with the last snapshot exactly if the room has an
address and every news is followed by a later revision. -/
theorem replica_converges_iff {settings : AppSettings} {s : Room} (hs : Room.Reachable settings s)
    {ops : List (RoomOp × Bool)} (hlocal : ∀ op ∈ ops, op.1.isLocal = true) {p : Process}
    (habsent : p.Absent s.game.info)
    (happ : s.game.info.appId = p.app.id ∧ s.game.info.appVersion = p.app.version)
    (hcap : p.app.settings.maxGameCount = 0) (hid : s.game.info.id ≠ "") :
    p.Converges s.game.info (s.snapshots settings ops).getLast? (s.outbox settings ops) ↔
      (s.snapshots settings ops ≠ [] → s.game.info.serverAddress ≠ "") ∧
        Announced.Spaced {} (s.snapshots settings ops) := by
  obtain ⟨hsound, hordered⟩ := Room.snapshots_sound hs hlocal
  have hinfo : ∀ o ∈ s.snapshots settings ops, o.info = s.game.info := fun o ho =>
    (hsound o ho).1.info
  have hcan : s.game.info.serverAddress ≠ "" →
      ∀ o ∈ s.snapshots settings ops, p.CanTrack o.gameUpdateMessage := by
    intro haddress o ho
    have hmessage : o.gameUpdateMessage.info = s.game.info := hinfo o ho
    rw [CanTrack, hmessage]
    exact ⟨happ.1, happ.2, haddress, hid, fun hfull => hfull.1 hcap⟩
  rw [Converges, Room.outbox_eq, Transition.eachStep_map, Transition.run_map]
  exact follows_iff habsent hcan hinfo (fun o ho => (hsound o ho).2) hordered

/-- The owner's room while its creator is in it. -/
def beginning : Room :=
  Transition.run (Room.step {}) (Room.create ⟨"app", "1.0", "lobby", 0, "room", "host"⟩) begun

/-- The room is created and then closed, and each change reaches the replica. -/
theorem replica_converges_closing :
    let ops : List (RoomOp × Bool) :=
      [(.commitCreation (some 1) 1, true),
        (.insertGameProps (AList.insert (.byte GameProp.isOpen.code) (.bool false) ∅), false)]
    idle.Converges beginning.game.info (beginning.snapshots {} ops).getLast?
      (beginning.outbox {} ops) :=
  (replica_converges_iff (Room.reachable_run _ _ : Room.Reachable {} beginning) (by decide)
    ⟨rfl, rfl⟩ ⟨rfl, rfl⟩ rfl (by decide)).mpr ⟨fun _ => by decide, by decide⟩

/-- The room is closed, and then a seat is reserved: closing was news to the replica, which counts
it once more and drops the message of the reservation. -/
theorem replica_misses_reservation :
    let ops : List (RoomOp × Bool) :=
      [(.insertGameProps (AList.insert (.byte GameProp.isOpen.code) (.bool false) ∅), true),
        (.reserveExpectedUser "bob" 30000, true)]
    Room.Reachable {} beginning ∧ idle.Absent beginning.game.info ∧
      ¬idle.Converges beginning.game.info (beginning.snapshots {} ops).getLast?
        (beginning.outbox {} ops) :=
  ⟨Room.reachable_run _ _, ⟨rfl, rfl⟩, by decide⟩

end Process

end LuxonServer
