import LuxonServer.Convergence
import LuxonServer.Matchmaking.Requests

/-! The request that a handler of the GameServer keeps while another client creates the room, and
what becomes of it. -/

namespace LuxonServer

/-- `PendingJoin`.  `serial` numbers the request among those of its client. -/
structure PendingJoin where
  creationGeneration : Nat
  request : EnterCall
  waitStarted : Nat
  serial : Nat

/-- `GameServerHandler`, as far as it keeps requests. -/
structure GameServerHandler where
  peer : PeerRef
  disconnected : Bool := false
  pendingJoin : Option PendingJoin := none

/-- What becomes of a request that has been kept. -/
inductive Fate where
  /-- It is handled once more, for the user of the connection; the room answers unless the
  connection is not authenticated any longer. -/
  | replayed (userId : Option String) (answer : Option EnterAnswer)
  | answered (code : ErrorCode) (message : String)
  | dropped

/-- What has happened so far: the requests that were kept, each with the attempt that it has waited
for, what became of them, and the attempts that were committed. -/
structure JoinHistory where
  received : Nat := 0
  queued : List (Nat × Nat) := []
  fates : List (Nat × Fate) := []
  committed : List Nat := []

/-- A room with a handler of one of its clients. -/
structure JoinWorld where
  ref : GameRef
  room : Room
  handler : GameServerHandler
  clock : Nat := 0
  history : JoinHistory := {}

/-- The attempt that an operation commits. -/
def Room.commits (s : Room) : RoomOp → Option Nat
  | .commitCreation owner generation =>
    if (s.game.commitCreation s.heap owner generation).1 then some generation else none
  | _ => none

/-- What can happen to a room and to the handler. -/
inductive JoinOp where
  /-- The room is changed on behalf of anyone, the handler's own client included. -/
  | room (op : RoomOp)
  | wait (ms : Nat)
  /-- The handler's client sends a request to enter. -/
  | request (call : EnterCall)
  | slowUpdate
  | disconnect

/-- The rooms of a GameServer are its own. -/
def JoinOp.isLocal : JoinOp → Bool
  | .room op => op.isLocal
  | _ => true

namespace JoinWorld

variable (settings : AppSettings)

/-- The handler's request has met its fate. -/
def resolve (pending : PendingJoin) (fate : Fate) (w : JoinWorld) : JoinWorld :=
  { w with
    handler := { w.handler with pendingJoin := none }
    history := { w.history with fates := w.history.fates ++ [(pending.serial, fate)] } }

/-- The part of `HandleOperationRequest` that enters the room. -/
def receive (userId : String) (serial : Nat) (call : EnterCall) (w : JoinWorld) :
    EnterAnswer × JoinWorld :=
  let (answer, game) := w.room.game.answerEnter w.room.heap settings w.ref w.handler.peer userId
    w.handler.pendingJoin.isSome call
  let w := { w with room := { w.room with game } }
  match answer with
  | .pending creationGeneration =>
    (answer,
      { w with
        handler :=
          { w.handler with
            pendingJoin :=
              some { creationGeneration, request := call, waitStarted := w.clock, serial } }
        history :=
          { w.history with queued := w.history.queued ++ [(serial, creationGeneration)] } })
  | _ => (answer, w)

/-- A request that was kept is handled once more. -/
def replay (pending : PendingJoin) (w : JoinWorld) : Option EnterAnswer × JoinWorld :=
  match w.room.heap.userId (some w.handler.peer) with
  | none => (none, w)
  | some userId =>
    let (answer, w) := w.receive settings userId pending.serial pending.request
    (some answer, w)

/-- `HandleSlowUpdate`. -/
def handleSlowUpdate (w : JoinWorld) : JoinWorld :=
  match w.handler.pendingJoin with
  | none => w
  | some pending =>
    let game := w.room.game
    let generationChanged : Bool := pending.creationGeneration != 0 &&
      game.activeCreationGeneration != pending.creationGeneration
    let creationFinished := game.isCreated && !game.isCreating && !generationChanged
    let creationAborted := !game.isCreated && !game.isCreating
    if creationFinished then
      let (answer, replayed) :=
        { w with handler := { w.handler with pendingJoin := none } }.replay settings pending
      let userId := w.room.heap.userId (some w.handler.peer)
      { replayed with
        history :=
          { replayed.history with
            fates := replayed.history.fates ++ [(pending.serial, .replayed userId answer)] } }
    else if creationAborted || generationChanged || w.clock - pending.waitStarted ≥ 5000 then
      w.resolve pending (.answered .gameIdNotExists
        (if creationAborted then "Game creation was aborted"
        else if generationChanged then "Game creation attempt expired"
        else "Game creation timed out"))
    else w

/-- `HandleDisconnect`; the attempt of its own that it may abort is an operation of the room. -/
def handleDisconnect (w : JoinWorld) : JoinWorld :=
  let w :=
    match w.handler.pendingJoin with
    | none => w
    | some pending => w.resolve pending .dropped
  { w with handler := { w.handler with disconnected := true } }

/-- A step of the room or of the handler. -/
def step (w : JoinWorld) : JoinOp → JoinWorld
  | .room op =>
    { w with
      room := w.room.step settings op
      history :=
        { w.history with committed := w.history.committed ++ (w.room.commits op).toList } }
  | .wait ms => { w with clock := w.clock + ms }
  | .request call =>
    match w.handler.disconnected, w.room.heap.userId (some w.handler.peer) with
    | false, some userId =>
      let serial := w.history.received
      let w := { w with history := { w.history with received := serial + 1 } }
      (w.receive settings userId serial call).2
    | _, _ => w
  | .slowUpdate => w.handleSlowUpdate settings
  | .disconnect => w.handleDisconnect

/-- A room that has just been made, and a handler that has kept nothing yet. -/
def IsFresh (w : JoinWorld) : Prop :=
  w.room.IsNew ∧ w.handler.pendingJoin = none ∧ w.history = {}

/-- What the room answers to a request of the handler's client, and the room then; nothing to one
who is not authenticated. -/
def entered (call : EnterCall) (w : JoinWorld) : Option (EnterAnswer × Game) :=
  (w.room.heap.userId (some w.handler.peer)).map fun userId =>
    w.room.game.answerEnter w.room.heap settings w.ref w.handler.peer userId false call

/-- Whether the handler keeps the request with the number `serial`. -/
def waits (serial : Nat) (w : JoinWorld) : Bool :=
  w.handler.pendingJoin.any fun pending => pending.serial == serial

end JoinWorld

/-- What became of the request with the number `serial`. -/
def JoinHistory.fatesOf (serial : Nat) (history : JoinHistory) : List (Nat × Fate) :=
  history.fates.filter fun fate => fate.1 == serial

/-- A request that is handled once more for an authenticated connection gets an answer, which
neither keeps it again nor says that the room does not exist. -/
structure ReplaySound (userId : Option String) (answer : Option EnterAnswer) : Prop where
  answered : answer.isSome = userId.isSome
  final : ∀ answer' ∈ answer, (∀ generation, answer' ≠ .pending generation) ∧
    ∀ message, answer' ≠ .refused (.matchmaking .gameIdNotExists) message

/-- What a handler promises for the requests that it keeps. -/
structure JoinWorld.Resolves (settings : AppSettings) (w : JoinWorld) : Prop where
  /-- Each one is either waiting or has met one fate. -/
  one : ∀ entry ∈ w.history.queued,
    (w.history.fatesOf entry.1).length + (if w.waits entry.1 then 1 else 0) = 1
  /-- A replayed one had waited for an attempt that was committed.  The room has answered it if its
  connection was authenticated, and has neither kept it again nor told it that the room does not
  exist. -/
  replayed : ∀ serial userId answer, (serial, .replayed userId answer) ∈ w.history.fates →
    (∃ generation ∈ w.history.committed, (serial, generation) ∈ w.history.queued) ∧
      ReplaySound userId answer
  /-- None is dropped but with the connection. -/
  dropped : ∀ serial, (serial, .dropped) ∈ w.history.fates → w.handler.disconnected = true
  /-- The next slow update replays one whose attempt was committed: the room answers it, and goes
  on, as it does with a request that comes in then. -/
  committed : ∀ pending ∈ w.handler.pendingJoin,
    pending.creationGeneration ∈ w.history.committed →
    (w.step settings .slowUpdate).history.fates = w.history.fates ++
        [(pending.serial, .replayed (w.room.heap.userId (some w.handler.peer))
          ((w.entered settings pending.request).map Prod.fst))] ∧
      (w.step settings .slowUpdate).room.game =
        (w.entered settings pending.request).elim w.room.game Prod.snd ∧
      (w.step settings .slowUpdate).handler = { w.handler with pendingJoin := none }
  /-- It answers one whose attempt is over otherwise, and any that has waited for five seconds. -/
  answered : ∀ pending ∈ w.handler.pendingJoin,
    pending.creationGeneration ∉ w.history.committed →
    (w.room.game.isCreating = true →
        w.room.game.activeCreationGeneration = pending.creationGeneration →
        pending.waitStarted + 5000 ≤ w.clock) →
    ∃ message, (w.step settings .slowUpdate).history.fates =
      w.history.fates ++ [(pending.serial, .answered .gameIdNotExists message)]

namespace Room

open Game

/-- What holds of the attempts that were committed. -/
structure CommitsSound (s : Room) (committed : List Nat) : Prop where
  lease : s.LeaseSound
  active : s.game.isCreating = true → s.game.activeCreationGeneration ≠ 0
  committed : ∀ generation, generation ∈ committed ↔
    s.game.isCreated = true ∧ s.game.activeCreationGeneration = generation

variable {settings : AppSettings} {s : Room} {committed : List Nat}

theorem commitsSound_of_isNew (hnew : s.IsNew) : s.CommitsSound [] := by
  refine ⟨leaseSound_of_isNew hnew, fun hcreating => ?_, fun generation => ?_⟩
  · rw [hnew.1] at hcreating
    cases hcreating
  · rw [hnew.1]
    simp

theorem CommitsSound.nil_of_uncreated (hs : s.CommitsSound committed)
    (hcreated : s.game.isCreated = false) : committed = [] := by
  rw [List.eq_nil_iff_forall_not_mem]
  intro generation hmem
  have hbefore := ((hs.committed generation).mp hmem).1
  rw [hcreated] at hbefore
  cases hbefore

/-- A room with the same lease has the same attempts behind it. -/
theorem CommitsSound.of_lease {s' : Room} (hs : s.CommitsSound committed)
    (hlease : s'.game.lease = s.game.lease) (hsound : s'.LeaseSound) :
    s'.CommitsSound committed := by
  simp only [Game.lease, Lease.mk.injEq] at hlease
  obtain ⟨hcreated, hcreating, -, -, hactive, -⟩ := hlease
  refine ⟨hsound, ?_, ?_⟩
  · rw [hcreating, hactive]
    exact hs.active
  · rw [hcreated, hactive]
    exact hs.committed

theorem commits_of_dead {op : RoomOp} (hcaller : s.heap.lock op.caller ≠ op.caller) :
    s.commits op = none := by
  cases op with
  | commitCreation owner generation =>
    rcases commitCreation_cases s.heap owner generation s.game with heq | ⟨hactive, -, -⟩
    · simp [commits, heq]
    · exact absurd (lock_owner_of_active hactive) hcaller
  | _ => rfl

theorem CommitsSound.step (hs : s.CommitsSound committed) {op : RoomOp}
    (hlocal : op.isLocal = true) :
    (s.step settings op).CommitsSound (committed ++ (s.commits op).toList) := by
  have hsound : (s.step settings op).LeaseSound := leaseSound_keeps s op hs.lease hlocal
  unfold Room.step at hsound ⊢
  split at hsound
  case isFalse hcaller =>
    rw [if_neg hcaller, commits_of_dead hcaller, Option.toList_none, List.append_nil]
    exact hs
  next hcaller =>
  rw [if_pos hcaller]
  rcases perform_lease settings s hlocal with
    hlease | ⟨owner, rfl⟩ | ⟨owner, generation, rfl⟩ | ⟨owner, generation, rfl⟩
  · have hnone : s.commits op = none := by
      cases op with
      | commitCreation owner generation =>
        rcases commitCreation_cases s.heap owner generation s.game with
          heq | ⟨hactive, -, heq⟩
        · simp [commits, heq]
        · -- A commit would have ended the lease.
          have hbusy := (isCreationActive_iff.mp hactive).1
          have hidle := congrArg Lease.isCreating hlease
          simp [Room.perform, heq, Game.lease, hbusy] at hidle
      | _ => rfl
    rw [hnone, Option.toList_none, List.append_nil]
    exact hs.of_lease hlease hsound
  · simp only [commits, Option.toList_none, List.append_nil]
    rcases tryBeginCreation_cases owner s.game with heq | ⟨-, hcreated, -, -, heq⟩
    · simp only [perform, heq]
      exact hs
    · refine ⟨hsound, ?_, ?_⟩
      · simp [perform, heq]
      · simp [perform, heq, hcreated, hs.nil_of_uncreated hcreated]
  · rcases commitCreation_cases s.heap owner generation s.game with heq | ⟨hactive, -, heq⟩
    · simp only [perform, commits, heq]
      simpa using hs
    · obtain ⟨hcreating, -, -, hgeneration, -⟩ := isCreationActive_iff.mp hactive
      have hnone := hs.nil_of_uncreated (hs.lease.creating hcreating).1
      refine ⟨hsound, ?_, ?_⟩
      · simp [perform, heq]
      · intro other
        simp only [perform, commits, heq, hnone, if_true, Option.toList_some, List.nil_append,
          List.mem_singleton, true_and]
        rw [hgeneration]
        exact eq_comm
  · simp only [commits, Option.toList_none, List.append_nil]
    by_cases hactive : s.game.isCreationActive s.heap owner generation = true
    · obtain ⟨_, heq⟩ := abortCreationTransaction_eq hactive
      have hcreating := (isCreationActive_iff.mp hactive).1
      have hcreated := hs.lease.creating hcreating
      refine ⟨hsound, ?_, fun other => ?_⟩
      · simp [perform, heq]
      · have hsame := hs.committed other
        simpa [perform, heq, hcreated.1, hcreated.2] using hsame
    · have heq := abortCreationTransaction_of_inactive (Bool.eq_false_iff.mpr hactive)
      simp only [perform, heq]
      exact hs

end Room

namespace JoinWorld

open Game

variable {settings : AppSettings} {w : JoinWorld}

/-- The requests that were kept under the number `serial`. -/
def queuedAs (serial : Nat) (w : JoinWorld) : List (Nat × Nat) :=
  w.history.queued.filter fun entry => entry.1 == serial

/-- What holds of a handler and its room. -/
structure Sound (w : JoinWorld) : Prop where
  room : w.room.CommitsSound w.history.committed
  pending : ∀ p ∈ w.handler.pendingJoin, (p.serial, p.creationGeneration) ∈ w.history.queued ∧
    p.creationGeneration ≠ 0 ∧ p.request.gameId = w.room.game.info.id ∧
      w.handler.disconnected = false
  numbered : ∀ entry ∈ w.history.queued, entry.1 < w.history.received
  once : ∀ serial, (w.queuedAs serial).length ≤ 1
  count : ∀ serial, (w.history.fatesOf serial).length + (if w.waits serial then 1 else 0) =
    (w.queuedAs serial).length
  replayed : ∀ serial userId answer, (serial, .replayed userId answer) ∈ w.history.fates →
    (∃ generation ∈ w.history.committed, (serial, generation) ∈ w.history.queued) ∧
      ReplaySound userId answer
  dropped : ∀ serial, (serial, .dropped) ∈ w.history.fates → w.handler.disconnected = true

theorem sound_of_isFresh (hw : w.IsFresh) : w.Sound := by
  obtain ⟨hnew, hnone, hhistory⟩ := hw
  constructor <;> simp [hnone, hhistory, queuedAs, JoinHistory.fatesOf, waits]
  exact Room.commitsSound_of_isNew hnew

/-- A change of the room alone. -/
theorem Sound.withRoom (hw : w.Sound) {room : Room} {committed : List Nat}
    (hroom : room.CommitsSound committed) (hinfo : room.game.info = w.room.game.info)
    (hmore : ∀ generation ∈ w.history.committed, generation ∈ committed) :
    Sound { w with room, history := { w.history with committed } } := by
  refine ⟨hroom, ?_, hw.numbered, hw.once, hw.count, ?_, hw.dropped⟩
  · rw [hinfo]
    exact hw.pending
  · intro serial userId answer hfate
    obtain ⟨⟨generation, hcommitted, hqueued⟩, hanswer⟩ := hw.replayed serial userId answer hfate
    exact ⟨⟨generation, hmore generation hcommitted, hqueued⟩, hanswer⟩

/-- The request that the handler keeps meets its fate. -/
theorem Sound.resolve (hw : w.Sound) {pending : PendingJoin}
    (hpending : w.handler.pendingJoin = some pending) {fate : Fate} {disconnected : Bool}
    (hdropped : fate = .dropped → disconnected = true)
    (hreplayed : ∀ userId answer, fate = .replayed userId answer →
      pending.creationGeneration ∈ w.history.committed ∧ ReplaySound userId answer) :
    Sound
      { w.resolve pending fate with
        handler := { w.handler with pendingJoin := none, disconnected } } := by
  obtain ⟨hqueued, -, -, hconnected⟩ := hw.pending pending hpending
  refine ⟨hw.room, by simp, hw.numbered, hw.once, fun serial => ?_, ?_, ?_⟩
  · -- The request does not wait any longer, and has one fate more instead.
    have hcount := hw.count serial
    simp only [waits, hpending, Option.any_some, JoinHistory.fatesOf, JoinWorld.resolve, queuedAs,
      List.filter_append, List.length_append, List.filter_cons, List.filter_nil, Option.any_none]
      at hcount ⊢
    cases hsame : pending.serial == serial <;> simpa [hsame] using hcount
  · intro serial userId answer hfate
    rcases List.mem_append.mp hfate with hold | hnew
    · exact hw.replayed serial userId answer hold
    · obtain ⟨rfl, rfl⟩ : serial = pending.serial ∧ .replayed userId answer = fate := by
        simpa using hnew
      obtain ⟨hcommitted, hanswer⟩ := hreplayed userId answer rfl
      exact ⟨⟨_, hcommitted, hqueued⟩, hanswer⟩
  · intro serial hfate
    rcases List.mem_append.mp hfate with hold | hnew
    · rw [hw.dropped serial hold] at hconnected
      cases hconnected
    · obtain ⟨rfl, rfl⟩ : serial = pending.serial ∧ .dropped = fate := by simpa using hnew
      exact hdropped rfl

/-- A request is kept, or it may begin an attempt and is over for the handler. -/
theorem receive_cases (settings : AppSettings) (userId : String) (serial : Nat) (call : EnterCall)
    (w : JoinWorld) :
    (w.handler.pendingJoin = none ∧ w.room.game.isCreating = true ∧
      call.gameId = w.room.game.info.id ∧
      (w.receive settings userId serial call).2 =
        { w with
          handler :=
            { w.handler with
              pendingJoin :=
                some
                  { creationGeneration := w.room.game.activeCreationGeneration
                    request := call
                    waitStarted := w.clock
                    serial } }
          history :=
            { w.history with
              queued :=
                w.history.queued ++ [(serial, w.room.game.activeCreationGeneration)] } }) ∨
    (∀ generation, (w.receive settings userId serial call).1 ≠ .pending generation) ∧
      ∃ game, (game = w.room.game ∨
          game = (w.room.game.tryBeginCreation (some w.handler.peer)).2) ∧
        (w.receive settings userId serial call).2 = { w with room := { w.room with game } } := by
  unfold receive
  rcases answerEnter_cases w.room.heap settings w.ref w.handler.peer userId
    w.handler.pendingJoin.isSome call w.room.game with
    ⟨hwaiting, hcreating, hid, heq⟩ | ⟨hnot, hgame⟩
  · left
    rw [heq]
    exact ⟨by simpa using hwaiting, hcreating, hid, rfl⟩
  · right
    generalize w.room.game.answerEnter w.room.heap settings w.ref w.handler.peer userId
      w.handler.pendingJoin.isSome call = answered at hnot hgame ⊢
    obtain ⟨answer, game⟩ := answered
    cases answer with
    | pending generation => exact absurd rfl (hnot generation)
    | refused code message => exact ⟨hnot, game, hgame, rfl⟩
    | enters entering => exact ⟨hnot, game, hgame, rfl⟩

theorem receive_fst (settings : AppSettings) (userId : String) (serial : Nat) (call : EnterCall)
    (w : JoinWorld) :
    (w.receive settings userId serial call).1 =
      (w.room.game.answerEnter w.room.heap settings w.ref w.handler.peer userId
        w.handler.pendingJoin.isSome call).1 := by
  unfold receive
  generalize w.room.game.answerEnter w.room.heap settings w.ref w.handler.peer userId
    w.handler.pendingJoin.isSome call = answered
  obtain ⟨answer, game⟩ := answered
  cases answer <;> rfl

/-- Beginning an attempt is an operation of the room. -/
theorem Sound.begin (hw : w.Sound) {userId : String}
    (huser : w.room.heap.userId (some w.handler.peer) = some userId) {game : Game}
    (hgame : game = w.room.game ∨
      game = (w.room.game.tryBeginCreation (some w.handler.peer)).2) :
    Sound { w with room := { w.room with game } } := by
  rcases hgame with rfl | rfl
  · exact hw
  have hlock : w.room.heap.lock (some w.handler.peer) = some w.handler.peer := by
    rcases w.room.heap.lock_eq_self_or_none (some w.handler.peer) with hself | hnone
    · exact hself
    · rw [PeerHeap.userId, hnone] at huser
      cases huser
  have hop : w.room.step {} (.tryBeginCreation (some w.handler.peer)) =
      { w.room with game := (w.room.game.tryBeginCreation (some w.handler.peer)).2 } :=
    if_pos hlock
  have hroom : (w.room.step {} (.tryBeginCreation (some w.handler.peer))).CommitsSound
      (w.history.committed ++ []) := hw.room.step rfl
  have hinfo := Room.info_step {} w.room (.tryBeginCreation (some w.handler.peer))
  rw [hop] at hroom hinfo
  rw [List.append_nil] at hroom
  exact hw.withRoom hroom hinfo fun _ hmem => hmem

/-- A request of the client is kept under a number that no earlier one has. -/
theorem Sound.request (hw : w.Sound) (call : EnterCall) {userId : String}
    (hconnected : w.handler.disconnected = false)
    (huser : w.room.heap.userId (some w.handler.peer) = some userId) :
    Sound ({ w with history := { w.history with received := w.history.received + 1 } }.receive
      settings userId w.history.received call).2 := by
  have hnext : Sound { w with history := { w.history with received := w.history.received + 1 } } :=
    ⟨hw.room, hw.pending, fun entry hentry => Nat.lt_succ_of_lt (hw.numbered entry hentry),
      hw.once, hw.count, hw.replayed, hw.dropped⟩
  rcases receive_cases settings userId w.history.received call
    { w with history := { w.history with received := w.history.received + 1 } } with
    ⟨hnone, hcreating, hid, heq⟩ | ⟨-, game, hgame, heq⟩
  case inr =>
    rw [heq]
    exact hnext.begin huser hgame
  rw [heq]
  have hfresh : w.queuedAs w.history.received = [] := by
    rw [queuedAs, List.filter_eq_nil_iff]
    intro entry hentry
    have hlt := hw.numbered entry hentry
    simp only [beq_iff_eq]
    omega
  have hqueued : ∀ serial, ((w.history.queued ++
      [(w.history.received, w.room.game.activeCreationGeneration)]).filter
        fun entry => entry.1 == serial).length =
      (w.queuedAs serial).length + if w.history.received = serial then 1 else 0 := by
    intro serial
    rw [List.filter_append, List.length_append]
    by_cases hsame : w.history.received = serial <;> simp [hsame, queuedAs]
  refine ⟨hw.room, ?_, ?_, ?_, ?_, ?_, hw.dropped⟩
  · intro p hp
    obtain rfl := Option.some.inj hp
    exact ⟨List.mem_append_right _ (List.mem_singleton.mpr rfl), hw.room.active hcreating, hid,
      hconnected⟩
  · intro entry hentry
    rcases List.mem_append.mp hentry with hold | hnew
    · exact Nat.lt_succ_of_lt (hw.numbered entry hold)
    · rw [List.mem_singleton.mp hnew]
      exact Nat.lt_succ_self _
  · intro serial
    simp only [queuedAs]
    rw [hqueued]
    split
    · next hsame =>
      rw [← hsame, hfresh]
      exact le_refl _
    · exact hw.once serial
  · intro serial
    have hcount := hw.count serial
    simp only [queuedAs, waits, Option.any_some, beq_iff_eq]
    rw [hqueued]
    have hwaits : w.waits serial = false := by
      have hpending : w.handler.pendingJoin = none := hnone
      rw [waits, hpending, Option.any_none]
    rw [hwaits, if_neg Bool.false_ne_true] at hcount
    simp only [JoinHistory.fatesOf] at hcount ⊢
    omega
  · intro serial userId' answer hfate
    obtain ⟨⟨generation, hcommitted, hmem⟩, hanswer⟩ := hw.replayed serial userId' answer hfate
    exact ⟨⟨generation, hcommitted, List.mem_append_left _ hmem⟩, hanswer⟩

/-- A slow update replays a request whose attempt was committed; the room lets it in, or refuses it
as it would refuse any other. -/
theorem Sound.handleSlowUpdate_committed (hw : w.Sound) (settings : AppSettings)
    {pending : PendingJoin}
    (hpending : w.handler.pendingJoin = some pending)
    (hcommitted : pending.creationGeneration ∈ w.history.committed) :
    w.handleSlowUpdate settings =
        w.resolve pending (.replayed (w.room.heap.userId (some w.handler.peer))
          ((w.entered settings pending.request).map Prod.fst)) ∧
      (w.entered settings pending.request).elim w.room.game Prod.snd = w.room.game ∧
      ReplaySound (w.room.heap.userId (some w.handler.peer))
        ((w.entered settings pending.request).map Prod.fst) := by
  obtain ⟨-, -, hid, -⟩ := hw.pending pending hpending
  obtain ⟨hcreated, hactive⟩ := (hw.room.committed _).mp hcommitted
  have hcreating : w.room.game.isCreating = false := by
    by_contra hbusy
    have hnot := (hw.room.lease.creating (Bool.eq_true_of_not_eq_false hbusy)).1
    rw [hcreated] at hnot
    cases hnot
  -- Without an attempt the room stays as it is.
  have hsame : ∀ {game : Game}, game = w.room.game ∨
      game = (w.room.game.tryBeginCreation (some w.handler.peer)).2 → game = w.room.game := by
    rintro game (rfl | rfl)
    · rfl
    · simp [tryBeginCreation, hcreated]
  have hslow : w.handleSlowUpdate settings =
      let (answer, replayed) :=
        { w with handler := { w.handler with pendingJoin := none } }.replay settings pending
      { replayed with
        history :=
          { replayed.history with
            fates := replayed.history.fates ++
              [(pending.serial,
                .replayed (w.room.heap.userId (some w.handler.peer)) answer)] } } := by
    rw [handleSlowUpdate, hpending]
    simp only [hactive, bne_self_eq_false, Bool.and_false, hcreated, hcreating, Bool.not_false,
      Bool.and_true, if_true]
  rw [hslow]
  unfold replay entered
  cases huser : w.room.heap.userId (some w.handler.peer) with
  | none => exact ⟨rfl, rfl, ⟨rfl, by simp⟩⟩
  | some userId =>
    rcases answerEnter_cases w.room.heap settings w.ref w.handler.peer userId false pending.request
      w.room.game with ⟨-, hbusy, -⟩ | ⟨hnot, hgame⟩
    · rw [hcreating] at hbusy
      cases hbusy
    refine ⟨?_, hsame hgame, rfl, ?_⟩
    · rcases receive_cases settings userId pending.serial pending.request
        { w with handler := { w.handler with pendingJoin := none } } with
        ⟨-, hbusy, -⟩ | ⟨-, game, hkept, heq⟩
      · simp only at hbusy
        rw [hcreating] at hbusy
        cases hbusy
      · rw [hsame hkept] at heq
        have hanswer := receive_fst settings userId pending.serial pending.request
          { w with handler := { w.handler with pendingJoin := none } }
        simp only
        rw [← Prod.eta (JoinWorld.receive _ _ _ _ _), heq, hanswer]
        rfl
    · intro answer hanswer
      obtain rfl := Option.some.inj hanswer
      exact ⟨hnot, answerEnter_created hid hcreated hcreating⟩

/-- It answers a request whose attempt is over in another way, or that has waited for five seconds,
and leaves any other alone. -/
theorem Sound.handleSlowUpdate_uncommitted (hw : w.Sound) (settings : AppSettings)
    {pending : PendingJoin}
    (hpending : w.handler.pendingJoin = some pending)
    (hnot : pending.creationGeneration ∉ w.history.committed) :
    if w.room.game.isCreating = true →
        w.room.game.activeCreationGeneration = pending.creationGeneration →
        pending.waitStarted + 5000 ≤ w.clock then
      ∃ message, w.handleSlowUpdate settings =
        w.resolve pending (.answered .gameIdNotExists message)
    else w.handleSlowUpdate settings = w := by
  obtain ⟨-, hgeneration, -, -⟩ := hw.pending pending hpending
  have hother : w.room.game.isCreated = true →
      w.room.game.activeCreationGeneration ≠ pending.creationGeneration :=
    fun hcreated hactive => hnot ((hw.room.committed _).mpr ⟨hcreated, hactive⟩)
  have hfinished : (w.room.game.isCreated && !w.room.game.isCreating &&
      !(pending.creationGeneration != 0 &&
        w.room.game.activeCreationGeneration != pending.creationGeneration)) = false := by
    rw [Bool.eq_false_iff]
    intro hall
    simp only [Bool.and_eq_true, Bool.not_eq_true', Bool.and_eq_false_iff, bne_eq_false_iff_eq]
      at hall
    obtain ⟨⟨hcreated, -⟩, hzero | hactive⟩ := hall
    · exact hgeneration hzero
    · exact hother hcreated hactive
  have hover : (!w.room.game.isCreated && !w.room.game.isCreating ||
      (pending.creationGeneration != 0 &&
        w.room.game.activeCreationGeneration != pending.creationGeneration) ||
      decide (w.clock - pending.waitStarted ≥ 5000)) = true ↔
      (w.room.game.isCreating = true →
        w.room.game.activeCreationGeneration = pending.creationGeneration →
        pending.waitStarted + 5000 ≤ w.clock) := by
    simp only [Bool.or_eq_true, Bool.and_eq_true, Bool.not_eq_true', bne_iff_ne,
      decide_eq_true_eq, hgeneration, ne_eq, not_false_eq_true, true_and]
    constructor
    · rintro ((⟨-, hidle⟩ | hchanged) | hlong) hcreating hactive
      · rw [hcreating] at hidle
        cases hidle
      · exact absurd hactive hchanged
      · omega
    · intro hlong
      by_cases hactive : w.room.game.activeCreationGeneration = pending.creationGeneration
      · have hcreated : w.room.game.isCreated = false :=
          Bool.eq_false_iff.mpr fun hcreated => hother hcreated hactive
        cases hcreating : w.room.game.isCreating with
        | false => exact Or.inl (Or.inl ⟨hcreated, rfl⟩)
        | true =>
          have := hlong hcreating hactive
          exact Or.inr (by omega)
      · exact Or.inl (Or.inr hactive)
  unfold handleSlowUpdate
  rw [hpending]
  simp only [hfinished, Bool.false_eq_true, if_false]
  split
  · next hnow =>
    rw [if_pos (hover.mpr hnow)]
    exact ⟨_, rfl⟩
  · next hlater => rw [if_neg (mt hover.mp hlater)]

theorem Sound.step (hw : w.Sound) {op : JoinOp} (hlocal : op.isLocal = true) :
    (w.step settings op).Sound := by
  cases op with
  | room op =>
    exact hw.withRoom (hw.room.step hlocal) (Room.info_step settings w.room op)
      fun _ hmem => List.mem_append_left _ hmem
  | wait ms => exact ⟨hw.room, hw.pending, hw.numbered, hw.once, hw.count, hw.replayed, hw.dropped⟩
  | request call =>
    simp only [JoinWorld.step]
    split
    · next userId hconnected huser => exact hw.request call hconnected huser
    · exact hw
  | slowUpdate =>
    cases hpending : w.handler.pendingJoin with
    | none =>
      have hsame : w.handleSlowUpdate settings = w := by rw [handleSlowUpdate, hpending]
      rw [JoinWorld.step, hsame]
      exact hw
    | some pending =>
      by_cases hcommitted : pending.creationGeneration ∈ w.history.committed
      · obtain ⟨heq, -, hanswer⟩ := hw.handleSlowUpdate_committed settings hpending hcommitted
        rw [JoinWorld.step, heq]
        refine hw.resolve hpending (by simp) fun userId answer hsame => ?_
        cases hsame
        exact ⟨hcommitted, hanswer⟩
      · have hanswered := hw.handleSlowUpdate_uncommitted settings hpending hcommitted
        rw [JoinWorld.step]
        split at hanswered
        · obtain ⟨message, heq⟩ := hanswered
          rw [heq]
          exact hw.resolve hpending (by simp) (by simp)
        · rw [hanswered]
          exact hw
  | disconnect =>
    rw [JoinWorld.step, handleDisconnect]
    cases hpending : w.handler.pendingJoin with
    | none =>
      refine ⟨hw.room, ?_, hw.numbered, hw.once, hw.count, hw.replayed, fun _ _ => rfl⟩
      simp [hpending]
    | some pending => exact hw.resolve hpending (fun _ => rfl) (by simp)

/-- A request that a handler keeps is replayed once, after its attempt was committed, or answered
once, or dropped with its connection. -/
theorem pendingJoin_resolves
    (hw : Transition.Reachable (JoinWorld.step settings) IsFresh (fun _ op => op.isLocal) w) :
    w.Resolves settings := by
  have hsound : w.Sound := hw.invariant (fun _ => sound_of_isFresh) fun _ _ hs hop => hs.step hop
  refine ⟨fun entry hentry => ?_, hsound.replayed, hsound.dropped, ?_, ?_⟩
  · have hone : 0 < (w.queuedAs entry.1).length :=
      List.length_pos_of_mem (List.mem_filter.mpr ⟨hentry, beq_self_eq_true _⟩)
    have hmost := hsound.once entry.1
    rw [hsound.count entry.1]
    omega
  · intro pending hpending hcommitted
    obtain ⟨heq, hroom, -⟩ := hsound.handleSlowUpdate_committed settings hpending hcommitted
    rw [JoinWorld.step, heq, hroom]
    exact ⟨rfl, rfl, rfl⟩
  · intro pending hpending hnot hover
    have hanswered := hsound.handleSlowUpdate_uncommitted settings hpending hnot
    rw [if_pos hover] at hanswered
    obtain ⟨message, heq⟩ := hanswered
    exact ⟨message, by rw [JoinWorld.step, heq]; rfl⟩

/-- Ada creates the room while Bob's request is kept. -/
def kept : JoinWorld :=
  Transition.run (JoinWorld.step {})
    { ref := 0
      room := Room.create ⟨"app", "1.0", "lobby", 0, "room", ""⟩
      handler := { peer := 2 } }
    [.room (.connect 1), .room (.setPersistent 1 (some { userId := "ada", token := "a" })),
      .room (.connect 2), .room (.setPersistent 2 (some { userId := "bob", token := "b" })),
      .room (.tryBeginCreation (some 1)), .room (.createPeer (some 1)),
      .room (.addPeerForCreation 0 (some 1) 1),
      .request { operation := .joinGame, gameId := "room" }]

theorem reachable_kept_step (op : RoomOp) (hlocal : op.isLocal = true) :
    Transition.Reachable (JoinWorld.step {}) IsFresh (fun _ op => op.isLocal)
      (kept.step {} (.room op)) := by
  refine Transition.Reachable.step ?_ hlocal
  exact (Transition.Reachable.init ⟨Room.isNew_create _, rfl, rfl⟩).run
    (Transition.eachStep_of_forall (by simp [JoinOp.isLocal, RoomOp.isLocal]))

/-- Ada's attempt is committed, and Bob enters; or it is aborted, and Bob is told so. -/
theorem pendingJoin_resolves_kept :
    (∃ entering,
      ((kept.step {} (.room (.commitCreation (some 1) 1))).step {} .slowUpdate).history.fates =
        [(0, .replayed (some "bob") (some (.enters entering)))]) ∧
    ∃ message,
      ((kept.step {} (.room (.abortCreationTransaction (some 1) 1))).step {}
          .slowUpdate).history.fates =
        [(0, .answered .gameIdNotExists message)] := by
  constructor
  · have hresolves := pendingJoin_resolves (reachable_kept_step (.commitCreation (some 1) 1) rfl)
    exact ⟨_, (hresolves.committed _ rfl (by decide)).1⟩
  · have hresolves := pendingJoin_resolves
      (reachable_kept_step (.abortCreationTransaction (some 1) 1) rfl)
    exact hresolves.answered _ rfl (by decide) (by decide)

end JoinWorld

end LuxonServer
