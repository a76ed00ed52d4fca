import Mathlib.Data.List.Perm.Basic
import Mathlib.Logic.Function.Basic
import LuxonServer.Lib.Run
import LuxonServer.Peer

/-! The handlers of the connections as objects: the list of the server manager shares them with the
coroutines of the ENet callbacks, and the task that takes a handler off the list knows its address.
A request that a slow update replays runs on the handler and has no share in it. -/

namespace LuxonServer

open Transition

/-- A handler, by the number of its connection. -/
abbrev HandlerRef := Nat

/-- `EnetConnectionState`. -/
inductive ConnectionState where
  | disconnected | connecting | connected | disconnecting | stale
  deriving DecidableEq, Repr

/-- What a coroutine waits for. -/
inductive CallbackStage where
  /-- `HandleENetConnectionStateChange`. -/
  | stateChange (state : ConnectionState)
  | handleConnect
  | handleDisconnect
  | command
  /-- A `HandleOperationRequest` of `HandleSlowUpdate`. -/
  | replay
  deriving DecidableEq, Repr

/-- A coroutine that runs on a handler. -/
structure Callback where
  handler : HandlerRef
  stage : CallbackStage
  deriving DecidableEq, Repr

/-- Whether the coroutine has a `shared_ptr` to the handler. -/
def Callback.isHeld (cb : Callback) : Bool := cb.stage ≠ .replay

/-- Whether the coroutine is one of a callback that says that the client is gone. -/
def Callback.isLeaving (cb : Callback) : Bool :=
  cb.stage = .stateChange .disconnected || cb.stage = .handleDisconnect

/-- The record of a client, with the handler that has got it and the number of that
authentication. -/
structure ClientRecord where
  number : Nat
  handler : HandlerRef
  persistent : PeerPersistent
  deriving DecidableEq, Repr

/-- `store_persistent_peer` takes only a record with an app. -/
def ClientRecord.isStorable (record : ClientRecord) : Bool := record.persistent.app.isSome

/-- A handler with the count of its owners. -/
structure HandlerObject where
  address : Nat
  uses : Nat
  persistent : Option ClientRecord := none
  deriving DecidableEq, Repr

/-- The task that takes a handler off the list; `owner` is the handler that it was made for. -/
structure RemovalTask where
  address : Nat
  owner : HandlerRef
  deriving DecidableEq, Repr

structure Handlers where
  objects : HandlerRef → Option HandlerObject := fun _ => none
  nextRef : HandlerRef := 0
  /-- `connections_`. -/
  connections : List HandlerRef := []
  callbacks : List Callback := []
  tasks : List RemovalTask := []
  /-- The records that were given to the store. -/
  stored : List ClientRecord := []
  /-- The records that were destroyed. -/
  lost : List ClientRecord := []
  /-- The records that clients have got. -/
  identified : List ClientRecord := []
  nextRecord : Nat := 0
  /-- The connections of which ENet has said that they are gone. -/
  reported : List HandlerRef := []
  /-- The handlers whose `HandleDisconnect` has come to its end. -/
  completed : List HandlerRef := []
  /-- The handlers that were taken off the list, with the ones that this was meant for. -/
  removed : List (HandlerRef × HandlerRef) := []
  /-- Coroutines that have gone on with a handler that was no more. -/
  faults : List Callback := []

/-- What happens to the connections. -/
inductive HandlerOp where
  | connect (address : Nat)
  | stateChanged (ref : HandlerRef) (state : ConnectionState)
  | payload (ref : HandlerRef)
  /-- A slow update replays the request that its handler has kept. -/
  | slowUpdate (ref : HandlerRef)
  /-- `authenticate` comes to its end. -/
  | authenticated (ref : HandlerRef) (pp : PeerPersistent)
  /-- The MasterServer has found a room for the client. -/
  | routed (ref : HandlerRef)
  /-- What the coroutine waits for is over, by an exception or not. -/
  | resume (cb : Callback) (throws : Bool)
  | runTask (task : RemovalTask)

namespace Handlers

/-- `on_peer_connected`. -/
def connect (address : Nat) (s : Handlers) : Handlers :=
  { s with
    objects := Function.update s.objects s.nextRef (some { address, uses := 1 })
    nextRef := s.nextRef + 1
    connections := s.connections ++ [s.nextRef] }

/-- The handler gets another owner. -/
def share (ref : HandlerRef) (object : HandlerObject) (s : Handlers) : Handlers :=
  { s with
    objects := Function.update s.objects ref (some { object with uses := object.uses + 1 }) }

/-- A callback of ENet starts its coroutine with the weak pointer that it has. -/
def start (ref : HandlerRef) (stage : CallbackStage) (s : Handlers) : Handlers :=
  match s.objects ref with
  | none => s
  | some object => { share ref object s with callbacks := ⟨ref, stage⟩ :: s.callbacks }

/-- An owner lets go of the handler, and the last one destroys it: `~HandlerBase`. -/
def release (ref : HandlerRef) (s : Handlers) : Handlers :=
  match s.objects ref with
  | none => s
  | some object =>
    if object.uses = 1 then
      { s with
        objects := Function.update s.objects ref none
        stored := s.stored ++ object.persistent.toList.filter ClientRecord.isStorable
        lost := s.lost ++ object.persistent.toList.filter fun record => !record.isStorable }
    else
      { s with
        objects := Function.update s.objects ref (some { object with uses := object.uses - 1 }) }

/-- The coroutine goes on to what comes next. -/
def advance (cb : Callback) (stage : CallbackStage) (s : Handlers) : Handlers :=
  { s with callbacks := ⟨cb.handler, stage⟩ :: s.callbacks.erase cb }

def finish (cb : Callback) (s : Handlers) : Handlers :=
  if cb.isHeld then release cb.handler { s with callbacks := s.callbacks.erase cb }
  else { s with callbacks := s.callbacks.erase cb }

/-- `add_scheduled_task` with the address of the handler. -/
def scheduleRemoval (ref : HandlerRef) (object : HandlerObject) (s : Handlers) : Handlers :=
  { s with
    tasks := ⟨object.address, ref⟩ :: s.tasks
    completed := ref :: s.completed }

/-- A coroutine is resumed.  An exception of `HandleENetConnectionStateChange` is caught. -/
def resume (cb : Callback) (throws : Bool) (s : Handlers) : Handlers :=
  if cb ∈ s.callbacks then
    match s.objects cb.handler with
    | none => { s with callbacks := s.callbacks.erase cb, faults := cb :: s.faults }
    | some object =>
      match cb.stage, throws with
      | .stateChange .connected, _ => advance cb .handleConnect s
      | .stateChange .disconnected, _ => advance cb .handleDisconnect s
      | .handleDisconnect, false => finish cb (scheduleRemoval cb.handler object s)
      | _, _ => finish cb s
  else s

def hasAddress (address : Nat) (s : Handlers) (ref : HandlerRef) : Bool :=
  (s.objects ref).any fun object => object.address = address

/-- The `remove_if` over `connections_`. -/
def runTask (task : RemovalTask) (s : Handlers) : Handlers :=
  if task ∈ s.tasks then
    (s.connections.filter (s.hasAddress task.address)).foldl (fun s ref => s.release ref)
      { s with
        tasks := s.tasks.erase task
        connections := s.connections.filter fun ref => !s.hasAddress task.address ref
        removed := s.removed ++
          (s.connections.filter (s.hasAddress task.address)).map fun ref => (ref, task.owner) }
  else s

/-- The client gets a record, in place of one that it has got while the request was waiting for a
plugin. -/
def authenticate (ref : HandlerRef) (pp : PeerPersistent) (s : Handlers) : Handlers :=
  match s.objects ref with
  | none => s
  | some object =>
    let record : ClientRecord := ⟨s.nextRecord, ref, pp⟩
    { s with
      objects := Function.update s.objects ref (some { object with persistent := some record })
      lost := s.lost ++ object.persistent.toList
      identified := record :: s.identified
      nextRecord := s.nextRecord + 1 }

/-- `store_persistent_peer` in `CreateGame`, `JoinGame` and `JoinRandomGame`. -/
def route (ref : HandlerRef) (s : Handlers) : Handlers :=
  match s.objects ref with
  | none => s
  | some object =>
    if object.persistent.any ClientRecord.isStorable then
      { s with
        objects := Function.update s.objects ref (some { object with persistent := none })
        stored := s.stored ++ object.persistent.toList }
    else s

def step (s : Handlers) : HandlerOp → Handlers
  | .connect address => s.connect address
  | .stateChanged ref state =>
    start ref (.stateChange state)
      { s with reported := if state = .disconnected then ref :: s.reported else s.reported }
  | .payload ref => s.start ref .command
  | .slowUpdate ref =>
    if ref ∈ s.connections then { s with callbacks := ⟨ref, .replay⟩ :: s.callbacks } else s
  | .authenticated ref pp => s.authenticate ref pp
  | .routed ref => s.route ref
  | .resume cb throws => s.resume cb throws
  | .runTask task => s.runTask task

/-- The allocator gives an address that no object has, and ENet says once that a client is gone. -/
def Allows (s : Handlers) : HandlerOp → Prop
  | .connect address => ∀ ref < s.nextRef, s.hasAddress address ref = false
  | .stateChanged ref state => state = .disconnected → ref ∉ s.reported
  | _ => True

instance Allows.decidable (s : Handlers) : ∀ op, Decidable (Allows s op)
  | .connect address =>
    inferInstanceAs (Decidable (∀ ref < s.nextRef, s.hasAddress address ref = false))
  | .stateChanged ref state =>
    inferInstanceAs (Decidable (state = .disconnected → ref ∉ s.reported))
  | .payload _ | .slowUpdate _ | .authenticated _ _ | .routed _ | .resume _ _ | .runTask _ =>
    .isTrue trivial

/-- An authentication comes to its end for a client that has a record already. -/
def Overlaps (s : Handlers) : HandlerOp → Bool
  | .authenticated ref _ => (s.objects ref).any fun object => object.persistent.isSome
  | _ => false

/-- How many `shared_ptr`s to the handler there are. -/
def users (s : Handlers) (ref : HandlerRef) : Nat :=
  s.connections.count ref + s.callbacks.countP fun cb => cb.isHeld && cb.handler == ref

/-- The same, with the one that `spare` says: it has not got its place yet, or has left it. -/
def shares (spare : Option HandlerRef) (s : Handlers) (ref : HandlerRef) : Nat :=
  s.users ref + if spare = some ref then 1 else 0

/-- Each handler counts its owners. -/
structure Counted (spare : Option HandlerRef) (s : Handlers) : Prop where
  uses : ∀ ref object, s.objects ref = some object → object.uses = s.shares spare ref
  used : ∀ ref object, s.objects ref = some object → 0 < object.uses
  dead : ∀ ref, s.objects ref = none → s.shares spare ref = 0
  fresh : ∀ ref, s.nextRef ≤ ref → s.objects ref = none

/-- The ways off the list that a handler is on: a callback, a task, or that it is off already. -/
def departures (s : Handlers) (ref : HandlerRef) : Nat :=
  s.callbacks.countP (fun cb => cb.isLeaving && cb.handler == ref) +
    s.tasks.countP (fun task => task.owner == ref) + s.removed.countP fun entry => entry.1 == ref

/-- A handler stays on the list until its own task comes. -/
structure Departing (s : Handlers) : Prop where
  once : ∀ ref, s.departures ref ≤ if ref ∈ s.reported then 1 else 0
  kept : ∀ ref < s.nextRef,
    s.connections.count ref + s.removed.countP (fun entry => entry.1 == ref) = 1
  tasks : ∀ task ∈ s.tasks, task.owner < s.nextRef ∧ task.owner ∈ s.completed ∧
    ∀ object, s.objects task.owner = some object → object.address = task.address
  removed : ∀ entry ∈ s.removed,
    entry.1 = entry.2 ∧ entry.1 ∈ s.completed ∧ entry.1 < s.nextRef
  addresses : ∀ ref ref' object object', s.objects ref = some object →
    s.objects ref' = some object' → object.address = object'.address → ref = ref'

/-- The record that a handler has. -/
def identity (s : Handlers) (ref : HandlerRef) : Option ClientRecord :=
  (s.objects ref).bind (·.persistent)

/-- A record is with the handler that has got it, was stored or was destroyed. -/
structure Recorded (s : Handlers) : Prop where
  kept : ∀ record, record ∈ s.identified ↔
    s.identity record.handler = some record ∨ record ∈ s.stored ++ s.lost
  own : ∀ ref record, s.identity ref = some record → record.handler = ref
  numbered : ∀ record ∈ s.identified, record.number < s.nextRecord
  distinct : (s.identified.map (·.number)).Nodup
  once : (s.stored ++ s.lost).Nodup
  apart : ∀ ref record, s.identity ref = some record → record ∉ s.stored ++ s.lost

structure Sound (s : Handlers) : Prop where
  counted : Counted none s
  departing : Departing s
  recorded : Recorded s
  faults : ∀ cb ∈ s.faults, cb.stage = .replay

section

variable {s : Handlers} {ref : HandlerRef} {cb : Callback}

theorem countP_erase_add {l : List Callback} (hmem : cb ∈ l) (p : Callback → Bool) :
    (l.erase cb).countP p + (if p cb then 1 else 0) = l.countP p := by
  rw [(List.perm_cons_erase hmem).countP_eq, List.countP_cons]

theorem update_eq_some {objects : HandlerRef → Option HandlerObject} {new : Option HandlerObject}
    {ref' : HandlerRef} {object : HandlerObject} :
    Function.update objects ref new ref' = some object ↔
      ref' = ref ∧ new = some object ∨ ref' ≠ ref ∧ objects ref' = some object := by
  rw [Function.update_apply]
  split
  · next heq => simp [heq]
  · next hne => simp [hne]

theorem update_eq_none {objects : HandlerRef → Option HandlerObject} {new : Option HandlerObject}
    {ref' : HandlerRef} :
    Function.update objects ref new ref' = none ↔
      ref' = ref ∧ new = none ∨ ref' ≠ ref ∧ objects ref' = none := by
  rw [Function.update_apply]
  split
  · next heq => simp [heq]
  · next hne => simp [hne]

/-- Steps that leave the objects and the numbers of their owners alone. -/
theorem Counted.move {spare spare' : Option HandlerRef} {s' : Handlers} (hs : Counted spare s)
    (hobjects : s'.objects = s.objects) (hnext : s'.nextRef = s.nextRef)
    (hshares : ∀ ref, s'.shares spare' ref = s.shares spare ref) : Counted spare' s' where
  uses := fun ref object hobject => by
    rw [hshares]
    exact hs.uses ref object (hobjects ▸ hobject)
  used := fun ref object hobject => hs.used ref object (hobjects ▸ hobject)
  dead := fun ref hdead => by
    rw [hshares]
    exact hs.dead ref (hobjects ▸ hdead)
  fresh := fun ref hfresh => by
    rw [hobjects]
    exact hs.fresh ref (hnext ▸ hfresh)

/-- A step that changes one handler and the number of its owners. -/
theorem Counted.update {spare spare' : Option HandlerRef} {s' : Handlers} (hs : Counted spare s)
    {new : Option HandlerObject} (hobjects : s'.objects = Function.update s.objects ref new)
    (hnext : ∀ ref', s'.nextRef ≤ ref' → s.nextRef ≤ ref' ∧ (ref' = ref → new = none))
    (hshares : ∀ ref', ref' ≠ ref → s'.shares spare' ref' = s.shares spare ref')
    (hnew : s'.shares spare' ref = new.elim 0 (·.uses)) (hused : ∀ object ∈ new, 0 < object.uses) :
    Counted spare' s' := by
  refine { uses := ?_, used := ?_, dead := ?_, fresh := ?_ }
  · intro ref' object hobject
    rw [hobjects] at hobject
    rcases update_eq_some.mp hobject with ⟨rfl, rfl⟩ | ⟨hne, hold⟩
    · exact hnew.symm
    · rw [hshares ref' hne]
      exact hs.uses ref' object hold
  · intro ref' object hobject
    rw [hobjects] at hobject
    rcases update_eq_some.mp hobject with ⟨-, hsome⟩ | ⟨-, hold⟩
    · exact hused object hsome
    · exact hs.used ref' object hold
  · intro ref' hdead
    rw [hobjects] at hdead
    rcases update_eq_none.mp hdead with ⟨rfl, rfl⟩ | ⟨hne, hold⟩
    · exact hnew
    · rw [hshares ref' hne]
      exact hs.dead ref' hold
  · intro ref' hfresh
    rw [hobjects]
    by_cases heq : ref' = ref
    · exact update_eq_none.mpr (.inl ⟨heq, (hnext ref' hfresh).2 heq⟩)
    · exact update_eq_none.mpr (.inr ⟨heq, hs.fresh ref' (hnext ref' hfresh).1⟩)

theorem Counted.alive (hs : Counted none s) (husers : 0 < s.users ref) :
    ∃ object, s.objects ref = some object := by
  cases hobject : s.objects ref with
  | none =>
    have hdead := hs.dead ref hobject
    unfold shares at hdead
    omega
  | some object => exact ⟨object, rfl⟩

theorem Counted.lt_nextRef {spare : Option HandlerRef} (hs : Counted spare s)
    {object : HandlerObject} (hobject : s.objects ref = some object) : ref < s.nextRef := by
  by_contra hfresh
  rw [hs.fresh ref (Nat.not_lt.mp hfresh)] at hobject
  nomatch hobject

/-- The handler of an index that is there keeps its number. -/
theorem Counted.next {spare : Option HandlerRef} (hs : Counted spare s) {object : HandlerObject}
    (hobject : s.objects ref = some object) (new : Option HandlerObject) :
    ∀ ref', s.nextRef ≤ ref' → s.nextRef ≤ ref' ∧ (ref' = ref → new = none) := by
  rintro ref' hfresh
  refine ⟨hfresh, ?_⟩
  rintro rfl
  exact absurd (hs.lt_nextRef hobject) (Nat.not_lt.mpr hfresh)

theorem connect_counted (hs : Counted none s) (address : Nat) :
    Counted none (s.connect address) := by
  have hnew := hs.dead s.nextRef (hs.fresh s.nextRef (Nat.le_refl _))
  have hshares : ∀ ref, (s.connect address).shares none ref =
      s.shares none ref + if s.nextRef = ref then 1 else 0 := by
    intro ref
    show (s.connections ++ [s.nextRef]).count ref +
      s.callbacks.countP (fun cb => cb.isHeld && cb.handler == ref) + 0 = _
    rw [List.count_append, List.count_singleton, shares, users]
    simp only [beq_iff_eq, reduceCtorEq, if_false]
    omega
  have hobjects : (s.connect address).objects =
      Function.update s.objects s.nextRef (some { address, uses := 1 }) := rfl
  apply hs.update hobjects
  · intro ref' hfresh
    refine ⟨Nat.le_of_succ_le hfresh, ?_⟩
    rintro rfl
    exact absurd hfresh (Nat.not_succ_le_self _)
  · intro ref' hne
    rw [hshares, if_neg hne.symm]
    rfl
  · rw [hshares, if_pos rfl, hnew]
    rfl
  · intro object hobject
    cases hobject
    exact Nat.one_pos

theorem share_counted (hs : Counted none s) {object : HandlerObject}
    (hobject : s.objects ref = some object) : Counted (some ref) (s.share ref object) := by
  have huses := hs.uses ref object hobject
  apply hs.update rfl
  · exact hs.next hobject _
  · intro ref' hne
    show s.users ref' + _ = s.users ref' + _
    rw [if_neg fun heq => hne (Option.some.inj heq).symm]
    rfl
  · show s.users ref + _ = object.uses + 1
    rw [if_pos rfl, huses]
    rfl
  · intro object' hobject'
    cases hobject'
    exact Nat.succ_pos _

theorem release_counted (hs : Counted (some ref) s) : Counted none (s.release ref) := by
  unfold release
  split
  · next hdead =>
    have hnone := hs.dead ref hdead
    rw [shares, if_pos rfl] at hnone
    exact absurd hnone (Nat.succ_ne_zero _)
  · next object hobject =>
    have huses := hs.uses ref object hobject
    have hused := hs.used ref object hobject
    rw [shares, if_pos rfl] at huses
    have hother : ∀ ref', ref' ≠ ref → s.users ref' + 0 = s.shares (some ref) ref' := by
      intro ref' hne
      rw [shares, if_neg fun heq => hne (Option.some.inj heq).symm]
    split
    · next hlast =>
      apply hs.update rfl
      · exact hs.next hobject _
      · exact hother
      · show s.users ref + 0 = 0
        omega
      · exact fun object' hobject' => nomatch hobject'
    · next hmore =>
      apply hs.update rfl
      · exact hs.next hobject _
      · exact hother
      · show s.users ref + 0 = object.uses - 1
        omega
      · intro object' hobject'
        cases hobject'
        show 0 < object.uses - 1
        omega

/-- A coroutine takes its place among the owners. -/
theorem Counted.hold {stage : CallbackStage} (hs : Counted (some ref) s)
    (hstage : stage ≠ .replay) :
    Counted none { s with callbacks := ⟨ref, stage⟩ :: s.callbacks } := by
  refine hs.move rfl rfl fun ref' => ?_
  show s.connections.count ref' + (_ :: s.callbacks).countP _ + 0 = _
  rw [List.countP_cons, shares, users]
  have hheld : Callback.isHeld ⟨ref, stage⟩ = true := by simpa [Callback.isHeld] using hstage
  simp only [hheld, Bool.true_and, beq_iff_eq, Option.some.injEq]
  omega

theorem Counted.erase (hs : Counted none s) (hmem : cb ∈ s.callbacks) (hheld : cb.isHeld = true) :
    Counted (some cb.handler) { s with callbacks := s.callbacks.erase cb } := by
  refine hs.move rfl rfl fun ref' => ?_
  have herase := countP_erase_add hmem fun cb => cb.isHeld && cb.handler == ref'
  simp only [hheld, Bool.true_and, beq_iff_eq] at herase
  show s.connections.count ref' + (s.callbacks.erase cb).countP _ + _ = _
  rw [shares, users]
  simp only [Option.some.injEq, reduceCtorEq, if_false]
  omega

/-- The handlers of `objects` were there before, at their addresses. -/
def Kept (s : Handlers) (objects : HandlerRef → Option HandlerObject) : Prop :=
  ∀ ref object', objects ref = some object' →
    ∃ object, s.objects ref = some object ∧ object'.address = object.address

theorem Departing.of_kept (hs : Departing s) {objects : HandlerRef → Option HandlerObject}
    (stored lost identified : List ClientRecord) (nextRecord : Nat) (hkept : Kept s objects) :
    Departing { s with objects, stored, lost, identified, nextRecord } := by
  refine { hs with tasks := ?_, addresses := ?_ }
  · intro task htask
    obtain ⟨hlt, hcompleted, haddress⟩ := hs.tasks task htask
    refine ⟨hlt, hcompleted, fun object' hobject' => ?_⟩
    obtain ⟨object, hobject, hsame⟩ := hkept _ object' hobject'
    rw [hsame]
    exact haddress object hobject
  · intro ref ref' object object' hobject hobject' hequal
    obtain ⟨old, hold, hsame⟩ := hkept ref object hobject
    obtain ⟨old', hold', hsame'⟩ := hkept ref' object' hobject'
    exact hs.addresses ref ref' old old' hold hold' (hsame ▸ hsame' ▸ hequal)

/-- No coroutine begins to leave. -/
theorem Departing.of_callbacks (hs : Departing s) {callbacks : List Callback}
    (faults : List Callback)
    (hleaving : ∀ ref, callbacks.countP (fun cb => cb.isLeaving && cb.handler == ref) ≤
      s.callbacks.countP fun cb => cb.isLeaving && cb.handler == ref) :
    Departing { s with callbacks, faults } := by
  refine { hs with once := fun ref => ?_ }
  have honce := hs.once ref
  have hle := hleaving ref
  unfold departures at honce ⊢
  dsimp only
  omega

theorem release_eq (ref : HandlerRef) (s : Handlers) :
    s.release ref =
      { s with
        objects := (s.release ref).objects
        stored := (s.release ref).stored
        lost := (s.release ref).lost } := by
  unfold release
  split
  · rfl
  · split <;> rfl

theorem release_kept (ref : HandlerRef) (s : Handlers) : Kept s (s.release ref).objects := by
  intro ref' object' hobject'
  unfold release at hobject'
  split at hobject'
  · exact ⟨object', hobject', rfl⟩
  · next object hobject =>
    split at hobject'
    · rcases update_eq_some.mp hobject' with ⟨-, hfalse⟩ | ⟨-, hold⟩
      · nomatch hfalse
      · exact ⟨object', hold, rfl⟩
    · rcases update_eq_some.mp hobject' with ⟨rfl, hsome⟩ | ⟨-, hold⟩
      · cases hsome
        exact ⟨object, hobject, rfl⟩
      · exact ⟨object', hold, rfl⟩

theorem release_departing (hs : Departing s) (ref : HandlerRef) : Departing (s.release ref) := by
  rw [release_eq]
  exact hs.of_kept _ _ _ _ (release_kept ref s)

theorem share_departing (hs : Departing s) {object : HandlerObject}
    (hobject : s.objects ref = some object) : Departing (s.share ref object) := by
  apply hs.of_kept s.stored s.lost s.identified s.nextRecord
  intro ref' object' hobject'
  rcases update_eq_some.mp hobject' with ⟨rfl, hsome⟩ | ⟨-, hold⟩
  · cases hsome
    exact ⟨object, hobject, rfl⟩
  · exact ⟨object', hold, rfl⟩

theorem start_departing (hs : Departing s) (ref : HandlerRef) {stage : CallbackStage}
    (hstage : Callback.isLeaving ⟨ref, stage⟩ = false) : Departing (s.start ref stage) := by
  unfold start
  split
  · exact hs
  · next object hobject =>
    apply (share_departing hs hobject).of_callbacks s.faults
    intro ref'
    rw [List.countP_cons, if_neg (by simp [hstage])]
    exact Nat.le_refl _

theorem departures_of_fresh (hs : Departing s) (hfirst : ref ∉ s.reported) :
    s.departures ref = 0 := by
  have honce := hs.once ref
  rw [if_neg hfirst] at honce
  exact Nat.le_zero.mp honce

theorem reported_departing (hs : Departing s) (ref : HandlerRef) :
    Departing { s with reported := ref :: s.reported } := by
  refine { hs with once := fun ref' => ?_ }
  have honce := hs.once ref'
  show s.departures ref' ≤ if ref' ∈ ref :: s.reported then 1 else 0
  split at honce
  · next hreported => rwa [if_pos (List.mem_cons_of_mem _ hreported)]
  · exact honce.trans (Nat.zero_le _)

theorem Departing.leave (hs : Departing s) (hfirst : ref ∉ s.reported) :
    Departing
      { s with
        callbacks := ⟨ref, .stateChange .disconnected⟩ :: s.callbacks
        reported := ref :: s.reported } := by
  have hreported := reported_departing hs ref
  refine { hreported with once := fun ref' => ?_ }
  have honce := hreported.once ref'
  have hnone := departures_of_fresh hs hfirst
  unfold departures at honce hnone ⊢
  dsimp only at honce hnone ⊢
  rw [List.countP_cons]
  by_cases hself : ref = ref'
  · subst hself
    rw [if_pos (by simp [Callback.isLeaving]), if_pos List.mem_cons_self]
    omega
  · rw [if_neg (by simp [hself])]
    exact honce

/-- ENet says for the first time that a client is gone. -/
theorem start_leaving (hs : Departing s) (hfirst : ref ∉ s.reported) :
    Departing
      (start ref (.stateChange .disconnected) { s with reported := ref :: s.reported }) := by
  unfold start
  split
  · exact reported_departing hs ref
  · next object hobject => exact (share_departing hs hobject).leave hfirst

/-- The callback that says that a client is gone ends with a task. -/
theorem scheduleRemoval_departing (hs : Departing s) (hcounted : Counted none s)
    (hmem : cb ∈ s.callbacks) (hstage : cb.stage = .handleDisconnect) {object : HandlerObject}
    (hobject : s.objects cb.handler = some object) :
    Departing { scheduleRemoval cb.handler object s with callbacks := s.callbacks.erase cb } := by
  have hlt : cb.handler < s.nextRef := by
    by_contra hfresh
    rw [hcounted.fresh cb.handler (Nat.not_lt.mp hfresh)] at hobject
    nomatch hobject
  refine { hs with once := fun ref => ?_, tasks := ?_, removed := ?_ }
  · have honce := hs.once ref
    have herase := countP_erase_add hmem fun cb => cb.isLeaving && cb.handler == ref
    have hleaving : cb.isLeaving = true := by simp [Callback.isLeaving, hstage]
    simp only [hleaving, Bool.true_and, beq_iff_eq] at herase
    refine (le_of_eq ?_).trans honce
    show (s.callbacks.erase cb).countP _ + (_ :: s.tasks).countP _ +
      s.removed.countP (fun entry => entry.1 == ref) = _
    rw [List.countP_cons, departures]
    simp only [beq_iff_eq]
    omega
  · intro task htask
    rcases List.mem_cons.mp htask with rfl | hold
    · refine ⟨hlt, List.mem_cons_self, fun object' hobject' => ?_⟩
      cases hobject.symm.trans hobject'
      rfl
    · obtain ⟨howner, hcompleted, haddress⟩ := hs.tasks task hold
      exact ⟨howner, List.mem_cons_of_mem _ hcompleted, haddress⟩
  · intro entry hentry
    obtain ⟨hown, hcompleted, hlt⟩ := hs.removed entry hentry
    exact ⟨hown, List.mem_cons_of_mem _ hcompleted, hlt⟩

/-- A handler that has a task is on the list. -/
theorem Departing.onList (hs : Departing s) {task : RemovalTask} (htask : task ∈ s.tasks) :
    s.connections.count task.owner = 1 := by
  have honce := hs.once task.owner
  have hkept := hs.kept task.owner (hs.tasks task htask).1
  have hcount : 0 < s.tasks.countP fun other => other.owner == task.owner :=
    List.countP_pos_iff.mpr ⟨task, htask, beq_self_eq_true _⟩
  unfold departures at honce
  split at honce <;> omega

theorem Departing.connections_nodup (hs : Departing s) (hcounted : Counted none s) :
    s.connections.Nodup := by
  rw [List.nodup_iff_count_le_one]
  intro ref
  by_cases hlt : ref < s.nextRef
  · have hkept := hs.kept ref hlt
    omega
  · have hdead := hcounted.dead ref (hcounted.fresh ref (Nat.not_lt.mp hlt))
    unfold shares users at hdead
    omega

/-- The task finds the handler that it is for, and no other. -/
theorem filter_hasAddress (hs : Departing s) (hcounted : Counted none s) {task : RemovalTask}
    (htask : task ∈ s.tasks) :
    ∀ ref ∈ s.connections, s.hasAddress task.address ref = true ↔ ref = task.owner := by
  have hlisted := hs.onList htask
  obtain ⟨-, -, haddress⟩ := hs.tasks task htask
  have hshared : 0 < s.users task.owner := by
    unfold users
    omega
  obtain ⟨owner, howner⟩ := hcounted.alive hshared
  intro ref hmem
  have hpos : 0 < s.users ref := by
    have hcount := List.count_pos_iff.mpr hmem
    unfold users
    omega
  obtain ⟨object, hobject⟩ := hcounted.alive hpos
  unfold hasAddress
  rw [hobject, Option.any_some, decide_eq_true_eq]
  refine ⟨fun hequal => ?_, ?_⟩
  · exact hs.addresses ref task.owner object owner hobject howner
      (hequal.trans (haddress owner howner).symm)
  · rintro rfl
    exact haddress object hobject

/-- The handler that a task is for is off the list. -/
def taken (task : RemovalTask) (s : Handlers) : Handlers :=
  { s with
    tasks := s.tasks.erase task
    connections := s.connections.erase task.owner
    removed := s.removed ++ [(task.owner, task.owner)] }

theorem runTask_eq (hs : Departing s) (hcounted : Counted none s) {task : RemovalTask}
    (htask : task ∈ s.tasks) :
    s.runTask task = release task.owner (s.taken task) := by
  have hnodup := hs.connections_nodup hcounted
  have hfound := filter_hasAddress hs hcounted htask
  have hhit : s.connections.filter (s.hasAddress task.address) = [task.owner] := by
    have hequal : s.connections.filter (s.hasAddress task.address) =
        s.connections.filter (· == task.owner) := by
      apply List.filter_congr
      intro ref hmem
      rw [Bool.eq_iff_iff, hfound ref hmem, beq_iff_eq]
    rw [hequal, List.filter_beq, hs.onList htask]
    rfl
  have hrest : (s.connections.filter fun ref => !s.hasAddress task.address ref) =
      s.connections.erase task.owner := by
    rw [hnodup.erase_eq_filter]
    apply List.filter_congr
    intro ref hmem
    rw [Bool.eq_iff_iff, Bool.not_eq_true', ← Bool.not_eq_true, hfound ref hmem, bne_iff_ne]
  unfold runTask
  rw [if_pos htask, hhit, hrest]
  rfl

theorem taken_counted (hs : Departing s) (hcounted : Counted none s) {task : RemovalTask}
    (htask : task ∈ s.tasks) : Counted (some task.owner) (s.taken task) := by
  refine hcounted.move rfl rfl fun ref => ?_
  have hlisted := hs.onList htask
  show (s.connections.erase task.owner).count ref + s.callbacks.countP _ + _ = _
  rw [List.count_erase, shares, users]
  simp only [beq_iff_eq, Option.some.injEq, reduceCtorEq, if_false]
  split
  · next hself =>
    subst hself
    omega
  · omega

theorem taken_departing (hs : Departing s) {task : RemovalTask} (htask : task ∈ s.tasks) :
    Departing (s.taken task) := by
  have hlisted := hs.onList htask
  obtain ⟨hlt, hcompleted, -⟩ := hs.tasks task htask
  have htasks : ∀ ref, (s.tasks.erase task).countP (fun other => other.owner == ref) +
      (if task.owner = ref then 1 else 0) = s.tasks.countP fun other => other.owner == ref := by
    intro ref
    rw [(List.perm_cons_erase htask).countP_eq, List.countP_cons]
    simp only [beq_iff_eq]
  have hremoved : ∀ ref, (s.removed ++ [(task.owner, task.owner)]).countP
      (fun entry => entry.1 == ref) =
      s.removed.countP (fun entry => entry.1 == ref) + if task.owner = ref then 1 else 0 := by
    intro ref
    rw [List.countP_append, List.countP_singleton]
    simp only [beq_iff_eq]
  refine { hs with once := ?_, kept := ?_, tasks := ?_, removed := ?_ }
  · intro ref
    refine (le_of_eq ?_).trans (hs.once ref)
    show s.callbacks.countP _ + (s.tasks.erase task).countP _ + (s.removed ++ _).countP _ = _
    rw [hremoved, departures, ← htasks]
    omega
  · intro ref href
    have hkept := hs.kept ref href
    show (s.connections.erase task.owner).count ref + (s.removed ++ _).countP _ = 1
    rw [hremoved, List.count_erase]
    simp only [beq_iff_eq]
    split
    · next hself =>
      subst hself
      omega
    · omega
  · intro other hother
    exact hs.tasks other (List.mem_of_mem_erase hother)
  · intro entry hentry
    rcases List.mem_append.mp hentry with hold | hnew
    · exact hs.removed entry hold
    · rw [List.mem_singleton.mp hnew]
      exact ⟨rfl, hcompleted, hlt⟩

theorem Recorded.congr {s' : Handlers} (hs : Recorded s)
    (hidentity : ∀ ref, s'.identity ref = s.identity ref) (hstored : s'.stored = s.stored)
    (hlost : s'.lost = s.lost) (hidentified : s'.identified = s.identified)
    (hnext : s'.nextRecord = s.nextRecord) : Recorded s' := by
  constructor
  · simpa only [hidentity, hstored, hlost, hidentified] using hs.kept
  · simpa only [hidentity] using hs.own
  · simpa only [hidentified, hnext] using hs.numbered
  · simpa only [hidentified] using hs.distinct
  · simpa only [hstored, hlost] using hs.once
  · simpa only [hidentity, hstored, hlost] using hs.apart

theorem identity_update (s : Handlers) (ref ref' : HandlerRef) (new : Option HandlerObject) :
    (Function.update s.objects ref new ref').bind (·.persistent) =
      if ref' = ref then new.bind (·.persistent) else s.identity ref' := by
  rw [Function.update_apply]
  split
  · rfl
  · rfl

theorem connect_recorded (hs : Recorded s) (hcounted : Counted none s) (address : Nat) :
    Recorded (s.connect address) := by
  refine hs.congr (fun ref => ?_) rfl rfl rfl rfl
  refine (identity_update s s.nextRef ref _).trans ?_
  split
  · next hnew =>
    rw [hnew, identity, hcounted.fresh s.nextRef (Nat.le_refl _)]
    rfl
  · rfl

/-- A step that changes what a handler has besides the record of its client. -/
theorem Recorded.of_update (hs : Recorded s) {object new : HandlerObject}
    (hobject : s.objects ref = some object) (hsame : new.persistent = object.persistent) :
    Recorded { s with objects := Function.update s.objects ref (some new) } := by
  refine hs.congr (fun ref' => ?_) rfl rfl rfl rfl
  refine (identity_update s ref ref' _).trans ?_
  split
  · next hself => rw [hself, identity, hobject, Option.bind_some, Option.bind_some, hsame]
  · rfl

/-- The record of a handler leaves it, for the store or for good. -/
theorem Recorded.part (hs : Recorded s) {object : HandlerObject} {new : Option HandlerObject}
    (hobject : s.objects ref = some object) (hnew : new.bind (·.persistent) = none)
    {stored lost : List ClientRecord}
    (hplaced : (stored ++ lost).Perm (object.persistent.toList ++ (s.stored ++ s.lost))) :
    Recorded { s with objects := Function.update s.objects ref new, stored, lost } := by
  have hidentity : s.identity ref = object.persistent := by
    rw [identity, hobject, Option.bind_some]
  have hplaces : ∀ record, record ∈ stored ++ lost ↔
      object.persistent = some record ∨ record ∈ s.stored ++ s.lost := by
    intro record
    rw [hplaced.mem_iff, List.mem_append, Option.mem_toList]
  have hothers : ∀ ref' record,
      (Function.update s.objects ref new ref').bind (·.persistent) = some record ↔
        ref' ≠ ref ∧ s.identity ref' = some record := by
    intro ref' record
    rw [identity_update, hnew]
    by_cases hself : ref' = ref <;> simp [hself]
  have hown : ∀ record, object.persistent = some record → record.handler = ref :=
    fun record hrecord => hs.own ref record (hidentity.trans hrecord)
  refine { hs with kept := ?_, own := ?_, once := ?_, apart := ?_ }
  · intro record
    show record ∈ s.identified ↔
      (Function.update s.objects ref new record.handler).bind (·.persistent) = some record ∨
        record ∈ stored ++ lost
    rw [hs.kept record, hothers, hplaces]
    by_cases hself : record.handler = ref
    · rw [hself, hidentity]
      simp
    · have hnot : object.persistent ≠ some record := fun hrecord => hself (hown record hrecord)
      simp [hself, hnot]
  · intro ref' record hrecord
    exact hs.own ref' record ((hothers ref' record).mp hrecord).2
  · rw [hplaced.nodup_iff]
    cases hrecord : object.persistent with
    | none => exact hs.once
    | some record =>
      exact List.nodup_cons.mpr ⟨hs.apart ref record (hidentity.trans hrecord), hs.once⟩
  · intro ref' record hrecord hmem
    obtain ⟨hne, hold⟩ := (hothers ref' record).mp hrecord
    rcases (hplaces record).mp hmem with hleft | hgone
    · exact hne ((hs.own ref' record hold).symm.trans (hown record hleft))
    · exact hs.apart ref' record hold hgone

/-- A handler without a record gets one. -/
theorem Recorded.add (hs : Recorded s) {object : HandlerObject}
    (hobject : s.objects ref = some object) (hnone : object.persistent = none)
    (pp : PeerPersistent) :
    Recorded
      { s with
        objects := Function.update s.objects ref
          (some { object with persistent := some ⟨s.nextRecord, ref, pp⟩ })
        identified := ⟨s.nextRecord, ref, pp⟩ :: s.identified
        nextRecord := s.nextRecord + 1 } := by
  have hidentity : s.identity ref = none := by rw [identity, hobject, Option.bind_some, hnone]
  have hfresh : ∀ ref pp, ClientRecord.mk s.nextRecord ref pp ∉ s.identified := fun _ _ hmem =>
    absurd (hs.numbered _ hmem) (lt_irrefl _)
  have hplaces : ∀ ref' record,
      (Function.update s.objects ref
          (some { object with persistent := some ⟨s.nextRecord, ref, pp⟩ }) ref').bind
          (·.persistent) = some record ↔
        ref' = ref ∧ record = ⟨s.nextRecord, ref, pp⟩ ∨
          ref' ≠ ref ∧ s.identity ref' = some record := by
    intro ref' record
    rw [identity_update]
    by_cases hself : ref' = ref
    · simp [hself, eq_comm]
    · simp [hself]
  refine { hs with kept := ?_, own := ?_, numbered := ?_, distinct := ?_, apart := ?_ }
  · intro record
    show record ∈ _ :: s.identified ↔ _ ∨ record ∈ s.stored ++ s.lost
    rw [List.mem_cons, hs.kept record]
    refine Iff.trans ?_ (or_congr (hplaces record.handler record) Iff.rfl).symm
    by_cases hself : record.handler = ref
    · rw [hself, hidentity]
      simp
    · have hnot : record ≠ ⟨s.nextRecord, ref, pp⟩ := fun heq => hself (congrArg _ heq)
      simp [hself, hnot]
  · intro ref' record hrecord
    rcases (hplaces ref' record).mp hrecord with ⟨hself, rfl⟩ | ⟨-, hold⟩
    · exact hself.symm
    · exact hs.own ref' record hold
  · intro record hmem
    rcases List.mem_cons.mp hmem with rfl | hold
    · exact Nat.lt_succ_self _
    · exact Nat.lt_succ_of_lt (hs.numbered record hold)
  · refine List.nodup_cons.mpr ⟨fun hmem => ?_, hs.distinct⟩
    obtain ⟨record, hold, hnumber⟩ := List.mem_map.mp hmem
    exact absurd (hnumber ▸ hs.numbered record hold) (lt_irrefl _)
  · intro ref' record hrecord
    rcases (hplaces ref' record).mp hrecord with ⟨-, rfl⟩ | ⟨-, hold⟩
    · exact fun hgone => hfresh _ _ ((hs.kept _).mpr (Or.inr hgone))
    · exact hs.apart ref' record hold

/-- The destructor stores the record, or destroys it. -/
theorem perm_destroyed (stored lost records : List ClientRecord) :
    (stored ++ records.filter ClientRecord.isStorable ++
      (lost ++ records.filter fun record => !record.isStorable)).Perm
      (records ++ (stored ++ lost)) := by
  have hboth := List.filter_append_perm ClientRecord.isStorable records
  rw [List.perm_iff_count] at hboth ⊢
  intro record
  have hcount := hboth record
  simp only [List.count_append] at hcount ⊢
  omega

theorem release_recorded (hs : Recorded s) : Recorded (s.release ref) := by
  unfold release
  split
  · exact hs
  · next object hobject =>
    split
    · exact hs.part hobject rfl (perm_destroyed _ _ _)
    · exact hs.of_update hobject rfl

theorem authenticate_recorded (hs : Recorded s) (ref : HandlerRef) (pp : PeerPersistent) :
    Recorded (s.authenticate ref pp) := by
  unfold authenticate
  split
  · exact hs
  · next object hobject =>
    -- The record that the handler has is destroyed first.
    have hcleared : Recorded
        { s with
          objects := Function.update s.objects ref (some { object with persistent := none })
          lost := s.lost ++ object.persistent.toList } := by
      refine hs.part hobject rfl ?_
      rw [← List.append_assoc]
      exact List.perm_append_comm
    have hadded := hcleared.add (Function.update_self _ _ _) rfl pp
    rw [Function.update_idem] at hadded
    exact hadded

theorem route_recorded (hs : Recorded s) (ref : HandlerRef) : Recorded (s.route ref) := by
  unfold route
  split
  · exact hs
  · next object hobject =>
    split
    · refine hs.part hobject rfl ?_
      rw [List.append_assoc]
      exact List.perm_append_comm_assoc _ _ _
    · exact hs

theorem start_counted (hs : Counted none s) (ref : HandlerRef) {stage : CallbackStage}
    (hstage : stage ≠ .replay) : Counted none (s.start ref stage) := by
  unfold start
  split
  · exact hs
  · next object hobject => exact (share_counted hs hobject).hold hstage

theorem start_recorded (hs : Recorded s) (ref : HandlerRef) (stage : CallbackStage) :
    Recorded (s.start ref stage) := by
  unfold start
  split
  · exact hs
  · next object hobject =>
    have hshared : Recorded (s.share ref object) := hs.of_update hobject rfl
    exact hshared.congr (fun _ => rfl) rfl rfl rfl rfl

theorem start_faults (ref : HandlerRef) (stage : CallbackStage) (s : Handlers) :
    (s.start ref stage).faults = s.faults := by
  unfold start
  split <;> rfl

theorem release_faults (ref : HandlerRef) (s : Handlers) : (s.release ref).faults = s.faults := by
  rw [release_eq]

/-- A coroutine that has no share is over. -/
theorem Counted.drop (hs : Counted none s) (hmem : cb ∈ s.callbacks)
    (hheld : cb.isHeld = false) (faults : List Callback) :
    Counted none { s with callbacks := s.callbacks.erase cb, faults } := by
  refine hs.move rfl rfl fun ref => ?_
  have herase := countP_erase_add hmem fun cb => cb.isHeld && cb.handler == ref
  simp only [hheld, Bool.false_and, Bool.false_eq_true, if_false] at herase
  show s.connections.count ref + (s.callbacks.erase cb).countP _ + 0 = _
  rw [shares, users]
  simp only [reduceCtorEq, if_false]
  omega

theorem erase_departing (hs : Departing s) (cb : Callback) (faults : List Callback) :
    Departing { s with callbacks := s.callbacks.erase cb, faults } :=
  hs.of_callbacks faults fun _ => List.erase_sublist.countP_le

theorem finish_sound (hs : Sound s) (hmem : cb ∈ s.callbacks) : Sound (s.finish cb) := by
  have hdeparting := erase_departing hs.departing cb s.faults
  have hrecorded : Recorded { s with callbacks := s.callbacks.erase cb } :=
    hs.recorded.congr (fun _ => rfl) rfl rfl rfl rfl
  unfold finish
  split
  · next hheld =>
    have hcounted := hs.counted.erase hmem hheld
    refine ⟨release_counted hcounted, release_departing hdeparting _,
      release_recorded hrecorded, ?_⟩
    rw [release_faults]
    exact hs.faults
  · next hfree =>
    exact ⟨hs.counted.drop hmem (Bool.eq_false_of_not_eq_true hfree) s.faults, hdeparting,
      hrecorded, hs.faults⟩

theorem finish_scheduleRemoval_sound (hs : Sound s) (hmem : cb ∈ s.callbacks)
    (hstage : cb.stage = .handleDisconnect) {object : HandlerObject}
    (hobject : s.objects cb.handler = some object) :
    Sound (finish cb (scheduleRemoval cb.handler object s)) := by
  have hheld : cb.isHeld = true := by simp [Callback.isHeld, hstage]
  have hscheduled : Counted none (scheduleRemoval cb.handler object s) :=
    hs.counted.move rfl rfl fun _ => rfl
  have hcounted := hscheduled.erase hmem hheld
  have hdeparting := scheduleRemoval_departing hs.departing hs.counted hmem hstage hobject
  have hrecorded : Recorded
      { scheduleRemoval cb.handler object s with callbacks := s.callbacks.erase cb } :=
    hs.recorded.congr (fun _ => rfl) rfl rfl rfl rfl
  unfold finish
  rw [if_pos hheld]
  refine ⟨release_counted hcounted, release_departing hdeparting _,
    release_recorded hrecorded, ?_⟩
  rw [release_faults]
  exact hs.faults

/-- A coroutine goes on and has its share as before. -/
theorem advance_sound (hs : Sound s) (hmem : cb ∈ s.callbacks) {stage : CallbackStage}
    (hheld : cb.isHeld = true) (hstage : stage ≠ .replay)
    (hleaving : Callback.isLeaving ⟨cb.handler, stage⟩ = cb.isLeaving) :
    Sound (s.advance cb stage) := by
  refine ⟨?_, ?_, hs.recorded.congr (fun _ => rfl) rfl rfl rfl rfl, hs.faults⟩
  · exact (hs.counted.erase hmem hheld).hold hstage
  · apply hs.departing.of_callbacks s.faults
    intro ref
    rw [List.countP_cons, hleaving, countP_erase_add hmem fun cb =>
      cb.isLeaving && cb.handler == ref]

theorem resume_sound (hs : Sound s) (cb : Callback) (throws : Bool) :
    Sound (s.resume cb throws) := by
  unfold resume
  split
  · next hmem =>
    split
    · next hdead =>
      have hfree : cb.isHeld = false := by
        by_contra hheld
        have hpos : 0 < s.users cb.handler := by
          have hcount : 0 < s.callbacks.countP fun other =>
              other.isHeld && other.handler == cb.handler :=
            List.countP_pos_iff.mpr ⟨cb, hmem, by simpa using hheld⟩
          unfold users
          omega
        obtain ⟨object, hobject⟩ := hs.counted.alive hpos
        rw [hdead] at hobject
        nomatch hobject
      refine ⟨hs.counted.drop hmem hfree _, erase_departing hs.departing cb _,
        hs.recorded.congr (fun _ => rfl) rfl rfl rfl rfl, ?_⟩
      intro other hother
      rcases List.mem_cons.mp hother with rfl | hold
      · simpa [Callback.isHeld] using hfree
      · exact hs.faults other hold
    · next object hobject =>
      split
      · next hstage =>
        exact advance_sound hs hmem (by simp [Callback.isHeld, hstage]) (by decide)
          (by simp [Callback.isLeaving, hstage])
      · next hstage =>
        exact advance_sound hs hmem (by simp [Callback.isHeld, hstage]) (by decide)
          (by simp [Callback.isLeaving, hstage])
      · next hstage => exact finish_scheduleRemoval_sound hs hmem hstage hobject
      · exact finish_sound hs hmem
  · exact hs

theorem connect_departing (hs : Departing s) (hcounted : Counted none s) {address : Nat}
    (hfree : ∀ ref < s.nextRef, s.hasAddress address ref = false) :
    Departing (s.connect address) := by
  have hnone := hcounted.fresh s.nextRef (Nat.le_refl _)
  have haddress : ∀ ref object, s.objects ref = some object → object.address ≠ address := by
    intro ref object hobject hequal
    have hother := hfree ref (hcounted.lt_nextRef hobject)
    rw [hasAddress, hobject, Option.any_some, decide_eq_false_iff_not] at hother
    exact hother hequal
  refine { once := hs.once, kept := ?_, tasks := ?_, removed := ?_, addresses := ?_ }
  · intro ref hlt
    show (s.connections ++ [s.nextRef]).count ref + s.removed.countP _ = 1
    rw [List.count_append, List.count_singleton]
    rcases Nat.lt_succ_iff_lt_or_eq.mp hlt with hold | rfl
    · have hkept := hs.kept ref hold
      rw [if_neg (by simpa using Nat.ne_of_gt hold)]
      omega
    · have hdead := hcounted.dead s.nextRef hnone
      have hremoved : s.removed.countP (fun entry => entry.1 == s.nextRef) = 0 := by
        rw [List.countP_eq_zero]
        intro entry hentry
        simpa using Nat.ne_of_lt (hs.removed entry hentry).2.2
      unfold shares users at hdead
      rw [if_pos (beq_self_eq_true _), hremoved]
      omega
  · intro task htask
    obtain ⟨hlt, hcompleted, hsame⟩ := hs.tasks task htask
    refine ⟨hlt.trans (Nat.lt_succ_self _), hcompleted, fun object hobject => ?_⟩
    rcases update_eq_some.mp hobject with ⟨hnew, -⟩ | ⟨-, hold⟩
    · exact absurd hnew (Nat.ne_of_lt hlt)
    · exact hsame object hold
  · intro entry hentry
    obtain ⟨hown, hcompleted, hlt⟩ := hs.removed entry hentry
    exact ⟨hown, hcompleted, hlt.trans (Nat.lt_succ_self _)⟩
  · intro ref ref' object object' hobject hobject' hequal
    rcases update_eq_some.mp hobject with ⟨rfl, hsome⟩ | ⟨-, hold⟩
    · rcases update_eq_some.mp hobject' with ⟨rfl, -⟩ | ⟨-, hold'⟩
      · rfl
      · cases hsome
        exact absurd hequal.symm (haddress ref' object' hold')
    · rcases update_eq_some.mp hobject' with ⟨rfl, hsome'⟩ | ⟨-, hold'⟩
      · cases hsome'
        exact absurd hequal (haddress ref object hold)
      · exact hs.addresses ref ref' object object' hold hold' hequal

/-- A step that changes what becomes of records. -/
theorem Sound.modify (hs : Sound s) {object new : HandlerObject}
    (hobject : s.objects ref = some object) (huses : new.uses = object.uses)
    (haddress : new.address = object.address) {stored lost identified : List ClientRecord}
    {nextRecord : Nat}
    (hrecorded : Recorded
      { s with
        objects := Function.update s.objects ref (some new)
        stored, lost, identified, nextRecord }) :
    Sound
      { s with
        objects := Function.update s.objects ref (some new)
        stored, lost, identified, nextRecord } := by
  refine ⟨?_, ?_, hrecorded, hs.faults⟩
  · apply hs.counted.update rfl
    · exact hs.counted.next hobject _
    · exact fun _ _ => rfl
    · exact (hs.counted.uses ref object hobject).symm.trans huses.symm
    · intro new' hnew
      cases hnew
      rw [huses]
      exact hs.counted.used ref object hobject
  · apply hs.departing.of_kept
    intro ref' object' hobject'
    rcases update_eq_some.mp hobject' with ⟨rfl, hsome⟩ | ⟨-, hold⟩
    · cases hsome
      exact ⟨object, hobject, haddress⟩
    · exact ⟨object', hold, rfl⟩

theorem authenticated_sound (hs : Sound s) (ref : HandlerRef) (pp : PeerPersistent) :
    Sound (s.authenticate ref pp) := by
  have hrecorded := authenticate_recorded hs.recorded ref pp
  unfold authenticate at hrecorded ⊢
  split
  · exact hs
  · next object hobject =>
    rw [hobject] at hrecorded
    dsimp only at hrecorded
    refine hs.modify hobject ?_ ?_ hrecorded
    · rfl
    · rfl

theorem routed_sound (hs : Sound s) (ref : HandlerRef) : Sound (s.route ref) := by
  have hrecorded := route_recorded hs.recorded ref
  unfold route at hrecorded ⊢
  split
  · exact hs
  · next object hobject =>
    rw [hobject] at hrecorded
    dsimp only at hrecorded
    split
    · next hstorable =>
      rw [if_pos hstorable] at hrecorded
      refine hs.modify hobject ?_ ?_ hrecorded
      · rfl
      · rfl
    · exact hs

theorem runTask_sound (hs : Sound s) (task : RemovalTask) : Sound (s.runTask task) := by
  by_cases htask : task ∈ s.tasks
  · have hcounted := taken_counted hs.departing hs.counted htask
    have hrecorded : Recorded (s.taken task) :=
      hs.recorded.congr (fun _ => rfl) rfl rfl rfl rfl
    rw [runTask_eq hs.departing hs.counted htask]
    refine ⟨release_counted hcounted, release_departing (taken_departing hs.departing htask) _,
      release_recorded hrecorded, ?_⟩
    rw [release_faults]
    exact hs.faults
  · unfold runTask
    rw [if_neg htask]
    exact hs

/-- A replay begins without a share. -/
theorem replay_sound (hs : Sound s) (ref : HandlerRef) :
    Sound { s with callbacks := ⟨ref, .replay⟩ :: s.callbacks } := by
  refine ⟨?_, ?_, hs.recorded.congr (fun _ => rfl) rfl rfl rfl rfl, hs.faults⟩
  · refine hs.counted.move rfl rfl fun ref' => ?_
    show s.connections.count ref' + (_ :: s.callbacks).countP _ + 0 = _
    rw [List.countP_cons, if_neg (by simp [Callback.isHeld])]
    rfl
  · apply hs.departing.of_callbacks s.faults
    intro ref'
    rw [List.countP_cons, if_neg (by simp [Callback.isLeaving])]
    exact Nat.le_refl _

theorem stateChanged_sound (hs : Sound s) (ref : HandlerRef) (state : ConnectionState)
    (hallows : Allows s (.stateChanged ref state)) : Sound (s.step (.stateChanged ref state)) := by
  have hreported : ∀ reported, Counted none { s with reported } ∧
      Recorded { s with reported } := fun reported =>
    ⟨hs.counted.move rfl rfl fun _ => rfl, hs.recorded.congr (fun _ => rfl) rfl rfl rfl rfl⟩
  refine ⟨start_counted (hreported _).1 ref nofun, ?_, start_recorded (hreported _).2 ref _, ?_⟩
  · cases state with
    | disconnected => exact start_leaving hs.departing (hallows rfl)
    | _ => exact start_departing hs.departing ref rfl
  · rw [step, start_faults]
    exact hs.faults

theorem step_sound (hs : Sound s) {op : HandlerOp} (hallows : Allows s op) :
    Sound (s.step op) := by
  cases op with
  | connect address =>
    exact ⟨connect_counted hs.counted address, connect_departing hs.departing hs.counted hallows,
      connect_recorded hs.recorded hs.counted address, hs.faults⟩
  | stateChanged ref state => exact stateChanged_sound hs ref state hallows
  | payload ref =>
    refine ⟨start_counted hs.counted ref (by decide), start_departing hs.departing ref rfl,
      start_recorded hs.recorded ref _, ?_⟩
    rw [step, start_faults]
    exact hs.faults
  | slowUpdate ref =>
    unfold step
    dsimp only
    split
    · exact replay_sound hs ref
    · exact hs
  | authenticated ref pp => exact authenticated_sound hs ref pp
  | routed ref => exact routed_sound hs ref
  | resume cb throws => exact resume_sound hs cb throws
  | runTask task => exact runTask_sound hs task

end

theorem start_sound : Sound {} where
  counted :=
    { uses := fun _ _ hobject => nomatch hobject
      used := fun _ _ hobject => nomatch hobject
      dead := fun _ _ => rfl
      fresh := fun _ _ => rfl }
  departing :=
    { once := fun _ => Nat.zero_le _
      kept := fun _ hlt => absurd hlt (Nat.not_lt_zero _)
      tasks := fun _ htask => absurd htask List.not_mem_nil
      removed := fun _ hentry => absurd hentry List.not_mem_nil
      addresses := fun _ _ _ _ hobject => nomatch hobject }
  recorded :=
    { kept := fun _ => by simp [identity]
      own := fun _ _ hrecord => nomatch hrecord
      numbered := fun _ hrecord => absurd hrecord List.not_mem_nil
      distinct := List.nodup_nil
      once := List.nodup_nil
      apart := fun _ _ hrecord => nomatch hrecord }
  faults := fun _ hcb => absurd hcb List.not_mem_nil

/-- The destructor of a handler stores its record if that has an app. -/
theorem release_lost (ref : HandlerRef) (s : Handlers) :
    ∀ record ∈ (s.release ref).lost, record ∈ s.lost ∨ record.persistent.app = none := by
  intro record hrecord
  unfold release at hrecord
  split at hrecord
  · exact Or.inl hrecord
  · split at hrecord
    · refine (List.mem_append.mp hrecord).imp_right fun hnew => ?_
      simpa [ClientRecord.isStorable] using (List.mem_filter.mp hnew).2
    · exact Or.inl hrecord

/-- A step destroys only records without an app, unless two authentications of a client overlap. -/
theorem lost_step {s : Handlers} {op : HandlerOp} (hover : s.Overlaps op = false) :
    ∀ record ∈ (s.step op).lost, record ∈ s.lost ∨ record.persistent.app = none := by
  have hfinish : ∀ (s : Handlers) (cb : Callback),
      ∀ record ∈ (s.finish cb).lost, record ∈ s.lost ∨ record.persistent.app = none := by
    intro s cb
    unfold finish
    split
    · exact release_lost _ _
    · exact fun _ hrecord => Or.inl hrecord
  cases op with
  | connect address => exact fun _ hrecord => Or.inl hrecord
  | stateChanged ref state =>
    simp only [step, start]
    split <;> exact fun _ hrecord => Or.inl hrecord
  | payload ref =>
    simp only [step, start]
    split <;> exact fun _ hrecord => Or.inl hrecord
  | slowUpdate ref =>
    simp only [step]
    split <;> exact fun _ hrecord => Or.inl hrecord
  | authenticated ref pp =>
    simp only [step, authenticate]
    split
    · exact fun _ hrecord => Or.inl hrecord
    · next object hobject =>
      have hnone : object.persistent = none := by
        simpa [Overlaps, hobject] using hover
      simp only [hnone, Option.toList_none, List.append_nil]
      exact fun _ hrecord => Or.inl hrecord
  | routed ref =>
    simp only [step, route]
    split
    · exact fun _ hrecord => Or.inl hrecord
    · split <;> exact fun _ hrecord => Or.inl hrecord
  | resume cb throws =>
    simp only [step, resume]
    split
    · split
      · exact fun _ hrecord => Or.inl hrecord
      · split
        · exact fun _ hrecord => Or.inl hrecord
        · exact fun _ hrecord => Or.inl hrecord
        · exact hfinish (scheduleRemoval cb.handler _ s) cb
        · exact hfinish s cb
    · exact fun _ hrecord => Or.inl hrecord
  | runTask task =>
    simp only [step, runTask]
    split
    · let losesFew (s' : Handlers) : Prop :=
        ∀ record ∈ s'.lost, record ∈ s.lost ∨ record.persistent.app = none
      refine List.foldlRecOn (motive := losesFew) _ _ (fun _ hrecord => Or.inl hrecord) ?_
      intro s' hs' ref _ record hrecord
      rcases release_lost ref s' record hrecord with hold | hnone
      · exact hs' record hold
      · exact Or.inr hnone
    · exact fun _ hrecord => Or.inl hrecord

/-- In every run: a handler is there as long as it is on the list or a callback of ENet runs on it,
so that only a replay can go on with one that is gone; it leaves the list once, by its own task and
after its `HandleDisconnect`; and each record that a client has got is in one place, with the
handler, in the store or destroyed, the last of which happens to a record without an app alone
unless two authentications of a client overlap. -/
theorem handlers_sound {ops : List HandlerOp} (hallows : EachStep step Allows {} ops) :
    let s := run step {} ops
    (∀ ref, (s.objects ref).isSome ↔
        ref ∈ s.connections ∨ ∃ cb ∈ s.callbacks, cb.isHeld = true ∧ cb.handler = ref) ∧
      (∀ cb ∈ s.faults, cb.stage = .replay) ∧ s.connections.Nodup ∧
      (∀ ref < s.nextRef,
        ref ∈ s.connections ∨ (ref, ref) ∈ s.removed ∧ ref ∈ s.completed) ∧
      (∀ entry ∈ s.removed, entry.1 = entry.2 ∧ entry.1 ∉ s.connections) ∧
      (s.identified.map (·.number)).Nodup ∧
      (∀ record, record ∈ s.identified ↔
        s.identity record.handler = some record ∨ record ∈ s.stored ++ s.lost) ∧
      (s.stored ++ s.lost).Nodup ∧
      (∀ ref record, s.identity ref = some record →
        record.handler = ref ∧ record ∉ s.stored ++ s.lost) ∧
      (EachStep step (fun s op => s.Overlaps op = false) {} ops →
        ∀ record ∈ s.lost, record.persistent.app = none) := by
  intro s
  have hkeeps : Keeps step Allows Sound := fun s op hs hop => step_sound hs hop
  have hs : Sound s := hkeeps.run start_sound hallows
  refine ⟨?_, hs.faults, hs.departing.connections_nodup hs.counted, ?_, ?_, hs.recorded.distinct,
    hs.recorded.kept, hs.recorded.once,
    fun ref record hrecord => ⟨hs.recorded.own ref record hrecord,
      hs.recorded.apart ref record hrecord⟩, fun hover => ?_⟩
  · intro ref
    rw [Option.isSome_iff_exists, ← List.count_pos_iff]
    have hcallbacks : 0 < s.callbacks.countP (fun cb => cb.isHeld && cb.handler == ref) ↔
        ∃ cb ∈ s.callbacks, cb.isHeld = true ∧ cb.handler = ref := by
      rw [List.countP_pos_iff]
      simp only [Bool.and_eq_true, beq_iff_eq]
    rw [← hcallbacks]
    constructor
    · rintro ⟨object, hobject⟩
      have huses := hs.counted.uses ref object hobject
      have hused := hs.counted.used ref object hobject
      unfold shares users at huses
      simp only [reduceCtorEq, if_false] at huses
      omega
    · intro husers
      apply hs.counted.alive
      unfold users
      omega
  · intro ref hlt
    have hkept := hs.departing.kept ref hlt
    by_cases hmem : ref ∈ s.connections
    · exact .inl hmem
    · rw [List.count_eq_zero_of_not_mem hmem] at hkept
      have hgone : 0 < s.removed.countP fun entry => entry.1 == ref := by omega
      obtain ⟨entry, hentry, hself⟩ := List.countP_pos_iff.mp hgone
      obtain ⟨hown, hcompleted, -⟩ := hs.departing.removed entry hentry
      have hself := eq_of_beq hself
      have hentries : entry = (ref, ref) := Prod.ext hself (hown.symm.trans hself)
      exact .inr ⟨hentries ▸ hentry, hself ▸ hcompleted⟩
  · intro entry hentry
    obtain ⟨hown, -, hlt⟩ := hs.departing.removed entry hentry
    refine ⟨hown, fun hmem => ?_⟩
    have hkept := hs.departing.kept entry.1 hlt
    have hlisted := List.count_pos_iff.mpr hmem
    have hgone : 0 < s.removed.countP fun other => other.1 == entry.1 :=
      List.countP_pos_iff.mpr ⟨entry, hentry, beq_self_eq_true _⟩
    omega
  · have hlost : Keeps step (fun s op => s.Overlaps op = false)
        fun s => ∀ record ∈ s.lost, record.persistent.app = none := by
      intro s op hs hop record hrecord
      exact (lost_step hop record hrecord).elim (hs record) id
    exact hlost.run (fun _ hrecord => absurd hrecord List.not_mem_nil) hover

/-- A client comes, gets a record and goes, and the next handler gets the address. -/
theorem handlers_sound_reused :
    let gone : List HandlerOp := [.connect 16, .authenticated 0 default,
      .stateChanged 0 .disconnected, .resume ⟨0, .stateChange .disconnected⟩ false,
      .resume ⟨0, .handleDisconnect⟩ false, .runTask ⟨16, 0⟩, .connect 16]
    EachStep step Allows {} gone ∧ (run step {} gone).connections.Nodup := by
  intro gone
  have hallows : EachStep step Allows {} gone := by decide +kernel
  exact ⟨hallows, (handlers_sound hallows).2.2.1⟩

/-- A replay that waits while its handler is taken off the list. -/
example : (run step {} [.connect 16, .slowUpdate 0, .stateChanged 0 .disconnected,
    .resume ⟨0, .stateChange .disconnected⟩ false, .resume ⟨0, .handleDisconnect⟩ false,
    .runTask ⟨16, 0⟩, .resume ⟨0, .replay⟩ false]).faults = [⟨0, .replay⟩] := by
  decide +kernel

end Handlers

end LuxonServer
