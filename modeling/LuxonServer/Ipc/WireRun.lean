import LuxonServer.Ipc.Separation
import LuxonServer.Ipc.Wire
import LuxonServer.Lib.Simulation
import LuxonServer.SingleUse

/-! Networks of processes that exchange events: they go through the same states as those that
exchange the messages themselves. -/

namespace LuxonServer

/-- An event that is read as a message. -/
def IpcEvent.Denotes (event : IpcEvent) (m : TokenMessage) : Prop := event.message = some (.token m)

namespace TokenStore

/-- `process_ipc_event`, as far as it concerns the tokens. -/
def receiveEvent (event : IpcEvent) (ts : TokenStore) : TokenStore :=
  match event.message with
  | some (.token m) => ts.receive m
  | _ => ts

/-- What `load_persistent_peer` broadcasts. -/
def loadEvents (token : String) (ts : TokenStore) : List IpcEvent :=
  ((ts.stored.find? fun pp => pp.token == token).map PeerPersistent.consumeEvent).toList

theorem receiveEvent_of_denotes {event : IpcEvent} {m : TokenMessage} (ts : TokenStore)
    (hm : event.Denotes m) : ts.receiveEvent event = ts.receive m := by
  unfold IpcEvent.Denotes at hm
  rw [receiveEvent, hm]

theorem denotes_loadEvents (token : String) (fresh : Option String) (ts : TokenStore)
    (hfits : ∀ pp ∈ ts.stored, pp.storeGeneration < 2 ^ 63) :
    List.Forall₂ IpcEvent.Denotes (ts.loadEvents token)
      (ts.loadPersistentPeer token fresh).2.2 := by
  unfold loadEvents loadPersistentPeer
  cases hfind : ts.stored.find? fun pp => pp.token == token with
  | none => exact .nil
  | some pp =>
    exact .cons (message_consumeEvent (hfits pp (List.mem_of_find?_eq_some hfind))) .nil

/-- The generations that a process has given its records, and the next one, are at most `k`. -/
structure Counted (k : Nat) (ts : TokenStore) : Prop where
  next : ts.nextStoreGeneration ≤ k
  stored : ∀ pp ∈ ts.stored, pp.storeGeneration ≤ k

namespace Counted

variable {k : Nat} {ts : TokenStore}

theorem mono (hts : ts.Counted k) : ts.Counted (k + 1) where
  next := Nat.le_succ_of_le hts.next
  stored pp hpp := Nat.le_succ_of_le (hts.stored pp hpp)

theorem storePersistentPeer (hts : ts.Counted k) (pp : PeerPersistent) :
    (ts.storePersistentPeer pp).Counted (k + 1) := by
  unfold TokenStore.storePersistentPeer
  split
  · exact hts.mono
  · refine ⟨Nat.succ_le_succ hts.next, fun value hvalue => ?_⟩
    rcases List.mem_append.mp hvalue with hold | hnew
    · exact Nat.le_succ_of_le (hts.stored value (List.mem_of_mem_filter hold))
    · rw [List.mem_singleton.mp hnew]
      exact Nat.succ_le_succ hts.next

theorem receive (hts : ts.Counted k) (m : TokenMessage) : (ts.receive m).Counted (k + 1) := by
  cases m with
  | store token userId playerTtl revision info =>
    unfold TokenStore.receive
    simp only
    split
    · exact hts.mono
    · split
      · exact hts.storePersistentPeer _
      · exact hts.mono
  | consume token revision =>
    exact ⟨hts.mono.next, fun pp hpp => hts.mono.stored pp (List.mem_of_mem_filter hpp)⟩

theorem loadPersistentPeer (hts : ts.Counted k) (token : String) (fresh : Option String) :
    (ts.loadPersistentPeer token fresh).2.1.Counted (k + 1) := by
  unfold TokenStore.loadPersistentPeer
  split
  · exact hts.mono
  · exact ⟨hts.mono.next, fun pp hpp => hts.mono.stored pp (List.mem_of_mem_eraseP hpp)⟩

theorem expire (hts : ts.Counted k) (task : RecordExpiry) : (ts.expire task).Counted (k + 1) := by
  unfold TokenStore.expire
  split
  · exact ⟨hts.mono.next, fun pp hpp => hts.mono.stored pp (List.mem_of_mem_filter hpp)⟩
  · exact hts.mono

end Counted

end TokenStore

namespace TokenOp

variable {ν : Type*} [DecidableEq ν]

/-- A step of processes that exchange events. -/
def wireStep (linked : ν → ν → Bool) (net : Network ν TokenStore IpcEvent) :
    TokenOp ν → Network ν TokenStore IpcEvent
  | .store n pp => net.modify n fun ts => ts.storePersistentPeer pp
  | .sync n pp => net.broadcast linked n pp.storeEvent
  | .load n token fresh =>
    let (_, ts, _) := (net.node n).loadPersistentPeer token fresh
    ((net.node n).loadEvents token).foldl (fun net event => net.broadcast linked n event)
      (net.modify n fun _ => ts)
  | .deliver a b => net.deliver TokenStore.receiveEvent a b
  | .expire n task => net.modify n fun ts => ts.expire task

/-- The generations of the records that the processes have loaded. -/
def learns (net : Network ν TokenStore TokenMessage) (loaded : ν → List Nat) :
    TokenOp ν → ν → List Nat
  | .load n token fresh =>
    Function.update loaded n (loaded n ++
      ((net.node n).loadPersistentPeer token fresh).1.toList.map (·.storeGeneration))
  | _ => loaded

/-- A step, with what the processes have loaded. -/
def learningStep (linked : ν → ν → Bool)
    (s : Network ν TokenStore TokenMessage × (ν → List Nat)) (op : TokenOp ν) :
    Network ν TokenStore TokenMessage × (ν → List Nat) :=
  (step linked s.1 op, learns s.1 s.2 op)

/-- A record that a process syncs is one that it has loaded, or a new one, which has no generation
yet. -/
def SyncsOwn (s : Network ν TokenStore TokenMessage × (ν → List Nat)) : TokenOp ν → Prop
  | .sync n pp => pp.storeGeneration = 0 ∨ pp.storeGeneration ∈ s.2 n
  | _ => True

instance SyncsOwn.decidable (s : Network ν TokenStore TokenMessage × (ν → List Nat)) :
    ∀ op, Decidable (SyncsOwn s op)
  | .sync n pp =>
    inferInstanceAs (Decidable (pp.storeGeneration = 0 ∨ pp.storeGeneration ∈ s.2 n))
  | .store _ _ | .load _ _ _ | .deliver _ _ | .expire _ _ => .isTrue trivial

/-- The generations that the step sends fit into the signed type. -/
def Fits (net : Network ν TokenStore TokenMessage) : TokenOp ν → Prop
  | .sync _ pp => pp.storeGeneration < 2 ^ 63
  | .load n _ _ => ∀ pp ∈ (net.node n).stored, pp.storeGeneration < 2 ^ 63
  | _ => True

variable {linked : ν → ν → Bool} {net : Network ν TokenStore TokenMessage}
  {wire : Network ν TokenStore IpcEvent}

theorem related_step (hrel : Network.Related IpcEvent.Denotes wire net) {op : TokenOp ν}
    (hfits : Fits net op) :
    Network.Related IpcEvent.Denotes (wireStep linked wire op) (step linked net op) := by
  cases op with
  | store n pp => exact hrel.modify n (by rw [hrel.node])
  | sync n pp => exact hrel.broadcast linked n (message_storeEvent hfits)
  | load n token fresh =>
    unfold wireStep step
    simp only
    rw [hrel.node]
    exact (hrel.modify n rfl).broadcasts linked n
      (TokenStore.denotes_loadEvents token fresh _ hfits)
  | deliver a b =>
    exact hrel.deliver (fun event m ts hm => TokenStore.receiveEvent_of_denotes ts hm) a b
  | expire n task => exact hrel.modify n (by rw [hrel.node])

/-- No process gives more generations than there are steps. -/
theorem counted_step {k : Nat} (hnet : ∀ n, (net.node n).Counted k) (op : TokenOp ν) (n : ν) :
    ((step linked net op).node n).Counted (k + 1) := by
  have hmodify : ∀ (a : ν) (change : TokenStore → TokenStore),
      (change (net.node a)).Counted (k + 1) → ((net.modify a change).node n).Counted (k + 1) := by
    intro a change hchange
    rw [Network.node_modify]
    split
    · exact hchange
    · exact (hnet n).mono
  cases op with
  | store a pp => exact hmodify a _ ((hnet a).storePersistentPeer pp)
  | sync a pp => exact (hnet n).mono
  | load a token fresh =>
    have hfold : ∀ (ms : List TokenMessage) (net : Network ν TokenStore TokenMessage),
        (ms.foldl (fun net m => net.broadcast linked a m) net).node = net.node := by
      intro ms
      induction ms with
      | nil => exact fun _ => rfl
      | cons m ms ih => exact fun net => ih _
    unfold step
    simp only
    rw [hfold]
    exact hmodify a _ ((hnet a).loadPersistentPeer token fresh)
  | deliver a b =>
    unfold step Network.deliver
    simp only
    split
    · exact (hnet n).mono
    · next m _ _ =>
      rw [Network.node_modify]
      split
      · exact (hnet b).receive m
      · exact (hnet n).mono
  | expire a task => exact hmodify a _ ((hnet a).expire task)

theorem learns_le {k : Nat} (hnet : ∀ n, (net.node n).Counted k) {loaded : ν → List Nat}
    (hloaded : ∀ n, ∀ generation ∈ loaded n, generation ≤ k) (op : TokenOp ν) (n : ν) :
    ∀ generation ∈ learns net loaded op n, generation ≤ k + 1 := by
  intro generation hgeneration
  cases op with
  | load a token fresh =>
    simp only [learns, Function.update_apply] at hgeneration
    split at hgeneration
    · rcases List.mem_append.mp hgeneration with hold | hnew
      · exact Nat.le_succ_of_le (hloaded a generation hold)
      · obtain ⟨pp, hpp, rfl⟩ := List.mem_map.mp hnew
        unfold TokenStore.loadPersistentPeer at hpp
        split at hpp
        · cases hpp
        · next found hfind =>
          rw [List.mem_singleton.mp hpp]
          exact Nat.le_succ_of_le ((hnet a).stored found (List.mem_of_find?_eq_some hfind))
    · exact Nat.le_succ_of_le (hloaded n generation hgeneration)
  | _ => exact Nat.le_succ_of_le (hloaded n generation hgeneration)

theorem eachStep_fits {k : Nat} (hnet : ∀ n, (net.node n).Counted k) {loaded : ν → List Nat}
    (hloaded : ∀ n, ∀ generation ∈ loaded n, generation ≤ k) {ops : List (TokenOp ν)}
    (hlength : k + ops.length ≤ 2 ^ 63)
    (hsync : Transition.EachStep (learningStep linked) SyncsOwn (net, loaded) ops) :
    Transition.EachStep (step linked) Fits net ops := by
  induction ops generalizing net loaded k with
  | nil => trivial
  | cons op ops ih =>
    rw [List.length_cons] at hlength
    obtain ⟨hop, hrest⟩ := hsync
    refine ⟨?_, ih (counted_step hnet op) (learns_le hnet hloaded op) (by omega) hrest⟩
    cases op with
    | sync n pp =>
      show pp.storeGeneration < 2 ^ 63
      rcases hop with hnew | hold
      · omega
      · have hle := hloaded n pp.storeGeneration hold
        omega
    | load n token fresh =>
      intro pp hpp
      have hle := (hnet n).stored pp hpp
      omega
    | _ => trivial

/-- Processes that have just started, sync the records that they have made or loaded, and exchange
events, go through the states of processes that exchange the messages, and each event on its way is
read as the message in its place. -/
theorem tokens_over_events {ops : List (TokenOp ν)} (hnew : ∀ n, (net.node n).Counted 0)
    (hquiet : net.Quiet) (hlength : ops.length ≤ 2 ^ 63)
    (hsync : Transition.EachStep (learningStep linked) SyncsOwn (net, fun _ => []) ops) :
    Network.Related IpcEvent.Denotes
      (Transition.run (wireStep linked) ⟨net.node, fun _ _ => []⟩ ops)
      (Transition.run (step linked) net ops) := by
  have hstart : Network.Related IpcEvent.Denotes ⟨net.node, fun _ _ => []⟩ net := by
    refine ⟨rfl, fun a b => ?_⟩
    rw [hquiet a b]
    exact .nil
  have hnone : ∀ n : ν, ∀ generation ∈ (fun _ => [] : ν → List Nat) n, generation ≤ 0 :=
    fun _ _ hmem => absurd hmem List.not_mem_nil
  refine Transition.run_related ?_ hstart (eachStep_fits hnew hnone (by omega) hsync)
  exact fun wire net op hrel hfits => related_step hrel hfits

/-- The parent hands a token over to its child, in events. -/
theorem tokens_over_events_handOver :
    let net : Network (Option Unit) TokenStore TokenMessage := ⟨fun _ => {}, fun _ _ => []⟩
    Network.Related IpcEvent.Denotes
      (Transition.run (wireStep starLinked) ⟨net.node, fun _ _ => []⟩ TokenHistory.handOver)
      (Transition.run (step starLinked) net TokenHistory.handOver) := by
  intro net
  exact tokens_over_events (fun n => ⟨le_rfl, fun pp hpp => absurd hpp List.not_mem_nil⟩)
    (fun _ _ => rfl) (by decide) (by decide)

end TokenOp

/-- The event of a message about a room. -/
def IpcMessage.roomEvent : IpcMessage → Option IpcEvent
  | .gameUpdate m => some m.event
  | .gameDelete info => some ⟨IpcEventCode.gameDelete.code, info.addGameInfo ∅⟩
  | .token _ => none

/-- A message about a room whose revision fits into the signed type. -/
def IpcMessage.Fits : IpcMessage → Prop
  | .gameUpdate m => ∀ revision ∈ m.revision, -2 ^ 63 ≤ revision ∧ revision < 2 ^ 63
  | .gameDelete _ => True
  | .token _ => False

instance IpcMessage.Fits.decidable : ∀ message : IpcMessage, Decidable message.Fits
  | .gameUpdate _ => inferInstanceAs (Decidable (∀ _ ∈ _, _ ∧ _))
  | .gameDelete _ => .isTrue trivial
  | .token _ => .isFalse id

theorem IpcMessage.exists_roomEvent {message : IpcMessage} (hfits : message.Fits) :
    ∃ event, message.roomEvent = some event ∧ event.message = some message := by
  cases message with
  | gameUpdate m =>
    refine ⟨m.event, rfl, ?_⟩
    have hrevision : m.revision.map (fun revision => revision.bmod (2 ^ 64)) = m.revision := by
      cases hm : m.revision with
      | none => rfl
      | some revision =>
        obtain ⟨hlow, hhigh⟩ := hfits revision hm
        rw [Option.map_some, Int.bmod_eq_of_le] <;> omega
    rw [message_event, hrevision]
  | gameDelete info => exact ⟨_, rfl, message_gameDelete info⟩
  | token m => exact hfits.elim

/-- An event on its way, with the owner that a `Parcel` has. -/
structure EventParcel where
  owner : Node
  event : IpcEvent

/-- The event is read as the message of the parcel. -/
def EventParcel.Denotes (sent : EventParcel) (parcel : Parcel) : Prop :=
  sent.owner = parcel.owner ∧ sent.event.message = some parcel.message

namespace Site

/-- What a process sends is written as events. -/
def write (sent : List (Node × Parcel)) : List (Node × EventParcel) :=
  sent.filterMap fun entry =>
    entry.2.message.roomEvent.map fun event => (entry.1, ⟨entry.2.owner, event⟩)

/-- An event arrives from `sender`. -/
def receiveEvent (sender : Node) (parcel : EventParcel) (released : Bool) (site : Site) :
    Site × List (Node × EventParcel) :=
  match parcel.event.message with
  | none => (site, [])
  | some message =>
    let (site, sent) := site.receive sender ⟨parcel.owner, message⟩ released
    (site, write sent)

theorem denotes_write {sent : List (Node × Parcel)}
    (hfits : ∀ entry ∈ sent, entry.2.message.Fits) :
    List.Forall₂ (fun entry entry' => entry.1 = entry'.1 ∧ entry.2.Denotes entry'.2)
      (write sent) sent := by
  induction sent with
  | nil => exact .nil
  | cons entry sent ih =>
    obtain ⟨event, hevent, hmessage⟩ :=
      IpcMessage.exists_roomEvent (hfits entry List.mem_cons_self)
    have hwritten : write (entry :: sent) =
        (entry.1, ⟨entry.2.owner, event⟩) :: write sent := by
      rw [write, List.filterMap_cons_some (by rw [hevent, Option.map_some]), write]
    rw [hwritten]
    exact .cons ⟨rfl, rfl, hmessage⟩
      (ih fun entry hentry => hfits entry (List.mem_cons_of_mem _ hentry))

end Site

namespace Star

/-- A process changes and sends events. -/
def wireAct (node : Node) (change : Site → Site × List (Node × EventParcel))
    (s : Network Node Site EventParcel) : Network Node Site EventParcel :=
  (s.modify node fun site => (change site).1).post node (change (s.node node)).2

/-- A step of processes that exchange events. -/
def wireStep (s : Network Node Site EventParcel) : StarOp → Network Node Site EventParcel
  | .deliver sender receiver released =>
    match s.queue sender receiver with
    | [] => s
    | parcel :: _ =>
      wireAct receiver (Site.receiveEvent sender parcel released) (s.advance sender receiver)
  | .act node op =>
    wireAct node (fun site => ((site.perform node op).1, Site.write (site.perform node op).2)) s

/-- What a step sends. -/
def sent (s : Star) : StarOp → List (Node × Parcel)
  | .deliver sender receiver released =>
    match s.queue sender receiver with
    | [] => []
    | parcel :: _ => (Site.receive sender parcel released (s.node receiver)).2
  | .act node op => ((s.node node).perform node op).2

/-- What the step sends fits into events. -/
def Fits (s : Star) (op : StarOp) : Prop := ∀ entry ∈ s.sent op, entry.2.message.Fits

instance (s : Star) (op : StarOp) : Decidable (s.Fits op) :=
  inferInstanceAs (Decidable (∀ _ ∈ _, _))

variable {s : Star} {wire : Network Node Site EventParcel}

theorem related_act (hrel : Network.Related EventParcel.Denotes wire s) {node : Node}
    {change : Site → Site × List (Node × Parcel)}
    {written : Site → Site × List (Node × EventParcel)}
    (hwritten : ∀ site, written site = ((change site).1, Site.write (change site).2))
    (hfits : ∀ entry ∈ (change (s.node node)).2, entry.2.message.Fits) :
    Network.Related EventParcel.Denotes (wireAct node written wire) (s.act node change) := by
  unfold wireAct act
  rw [hwritten, hrel.node]
  exact (hrel.modify node (by rw [hwritten, hrel.node])).post node (Site.denotes_write hfits)

theorem related_step (hrel : Network.Related EventParcel.Denotes wire s) {op : StarOp}
    (hfits : s.Fits op) :
    Network.Related EventParcel.Denotes (wireStep wire op) (step s op) := by
  cases op with
  | deliver sender receiver released =>
    have hqueue := hrel.queue sender receiver
    unfold Fits sent at hfits
    unfold wireStep step
    simp only at hfits ⊢
    cases hs : s.queue sender receiver with
    | nil =>
      rw [hs, List.forall₂_nil_right_iff] at hqueue
      rw [hqueue]
      exact hrel
    | cons parcel rest =>
      rw [hs] at hqueue hfits
      obtain ⟨event, rest', ⟨howner, hmessage⟩, -, hwire⟩ := List.forall₂_cons_right_iff.mp hqueue
      rw [hwire]
      refine related_act (hrel.advance sender receiver) (fun site => ?_) hfits
      rw [Site.receiveEvent, hmessage, howner]
  | act node op => exact related_act hrel (fun site => rfl) hfits

/-- A star of processes that exchange events goes through the states of one that exchanges the
messages, and each event on its way is read as the message in its place. -/
theorem rooms_over_events {ops : List StarOp} (hquiet : s.Quiet)
    (hfits : Transition.EachStep step Fits s ops) :
    Network.Related EventParcel.Denotes (Transition.run wireStep ⟨s.node, fun _ _ => []⟩ ops)
      (Transition.run step s ops) := by
  have hstart : Network.Related EventParcel.Denotes ⟨s.node, fun _ _ => []⟩ s := by
    refine ⟨rfl, fun a b => ?_⟩
    rw [hquiet a b]
    exact .nil
  refine Transition.run_related ?_ hstart hfits
  exact fun wire s op hrel hfits => related_step hrel hfits

/-- Ada's room, from her server to the other one. -/
theorem rooms_over_events_entered :
    let ops := enters 5056 "ada" ++
      [.deliver (some 5056) none false, .deliver none (some 5057) false]
    Network.Related EventParcel.Denotes
      (Transition.run wireStep ⟨twoServers.node, fun _ _ => []⟩ ops)
      (Transition.run step twoServers ops) :=
  rooms_over_events (fun _ _ => rfl) (by decide +kernel)

end Star

end LuxonServer
