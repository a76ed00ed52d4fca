import LuxonServer.Game.EventCache
import LuxonServer.Game.SetProperties
import LuxonServer.Game.Valid

/-! `broadcast_event`: whom an event goes to, and the packet of it that the event keeps for each
protocol. -/

namespace LuxonServer

/-- `ser::EventMessage`. -/
structure EventMessage where
  eventCode : UInt8
  parameters : List (UInt8 × Value)
  deriving DecidableEq, Repr

/-- What the packets take from the serialization layer: `Serialize` by `ProtocolImplID`, without
its error messages, and the number of the ids. -/
structure Serializer where
  serialize : Nat → EventMessage → Option (List UInt8)
  protocolCount : Nat

/-- An `Event` with its `cached_data`; an empty packet is none. -/
structure CachedEvent where
  event : Event
  cachedData : Nat → List UInt8 := fun _ => []

/-- One `send` of a broadcast, with the number of the actor that it is for. -/
structure Delivery where
  actorId : Int
  peer : PeerRef
  payload : List UInt8
  channel : UInt8
  mode : UInt8
  deriving DecidableEq, Repr

/-- `ReceiverGroup::Others`. -/
def othersGroup : UInt8 := 0

/-- `ReceiverGroup::All`. -/
def allGroup : UInt8 := 1

/-- `DictKeyCodes::GameAndActor::ActorNo`. -/
def actorNoParameter : UInt8 := 254

/-- `DictKeyCodes::RoutingAndEvents::Data`. -/
def dataParameter : UInt8 := 245

/-- `InterestGroups::test`. -/
def InterestGroups.test (group : UInt8) (groups : InterestGroups) : Bool :=
  group == 0 || groups.bitset.getLsbD group.toNat

/-- The default recipients of an event. -/
def Receivers.orDefault : Receivers → Receivers
  | .unset => .group othersGroup
  | receivers => receivers

namespace Event

/-- `parameters[key] = value`. -/
def setParameter (key : UInt8) (value : Value) (parameters : List (UInt8 × Value)) :
    List (UInt8 × Value) :=
  (key, value) :: parameters.filter fun p => p.1 != key

/-- The message that `get_cached_data` serializes. -/
def message (e : Event) : EventMessage where
  eventCode := e.code
  parameters :=
    let base := setParameter actorNoParameter (.int32 e.senderActorId) e.topParams
    if e.data ≠ .null then setParameter dataParameter e.data base else base

def delivery (e : Event) (gp : GamePeer) (peer : PeerRef) (payload : List UInt8) : Delivery where
  actorId := gp.actorId
  peer
  payload
  channel := e.channel
  mode := e.deliveryMode

end Event

namespace CachedEvent

variable (z : Serializer)

/-- `get_cached_data`; a packet of a protocol beyond the known ones is not kept. -/
def getCachedData (protocol : Nat) (e : CachedEvent) : Option (List UInt8) × CachedEvent :=
  if protocol < z.protocolCount ∧ e.cachedData protocol ≠ [] then
    (some (e.cachedData protocol), e)
  else
    match z.serialize protocol e.event.message with
    | none => (none, e)
    | some payload =>
      (some payload,
        if protocol < z.protocolCount then
          { e with cachedData := Function.update e.cachedData protocol payload }
        else e)

/-- The packet that a peer with the protocol is sent. -/
def payload (e : CachedEvent) (protocol : Nat) : Option (List UInt8) :=
  (e.getCachedData z protocol).1

variable {z} {e : CachedEvent}

@[simp] theorem event_getCachedData (protocol : Nat) :
    (e.getCachedData z protocol).2.event = e.event := by
  unfold getCachedData
  split
  · rfl
  · split
    · rfl
    · split <;> rfl

/-- A packet is what is kept, or else serialized from the event. -/
theorem payload_eq (protocol : Nat) : e.payload z protocol =
    if protocol < z.protocolCount ∧ e.cachedData protocol ≠ [] then some (e.cachedData protocol)
    else z.serialize protocol e.event.message := by
  unfold payload getCachedData
  split
  · rfl
  · cases z.serialize protocol e.event.message <;> rfl

/-- To keep a packet changes none. -/
theorem payload_getCachedData (protocol other : Nat) :
    (e.getCachedData z protocol).2.payload z other = e.payload z other := by
  rw [payload_eq, payload_eq, event_getCachedData]
  unfold getCachedData
  split
  · rfl
  · next hkept =>
    cases hserialize : z.serialize protocol e.event.message with
    | none => rfl
    | some packet =>
      simp only
      split
      · next hknown =>
        by_cases hother : other = protocol
        · subst hother
          simp only [Function.update_self]
          rw [if_neg hkept, hserialize]
          split
          · rfl
          · rfl
        · simp only [Function.update_of_ne hother]
      · rfl

end CachedEvent

namespace Game

variable (z : Serializer) (protocol : PeerRef → Nat) (h : PeerHeap)

/-- The peers that the loops of `broadcast_event` come to. -/
def recipients (e : Event) (g : Game) : List GamePeer :=
  let addressed :=
    match e.receivers with
    | .unset => []
    | .group code =>
      if code = masterClientGroup then (g.findActor g.masterActor).toList
      else g.peers.filter fun gp => !(code == othersGroup && gp.actorId == e.senderActorId)
    | .actors actorIds => actorIds.dedup.filterMap fun actorId => g.findActor actorId
  addressed.filter fun gp => gp.interestGroups.test e.interestGroup

/-- `dispatch`. -/
def dispatch (st : CachedEvent × List Delivery) (gp : GamePeer) : CachedEvent × List Delivery :=
  match h.lock gp.peer with
  | none => st
  | some peer =>
    let (packet, e) := st.1.getCachedData z (protocol peer)
    (e, st.2 ++ (packet.map (e.event.delivery gp peer)).toList)

/-- `broadcast_event`. -/
def broadcastEvent (e : CachedEvent) (g : Game) : CachedEvent × List Delivery :=
  let e := { e with event := { e.event with receivers := e.event.receivers.orDefault } }
  (g.recipients e.event).foldl (dispatch z protocol h) (e, [])

variable {z protocol h}

/-- What one peer is sent: nothing when it is gone, or when its packet cannot be built. -/
def sent (z : Serializer) (protocol : PeerRef → Nat) (h : PeerHeap) (e : CachedEvent)
    (gp : GamePeer) : Option Delivery :=
  (h.lock gp.peer).bind fun peer => (e.payload z (protocol peer)).map (e.event.delivery gp peer)

theorem event_dispatch (st : CachedEvent × List Delivery) (gp : GamePeer) :
    (dispatch z protocol h st gp).1.event = st.1.event := by
  unfold dispatch
  split
  · rfl
  · exact CachedEvent.event_getCachedData _

theorem payload_dispatch (st : CachedEvent × List Delivery) (gp : GamePeer) (other : Nat) :
    (dispatch z protocol h st gp).1.payload z other = st.1.payload z other := by
  unfold dispatch
  split
  · rfl
  · exact CachedEvent.payload_getCachedData _ _

/-- The loop sends every peer what it would be sent at the start. -/
theorem deliveries_foldl (peers : List GamePeer) (st : CachedEvent × List Delivery) :
    (peers.foldl (dispatch z protocol h) st).2 =
      st.2 ++ peers.filterMap (sent z protocol h st.1) := by
  induction peers generalizing st with
  | nil => simp
  | cons gp peers ih =>
    have hsame : sent z protocol h (dispatch z protocol h st gp).1 = sent z protocol h st.1 := by
      funext other
      simp only [sent, payload_dispatch, event_dispatch]
    have hfirst : (dispatch z protocol h st gp).2 =
        st.2 ++ (sent z protocol h st.1 gp).toList := by
      unfold dispatch sent
      cases h.lock gp.peer with
      | none => simp
      | some peer =>
        simp only [Option.bind_some, CachedEvent.event_getCachedData]
        rfl
    rw [List.foldl_cons, ih, hsame, hfirst, List.append_assoc]
    congr 1
    cases hsent : sent z protocol h st.1 gp with
    | none => simp [hsent]
    | some delivery => simp [hsent]

theorem deliveries_broadcastEvent (e : CachedEvent) (g : Game) :
    (g.broadcastEvent z protocol h e).2 =
      (g.recipients { e.event with receivers := e.event.receivers.orDefault }).filterMap
        (sent z protocol h e) := by
  have hsame (receivers : Receivers) :
      sent z protocol h { e with event := { e.event with receivers } } = sent z protocol h e := by
    funext gp
    unfold sent
    simp only [CachedEvent.payload_eq]
    rfl
  unfold broadcastEvent
  simp only
  rw [deliveries_foldl, List.nil_append, hsame]

/-- Whether the receivers of an event that `sender` raises include a peer; every group code other
than the two that leave peers out is `All`. -/
def Addresses (receivers : Receivers) (sender : Int) (g : Game) (gp : GamePeer) : Prop :=
  match receivers with
  | .unset => gp.actorId ≠ sender
  | .group code =>
    if code = masterClientGroup then gp.actorId = g.masterActor
    else code = othersGroup → gp.actorId ≠ sender
  | .actors actorIds => gp.actorId ∈ actorIds

instance (receivers : Receivers) (sender : Int) (g : Game) (gp : GamePeer) :
    Decidable (Addresses receivers sender g gp) := by
  unfold Addresses
  split <;> infer_instance

/-- The interest group of an event reaches a peer. -/
def Reaches (e : Event) (gp : GamePeer) : Prop :=
  e.interestGroup = 0 ∨ gp.interestGroups.bitset.getLsbD e.interestGroup.toNat = true

instance (e : Event) (gp : GamePeer) : Decidable (Reaches e gp) :=
  inferInstanceAs (Decidable (_ ∨ _))

/-- The event goes to a peer. -/
def Selected (e : Event) (g : Game) (gp : GamePeer) : Prop :=
  Addresses e.receivers e.senderActorId g gp ∧ Reaches e gp

instance (e : Event) (g : Game) (gp : GamePeer) : Decidable (Selected e g gp) :=
  inferInstanceAs (Decidable (_ ∧ _))

theorem test_iff (e : Event) (gp : GamePeer) :
    gp.interestGroups.test e.interestGroup = true ↔ Reaches e gp := by
  simp [InterestGroups.test, Reaches]

section Recipients

variable {g : Game} {e : Event}

theorem addresses_orDefault (receivers : Receivers) (sender : Int) (gp : GamePeer) :
    Addresses receivers.orDefault sender g gp ↔ Addresses receivers sender g gp := by
  cases receivers with
  | unset => simp [Receivers.orDefault, Addresses, othersGroup, masterClientGroup]
  | _ => rfl

theorem findActor_eq_some (hg : g.ActorsSound) {actorId : Int} {gp : GamePeer} :
    g.findActor actorId = some gp ↔ gp ∈ g.peers ∧ gp.actorId = actorId := by
  constructor
  · intro hfind
    have hfound := List.find?_some hfind
    exact ⟨List.mem_of_find?_eq_some hfind, by simpa using (Bool.and_eq_true_iff.mp hfound).2⟩
  · rintro ⟨hgp, rfl⟩
    exact hg.findActor_of_mem hgp

/-- The loops come to the peers that the event is for. -/
theorem mem_recipients (hg : g.ActorsSound) {gp : GamePeer} :
    gp ∈ g.recipients { e with receivers := e.receivers.orDefault } ↔
      gp ∈ g.peers ∧ Selected e g gp := by
  unfold recipients Selected
  rw [← addresses_orDefault, List.mem_filter, test_iff, ← and_assoc]
  refine and_congr ?_ Iff.rfl
  unfold Addresses
  cases hreceivers : e.receivers.orDefault with
  | unset => exact absurd hreceivers (by cases e.receivers <;> simp [Receivers.orDefault])
  | group code =>
    by_cases hmaster : code = masterClientGroup
    · simp only [hmaster, if_true, Option.mem_toList, findActor_eq_some hg]
    · simp only [hmaster, if_false, List.mem_filter, Bool.not_eq_true', Bool.and_eq_false_imp,
        beq_iff_eq, beq_eq_false_iff_ne, ne_eq]
  | actors actorIds =>
    simp only [List.mem_filterMap, List.mem_dedup, findActor_eq_some hg]
    constructor
    · rintro ⟨_, hmem, hgp, rfl⟩
      exact ⟨hgp, hmem⟩
    · rintro ⟨hgp, hmem⟩
      exact ⟨_, hmem, hgp, rfl⟩

/-- They come to a peer once. -/
theorem nodup_recipients (hg : g.ActorsSound) : (g.recipients e).Nodup := by
  unfold recipients
  refine List.Nodup.filter _ ?_
  cases e.receivers with
  | unset => exact List.nodup_nil
  | group code =>
    simp only
    split
    · cases g.findActor g.masterActor with
      | none => exact List.nodup_nil
      | some gp => exact List.nodup_singleton gp
    · exact (List.Nodup.of_map _ hg.distinct).filter _
  | actors actorIds =>
    refine List.Nodup.filterMap ?_ (List.nodup_dedup _)
    intro a a' gp ha ha'
    rw [← ((findActor_eq_some hg).mp ha).2, ← ((findActor_eq_some hg).mp ha').2]

variable (z protocol) in
/-- What a connected actor is sent: the packet, once, if the event is for it. -/
theorem deliveries_to (hg : g.ActorsSound) (e : CachedEvent) {gp : GamePeer} (hgp : gp ∈ g.peers)
    {peer : PeerRef} (hpeer : h.lock gp.peer = some peer) :
    (g.broadcastEvent z protocol h e).2.filter (fun d => d.actorId = gp.actorId) =
      if Selected e.event g gp then
        ((e.payload z (protocol peer)).map (e.event.delivery gp peer)).toList
      else [] := by
  have hkey : ∀ gp d, sent z protocol h e gp = some d → d.actorId = gp.actorId := by
    intro gp d hd
    obtain ⟨peer, -, hd⟩ := Option.bind_eq_some_iff.mp hd
    obtain ⟨packet, -, rfl⟩ := Option.map_eq_some_iff.mp hd
    rfl
  have honly : ∀ other ∈ g.recipients { e.event with receivers := e.event.receivers.orDefault },
      other.actorId = gp.actorId → other = gp := fun other hother heq =>
    List.inj_on_of_nodup_map hg.distinct ((mem_recipients hg).mp hother).1 hgp heq
  rw [deliveries_broadcastEvent]
  split
  · next hselected =>
    rw [List.filter_filterMap_of_mem hkey honly (nodup_recipients hg)
      ((mem_recipients hg).mpr ⟨hgp, hselected⟩), sent, hpeer, Option.bind_some]
  · next hselected =>
    refine List.filter_filterMap_of_forall_ne hkey fun other hother heq => hselected ?_
    obtain rfl := honly other hother heq
    exact ((mem_recipients hg).mp hother).2

/-- Whatever is sent goes to a connected actor of the room. -/
theorem deliveries_connected (hg : g.ActorsSound) (e : CachedEvent) {d : Delivery}
    (hd : d ∈ (g.broadcastEvent z protocol h e).2) :
    ∃ gp ∈ g.peers, gp.active = true ∧ gp.actorId = d.actorId ∧ h.lock gp.peer = some d.peer := by
  rw [deliveries_broadcastEvent] at hd
  obtain ⟨gp, hgp, hd⟩ := List.mem_filterMap.mp hd
  obtain ⟨peer, hpeer, hd⟩ := Option.bind_eq_some_iff.mp hd
  obtain ⟨packet, -, rfl⟩ := Option.map_eq_some_iff.mp hd
  have hmem := ((mem_recipients hg).mp hgp).1
  exact ⟨gp, hmem, hg.active gp hmem, rfl, hpeer⟩

end Recipients

end Game

namespace Room

/-- A connected actor of a room is sent an event once if it is for it, and otherwise not at all. -/
theorem broadcastEvent_delivers {settings : AppSettings} {s : Room} (hs : Reachable settings s)
    (z : Serializer) (protocol : PeerRef → Nat) (e : CachedEvent) :
    (∀ gp ∈ s.game.peers, ∀ peer, s.heap.lock gp.peer = some peer →
      (s.game.broadcastEvent z protocol s.heap e).2.filter (fun d => d.actorId = gp.actorId) =
        if Game.Selected e.event s.game gp then
          ((e.payload z (protocol peer)).map (e.event.delivery gp peer)).toList
        else []) ∧
    ∀ d ∈ (s.game.broadcastEvent z protocol s.heap e).2, ∃ gp ∈ s.game.peers,
      gp.active = true ∧ gp.actorId = d.actorId ∧ s.heap.lock gp.peer = some d.peer :=
  ⟨fun _ hgp _ hpeer => Game.deliveries_to z protocol hs.valid.actors e hgp hpeer,
    fun _ hd => Game.deliveries_connected hs.valid.actors e hd⟩

/-- A serialization layer that writes the code of the event and the number of its parameters. -/
def countingSerializer : Serializer where
  serialize _ m := some [243, 4, m.eventCode, 0, UInt8.ofNat m.parameters.length]
  protocolCount := 3

theorem reachable_adas : Reachable {} adas := reachable_run _ _

/-- An event of Ada's to a group. -/
def adasEvent (group : UInt8) : CachedEvent where
  event := { code := 1, senderActorId := 1, receivers := .group group }

/-- Ada is alone in her room and is sent her own event when it goes to all. -/
theorem broadcastEvent_delivers_adas :
    (adas.game.broadcastEvent countingSerializer (fun _ => 0) adas.heap (adasEvent allGroup)).2.filter
      (fun d => d.actorId = 1) = [⟨1, 1, [243, 4, 1, 0, 1], 0, 1⟩] := by
  obtain ⟨gp, hgp, hid, hpeer, hselected⟩ : ∃ gp ∈ adas.game.peers, gp.actorId = 1 ∧
      adas.heap.lock gp.peer = some 1 ∧ Game.Selected (adasEvent allGroup).event adas.game gp :=
    ⟨_, List.mem_cons_self, rfl, rfl, by decide⟩
  have hdelivers := (broadcastEvent_delivers reachable_adas countingSerializer (fun _ => 0)
    (adasEvent allGroup)).1 gp hgp 1 hpeer
  rw [hid, if_pos hselected] at hdelivers
  have hdelivery : (adasEvent allGroup).event.delivery gp 1 = fun packet => ⟨1, 1, packet, 0, 1⟩ := by
    funext packet
    unfold Event.delivery
    rw [hid]
    rfl
  rw [hdelivers, hdelivery]
  decide

/-- A group code that names none of the three groups goes to all. -/
theorem broadcastEvent_unnamed_group :
    (3 ≠ othersGroup ∧ 3 ≠ allGroup ∧ 3 ≠ masterClientGroup) ∧
      (adas.game.broadcastEvent countingSerializer (fun _ => 0) adas.heap (adasEvent 3)).2 =
        [⟨1, 1, [243, 4, 1, 0, 1], 0, 1⟩] := by
  decide

end Room

end LuxonServer
