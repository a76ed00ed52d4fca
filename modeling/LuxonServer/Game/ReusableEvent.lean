import LuxonServer.Lib.Run
import LuxonServer.Game.Delivery

/-! An event that a plugin keeps and broadcasts again and again through the FFI: the setters change
its fields, and leave the packets that earlier broadcasts have built. -/

namespace LuxonServer

/-- The receivers that a plugin has set last. -/
inductive Audience where
  /-- No call has set any. -/
  | default
  | all
  | group (receiverGroup : UInt8)
  | actors (actorIds : List Int)
  deriving DecidableEq, Repr

/-- A room that the operations of its process have made. -/
structure LiveRoom (settings : AppSettings) where
  room : Room
  reachable : Room.Reachable settings room

/-- The calls on an event handle.  Where a pointer may be null, or the value may not be a
dictionary, `none` stands for that. -/
inductive EventCall (settings : AppSettings) where
  /-- `eventSetRoutingMetadata`. -/
  | setRoutingMetadata (code : UInt8) (senderActorId : Int) (deliveryMode channel
      interestGroup : UInt8)
  /-- `eventSetReceiversAll`. -/
  | setReceiversAll
  /-- `eventSetReceiversGroup`. -/
  | setReceiversGroup (group : UInt8)
  /-- `eventSetReceiversActors`. -/
  | setReceiversActors (actorIds : Option (List Int))
  /-- `eventSetData`. -/
  | setData (data : Option Value)
  /-- `eventSetTopParams`. -/
  | setTopParams (topParams : Option (List (UInt8 × Value)))
  /-- `gameBroadcastEvent` to a room whose connections have the protocols. -/
  | broadcast (target : LiveRoom settings) (protocol : PeerRef → Nat)

/-- An event handle, with a record of what the plugin has asked for: the receivers, and the message
that the packet of a protocol was built from. -/
structure EventHandle where
  event : CachedEvent
  audience : Audience := .default
  builtFrom : Nat → Option EventMessage := fun _ => none

/-- `createEvent`. -/
def EventHandle.create : EventHandle where
  event := { event := { code := 0, senderActorId := 0 } }

namespace Audience

/-- Whether the plugin means a peer. -/
def Means (audience : Audience) (sender : Int) (g : Game) (gp : GamePeer) : Prop :=
  match audience with
  | .default => Game.Addresses .unset sender g gp
  | .all => True
  | .group code => Game.Addresses (.group code) sender g gp
  | .actors actorIds => Game.Addresses (.actors actorIds) sender g gp

instance (audience : Audience) (sender : Int) (g : Game) (gp : GamePeer) :
    Decidable (audience.Means sender g gp) := by
  unfold Means
  split <;> infer_instance

end Audience

namespace EventHandle

variable {settings : AppSettings} (z : Serializer)

/-- Changes the fields of the event. -/
def modify (change : Event → Event) (e : EventHandle) : EventHandle :=
  { e with event := { e.event with event := change e.event.event } }

/-- The record of the messages after a broadcast that has left `event`. -/
def recordBuilt (e : EventHandle) (event : CachedEvent) (protocol : Nat) : Option EventMessage :=
  if e.event.cachedData protocol = [] ∧ event.cachedData protocol ≠ [] then
    some e.event.event.message
  else e.builtFrom protocol

def step (e : EventHandle) : EventCall settings → EventHandle
  | .setRoutingMetadata code senderActorId deliveryMode channel interestGroup =>
    e.modify fun event =>
      { event with code, senderActorId, deliveryMode, channel, interestGroup }
  | .setReceiversAll =>
    { e.modify fun event => { event with receivers := .unset } with audience := .all }
  | .setReceiversGroup group =>
    { e.modify fun event => { event with receivers := .group group } with audience := .group group }
  | .setReceiversActors none => e
  | .setReceiversActors (some actorIds) =>
    { e.modify fun event => { event with receivers := .actors actorIds } with
      audience := .actors actorIds }
  | .setData none => e
  | .setData (some data) => e.modify fun event => { event with data }
  | .setTopParams none => e
  | .setTopParams (some topParams) => e.modify fun event => { event with topParams }
  | .broadcast target protocol =>
    let event := (target.room.game.broadcastEvent z protocol target.room.heap e.event).1
    { e with event, builtFrom := e.recordBuilt event }

/-- What the broadcasts of the call send. -/
def deliveries (e : EventHandle) : EventCall settings → List Delivery
  | .broadcast target protocol =>
    (target.room.game.broadcastEvent z protocol target.room.heap e.event).2
  | _ => []

/-- A broadcast sends the fields of the event as they are to the connected peers that the plugin
means, once each, and nothing to others. -/
def Faithful (e : EventHandle) : EventCall settings → Prop
  | .broadcast target protocol =>
    (∀ gp ∈ target.room.game.peers, ∀ peer, target.room.heap.lock gp.peer = some peer →
      (e.deliveries z (.broadcast target protocol)).filter (fun d => d.actorId = gp.actorId) =
        if e.audience.Means e.event.event.senderActorId target.room.game gp ∧
            Game.Reaches e.event.event gp then
          ((z.serialize (protocol peer) e.event.event.message).map
            (e.event.event.delivery gp peer)).toList
        else []) ∧
    ∀ d ∈ e.deliveries z (.broadcast target protocol), ∃ gp ∈ target.room.game.peers,
      gp.actorId = d.actorId ∧ target.room.heap.lock gp.peer = some d.peer
  | _ => True

/-- No peer of the broadcast is left out of all the peers because it is the sender's. -/
def LeavesOutNone (e : EventHandle) : EventCall settings → Prop
  | .broadcast target protocol =>
    e.audience = .all → ∀ gp ∈ target.room.game.peers, gp.actorId = e.event.event.senderActorId →
      Game.Reaches e.event.event gp → ∀ peer, target.room.heap.lock gp.peer = some peer →
        z.serialize (protocol peer) e.event.event.message = none
  | _ => True

/-- Where a packet was built before for the protocol of a peer that the broadcast selects, the
event still serializes to it. -/
def IsFresh (e : EventHandle) : EventCall settings → Prop
  | .broadcast target protocol =>
    ∀ gp ∈ target.room.game.peers, Game.Selected e.event.event target.room.game gp →
      ∀ peer, target.room.heap.lock gp.peer = some peer →
        ∀ built, e.builtFrom (protocol peer) = some built →
          z.serialize (protocol peer) built = z.serialize (protocol peer) e.event.event.message
  | _ => True

/-- What a broadcast may do to an event: it keeps packets of the event where none was kept. -/
structure KeepsPackets (e e' : CachedEvent) : Prop where
  event : e'.event = e.event
  packets : ∀ protocol, e'.cachedData protocol = e.cachedData protocol ∨
    e.cachedData protocol = [] ∧ protocol < z.protocolCount ∧
      z.serialize protocol e.event.message = some (e'.cachedData protocol)

section KeepsPackets

variable {z} {protocol : PeerRef → Nat} {h : PeerHeap}

theorem KeepsPackets.refl (e : CachedEvent) : KeepsPackets z e e := ⟨rfl, fun _ => Or.inl rfl⟩

theorem KeepsPackets.trans {e e' e'' : CachedEvent} (h₁ : KeepsPackets z e e')
    (h₂ : KeepsPackets z e' e'') : KeepsPackets z e e'' := by
  refine ⟨h₂.event.trans h₁.event, fun protocol => ?_⟩
  rcases h₁.packets protocol with hsame | ⟨hempty, hknown, hpacket⟩
  · rw [← hsame, ← h₁.event]
    exact h₂.packets protocol
  · refine Or.inr ⟨hempty, hknown, ?_⟩
    rcases h₂.packets protocol with hsame' | ⟨-, -, hpacket'⟩
    · rw [hsame', hpacket]
    · rw [← h₁.event, hpacket']

theorem keepsPackets_getCachedData (protocol : Nat) (e : CachedEvent) :
    KeepsPackets z e (e.getCachedData z protocol).2 := by
  unfold CachedEvent.getCachedData
  split
  · exact KeepsPackets.refl e
  · next hkept =>
    split
    · exact KeepsPackets.refl e
    · next packet hpacket =>
      split
      · next hknown =>
        refine ⟨rfl, fun other => ?_⟩
        by_cases hother : other = protocol
        · subst hother
          refine Or.inr ⟨by simpa [hknown] using hkept, hknown, ?_⟩
          simp only [Function.update_self]
          exact hpacket
        · exact Or.inl (Function.update_of_ne hother _ _)
      · exact KeepsPackets.refl e

theorem keepsPackets_foldl (peers : List GamePeer) (st : CachedEvent × List Delivery) :
    KeepsPackets z st.1 (peers.foldl (Game.dispatch z protocol h) st).1 := by
  induction peers generalizing st with
  | nil => exact KeepsPackets.refl st.1
  | cons gp peers ih =>
    refine KeepsPackets.trans ?_ (ih _)
    unfold Game.dispatch
    split
    · exact KeepsPackets.refl st.1
    · exact keepsPackets_getCachedData _ st.1

variable (z protocol h) in
/-- Besides, a broadcast replaces unset receivers for good. -/
theorem keepsPackets_broadcastEvent (e : CachedEvent) (g : Game) :
    KeepsPackets z { e with event := { e.event with receivers := e.event.receivers.orDefault } }
      (g.broadcastEvent z protocol h e).1 :=
  keepsPackets_foldl _ (_, [])

end KeepsPackets

/-- The receivers of an event as the calls leave them. -/
def Stands (audience : Audience) (receivers : Receivers) : Prop :=
  match audience with
  | .default | .all => receivers.orDefault = .group othersGroup
  | .group code => receivers = .group code
  | .actors actorIds => receivers = .actors actorIds

/-- What is true of a handle after any calls. -/
structure Sound (e : EventHandle) : Prop where
  receivers : Stands e.audience e.event.event.receivers
  unbuilt : ∀ protocol, e.builtFrom protocol = none → e.event.cachedData protocol = []
  built : ∀ protocol message, e.builtFrom protocol = some message →
    protocol < z.protocolCount ∧ e.event.cachedData protocol ≠ [] ∧
      z.serialize protocol message = some (e.event.cachedData protocol)

section Sound

variable {z} {e : EventHandle}

theorem sound_create : Sound z create := by
  refine ⟨rfl, fun _ _ => rfl, fun protocol message hbuilt => ?_⟩
  cases hbuilt

theorem Sound.modify (he : Sound z e) {change : Event → Event}
    (hreceivers : ∀ event, (change event).receivers = event.receivers) :
    Sound z (e.modify change) :=
  ⟨by simpa only [EventHandle.modify, hreceivers] using he.receivers, he.unbuilt, he.built⟩

theorem Sound.setReceivers (he : Sound z e) {audience : Audience} {receivers : Receivers}
    (hstands : Stands audience receivers) :
    Sound z { e.modify fun event => { event with receivers } with audience } :=
  ⟨hstands, he.unbuilt, he.built⟩

theorem stands_orDefault {audience : Audience} {receivers : Receivers}
    (hstands : Stands audience receivers) : Stands audience receivers.orDefault := by
  cases audience with
  | default => cases receivers <;> exact hstands
  | all => cases receivers <;> exact hstands
  | group code =>
    obtain rfl : receivers = .group code := hstands
    rfl
  | actors actorIds =>
    obtain rfl : receivers = .actors actorIds := hstands
    rfl

theorem Sound.broadcast (he : Sound z e) (target : LiveRoom settings) (protocol : PeerRef → Nat) :
    Sound z (e.step z (.broadcast target protocol)) := by
  have hkeeps := keepsPackets_broadcastEvent z protocol target.room.heap e.event target.room.game
  unfold step
  refine ⟨?_, fun p hnone => ?_, fun p message hbuilt => ?_⟩
  · rw [hkeeps.event]
    exact stands_orDefault he.receivers
  · simp only [recordBuilt] at hnone
    split at hnone
    · cases hnone
    · next hnew =>
      rw [not_and_not_right] at hnew
      exact hnew (he.unbuilt p hnone)
  · simp only [recordBuilt] at hbuilt
    split at hbuilt
    · next hnew =>
      cases hbuilt
      rcases hkeeps.packets p with hsame | ⟨-, hknown, hpacket⟩
      · exact absurd (hsame.trans hnew.1) hnew.2
      · exact ⟨hknown, hnew.2, hpacket⟩
    · obtain ⟨hknown, hkept, hpacket⟩ := he.built p message hbuilt
      rcases hkeeps.packets p with hsame | ⟨hempty, -, -⟩
      · simp only at hsame
        rw [hsame]
        exact ⟨hknown, hkept, hpacket⟩
      · exact absurd hempty hkept

theorem sound_keeps (B : EventHandle → EventCall settings → Prop) :
    Transition.Keeps (step z) B (Sound z) := by
  intro e call he _
  cases call with
  | setRoutingMetadata code senderActorId deliveryMode channel interestGroup =>
    unfold step
    exact he.modify fun _ => rfl
  | setReceiversAll => exact Sound.setReceivers he rfl
  | setReceiversGroup group => exact Sound.setReceivers he rfl
  | setReceiversActors actorIds =>
    cases actorIds with
    | none => exact he
    | some actorIds => exact Sound.setReceivers he rfl
  | setData data =>
    cases data with
    | none => exact he
    | some data =>
      unfold step
      exact he.modify fun _ => rfl
  | setTopParams topParams =>
    cases topParams with
    | none => exact he
    | some topParams =>
      unfold step
      exact he.modify fun _ => rfl
  | broadcast target protocol => exact he.broadcast target protocol

/-- The packet of a protocol comes from the message that it was built from first. -/
theorem Sound.payload (he : Sound z e) (protocol : Nat) : e.event.payload z protocol =
    z.serialize protocol ((e.builtFrom protocol).getD e.event.event.message) := by
  rw [CachedEvent.payload_eq]
  cases hbuilt : e.builtFrom protocol with
  | none =>
    rw [if_neg (by simp [he.unbuilt protocol hbuilt])]
    rfl
  | some message =>
    obtain ⟨hknown, hkept, hpacket⟩ := he.built protocol message hbuilt
    rw [if_pos ⟨hknown, hkept⟩]
    exact hpacket.symm

/-- The peers that a broadcast selects are those that the plugin means, except the sender's own
among all. -/
theorem Sound.selected_iff (he : Sound z e) (g : Game) (gp : GamePeer) :
    Game.Selected e.event.event g gp ↔
      (e.audience.Means e.event.event.senderActorId g gp ∧ Game.Reaches e.event.event gp) ∧
        (e.audience = .all → gp.actorId ≠ e.event.event.senderActorId) := by
  have hstands := he.receivers
  unfold Game.Selected
  rw [← Game.addresses_orDefault]
  cases haudience : e.audience with
  | default =>
    rw [haudience] at hstands
    rw [show e.event.event.receivers.orDefault = _ from hstands]
    simp [Audience.Means, Game.Addresses, othersGroup, masterClientGroup]
  | all =>
    rw [haudience] at hstands
    rw [show e.event.event.receivers.orDefault = _ from hstands]
    simp [Audience.Means, Game.Addresses, othersGroup, masterClientGroup, and_comm]
  | group code =>
    rw [haudience] at hstands
    rw [show e.event.event.receivers = _ from hstands]
    simp [Audience.Means, Receivers.orDefault]
  | actors actorIds =>
    rw [haudience] at hstands
    rw [show e.event.event.receivers = _ from hstands]
    simp [Audience.Means, Receivers.orDefault]

theorem delivery_toList_inj {event : Event} {gp : GamePeer} {peer : PeerRef}
    {packet packet' : Option (List UInt8)} :
    (packet.map (event.delivery gp peer)).toList = (packet'.map (event.delivery gp peer)).toList ↔
      packet = packet' := by
  cases packet <;> cases packet' <;> simp [Event.delivery]

/-- What one connected peer is sent is what the plugin asks for exactly if the peer is not left out
and its packet is not an old one. -/
theorem Sound.faithful_to_iff (he : Sound z e) (g : Game) (gp : GamePeer) (peer : PeerRef)
    (protocol : Nat) :
    (if Game.Selected e.event.event g gp then
        ((e.event.payload z protocol).map (e.event.event.delivery gp peer)).toList else []) =
      (if e.audience.Means e.event.event.senderActorId g gp ∧ Game.Reaches e.event.event gp then
        ((z.serialize protocol e.event.event.message).map (e.event.event.delivery gp peer)).toList
      else []) ↔
    (e.audience = .all → gp.actorId = e.event.event.senderActorId →
      Game.Reaches e.event.event gp → z.serialize protocol e.event.event.message = none) ∧
    (Game.Selected e.event.event g gp → ∀ built, e.builtFrom protocol = some built →
      z.serialize protocol built = z.serialize protocol e.event.event.message) := by
  have hselected := he.selected_iff g gp
  rw [he.payload]
  by_cases hchosen : Game.Selected e.event.event g gp
  · obtain ⟨hmeant, hnotSender⟩ := hselected.mp hchosen
    rw [if_pos hchosen, if_pos hmeant, delivery_toList_inj]
    constructor
    · intro hpacket
      refine ⟨fun hall hsender => absurd hsender (hnotSender hall), fun _ built hbuilt => ?_⟩
      rw [hbuilt] at hpacket
      exact hpacket
    · rintro ⟨-, hfresh⟩
      cases hbuilt : e.builtFrom protocol with
      | none => rfl
      | some built => exact hfresh hchosen built hbuilt
  · rw [if_neg hchosen]
    by_cases hmeant : e.audience.Means e.event.event.senderActorId g gp ∧
        Game.Reaches e.event.event gp
    · obtain ⟨hall, hsender⟩ : e.audience = .all ∧ gp.actorId = e.event.event.senderActorId := by
        by_contra hnot
        exact hchosen (hselected.mpr ⟨hmeant, fun hall hsender => hnot ⟨hall, hsender⟩⟩)
      rw [if_pos hmeant, eq_comm, Option.toList_eq_nil_iff, Option.map_eq_none_iff]
      exact ⟨fun hnone => ⟨fun _ _ _ => hnone, fun hthis => absurd hthis hchosen⟩,
        fun hleft => hleft.1 hall hsender hmeant.2⟩
    · rw [if_neg hmeant]
      refine iff_of_true rfl ⟨fun hall _ hreaches => ?_, fun hthis => absurd hthis hchosen⟩
      exact absurd ⟨by rw [hall]; trivial, hreaches⟩ hmeant

/-- A broadcast is faithful exactly if it leaves no peer out and sends no old packet. -/
theorem Sound.faithful_call_iff (he : Sound z e) (call : EventCall settings) :
    e.Faithful z call ↔ e.LeavesOutNone z call ∧ e.IsFresh z call := by
  cases call with
  | broadcast target protocol =>
    have hactors := target.reachable.valid.actors
    have hpeer (gp : GamePeer) (hgp : gp ∈ target.room.game.peers) (peer : PeerRef)
        (hlock : target.room.heap.lock gp.peer = some peer) :=
      Game.deliveries_to z protocol hactors e.event hgp hlock ▸
        he.faithful_to_iff target.room.game gp peer (protocol peer)
    constructor
    · rintro ⟨hall, -⟩
      exact ⟨fun haudience gp hgp hsender hreaches peer hlock =>
          ((hpeer gp hgp peer hlock).mp (hall gp hgp peer hlock)).1 haudience hsender hreaches,
        fun gp hgp hchosen peer hlock =>
          ((hpeer gp hgp peer hlock).mp (hall gp hgp peer hlock)).2 hchosen⟩
    · rintro ⟨hnone, hfresh⟩
      refine ⟨fun gp hgp peer hlock => (hpeer gp hgp peer hlock).mpr
        ⟨fun haudience hsender hreaches => hnone haudience gp hgp hsender hreaches peer hlock,
          fun hchosen => hfresh gp hgp hchosen peer hlock⟩, fun d hd => ?_⟩
      obtain ⟨gp, hgp, -, hid, hlock⟩ := Game.deliveries_connected hactors e.event hd
      exact ⟨gp, hgp, hid, hlock⟩
  | _ => exact iff_of_true trivial ⟨trivial, trivial⟩

end Sound

/-- The broadcasts of a plugin are what it asks for exactly if each leaves no peer out and sends no
packet that was built from other fields. -/
theorem faithful_iff (z : Serializer) (calls : List (EventCall settings)) :
    Transition.EachStep (step z) (Faithful z) create calls ↔
      Transition.EachStep (step z) (fun e call => e.LeavesOutNone z call ∧ e.IsFresh z call)
        create calls :=
  Transition.eachStep_congr (sound_keeps fun _ _ => True) sound_create
    (Transition.eachStep_of_forall fun _ _ _ => trivial) fun _ call he _ => he.faithful_call_iff call

/-- Ada's room, in which she is alone. -/
def adasRoom : LiveRoom {} := ⟨Room.adas, Room.reachable_adas⟩

theorem peers_adas_ne_nil : Room.adas.game.peers ≠ [] := by decide

/-- An event of Ada's to all is not sent to her, and one whose data is set after a broadcast is sent
without them. -/
theorem not_faithful_adas :
    ¬Transition.EachStep (step Room.countingSerializer) (Faithful Room.countingSerializer) create
        [.setRoutingMetadata 1 1 1 0 0, .setReceiversAll, .broadcast adasRoom fun _ => 0] ∧
      ¬Transition.EachStep (step Room.countingSerializer) (Faithful Room.countingSerializer) create
        [.setRoutingMetadata 1 1 1 0 0, .setReceiversGroup allGroup, .broadcast adasRoom fun _ => 0,
          .setData (some (.int32 5)), .broadcast adasRoom fun _ => 0] := by
  constructor
  · rintro ⟨-, -, ⟨hsent, -⟩, -⟩
    have hada := congrArg List.length (hsent _ (List.head_mem peers_adas_ne_nil) 1 rfl)
    rw [if_pos ⟨trivial, Or.inl rfl⟩] at hada
    revert hada
    decide
  · rintro ⟨-, -, -, -, ⟨hsent, -⟩, -⟩
    have hada := congrArg (List.map (·.payload)) (hsent _ (List.head_mem peers_adas_ne_nil) 1 rfl)
    rw [if_pos ⟨by decide, Or.inl rfl⟩] at hada
    revert hada
    decide

end EventHandle

end LuxonServer
