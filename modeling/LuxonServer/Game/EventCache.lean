import LuxonServer.Game.Room

/-! The event cache of a room: what the handler of `RaiseEvent` does to it, what goes when a client
disconnects, and what `flood_peer` sends of it to a client.  Serialization always succeeds here. -/

namespace LuxonServer

/-- `CacheOperation`, as far as the server tells the codes apart. -/
inductive CacheOperation where
  | doNotCache
  | addToRoomCache
  | addToRoomCacheGlobal
  | removeFromRoomCache
  | removeFromCacheForActorsLeft
  | other (code : UInt8)
  deriving DecidableEq, Repr

/-- The request of a `RaiseEvent` with the header of its command. -/
structure RaiseEventRequest where
  code : UInt8
  cache : CacheOperation := .doNotCache
  data : Value := .null
  interestGroup : UInt8 := 0
  actorList : Option (List Int) := none
  receiverGroup : UInt8 := 0
  deliveryMode : UInt8 := 1
  channel : UInt8 := 0

/-- What has become of a `RaiseEvent`. -/
inductive RaiseOutcome where
  /-- The sender is not in the room. -/
  | ignored
  /-- The response `OperationInvalid`: the code is one of the protocol's own. -/
  | operationInvalid
  /-- Events were removed from the cache. -/
  | removed
  /-- The event goes to `broadcast_event`. -/
  | broadcast (event : Event)
  deriving DecidableEq, Repr

/-- What `flood_peer` sends, in its order. -/
inductive FloodPacket where
  | gameProps (props : Hashtable)
  | actorProps (props : AList fun _ : Int => Hashtable)
  | cached (event : Event)

/-- The cached event of a packet. -/
def FloodPacket.event? : FloodPacket → Option Event
  | .cached event => some event
  | _ => none

/-- `ReceiverGroup::MasterClient`. -/
def masterClientGroup : UInt8 := 2

/-- `EventCodes::PropertiesUpdate`. -/
def propertiesUpdateCode : UInt8 := 253

/-- `matches_filter`.  `asTable` is how the serialization layer reads a value as a table. -/
def matchesFilter (asTable : Value → Option Hashtable) (data : Value) (filter : Hashtable) : Bool :=
  if filter.keys = [] then true
  else
    match asTable data with
    | none => false
    | some table => filter.entries.all fun entry => table.lookup entry.1 == some entry.2

namespace RaiseEventRequest

/-- The event that the sender's request describes. -/
def event (sender : Int) (request : RaiseEventRequest) : Event where
  code := request.code
  senderActorId := sender
  deliveryMode := request.deliveryMode
  channel := request.channel
  receivers := request.actorList.elim (.group request.receiverGroup) .actors
  interestGroup := request.interestGroup
  data := request.data

/-- The copy of the event that goes into the cache. -/
def cachedCopy (sender : Int) (request : RaiseEventRequest) : Option Event :=
  let canCache := request.cache = .addToRoomCache ∨ request.cache = .addToRoomCacheGlobal
  if canCache ∧ request.actorList = none ∧ request.receiverGroup ≠ masterClientGroup ∧
      request.interestGroup = 0 then
    some { request.event sender with
      senderActorId := if request.cache = .addToRoomCacheGlobal then 0 else sender }
  else none

/-- Whether `RemoveFromRoomCache` removes a cached event. -/
def selects (asTable : Value → Option Hashtable) (request : RaiseEventRequest) (cached : Event) :
    Bool :=
  let filterSenders := request.actorList.getD []
  let filterData := (asTable request.data).getD ∅
  (request.code = 0 || cached.code = request.code) &&
    (filterSenders.isEmpty || filterSenders.contains cached.senderActorId) &&
    (filterData.keys.isEmpty || matchesFilter asTable cached.data filterData)

end RaiseEventRequest

namespace Game

variable (h : PeerHeap)

/-- `RemoveFromCacheForActorsLeft`. -/
def removeFromCacheForActorsLeft (g : Game) : Game :=
  { g with
    eventCache := g.eventCache.filter fun ev =>
      !((g.findActor ev.senderActorId).isNone && ev.senderActorId != 0) }

/-- The handler of `RaiseEvent`. -/
def raiseEvent (asTable : Value → Option Hashtable) (peer : Option PeerRef)
    (request : RaiseEventRequest) (g : Game) : RaiseOutcome × Game :=
  let sender := (g.actorIdForPeer h peer).getD 0
  if sender = 0 then (.ignored, g)
  else if request.code > 220 then (.operationInvalid, g)
  else if request.cache = .removeFromRoomCache then
    (.removed,
      { g with eventCache := g.eventCache.filter fun ev => !request.selects asTable ev })
  else if request.cache = .removeFromCacheForActorsLeft then
    (.removed, g.removeFromCacheForActorsLeft)
  else
    (.broadcast (request.event sender),
      { g with eventCache := g.eventCache ++ (request.cachedCopy sender).toList })

/-- What the handler of a disconnect does to the cache before `remove_peer`; `mask` is the
protocol's `CleanupCacheOnLeave`. -/
def cleanupCacheOnLeave (mask : UInt8) (peer : Option PeerRef) (g : Game) : Game :=
  let actorId := (g.actorIdForPeer h peer).getD 0
  if actorId ≠ 0 ∧ (g.findActor actorId).isSome ∧ g.flags &&& mask ≠ 0 then
    { g with eventCache := g.eventCache.filter fun ev => ev.senderActorId != actorId }
  else g

/-- `get_actor_props`. -/
def getActorProps (g : Game) : AList fun _ : Int => Hashtable :=
  g.peers.foldl (fun table gp => table.insert gp.actorId gp.actorProps) ∅

/-- Whether `flood_peer` sends a cached event to an actor. -/
def floods (actorId : Int) (ev : Event) : Bool :=
  !(ev.senderActorId != 0 && ev.senderActorId == actorId) && ev.code != propertiesUpdateCode

/-- `flood_peer`: the packets that go to the client, and nothing when there is none. -/
def floodPeer (gp : GamePeer) (g : Game) : Option (List FloodPacket) :=
  if gp.active ∧ (h.lock gp.peer).isSome then
    let gameProps := g.getGameProps false
    let actorProps := g.getActorProps
    some
      ((if gameProps.keys = [] then [] else [.gameProps gameProps]) ++
        (if actorProps.keys = [] then [] else [.actorProps actorProps]) ++
        (g.eventCache.filter (floods gp.actorId)).map .cached)
  else none

/-- `flood_peer_by_actor`. -/
def floodPeerByActor (actorId : Int) (g : Game) : Option (List FloodPacket) :=
  (g.findActor actorId).bind fun gp => g.floodPeer h gp

variable {h : PeerHeap} {g : Game}

theorem floodPeer_events {gp : GamePeer} (hactive : gp.active = true)
    (hlive : (h.lock gp.peer).isSome) :
    ∃ packets, g.floodPeer h gp = some packets ∧
      packets.filterMap FloodPacket.event? = g.eventCache.filter (floods gp.actorId) := by
  refine ⟨_, if_pos ⟨hactive, hlive⟩, ?_⟩
  have hcached : (fun ev => (FloodPacket.cached ev).event?) = some := rfl
  rw [List.filterMap_append, List.filterMap_append, List.filterMap_map,
    Function.comp_def, hcached, List.filterMap_some]
  have hgame : (if (g.getGameProps false).keys = [] then []
      else [FloodPacket.gameProps (g.getGameProps false)]).filterMap FloodPacket.event? = [] := by
    split <;> rfl
  have hactor : (if g.getActorProps.keys = [] then []
      else [FloodPacket.actorProps g.getActorProps]).filterMap FloodPacket.event? = [] := by
    split <;> rfl
  rw [hgame, hactor, List.nil_append, List.nil_append]

/-- `remove_peer` removes events from the cache, whatever their place in it. -/
theorem sweep_eventCache (flags : UInt8) (r : PeerRef) (peers : List GamePeer) (st : Sweep) :
    ∃ keep : Event → Bool,
      (peers.foldl (sweepPeer h flags r) st).eventCache = st.eventCache.filter keep := by
  induction peers generalizing st with
  | nil => exact ⟨fun _ => true, by simp⟩
  | cons gp peers ih =>
    obtain ⟨keep, hkeep⟩ := ih (sweepPeer h flags r st gp)
    have hnode : ∃ keep : Event → Bool,
        (sweepPeer h flags r st gp).eventCache = st.eventCache.filter keep := by
      unfold sweepPeer
      split
      · exact ⟨fun _ => true, by simp⟩
      · split
        · simp only
          split
          · exact ⟨_, rfl⟩
          · exact ⟨fun _ => true, by simp⟩
        · exact ⟨fun _ => true, by simp⟩
    obtain ⟨keepNode, hkeepNode⟩ := hnode
    refine ⟨fun ev => keepNode ev && keep ev, ?_⟩
    rw [List.foldl_cons, hkeep, hkeepNode, List.filter_filter]
    exact List.filter_congr fun ev _ => Bool.and_comm _ _

theorem removePeer_eventCache (h : PeerHeap) (peer : Option PeerRef) (g : Game) :
    ∃ keep : Event → Bool, (g.removePeer h peer).2.eventCache = g.eventCache.filter keep := by
  cases peer with
  | none => exact ⟨fun _ => true, by simp [removePeer]⟩
  | some r =>
    obtain ⟨keep, hkeep⟩ := sweep_eventCache (h := h) g.flags r g.peers
      { eventCache := g.eventCache }
    refine ⟨keep, ?_⟩
    rw [← hkeep, removePeer]
    simp only
    split
    · rfl
    · split <;> split <;> rfl

theorem removePeer_sublist (h : PeerHeap) (peer : Option PeerRef) (g : Game) :
    (g.removePeer h peer).2.peers.Sublist g.peers := by
  cases peer with
  | none => exact List.Sublist.refl _
  | some r =>
    obtain ⟨_, _, _, heq⟩ := removePeer_eq h r g
    rw [heq]
    exact List.filter_sublist

/-- The sender of a request is an actor of the room. -/
theorem mem_actorIds_of_actorIdForPeer {peer : Option PeerRef} {actorId : Int}
    (hactor : g.actorIdForPeer h peer = some actorId) : actorId ∈ g.actorIds := by
  unfold actorIdForPeer at hactor
  split at hactor
  · cases hactor
  · obtain ⟨gp, hgp, rfl⟩ := Option.map_eq_some_iff.mp hactor
    exact List.mem_map_of_mem (List.mem_of_find?_eq_some hgp)

/-- A `RaiseEvent` removes events from the cache, or it may add one of the sender's and is
broadcast. -/
theorem raiseEvent_cases (h : PeerHeap) (asTable : Value → Option Hashtable)
    (peer : Option PeerRef) (request : RaiseEventRequest) (g : Game) :
    (∃ outcome keep, (∀ ev, outcome ≠ .broadcast ev) ∧ g.raiseEvent h asTable peer request =
      (outcome, { g with eventCache := g.eventCache.filter keep })) ∨
    ∃ sender ∈ g.actorIds, request.code ≤ 220 ∧ g.raiseEvent h asTable peer request =
      (.broadcast (request.event sender),
        { g with eventCache := g.eventCache ++ (request.cachedCopy sender).toList }) := by
  have hkeep : g = { g with eventCache := g.eventCache.filter fun _ => true } := by simp
  unfold raiseEvent
  simp only
  cases hactor : g.actorIdForPeer h peer with
  | none => exact Or.inl ⟨.ignored, fun _ => true, by simp, by rw [← hkeep]; rfl⟩
  | some sender =>
    simp only [Option.getD_some]
    split
    · exact Or.inl ⟨.ignored, fun _ => true, by simp, by rw [← hkeep]⟩
    split
    · exact Or.inl ⟨.operationInvalid, fun _ => true, by simp, by rw [← hkeep]⟩
    next hcode =>
    split
    · exact Or.inl ⟨.removed, _, by simp, rfl⟩
    split
    · exact Or.inl ⟨.removed, _, by simp, rfl⟩
    · exact Or.inr ⟨sender, mem_actorIds_of_actorIdForPeer hactor, UInt8.not_lt.mp hcode, rfl⟩

theorem cleanupCacheOnLeave_eq (h : PeerHeap) (mask : UInt8) (peer : Option PeerRef) (g : Game) :
    ∃ keep : Event → Bool, g.cleanupCacheOnLeave h mask peer =
      { g with eventCache := g.eventCache.filter keep } := by
  unfold cleanupCacheOnLeave
  simp only
  split
  · exact ⟨_, rfl⟩
  · exact ⟨fun _ => true, by simp⟩

end Game

/-- The copy in the cache is the event, and a global one does not name its sender. -/
theorem RaiseEventRequest.cachedCopy_spec {request : RaiseEventRequest} {sender : Int} {ev : Event}
    (hcopy : request.cachedCopy sender = some ev) :
    ev.code = request.code ∧ (ev.senderActorId = sender ∨ ev.senderActorId = 0) := by
  unfold cachedCopy at hcopy
  simp only at hcopy
  split at hcopy
  · cases hcopy
    refine ⟨rfl, ?_⟩
    simp only
    split
    · exact Or.inr rfl
    · exact Or.inl rfl
  · cases hcopy

end LuxonServer
