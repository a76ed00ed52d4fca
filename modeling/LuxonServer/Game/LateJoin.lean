import LuxonServer.Game.EventCache
import LuxonServer.Game.Rollback
import LuxonServer.Game.Valid

/-! Whose events a room's cache holds.  A session begins when a peer is added and ends when its node
leaves the room; the cache knows the senders of its events by their numbers alone, and a number is
given to one session after another. -/

namespace LuxonServer

/-- A room with a record of who has raised the events of its cache. -/
structure Sessions where
  room : Room
  /-- The number of sessions that have begun, which is also the last session's. -/
  begun : Nat := 0
  /-- The session that got an actor number last. -/
  holder : Int → Nat := fun _ => 0
  /-- The cache, each event with the session that raised it. -/
  cached : List (Event × Nat) := []
  /-- The cache that an attempt to create the room has captured. -/
  initial : List (Event × Nat) := []

/-- What the room takes from the protocol: how a value is read as a table, and the mask
`CleanupCacheOnLeave`. -/
structure Protocol where
  asTable : Value → Option Hashtable := fun _ => none
  cleanupCacheOnLeave : UInt8 := 0

/-- What can happen to a room and its cache. -/
inductive SessionOp where
  | room (op : RoomOp)
  | raiseEvent (peer : Option PeerRef) (request : RaiseEventRequest)
  /-- The first part of a disconnect, before `remove_peer`. -/
  | cleanupCacheOnLeave (peer : Option PeerRef)

/-- The operations of the room's own process; the cache is edited by `RaiseEvent`. -/
def SessionOp.isLocal : SessionOp → Bool
  | .room (.editEventCache _) => false
  | .room op => op.isLocal
  | _ => true

/-- The peer that an operation lets into the room. -/
def Room.admitted (s : Room) : RoomOp → Option GamePeer
  | .addPeer index => s.handedOut[index]?.filter fun gp => (s.game.addPeer s.heap gp).1
  | .addPeerForCreation index owner generation =>
    s.handedOut[index]?.filter fun gp =>
      (s.game.addPeerForCreation s.heap gp owner generation).1
  | _ => none

namespace Sessions

/-- The record of those events that are still in the cache. -/
def survivors (cache : List Event) (cached : List (Event × Nat)) : List (Event × Nat) :=
  cached.filter fun entry => entry.1 ∈ cache

/-- What an operation of the room does to the record: a new peer begins a session, and a rollback
brings back the events that the attempt has found. -/
def record (s : Sessions) (room : Room) (op : RoomOp) : Sessions :=
  match op with
  | .addPeer _ | .addPeerForCreation _ _ _ =>
    match s.room.admitted op with
    | none => { s with room }
    | some gp =>
      { s with
        room
        begun := s.begun + 1
        holder := Function.update s.holder gp.actorId (s.begun + 1) }
  | .tryBeginCreation owner =>
    if (s.room.game.tryBeginCreation owner).1 = 0 then { s with room }
    else { s with room, initial := s.cached }
  | .abortCreationTransaction owner generation =>
    if (s.room.game.abortCreationTransaction s.room.heap owner generation).1 then
      { s with room, cached := s.initial }
    else { s with room }
  | .removePeer _ => { s with room, cached := survivors room.game.eventCache s.cached }
  | _ => { s with room }

def step (settings : AppSettings) (protocol : Protocol) (s : Sessions) : SessionOp → Sessions
  | .room op =>
    if s.room.heap.lock op.caller = op.caller then s.record (s.room.perform settings op) op else s
  | .raiseEvent peer request =>
    let (outcome, game) := s.room.game.raiseEvent s.room.heap protocol.asTable peer request
    let room := { s.room with game }
    match outcome with
    | .broadcast event =>
      let copy := request.cachedCopy event.senderActorId
      { s with
        room
        cached := s.cached ++ copy.toList.map fun ev => (ev, s.holder event.senderActorId) }
    | _ => { s with room, cached := survivors game.eventCache s.cached }
  | .cleanupCacheOnLeave peer =>
    let game := s.room.game.cleanupCacheOnLeave s.room.heap protocol.cleanupCacheOnLeave peer
    { s with room := { s.room with game }, cached := survivors game.eventCache s.cached }

/-- A new room, in which no session has begun. -/
def IsNew (s : Sessions) : Prop :=
  s.room.IsNew ∧ s.begun = 0 ∧ s.cached = [] ∧ s.initial = [] ∧ s.holder = fun _ => 0

/-- The record of a new room. -/
def create (info : GameInfo) : Sessions where
  room := .create info

/-- The sessions whose node is in the room. -/
def present (s : Sessions) : List Nat := s.room.game.actorIds.map s.holder

/-- `flood_peer` sends every actor, in the order of the cache, the events that another session has
raised, and the global ones. -/
def Floods (s : Sessions) : Prop :=
  ∀ gp ∈ s.room.game.peers, (s.room.heap.lock gp.peer).isSome →
    ∃ packets, s.room.game.floodPeerByActor s.room.heap gp.actorId = some packets ∧
      packets.filterMap FloodPacket.event? =
        (s.cached.filter fun entry =>
          entry.1.senderActorId = 0 ∨ entry.2 ≠ s.holder gp.actorId).map Prod.fst

/-- `RemoveFromCacheForActorsLeft` leaves the global events and those of the sessions that are in
the room. -/
def Cleans (s : Sessions) : Prop :=
  s.room.game.removeFromCacheForActorsLeft.eventCache =
    (s.cached.filter fun entry =>
      entry.1.senderActorId = 0 ∨ entry.2 ∈ s.present).map Prod.fst

/-- The number of a peer that comes into the room is on no event of the cache. -/
def NumberUnused (s : Sessions) : SessionOp → Prop
  | .room op => ∀ gp ∈ s.room.admitted op, ∀ ev ∈ s.room.game.eventCache,
    ev.senderActorId ≠ gp.actorId
  | _ => True

instance NumberUnused.decidable (s : Sessions) : ∀ op, Decidable (s.NumberUnused op)
  | .room op => inferInstanceAs (Decidable (∀ gp ∈ s.room.admitted op,
      ∀ ev ∈ s.room.game.eventCache, ev.senderActorId ≠ gp.actorId))
  | .raiseEvent _ _ => .isTrue trivial
  | .cleanupCacheOnLeave _ => .isTrue trivial

end Sessions

namespace Game

variable {g g' : Game} {h : PeerHeap}

/-- What the record of the sessions depends on. -/
structure SameRoster (g g' : Game) : Prop where
  actorIds : g'.actorIds = g.actorIds
  connections : g'.connections = g.connections
  eventCache : g'.eventCache = g.eventCache
  lease : g'.lease = g.lease

theorem SameRoster.refl (g : Game) : SameRoster g g := ⟨rfl, rfl, rfl, rfl⟩

theorem SeatsOnly.sameRoster (hg : SeatsOnly g g') : SameRoster g g' := by
  obtain ⟨_, _, _, _, _, _, rfl⟩ := hg
  exact ⟨rfl, rfl, rfl, rfl⟩

theorem PropsOnly.sameRoster (hg : PropsOnly g g') : SameRoster g g' := by
  obtain ⟨_, _, _, _, _, _, _, _, _, rfl⟩ := hg
  exact ⟨rfl, rfl, rfl, rfl⟩

theorem sameRoster_updatePeer {found : GamePeer → Bool} {change : GamePeer → GamePeer}
    (hpeer : ∀ gp, (change gp).peer = gp.peer) (hid : ∀ gp, (change gp).actorId = gp.actorId)
    (g : Game) : SameRoster g { g with peers := updatePeer found change g.peers } :=
  ⟨map_updatePeer hid g.peers, connections_updatePeer hpeer g, rfl, rfl⟩

end Game

namespace Room

open Game

variable {settings : AppSettings} {s : Room}

/-- Peers come and go, a lease begins and ends; the other operations leave the roster alone. -/
theorem perform_sameRoster (settings : AppSettings) (s : Room) {op : RoomOp}
    (hop : (SessionOp.room op).isLocal = true) :
    SameRoster s.game (s.perform settings op).game ∨
      (∃ index, op = .addPeer index) ∨
      (∃ index owner generation, op = .addPeerForCreation index owner generation) ∨
      (∃ peer, op = .removePeer peer) ∨
      (∃ owner, op = .tryBeginCreation owner) ∨
      (∃ owner generation, op = .commitCreation owner generation) ∨
      ∃ owner generation, op = .abortCreationTransaction owner generation := by
  cases op with
  | addPeer index => exact Or.inr (Or.inl ⟨index, rfl⟩)
  | addPeerForCreation index owner generation => exact Or.inr (Or.inr (Or.inl ⟨_, _, _, rfl⟩))
  | removePeer peer => exact Or.inr (Or.inr (Or.inr (Or.inl ⟨peer, rfl⟩)))
  | tryBeginCreation owner => exact Or.inr (Or.inr (Or.inr (Or.inr (Or.inl ⟨owner, rfl⟩))))
  | commitCreation owner generation =>
    exact Or.inr (Or.inr (Or.inr (Or.inr (Or.inr (Or.inl ⟨_, _, rfl⟩)))))
  | abortCreationTransaction owner generation =>
    exact Or.inr (Or.inr (Or.inr (Or.inr (Or.inr (Or.inr ⟨_, _, rfl⟩)))))
  | receiveUpdate isNew message => cases hop
  | editEventCache edit => cases hop
  | connect peer | setPersistent peer persistent =>
    left
    simp only [perform]
    split <;> exact SameRoster.refl _
  | applyCreationSettings owner generation values =>
    left
    simp only [perform, applyCreationSettings]
    split <;> exact ⟨rfl, rfl, rfl, rfl⟩
  | createPeer peer =>
    left
    rcases createPeer_game s.heap peer s.game with heq | heq
    · simp only [perform, handOut_game, heq]
      exact SameRoster.refl _
    · simp only [perform, handOut_game, heq]
      exact ⟨rfl, rfl, rfl, rfl⟩
  | reserveExpectedUser userId ttlMs => exact Or.inl (seatsOnly_reserve _ _ _).sameRoster
  | removeExpectedUser userId => exact Or.inl (seatsOnly_remove _ _).sameRoster
  | removeExpectedUserIfGeneration userId generation =>
    exact Or.inl (seatsOnly_removeIfGeneration _ _ _).sameRoster
  | runScheduledTask task => exact Or.inl (seatsOnly_runScheduledTask _ _).sameRoster
  | insertGameProps update => exact Or.inl (propsOnly_insertGameProps _ _ _).sameRoster
  | applyGameProps update expected => exact Or.inl (propsOnly_applyGameProps _ _ _ _).sameRoster
  | insertActorProps actorId update =>
    obtain ⟨_, _, hchange, heq⟩ := insertActorProps_eq actorId update s.game
    left
    simp only [perform, heq]
    exact sameRoster_updatePeer (fun gp => by obtain ⟨_, h⟩ := hchange gp; rw [h])
      (fun gp => by obtain ⟨_, h⟩ := hchange gp; rw [h]) s.game
  | applyInterestGroups peer add remove =>
    obtain ⟨_, _, hchange, heq⟩ := applyInterestGroups_eq s.heap peer add remove s.game
    left
    simp only [perform, heq]
    exact sameRoster_updatePeer (fun gp => by obtain ⟨_, h⟩ := hchange gp; rw [h])
      (fun gp => by obtain ⟨_, h⟩ := hchange gp; rw [h]) s.game
  | _ => exact Or.inl ⟨rfl, rfl, rfl, rfl⟩

/-- An added peer is one that the room has handed out, under a number that was free.  While the room
is being created it is a node of the lease's owner. -/
structure Admits (s : Room) (op : RoomOp) (gp : GamePeer) (game : Game) : Prop where
  handed : gp ∈ s.handedOut
  caller : s.heap.lock op.caller = op.caller
  free : gp.actorId ∉ s.game.actorIds
  owned : s.game.isCreating = true → gp.peer = s.game.creationOwner
  added : ∃ userId, game = s.game.emplacePeer gp userId

theorem admits (hvalid : s.Valid) (hlease : s.LeaseSound) {op : RoomOp} {gp : GamePeer}
    (hadmitted : s.admitted op = some gp) : s.Admits op gp (s.perform settings op).game := by
  cases op with
  | addPeer index =>
    obtain ⟨hindex, hadd⟩ := Option.filter_eq_some_iff.mp hadmitted
    have hgame : (s.perform settings (.addPeer index)).game = (s.game.addPeer s.heap gp).2 := by
      simp only [perform, give, hindex]
    rcases addPeer_cases (h := s.heap) gp s.game with heq | ⟨userId, -, hidle, hfree, -, heq⟩
    · rw [heq] at hadd
      cases hadd
    · refine
        { handed := List.mem_of_getElem? hindex
          caller := rfl
          free := fun hmem => ?_
          owned := fun hcreating => ?_
          added := ⟨userId, by rw [hgame, heq]⟩ }
      · rw [(findActor_of_active hvalid.actors.active).mpr hmem] at hfree
        cases hfree
      · have hcreated := (hlease.creating hcreating).1
        exact absurd ⟨hcreating, by simp [hcreated]⟩ hidle
  | addPeerForCreation index owner generation =>
    obtain ⟨hindex, hadd⟩ := Option.filter_eq_some_iff.mp hadmitted
    have hgame : (s.perform settings (.addPeerForCreation index owner generation)).game =
        (s.game.addPeerForCreation s.heap gp owner generation).2 := by
      simp only [perform, give, hindex]
    rcases addPeerForCreation_cases s.heap gp owner generation s.game with
      heq | ⟨userId, hactive, hpeer, -, hfree, -, heq⟩
    · rw [heq] at hadd
      cases hadd
    · obtain ⟨-, howner, -, -, hlock⟩ := isCreationActive_iff.mp hactive
      refine
        { handed := List.mem_of_getElem? hindex
          caller := lock_owner_of_active hactive
          free := fun hmem => ?_
          owned := fun _ => ?_
          added := ⟨userId, by rw [hgame, heq]⟩ }
      · rw [(findActor_of_active hvalid.actors.active).mpr hmem] at hfree
        cases hfree
      · rcases s.heap.lock_eq_self_or_none s.game.creationOwner with hself | hnone
        · rw [hpeer, ← hlock, hself]
        · exact absurd (hlock.symm.trans hnone) howner
  | _ => cases hadmitted

/-- An addition that is refused leaves the room as it is. -/
theorem sameRoster_of_not_admitted {op : RoomOp} (hadmitted : s.admitted op = none)
    (hop : (∃ index, op = .addPeer index) ∨
      ∃ index owner generation, op = .addPeerForCreation index owner generation) :
    SameRoster s.game (s.perform settings op).game := by
  have hgive : ∀ index (add : GamePeer → Bool × Game),
      s.handedOut[index]?.filter (fun gp => (add gp).1) = none →
      (∀ gp, (add gp).1 = false → (add gp).2 = s.game) →
      (s.give index fun gp => (add gp).2).game = s.game := by
    intro index add hnone hrefused
    unfold give
    split
    · rfl
    · next gp hgp =>
      rw [hgp] at hnone
      have hfalse : (add gp).1 = false := by simpa [Option.filter] using hnone
      exact hrefused gp hfalse
  rcases hop with ⟨index, rfl⟩ | ⟨index, owner, generation, rfl⟩
  · have hgame := hgive index (fun gp => s.game.addPeer s.heap gp) hadmitted fun gp hfalse => by
      rcases addPeer_cases (h := s.heap) gp s.game with heq | ⟨_, -, -, -, -, heq⟩
      · rw [heq]
      · rw [heq] at hfalse
        cases hfalse
    simp only [perform, hgame]
    exact SameRoster.refl _
  · have hgame := hgive index
      (fun gp => s.game.addPeerForCreation s.heap gp owner generation) hadmitted fun gp hfalse => by
      rcases addPeerForCreation_cases s.heap gp owner generation s.game with
        heq | ⟨_, -, -, -, -, -, heq⟩
      · rw [heq]
      · rw [heq] at hfalse
        cases hfalse
    simp only [perform, hgame]
    exact SameRoster.refl _

end Room

namespace Sessions

open Game

variable {settings : AppSettings} {protocol : Protocol} {s : Sessions}

/-- What holds of the events that an entry records: the protocol's own codes are not among them,
and the session has begun. -/
def Recorded (begun : Nat) (entries : List (Event × Nat)) : Prop :=
  ∀ entry ∈ entries, entry.1.code ≠ propertiesUpdateCode ∧ entry.2 ≤ begun

/-- The record follows the room. -/
structure Sound (s : Sessions) : Prop where
  valid : s.room.Valid
  lease : s.room.LeaseSound
  /-- Only its owner is in a room that is being created. -/
  owned : s.room.game.isCreating = true →
    ∀ peer ∈ s.room.game.connections, peer = s.room.game.creationOwner
  cache : s.cached.map Prod.fst = s.room.game.eventCache
  captured : s.initial.map Prod.fst = s.room.game.creationInitial.eventCache
  recorded : Recorded s.begun s.cached ∧ Recorded s.begun s.initial
  held : ∀ actorId, s.holder actorId ≤ s.begun
  /-- The actors of the room are in different sessions. -/
  distinct : ∀ a ∈ s.room.game.actorIds, ∀ b ∈ s.room.game.actorIds,
    s.holder a = s.holder b → a = b
  /-- A session that is in the room has the number that its events carry. -/
  numbered : ∀ entry ∈ s.cached, entry.1.senderActorId ≠ 0 →
    ∀ actorId ∈ s.room.game.actorIds, s.holder actorId = entry.2 →
      actorId = entry.1.senderActorId

/-- An event whose number an actor of the room has was raised in that actor's session. -/
def Attributed (s : Sessions) : Prop :=
  ∀ entry ∈ s.cached, entry.1.senderActorId ∈ s.room.game.actorIds →
    s.holder entry.1.senderActorId = entry.2

theorem sound_of_isNew (hnew : s.IsNew) : s.Sound := by
  obtain ⟨hroom, hbegun, hcached, hinitial, hholder⟩ := hnew
  have hgame := hroom.1
  refine
    { valid := Room.valid_of_isNew hroom
      lease := Room.leaseSound_of_isNew hroom
      owned := fun _ => by rw [hgame]; simp [connections]
      cache := by rw [hcached, hgame]; rfl
      captured := by rw [hinitial, hgame]; rfl
      recorded := by simp [Recorded, hcached, hinitial]
      held := fun _ => by simp [hholder]
      distinct := by rw [hgame]; simp [actorIds]
      numbered := by simp [hcached] }

theorem attributed_of_isNew (hnew : s.IsNew) : s.Attributed := by
  simp [Attributed, hnew.2.2.1]

section Claims

theorem Sound.floods (hs : s.Sound) (hattributed : s.Attributed) : s.Floods := by
  intro gp hgp hlive
  obtain ⟨packets, hpackets, hevents⟩ :=
    floodPeer_events (g := s.room.game) (hs.valid.actors.active gp hgp) hlive
  have hmem : gp.actorId ∈ s.room.game.actorIds := List.mem_map_of_mem hgp
  refine ⟨packets, ?_, ?_⟩
  · rw [floodPeerByActor, hs.valid.actors.findActor_of_mem hgp, Option.bind_some, hpackets]
  · rw [hevents, ← hs.cache, List.filter_map]
    refine congrArg _ (List.filter_congr fun entry hentry => ?_)
    have hcode := (hs.recorded.1 entry hentry).1
    have hown : entry.1.senderActorId ≠ 0 →
        (entry.1.senderActorId = gp.actorId ↔ entry.2 = s.holder gp.actorId) := by
      intro hsender
      constructor
      · intro heq
        have hholder := hattributed entry hentry (heq ▸ hmem)
        rw [heq] at hholder
        exact hholder.symm
      · exact fun hholder => (hs.numbered entry hentry hsender _ hmem hholder.symm).symm
    rw [Bool.eq_iff_iff]
    by_cases hsender : entry.1.senderActorId = 0
    · simp [Game.floods, hsender, hcode]
    · simp [Game.floods, hsender, hcode, hown hsender]

theorem Sound.cleans_iff (hs : s.Sound) : s.Cleans ↔ s.Attributed := by
  have hfound : ∀ actorId, (s.room.game.findActor actorId).isNone = false ↔
      actorId ∈ s.room.game.actorIds := by
    intro actorId
    rw [← findActor_of_active hs.valid.actors.active, Option.isNone_eq_false_iff]
  have hcode : s.room.game.removeFromCacheForActorsLeft.eventCache =
      (s.cached.filter fun entry => decide (entry.1.senderActorId = 0 ∨
        entry.1.senderActorId ∈ s.room.game.actorIds)).map Prod.fst := by
    rw [removeFromCacheForActorsLeft, ← hs.cache, List.filter_map]
    refine congrArg _ (List.filter_congr fun entry _ => ?_)
    rw [Bool.eq_iff_iff, Function.comp_apply, Bool.not_eq_true', Bool.and_eq_false_iff, hfound]
    simp [or_comm]
  rw [Cleans, hcode, List.map_filter_eq_iff]
  · constructor
    · intro hkept entry hentry hmem
      have hsender : entry.1.senderActorId ≠ 0 := by
        have := (hs.valid.actors.range _ hmem).1
        omega
      have hpresent := hkept entry hentry (by simp [hmem])
      simp only [hsender, false_or, decide_eq_true_eq] at hpresent
      obtain ⟨actorId, hactor, hholder⟩ := List.mem_map.mp hpresent
      rw [← hs.numbered entry hentry hsender actorId hactor hholder, hholder]
    · intro hattributed entry hentry hkept
      rcases of_decide_eq_true hkept with hglobal | hmem
      · simp [hglobal]
      · have hpresent : entry.2 ∈ s.present :=
          List.mem_map.mpr ⟨_, hmem, hattributed entry hentry hmem⟩
        simp [hpresent]
  · intro entry hentry hpresent
    rcases of_decide_eq_true hpresent with hglobal | hmem
    · simp [hglobal]
    · by_cases hsender : entry.1.senderActorId = 0
      · simp [hsender]
      · obtain ⟨actorId, hactor, hholder⟩ := List.mem_map.mp hmem
        have heq := hs.numbered entry hentry hsender actorId hactor hholder
        simp [← heq, hactor]

end Claims

section Steps

theorem mem_survivors {cache : List Event} {cached : List (Event × Nat)} {entry : Event × Nat} :
    entry ∈ survivors cache cached ↔ entry ∈ cached ∧ entry.1 ∈ cache := by
  simp [survivors]

theorem survivors_of_subset {cache : List Event} {cached : List (Event × Nat)}
    (hcache : ∀ entry ∈ cached, entry.1 ∈ cache) : survivors cache cached = cached :=
  List.filter_eq_self.mpr fun entry hentry => by simpa using hcache entry hentry

theorem map_survivors (keep : Event → Bool) (cached : List (Event × Nat)) :
    (survivors ((cached.map Prod.fst).filter keep) cached).map Prod.fst =
      (cached.map Prod.fst).filter keep := by
  rw [List.filter_map, survivors]
  refine congrArg _ (List.filter_congr fun entry hentry => ?_)
  have hmem : entry.1 ∈ cached.map Prod.fst := List.mem_map_of_mem hentry
  rw [Bool.eq_iff_iff, decide_eq_true_iff, ← List.filter_map, List.mem_filter]
  simp only [hmem, true_and, Function.comp_apply]

/-- A step that lets no one in: the record still follows the room, and no event changes hands. -/
structure Follows (s s' : Sessions) : Prop where
  sound : s'.Sound
  attributed : s.Attributed → s'.Attributed

/-- Actors leave and events are removed. -/
theorem Sound.shrink (hs : s.Sound) {room : Room} (hvalid : room.Valid) (hsound : room.LeaseSound)
    (hids : room.game.actorIds ⊆ s.room.game.actorIds)
    (hconnections : room.game.connections ⊆ s.room.game.connections)
    {keep : Event → Bool} (hcache : room.game.eventCache = s.room.game.eventCache.filter keep)
    (hlease : room.game.lease = s.room.game.lease) :
    Follows s { s with room, cached := survivors room.game.eventCache s.cached } := by
  simp only [Game.lease, Lease.mk.injEq] at hlease
  obtain ⟨-, hcreating, howner, -, -, hinitial⟩ := hlease
  constructor
  · refine
      { valid := hvalid
        lease := hsound
        owned := ?_
        cache := by
          show (survivors room.game.eventCache s.cached).map Prod.fst = room.game.eventCache
          rw [hcache, ← hs.cache, map_survivors]
        captured := by
          show s.initial.map Prod.fst = room.game.creationInitial.eventCache
          rw [hinitial, hs.captured]
        recorded := ⟨fun entry hentry => hs.recorded.1 entry (mem_survivors.mp hentry).1,
          hs.recorded.2⟩
        held := hs.held
        distinct := fun a ha b hb => hs.distinct a (hids ha) b (hids hb)
        numbered := fun entry hentry hsender actorId hactor =>
          hs.numbered entry (mem_survivors.mp hentry).1 hsender actorId (hids hactor) }
    show room.game.isCreating = true → ∀ peer ∈ room.game.connections,
      peer = room.game.creationOwner
    rw [hcreating, howner]
    exact fun hc peer hpeer => hs.owned hc peer (hconnections hpeer)
  · intro hattributed entry hentry hmem
    exact hattributed entry (mem_survivors.mp hentry).1 (hids hmem)

theorem Sound.sameRoster (hs : s.Sound) {room : Room} (hvalid : room.Valid)
    (hsound : room.LeaseSound) (hroster : SameRoster s.room.game room.game) :
    Follows s { s with room } := by
  have hcached : survivors room.game.eventCache s.cached = s.cached := by
    refine survivors_of_subset fun entry hentry => ?_
    rw [hroster.eventCache, ← hs.cache]
    exact List.mem_map_of_mem hentry
  have hcache : room.game.eventCache = s.room.game.eventCache.filter fun _ => true := by
    rw [hroster.eventCache]
    simp
  have hfollows := hs.shrink hvalid hsound (hroster.actorIds ▸ List.Subset.refl _)
    (hroster.connections ▸ List.Subset.refl _) hcache hroster.lease
  rwa [hcached] at hfollows

/-- A session begins: no event changes hands exactly if none carries the newcomer's number. -/
theorem Sound.admit (hs : s.Sound) {room : Room} (hvalid : room.Valid) (hsound : room.LeaseSound)
    {gp : GamePeer} {op : RoomOp} (hadmits : s.room.Admits op gp room.game) :
    let s' := { s with
      room
      begun := s.begun + 1
      holder := Function.update s.holder gp.actorId (s.begun + 1) }
    s'.Sound ∧ (s.Attributed →
      (s'.Attributed ↔ ∀ ev ∈ s.room.game.eventCache, ev.senderActorId ≠ gp.actorId)) := by
  intro s'
  obtain ⟨userId, hgame⟩ := hadmits.added
  have hlease : room.game.lease = s.room.game.lease := by rw [hgame, emplacePeer_lease]
  rw [emplacePeer_eq] at hgame
  have hids : room.game.actorIds = s.room.game.actorIds ++ [gp.actorId] := by
    rw [hgame]
    simp [actorIds]
  have hconnections : room.game.connections = s.room.game.connections ++ [gp.peer] := by
    rw [hgame]
    simp [connections]
  have hcache : room.game.eventCache = s.room.game.eventCache := by rw [hgame]
  simp only [Game.lease, Lease.mk.injEq] at hlease
  obtain ⟨-, hcreating, howner, -, -, hinitial⟩ := hlease
  have hnew : s'.holder gp.actorId = s.begun + 1 := Function.update_self ..
  have hold : ∀ actorId ∈ s.room.game.actorIds, s'.holder actorId = s.holder actorId :=
    fun actorId hmem =>
      Function.update_of_ne (fun heq : actorId = gp.actorId => hadmits.free (heq ▸ hmem)) _ _
  have hle : ∀ actorId, s'.holder actorId ≤ s.begun + 1 := by
    intro actorId
    by_cases heq : actorId = gp.actorId
    · rw [heq, hnew]
    · have := hs.held actorId
      rw [show s'.holder actorId = s.holder actorId from Function.update_of_ne heq _ _]
      omega
  have hcases : ∀ actorId ∈ room.game.actorIds,
      actorId ∈ s.room.game.actorIds ∨ actorId = gp.actorId := by
    intro actorId hmem
    rw [hids] at hmem
    simpa using hmem
  constructor
  · exact
      { valid := hvalid
        lease := hsound
        owned := by
          show room.game.isCreating = true → ∀ peer ∈ room.game.connections,
            peer = room.game.creationOwner
          rw [hcreating, howner, hconnections]
          intro hc peer hpeer
          rcases List.mem_append.mp hpeer with hbefore | hafter
          · exact hs.owned hc peer hbefore
          · rw [List.mem_singleton.mp hafter]
            exact hadmits.owned hc
        cache := hs.cache.trans hcache.symm
        captured := by
          show s.initial.map Prod.fst = room.game.creationInitial.eventCache
          rw [hinitial, hs.captured]
        recorded :=
          ⟨fun entry hentry => ⟨(hs.recorded.1 entry hentry).1,
              Nat.le_succ_of_le (hs.recorded.1 entry hentry).2⟩,
            fun entry hentry => ⟨(hs.recorded.2 entry hentry).1,
              Nat.le_succ_of_le (hs.recorded.2 entry hentry).2⟩⟩
        held := hle
        distinct := by
          intro a ha b hb heq
          rcases hcases a ha with ha | rfl <;> rcases hcases b hb with hb | rfl
          · rw [hold a ha, hold b hb] at heq
            exact hs.distinct a ha b hb heq
          · have := hs.held a
            rw [hold a ha, hnew] at heq
            omega
          · have := hs.held b
            rw [hold b hb, hnew] at heq
            omega
          · rfl
        numbered := by
          intro entry hentry hsender actorId hactor heq
          rcases hcases actorId hactor with hbefore | rfl
          · rw [hold actorId hbefore] at heq
            exact hs.numbered entry hentry hsender actorId hbefore heq
          · have := (hs.recorded.1 entry hentry).2
            rw [hnew] at heq
            omega }
  · intro hattributed
    constructor
    · intro hafter ev hev heq
      rw [← hs.cache] at hev
      obtain ⟨entry, hentry, rfl⟩ := List.mem_map.mp hev
      have hmem : entry.1.senderActorId ∈ s'.room.game.actorIds := by
        show entry.1.senderActorId ∈ room.game.actorIds
        rw [hids, heq]
        simp
      have hholder := hafter entry hentry hmem
      have := (hs.recorded.1 entry hentry).2
      rw [heq, hnew] at hholder
      omega
    · intro hunused entry hentry hmem
      have hne : entry.1.senderActorId ≠ gp.actorId :=
        hunused entry.1 (hs.cache ▸ List.mem_map_of_mem hentry)
      have hbefore := (hcases _ hmem).resolve_right hne
      rw [hold _ hbefore]
      exact hattributed entry hentry hbefore

theorem Sound.tryBegin (hs : s.Sound) {owner : Option PeerRef} {room : Room} (hvalid : room.Valid)
    (hsound : room.LeaseSound) (hgame : room.game = (s.room.game.tryBeginCreation owner).2)
    (hbegin : (s.room.game.tryBeginCreation owner).1 ≠ 0) :
    Follows s { s with room, initial := s.cached } := by
  rcases tryBeginCreation_cases owner s.room.game with heq | ⟨-, -, -, hempty, heq⟩
  · rw [heq] at hbegin
    exact absurd rfl hbegin
  rw [heq] at hgame
  have hids : room.game.actorIds = [] := by
    rw [hgame]
    simp [actorIds, hempty]
  have hconnections : room.game.connections = [] := by
    rw [hgame]
    simp [connections, hempty]
  constructor
  · refine
      { valid := hvalid
        lease := hsound
        owned := fun _ => ?_
        cache := by
          show s.cached.map Prod.fst = room.game.eventCache
          rw [hgame, hs.cache]
        captured := by
          show s.cached.map Prod.fst = room.game.creationInitial.eventCache
          rw [hgame, hs.cache]
          rfl
        recorded := ⟨hs.recorded.1, hs.recorded.1⟩
        held := hs.held
        distinct := ?_
        numbered := ?_ }
    · simp [hconnections]
    · simp [hids]
    · simp [hids]
  · intro _ entry _ hmem
    simp [hids] at hmem

theorem Sound.commit (hs : s.Sound) {owner : Option PeerRef} {generation : Nat} {room : Room}
    (hvalid : room.Valid) (hsound : room.LeaseSound)
    (hgame : room.game = (s.room.game.commitCreation s.room.heap owner generation).2) :
    Follows s { s with room } := by
  rcases commitCreation_cases s.room.heap owner generation s.room.game with heq | ⟨-, -, heq⟩
  · rw [heq] at hgame
    exact hs.sameRoster hvalid hsound (hgame ▸ SameRoster.refl _)
  rw [heq] at hgame
  have hids : room.game.actorIds = s.room.game.actorIds := by
    rw [hgame]
    rfl
  constructor
  · refine
      { valid := hvalid
        lease := hsound
        owned := fun hc => ?_
        cache := by
          show s.cached.map Prod.fst = room.game.eventCache
          rw [hgame, hs.cache]
        captured := by
          show s.initial.map Prod.fst = room.game.creationInitial.eventCache
          rw [hgame, hs.captured]
        recorded := hs.recorded
        held := hs.held
        distinct := ?_
        numbered := ?_ }
    · rw [hgame] at hc
      cases hc
    · show ∀ a ∈ room.game.actorIds, ∀ b ∈ room.game.actorIds, s.holder a = s.holder b → a = b
      rw [hids]
      exact hs.distinct
    · intro entry hentry hsender actorId hactor
      exact hs.numbered entry hentry hsender actorId (hids ▸ hactor)
  · intro hattributed entry hentry hmem
    exact hattributed entry hentry (hids ▸ hmem)

/-- A rollback leaves no one in the room. -/
theorem Sound.abort (hs : s.Sound) {owner : Option PeerRef} {generation : Nat} {room : Room}
    (hvalid : room.Valid) (hsound : room.LeaseSound)
    (hgame : room.game = (s.room.game.abortCreationTransaction s.room.heap owner generation).2)
    (hactive : s.room.game.isCreationActive s.room.heap owner generation = true) :
    Follows s { s with room, cached := s.initial } := by
  obtain ⟨_, heq⟩ := abortCreationTransaction_eq hactive
  have hempty : room.game.peers = [] := by
    have hattempt : Room.InAttempt s.room.game.creationInitial owner s.room := by
      obtain ⟨hcreating, howner, -, -, hlock⟩ := isCreationActive_iff.mp hactive
      refine ⟨rfl, fun peer hpeer => ?_⟩
      rw [hs.owned hcreating peer hpeer, ← hlock]
      rcases s.room.heap.lock_eq_self_or_none s.room.game.creationOwner with hself | hnone
      · exact hself.symm
      · exact absurd (hlock.symm.trans hnone) howner
    rw [hgame]
    exact (hattempt.abort hactive).2
  rw [heq] at hgame
  constructor
  · refine
      { valid := hvalid
        lease := hsound
        owned := fun hc => ?_
        cache := by
          show s.initial.map Prod.fst = room.game.eventCache
          rw [hgame, hs.captured]
        captured := by
          show s.initial.map Prod.fst = room.game.creationInitial.eventCache
          rw [hgame, hs.captured]
        recorded := ⟨hs.recorded.2, hs.recorded.2⟩
        held := hs.held
        distinct := ?_
        numbered := ?_ }
    · rw [hgame] at hc
      cases hc
    · simp [actorIds, hempty]
    · simp [actorIds, hempty]
  · intro _ entry _ hmem
    simp [actorIds, hempty] at hmem

/-- A room whose cache an operation edits is as valid as before. -/
theorem Sound.edited (hs : s.Sound) (eventCache : List Event) :
    ({ s.room with game := { s.room.game with eventCache } } : Room).Valid ∧
      ({ s.room with game := { s.room.game with eventCache } } : Room).LeaseSound :=
  ⟨hs.valid.perform {} (.editEventCache fun _ => eventCache),
    hs.lease.of_lease rfl (PeerHeap.Later.refl _)⟩

theorem Sound.remove (hs : s.Sound) (keep : Event → Bool) {game : Game}
    (hgame : game = { s.room.game with eventCache := s.room.game.eventCache.filter keep }) :
    Follows s { s with room := { s.room with game }
                       cached := survivors game.eventCache s.cached } := by
  subst hgame
  obtain ⟨hvalid, hsound⟩ := hs.edited (s.room.game.eventCache.filter keep)
  exact hs.shrink hvalid hsound (List.Subset.refl _) (List.Subset.refl _) rfl rfl

/-- An actor's event is recorded under the actor's session. -/
theorem Sound.append (hs : s.Sound) {request : RaiseEventRequest} {sender : Int}
    (hsender : sender ∈ s.room.game.actorIds) (hcode : request.code ≤ 220) :
    Follows s
      { s with
        room.game.eventCache := s.room.game.eventCache ++ (request.cachedCopy sender).toList
        cached := s.cached ++
          (request.cachedCopy sender).toList.map fun ev => (ev, s.holder sender) } := by
  obtain ⟨hvalid, hsound⟩ :=
    hs.edited (s.room.game.eventCache ++ (request.cachedCopy sender).toList)
  have hnew : ∀ entry ∈ (request.cachedCopy sender).toList.map fun ev => (ev, s.holder sender),
      entry.1.code ≠ propertiesUpdateCode ∧ entry.2 = s.holder sender ∧
        (entry.1.senderActorId = sender ∨ entry.1.senderActorId = 0) := by
    intro entry hentry
    obtain ⟨ev, hev, rfl⟩ := List.mem_map.mp hentry
    obtain ⟨hevCode, hevSender⟩ := RaiseEventRequest.cachedCopy_spec (Option.mem_toList.mp hev)
    refine ⟨fun heq => ?_, rfl, hevSender⟩
    rw [hevCode] at heq
    rw [heq] at hcode
    exact absurd hcode (by decide)
  constructor
  · exact
      { valid := hvalid
        lease := hsound
        owned := hs.owned
        cache := by simp [hs.cache, Function.comp_def]
        captured := hs.captured
        recorded := by
          refine ⟨fun entry hentry => ?_, hs.recorded.2⟩
          rcases List.mem_append.mp hentry with hbefore | hafter
          · exact hs.recorded.1 entry hbefore
          · obtain ⟨hevCode, hsession, -⟩ := hnew entry hafter
            exact ⟨hevCode, hsession ▸ hs.held sender⟩
        held := hs.held
        distinct := hs.distinct
        numbered := by
          intro entry hentry hne actorId hactor hholder
          rcases List.mem_append.mp hentry with hbefore | hafter
          · exact hs.numbered entry hbefore hne actorId hactor hholder
          · obtain ⟨-, hsession, hevSender⟩ := hnew entry hafter
            rw [hevSender.resolve_right hne]
            exact hs.distinct actorId hactor sender hsender (hholder.trans hsession) }
  · intro hattributed entry hentry hmem
    rcases List.mem_append.mp hentry with hbefore | hafter
    · exact hattributed entry hbefore hmem
    · obtain ⟨-, hsession, hevSender⟩ := hnew entry hafter
      have hne : entry.1.senderActorId ≠ 0 := by
        have := (hs.valid.actors.range _ hmem).1
        omega
      rw [hevSender.resolve_right hne, hsession]

/-- What one step does: the record follows the room, and no event changes hands exactly if the
number of a newcomer is unused. -/
structure StepSpec (s s' : Sessions) (op : SessionOp) : Prop where
  sound : s'.Sound
  attributed_iff : s.Attributed → (s'.Attributed ↔ s.NumberUnused op)

theorem Follows.stepSpec {s' : Sessions} (hfollows : Follows s s') {op : SessionOp}
    (hunused : s.NumberUnused op) : StepSpec s s' op where
  sound := hfollows.sound
  attributed_iff hattributed := iff_of_true (hfollows.attributed hattributed) hunused

theorem numberUnused_of_not_admitted {op : RoomOp} (hadmitted : s.room.admitted op = none) :
    s.NumberUnused (.room op) := by
  intro gp hgp
  rw [hadmitted] at hgp
  cases hgp

theorem Sound.add (hs : s.Sound) {op : RoomOp}
    (hop : (∃ index, op = .addPeer index) ∨
      ∃ index owner generation, op = .addPeerForCreation index owner generation)
    {room : Room} (hroom : room = s.room.perform settings op) (hsound : room.LeaseSound) :
    StepSpec s (s.record room op) (.room op) := by
  have hvalid : room.Valid := hroom ▸ hs.valid.perform settings op
  cases hadmitted : s.room.admitted op with
  | none =>
    have hrecord : s.record room op = { s with room } := by
      rcases hop with ⟨index, rfl⟩ | ⟨index, owner, generation, rfl⟩ <;>
        simp only [record, hadmitted]
    rw [hrecord]
    exact (hs.sameRoster hvalid hsound
      (hroom ▸ Room.sameRoster_of_not_admitted hadmitted hop)).stepSpec
        (numberUnused_of_not_admitted hadmitted)
  | some gp =>
    have hrecord : s.record room op =
        { s with
          room
          begun := s.begun + 1
          holder := Function.update s.holder gp.actorId (s.begun + 1) } := by
      rcases hop with ⟨index, rfl⟩ | ⟨index, owner, generation, rfl⟩ <;>
        simp only [record, hadmitted]
    obtain ⟨hsound', hiff⟩ := hs.admit hvalid hsound (hroom ▸ Room.admits hs.valid hs.lease hadmitted)
    rw [hrecord]
    refine ⟨hsound', fun hattributed => (hiff hattributed).trans ?_⟩
    simp only [NumberUnused, hadmitted, Option.mem_def, Option.some.injEq, forall_eq']

theorem Sound.perform (hs : s.Sound) {op : RoomOp} (hlocal : (SessionOp.room op).isLocal = true)
    (hcaller : s.room.heap.lock op.caller = op.caller) :
    StepSpec s (s.record (s.room.perform settings op) op) (.room op) := by
  have hvalid : (s.room.perform settings op).Valid := hs.valid.perform settings op
  have hop : op.isLocal = true := by
    cases op <;> first | rfl | cases hlocal
  have hsound : (s.room.perform settings op).LeaseSound := by
    have hstep : (s.room.step settings op).LeaseSound :=
      Room.leaseSound_keeps s.room op hs.lease hop
    rwa [Room.step, if_pos hcaller] at hstep
  cases op with
  | addPeer index => exact hs.add (Or.inl ⟨index, rfl⟩) rfl hsound
  | addPeerForCreation index owner generation =>
    exact hs.add (Or.inr ⟨index, owner, generation, rfl⟩) rfl hsound
  | removePeer peer =>
    obtain ⟨keep, hkeep⟩ := removePeer_eventCache s.room.heap peer s.room.game
    have hpeers := removePeer_sublist s.room.heap peer s.room.game
    exact (hs.shrink hvalid hsound (hpeers.map _).subset (hpeers.map _).subset hkeep
      (removePeer_lease peer s.room.game)).stepSpec (numberUnused_of_not_admitted rfl)
  | tryBeginCreation owner =>
    have hunused : s.NumberUnused (.room (.tryBeginCreation owner)) :=
      numberUnused_of_not_admitted rfl
    simp only [record]
    split
    · next hrefused =>
      rcases tryBeginCreation_cases owner s.room.game with heq | ⟨-, -, -, -, heq⟩
      · have hgame : (s.room.perform settings (.tryBeginCreation owner)).game = s.room.game := by
          simp only [Room.perform, heq]
        exact (hs.sameRoster hvalid hsound (hgame ▸ SameRoster.refl _)).stepSpec hunused
      · rw [heq] at hrefused
        cases hrefused
    · next hbegin => exact (hs.tryBegin hvalid hsound rfl hbegin).stepSpec hunused
  | commitCreation owner generation =>
    exact (hs.commit hvalid hsound rfl).stepSpec (numberUnused_of_not_admitted rfl)
  | abortCreationTransaction owner generation =>
    have hunused : s.NumberUnused (.room (.abortCreationTransaction owner generation)) :=
      numberUnused_of_not_admitted rfl
    simp only [record]
    split
    · next haborted =>
      have hactive : s.room.game.isCreationActive s.room.heap owner generation = true := by
        by_contra hinactive
        rw [abortCreationTransaction_of_inactive (Bool.eq_false_iff.mpr hinactive)] at haborted
        cases haborted
      exact (hs.abort hvalid hsound rfl hactive).stepSpec hunused
    · next hrefused =>
      have hinactive : s.room.game.isCreationActive s.room.heap owner generation = false := by
        by_contra hactive
        obtain ⟨_, heq⟩ := abortCreationTransaction_eq (Bool.eq_true_of_not_eq_false hactive)
        rw [heq] at hrefused
        exact hrefused rfl
      have hgame : (s.room.perform settings (.abortCreationTransaction owner generation)).game =
          s.room.game := by
        simp only [Room.perform, abortCreationTransaction_of_inactive hinactive]
      exact (hs.sameRoster hvalid hsound (hgame ▸ SameRoster.refl _)).stepSpec hunused
  | _ =>
    have hroster := Room.perform_sameRoster settings s.room hlocal
    simp only [reduceCtorEq, exists_false, or_false] at hroster
    exact (hs.sameRoster hvalid hsound hroster).stepSpec (numberUnused_of_not_admitted rfl)

theorem Sound.step (hs : s.Sound) {op : SessionOp} (hlocal : op.isLocal = true) :
    StepSpec s (s.step settings protocol op) op := by
  cases op with
  | room op =>
    simp only [Sessions.step]
    split
    · next hcaller => exact hs.perform hlocal hcaller
    · next hcaller =>
      refine ⟨hs, fun hattributed => iff_of_true hattributed fun gp hadmitted => ?_⟩
      have hadmits : s.room.Admits op gp (s.room.perform settings op).game :=
        Room.admits hs.valid hs.lease hadmitted
      exact absurd hadmits.caller hcaller
  | raiseEvent peer request =>
    simp only [Sessions.step]
    rcases raiseEvent_cases s.room.heap protocol.asTable peer request s.room.game with
      ⟨outcome, keep, houtcome, heq⟩ | ⟨sender, hsender, hcode, heq⟩
    · rw [heq]
      have hunused : s.NumberUnused (.raiseEvent peer request) := trivial
      have hremoved := (hs.remove keep rfl).stepSpec hunused
      cases outcome with
      | broadcast event => exact absurd rfl (houtcome event)
      | _ => exact hremoved
    · rw [heq]
      exact (hs.append hsender hcode).stepSpec trivial
  | cleanupCacheOnLeave peer =>
    obtain ⟨keep, heq⟩ := cleanupCacheOnLeave_eq s.room.heap protocol.cleanupCacheOnLeave peer
      s.room.game
    exact (hs.remove keep heq).stepSpec trivial

/-- Every client is flooded with exactly the events of the other sessions, and
`RemoveFromCacheForActorsLeft` removes exactly those of the sessions that are over, in every state
of a run, exactly if every newcomer of the run gets a number that is on no event in the cache. -/
theorem late_joiners_flooded_iff (hnew : s.IsNew) {ops : List SessionOp}
    (hops : ∀ op ∈ ops, op.isLocal = true) :
    Transition.Always (step settings protocol) (fun s => s.Floods ∧ s.Cleans) s ops ↔
      Transition.EachStep (step settings protocol) NumberUnused s ops := by
  have hkeeps : Transition.Keeps (step settings protocol) (fun _ op => op.isLocal = true) Sound :=
    fun _ _ hs hlocal => (hs.step hlocal).sound
  have hclaim : ∀ s : Sessions, s.Sound → (s.Floods ∧ s.Cleans ↔ s.Attributed) :=
    fun s hs => ⟨fun h => hs.cleans_iff.mp h.2, fun h => ⟨hs.floods h, hs.cleans_iff.mpr h⟩⟩
  have hsound := sound_of_isNew hnew
  refine Transition.always_iff_eachStep hkeeps (fun s op hs hlocal hclaims => ?_) hsound
    ((hclaim s hsound).mpr (attributed_of_isNew hnew))
    (Transition.eachStep_of_forall fun op hop _ => hops op hop)
  rw [hclaim _ (hs.step hlocal).sound]
  exact (hs.step hlocal).attributed_iff ((hclaim s hs).mp hclaims)

end Steps

section Hall

/-- A room in a process that many clients have connected to. -/
def hall : Sessions where
  room :=
    { heap := fun r => .live (.mk (some (.mk (if r = 1 then "ada" else if r = 2 then "bob"
        else "guest") "" 30000 0 none none none)))
      game := { info := ⟨"app", "1.0", "lobby", 0, "room", ""⟩ } }

/-- Ada creates the room without `DeleteCacheOnLeave` and caches an event; Bob joins her, and she
leaves. -/
def adaLeaves : List SessionOp :=
  [.room (.tryBeginCreation (some 1)),
    .room (.applyCreationSettings (some 1) 1 { flags := some 1 }),
    .room (.createPeer (some 1)), .room (.addPeerForCreation 0 (some 1) 1),
    .room (.commitCreation (some 1) 1),
    .raiseEvent (some 1) { code := 7, cache := .addToRoomCache },
    .room (.createPeer (some 2)), .room (.addPeer 0), .room (.removePeer (some 1))]

/-- A guest joins the room. -/
def enters (guest : PeerRef) : List SessionOp :=
  [.room (.createPeer (some guest)), .room (.addPeer 0)]

/-- A guest joins the room and leaves it again. -/
def visits (guest : PeerRef) : List SessionOp :=
  enters guest ++ [.room (.removePeer (some guest))]

theorem isNew_hall : hall.IsNew := ⟨⟨rfl, rfl⟩, rfl, rfl, rfl, rfl⟩

/-- A guest who comes after Ada has left is flooded with her event. -/
theorem late_joiners_flooded_guest :
    Transition.Always (step {} {}) (fun s => s.Floods ∧ s.Cleans) hall
      (adaLeaves ++ enters 3) :=
  (late_joiners_flooded_iff isNew_hall (by decide)).mpr (by decide +kernel)

/-- Ada leaves, and `252` guests visit the room one after the other.  The next guest gets Ada's
number, is not flooded with Ada's event, and keeps it in the cache. -/
def numberReturns : List SessionOp :=
  adaLeaves ++ (List.range 252).flatMap (fun i => visits (i + 3)) ++ enters 255

/-- The room after that. -/
def returned : Sessions := Transition.run (step {} {}) hall numberReturns

theorem isLocal_numberReturns : ∀ op ∈ numberReturns, op.isLocal = true := by
  intro op hop
  rcases List.mem_append.mp hop with hop | hop
  · rcases List.mem_append.mp hop with hada | hguest
    · have hlocal : ∀ op ∈ adaLeaves, op.isLocal = true := by decide
      exact hlocal op hada
    · obtain ⟨i, -, hvisit⟩ := List.mem_flatMap.mp hguest
      simp only [visits, enters, List.cons_append, List.nil_append, List.mem_cons,
        List.not_mem_nil, or_false] at hvisit
      rcases hvisit with rfl | rfl | rfl <;> rfl
  · have hlocal : ∀ op ∈ enters 255, op.isLocal = true := by decide
    exact hlocal op hop

set_option maxRecDepth 20000 in
theorem returned_facts :
    GameFlag.deleteCacheOnLeave.isSet returned.room.game.flags = false ∧
      (∃ gp ∈ returned.room.game.peers,
        (returned.room.heap.lock gp.peer).isSome = true ∧ gp.actorId = 1) ∧
      (returned.room.game.floodPeerByActor returned.room.heap 1).map
        (fun packets => packets.filterMap FloodPacket.event?) = some [] ∧
      (returned.cached.filter fun entry =>
        entry.1.senderActorId = 0 ∨ entry.2 ≠ returned.holder 1).length = 1 ∧
      returned.room.game.removeFromCacheForActorsLeft.eventCache.length = 1 ∧
      (returned.cached.filter fun entry =>
        entry.1.senderActorId = 0 ∨ entry.2 ∈ returned.present).length = 0 := by
  decide +kernel

theorem not_flooded_under_returned_number :
    hall.IsNew ∧ (∀ op ∈ numberReturns, op.isLocal = true) ∧
      returned = Transition.run (step {} {}) hall numberReturns ∧
      GameFlag.deleteCacheOnLeave.isSet returned.room.game.flags = false ∧
      ¬returned.Floods ∧ ¬returned.Cleans := by
  obtain ⟨hflags, ⟨gp, hgp, hlive, hactor⟩, hflood, hothers, hkept, hpresent⟩ := returned_facts
  refine ⟨isNew_hall, isLocal_numberReturns, rfl, hflags, ?_, ?_⟩
  · intro hfloods
    obtain ⟨packets, hpackets, hevents⟩ := hfloods gp hgp hlive
    rw [hactor] at hpackets hevents
    rw [hpackets, Option.map_some, Option.some_inj] at hflood
    rw [hflood] at hevents
    have hlength := congrArg List.length hevents
    rw [List.length_map, hothers] at hlength
    cases hlength
  · intro hcleans
    have hlength := congrArg List.length hcleans
    rw [List.length_map, hkept, hpresent] at hlength
    cases hlength

end Hall

end Sessions

end LuxonServer
