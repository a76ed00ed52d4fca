import LuxonServer.Game.Delivery

/-! The end of a client's connection to a room: what the handler does before and after
`remove_peer`, and what becomes of the event cache. -/

namespace LuxonServer

/-- The `Leave` event, with the actors that stay, and with their master when it may have changed. -/
structure LeaveEvent where
  senderActorId : Int
  actorList : List Int
  masterClientId : Option Int
  deriving DecidableEq, Repr

/-- What has come of a disconnect: the room, the number of times that the lobby was told of it, and
the event. -/
structure Disconnection where
  game : Game
  lobbyUpdates : Nat
  leaveEvent : Option LeaveEvent := none

namespace Game

/-- `DictKeyCodes::RoutingAndEvents::CleanupCacheOnLeave`. -/
def cleanupCacheOnLeaveCode : UInt8 := 241

/-- `GameServerHandler::HandleDisconnect` for the room that the connection is bound to; `creation`
is the handler's `creation_generation_`. -/
def handleDisconnect (h : PeerHeap) (peer : Option PeerRef) (creation : Nat) (g : Game) :
    Disconnection :=
  let (aborted, g) :=
    if creation ≠ 0 then g.abortCreationTransaction h peer creation else (false, g)
  let actorId := (g.actorIdForPeer h peer).getD 0
  if g.activePeerCount ≠ 0 ∧ actorId ≠ 0 ∧ (g.findActor actorId).isSome then
    let (_, left) := (g.cleanupCacheOnLeave h cleanupCacheOnLeaveCode peer).removePeer h peer
    { game := left
      lobbyUpdates := aborted.toNat + 1
      leaveEvent :=
        if GameFlag.suppressRoomEvents.isSet left.flags then none
        else
          some
            { senderActorId := actorId
              actorList := left.peers.map (·.actorId)
              masterClientId := if actorId = g.masterActor then some left.masterActor else none } }
  else { game := g, lobbyUpdates := aborted.toNat }

variable {h : PeerHeap} {g : Game} {r : PeerRef}

/-- A node of the connection has sent the event. -/
def sentBy (h : PeerHeap) (r : PeerRef) (peers : List GamePeer) (ev : Event) : Bool :=
  peers.any fun gp =>
    h.lock gp.peer == some r && (ev.senderActorId == gp.actorId && ev.senderActorId != 0)

theorem sentBy_cons_of_ne {gp : GamePeer} (hlock : h.lock gp.peer ≠ some r)
    (peers : List GamePeer) : sentBy h r (gp :: peers) = sentBy h r peers := by
  ext ev
  simp [sentBy, hlock]

/-- The loop of `remove_peer` removes the events of every node of the connection. -/
theorem eventCache_sweep (flags : UInt8) (peers : List GamePeer) (st : Sweep) :
    (peers.foldl (sweepPeer h flags r) st).eventCache =
      if GameFlag.deleteCacheOnLeave.isSet flags then
        st.eventCache.filter fun ev => !sentBy h r peers ev
      else st.eventCache := by
  induction peers generalizing st with
  | nil => simp [sentBy]
  | cons gp peers ih =>
    rw [List.foldl_cons, ih, sweepPeer]
    cases hl : h.lock gp.peer with
    | none => simp [sentBy_cons_of_ne, hl]
    | some other =>
      by_cases hother : other = r
      · simp only [hother, if_true]
        split
        · rw [dropEventsOf, List.filter_filter]
          refine List.filter_congr fun ev _ => ?_
          simp [sentBy, hl, hother, Bool.and_comm]
        · rfl
      · simp [sentBy_cons_of_ne, hl, hother]

theorem eventCache_removePeer (g : Game) :
    (g.removePeer h (some r)).2.eventCache =
      if GameFlag.deleteCacheOnLeave.isSet g.flags then
        g.eventCache.filter fun ev => !sentBy h r g.peers ev
      else g.eventCache := by
  have hsweep := eventCache_sweep (h := h) (r := r) g.flags g.peers { eventCache := g.eventCache }
  rw [← hsweep, removePeer]
  simp only
  split
  · rfl
  · split <;> split <;> rfl

/-- The disconnect of an actor of a room that is not being created. -/
theorem eventCache_handleDisconnect (hg : g.ActorsSound) (hcreating : g.isCreating = false)
    {actorId : Int} (hjoined : g.actorIdForPeer h (some r) = some actorId) (creation : Nat) :
    let cleaned :=
      if g.flags &&& cleanupCacheOnLeaveCode ≠ 0 then
        g.eventCache.filter fun ev => ev.senderActorId != actorId
      else g.eventCache
    (g.handleDisconnect h (some r) creation).game.eventCache =
      if GameFlag.deleteCacheOnLeave.isSet g.flags then
        cleaned.filter fun ev => !sentBy h r g.peers ev
      else cleaned := by
  have hmem := mem_actorIds_of_actorIdForPeer hjoined
  have hne : actorId ≠ 0 := by
    have hrange := hg.range actorId hmem
    omega
  have hfound : (g.findActor actorId).isSome = true := (findActor_of_active hg.active).mpr hmem
  have hcount : g.activePeerCount ≠ 0 := by
    obtain ⟨gp, hgp, -⟩ := List.mem_map.mp hmem
    exact (List.length_pos_of_mem hgp).ne'
  have habort : (if creation ≠ 0 then g.abortCreationTransaction h (some r) creation
      else (false, g)) = (false, g) := by
    split
    · exact abortCreationTransaction_of_inactive (by simp [isCreationActive, hcreating])
    · rfl
  simp only [handleDisconnect, habort, hjoined, Option.getD_some]
  rw [if_pos ⟨hcount, hne, hfound⟩, eventCache_removePeer, cleanupCacheOnLeave]
  simp only [hjoined, Option.getD_some, hne, hfound, ne_eq, not_false_eq_true, true_and]
  by_cases hmask : g.flags &&& cleanupCacheOnLeaveCode = 0
  · simp only [hmask, not_true_eq_false, if_false]
  · simp only [hmask, not_false_eq_true, if_true]

theorem sentBy_of_actor {actorId : Int} (hne : actorId ≠ 0)
    (hjoined : g.actorIdForPeer h (some r) = some actorId) {ev : Event}
    (hsender : ev.senderActorId = actorId) : sentBy h r g.peers ev = true := by
  rw [actorIdForPeer, if_neg (Option.some_ne_none r)] at hjoined
  obtain ⟨gp, hgp, rfl⟩ := Option.map_eq_some_iff.mp hjoined
  have hfound := List.find?_some hgp
  have hlock : h.lock gp.peer = some r := by simpa using (Bool.and_eq_true_iff.mp hfound).2
  refine List.any_eq_true.mpr ⟨gp, List.mem_of_find?_eq_some hgp, ?_⟩
  simp [hlock, hsender, hne]

/-- `remove_peer` removes the actor's events, whether the handler has removed them before it or
not. -/
theorem filter_cleaned {actorId : Int}
    (hown : ∀ ev : Event, ev.senderActorId = actorId → sentBy h r g.peers ev = true)
    (cleans : Prop) [Decidable cleans] (cache : List Event) :
    (if cleans then cache.filter fun ev => ev.senderActorId != actorId else cache).filter
        (fun ev => !sentBy h r g.peers ev) =
      cache.filter fun ev => !sentBy h r g.peers ev := by
  split
  · rw [List.filter_filter]
    refine List.filter_congr fun ev _ => ?_
    by_cases hsender : ev.senderActorId = actorId
    · rw [hown ev hsender]
      rfl
    · simp [hsender]
  · rfl

/-- The nodes of the connection have sent what the actor has sent, as far as an event tells. -/
theorem not_sentBy_eq_iff (hg : g.ActorsSound) {actorId : Int}
    (hown : ∀ ev : Event, ev.senderActorId = actorId → sentBy h r g.peers ev = true) {ev : Event} :
    (!sentBy h r g.peers ev) = (ev.senderActorId != actorId) ↔
      ∀ gp ∈ g.peers, h.lock gp.peer = some r → ev.senderActorId = gp.actorId →
        gp.actorId = actorId := by
  by_cases hsender : ev.senderActorId = actorId
  · rw [hown ev hsender]
    refine iff_of_true (by simp [hsender]) fun gp _ _ hgp => ?_
    rw [← hgp, hsender]
  · rw [show (ev.senderActorId != actorId) = true by simp [hsender], Bool.not_eq_true',
      ← Bool.not_eq_true, sentBy, List.any_eq_true, not_exists]
    refine forall_congr' fun gp => ?_
    rw [not_and]
    refine forall_congr' fun hgp => ?_
    have hrange := hg.range gp.actorId (List.mem_map_of_mem hgp)
    simp only [Bool.and_eq_true, beq_iff_eq, bne_iff_ne]
    constructor
    · intro hnot hlock heq
      exact absurd ⟨hlock, heq, by omega⟩ hnot
    · rintro hsame ⟨hlock, heq, -⟩
      exact hsender (heq.trans (hsame hlock heq))

theorem filter_eq_filter_iff {p q : Event → Bool} {cache : List Event} :
    cache.filter p = cache.filter q ↔ ∀ ev ∈ cache, p ev = q ev := by
  refine ⟨fun heq ev hev => ?_, List.filter_congr⟩
  have hmem : ev ∈ cache.filter p ↔ ev ∈ cache.filter q := by rw [heq]
  simpa [List.mem_filter, hev, ← Bool.eq_iff_iff] using hmem

end Game

namespace Room

open Game

variable {settings : AppSettings} {s : Room}

/-- After an actor of a room has left, the cache is without the actor's events if the room is to
delete them, and is what it was if not, exactly if no event of another node of the same connection
is in it in the first case, and in the second the flags have no bit of the code or the actor has no
event in it. -/
theorem eventCache_handleDisconnect_iff (hs : Reachable settings s)
    (hcreated : s.game.isCreated = true ∧ s.game.isCreating = false) {r : PeerRef} {actorId : Int}
    (hjoined : s.game.actorIdForPeer s.heap (some r) = some actorId) (creation : Nat)
    (flags : UInt8) (cache : List Event) :
    let g : Game := { s.game with flags, eventCache := cache }
    (g.handleDisconnect s.heap (some r) creation).game.eventCache =
        (if GameFlag.deleteCacheOnLeave.isSet flags then
          cache.filter fun ev => ev.senderActorId != actorId
        else cache) ↔
      if GameFlag.deleteCacheOnLeave.isSet flags then
        ∀ ev ∈ cache, ∀ gp ∈ s.game.peers, s.heap.lock gp.peer = some r →
          ev.senderActorId = gp.actorId → gp.actorId = actorId
      else flags &&& cleanupCacheOnLeaveCode = 0 ∨ ∀ ev ∈ cache, ev.senderActorId ≠ actorId := by
  intro g
  have hg : g.ActorsSound := hs.valid.actors.congr rfl rfl rfl rfl
  have hne : actorId ≠ 0 := by
    have hrange := hg.range actorId (mem_actorIds_of_actorIdForPeer hjoined)
    omega
  have hown : ∀ ev : Event, ev.senderActorId = actorId →
      sentBy s.heap r s.game.peers ev = true := fun ev => sentBy_of_actor hne hjoined
  rw [eventCache_handleDisconnect hg hcreated.2 hjoined]
  cases hflag : GameFlag.deleteCacheOnLeave.isSet flags with
  | true =>
    simp only [g, if_true]
    rw [filter_cleaned (g := s.game) hown, filter_eq_filter_iff]
    exact forall₂_congr fun ev _ => not_sentBy_eq_iff hs.valid.actors hown
  | false =>
    simp only [g, Bool.false_eq_true, if_false]
    split
    · next hmask =>
      rw [List.filter_eq_self]
      simp [hmask]
    · next hmask => exact iff_of_true rfl (.inl (not_not.mp hmask))

/-- An event of Ada, and one that no actor has sent. -/
def adasCache : List Event := [{ code := 1, senderActorId := 1 }, { code := 2, senderActorId := 0 }]

/-- Ada leaves a room that deletes the events of those who leave. -/
theorem eventCache_handleDisconnect_adas :
    let g : Game := { adas.game with flags := 2, eventCache := adasCache }
    (g.handleDisconnect adas.heap (some 1) 0).game.eventCache =
      adasCache.filter fun ev => ev.senderActorId != 1 := by
  have hone : ∀ gp ∈ adas.game.peers, gp.actorId = 1 := by decide
  exact (eventCache_handleDisconnect_iff reachable_adas (by decide)
    (by decide : adas.game.actorIdForPeer adas.heap (some 1) = some 1) 0 2 _).mpr
      fun _ _ gp hgp _ _ => hone gp hgp

/-- A room that is only to check its users deletes the events of Ada. -/
theorem not_eventCache_handleDisconnect_checks :
    let g : Game := { adas.game with flags := 1, eventCache := adasCache }
    g.isCreated = true ∧ g.isCreating = false ∧
      GameFlag.deleteCacheOnLeave.isSet g.flags = false ∧
      g.actorIdForPeer adas.heap (some 1) = some 1 ∧
      (g.handleDisconnect adas.heap (some 1) 0).game.eventCache ≠ adasCache := by
  decide

end Room

end LuxonServer
