import LuxonServer.Game.Joining
import LuxonServer.Game.Leaving
import LuxonServer.Game.Seats

/-! A client joins a room that exists: every way out of the handler, with what it takes back. -/

namespace LuxonServer

/-- The result of a chain of plugin calls. -/
inductive GamePluginResult where
  | continue
  | fail
  | cancel
  deriving DecidableEq, Repr

/-- What the plugins of a room say to one join. -/
structure JoinPlugins where
  beforeJoin : GamePluginResult := .continue
  onJoinGame : GamePluginResult := .continue
  publishUserId : Bool := true

/-- The parameters of a join that a room takes notice of. -/
structure JoinRequest where
  expectedUsers : List String := []
  actorProperties : Option Hashtable := none

inductive JoinAnswer where
  | refused (code : ErrorCode) (message : String) (disconnects : Bool)
  /-- `OperationNotAllowedInCurrentState` if a plugin cancels, `PluginReportedError` if it fails. -/
  | refusedByPlugin (result : GamePluginResult)
  | joined
  deriving DecidableEq, Repr

/-- The join has not come about. -/
def JoinAnswer.IsRefusal (answer : JoinAnswer) : Prop := answer ≠ .joined

instance (answer : JoinAnswer) : Decidable answer.IsRefusal := inferInstanceAs (Decidable (_ ≠ _))

namespace Game

/-- `rollback_expected_users`. -/
def rollbackExpectedUsers (added : List (String × Nat)) (g : Game) : Game :=
  added.foldl (fun g entry => (g.removeExpectedUserIfGeneration entry.1 entry.2).2) g

/-- `rollback_join` of a client that does not create the room; `hasPeer` is whether `game_peer_` is
set. -/
def rollbackJoinExisting (h : PeerHeap) (peer : Option PeerRef) (hasPeer : Bool)
    (added : List (String × Nat)) (g : Game) : Game :=
  (if hasPeer then (g.removePeer h peer).2 else g).rollbackExpectedUsers added

/-- What a join does with the actor that it has added when the plugins have agreed. -/
def completeJoin (h : PeerHeap) (peer : Option PeerRef) (request : JoinRequest)
    (plugins : JoinPlugins) (g : Game) : Game :=
  let actorId := (g.actorIdForPeer h peer).getD 0
  let g :=
    if plugins.publishUserId then g
    else
      { g with
        peers := updatePeer (fun gp => gp.active && gp.actorId == actorId)
          (fun gp => { gp with actorProps := gp.actorProps.erase userIdKey }) g.peers }
  match request.actorProperties with
  | none => g
  | some props => (g.insertActorProps actorId props).2

/-- `JoinGame` of a connection that is not in the room, for a room that is created. -/
def joinExisting (h : PeerHeap) (settings : AppSettings) (peer : Option PeerRef) (userId : String)
    (request : JoinRequest) (plugins : JoinPlugins) (g : Game) : JoinAnswer × Game :=
  match g.validateJoin h settings userId 0 false with
  | (.ok, _) =>
    if plugins.beforeJoin ≠ .continue then
      (.refusedByPlugin plugins.beforeJoin, g.rollbackJoinExisting h peer false [])
    else
      match g.validateJoinWith h settings userId request.expectedUsers false with
      | (.ok, _) =>
        let (added, g) := g.reserveAllForJoin h peer userId request.expectedUsers
        let (gp, g) := g.createPeer h peer
        if !gp.isValid then
          (.refused .gameFull "Unable to allocate an actor" true,
            g.rollbackJoinExisting h peer false added)
        else
          match g.addPeer h gp with
          | (false, g) =>
            (.refused .gameFull "Unable to add player to game" true,
              g.rollbackJoinExisting h peer false added)
          | (true, g) =>
            if plugins.onJoinGame ≠ .continue then
              -- the handler removes the actor itself, and the rollback then has none
              let (_, g) := g.removePeer h peer
              (.refusedByPlugin plugins.onJoinGame, g.rollbackJoinExisting h peer false added)
            else (.joined, g.completeJoin h peer request plugins)
      | (code, message) => (.refused code message true, g.rollbackJoinExisting h peer false [])
  | (code, message) => (.refused code message false, g.rollbackJoinExisting h peer false [])

/-- What a join that is refused is to leave as it was. -/
structure NoTrace (g g' : Game) : Prop where
  peers : g'.peers = g.peers
  expectedUsers : ∀ u, u ∈ g'.expectedUsers ↔ u ∈ g.expectedUsers
  eventCache : g'.eventCache = g.eventCache
  seatsTaken : g'.seatsTaken = g.seatsTaken

variable {h : PeerHeap} {g : Game}

theorem NoTrace.refl (g : Game) : NoTrace g g := ⟨rfl, fun _ => Iff.rfl, rfl, rfl⟩

section Reserving

/-- The reservations that a loop has made in a room, on record with their generations. -/
structure ReservedSince (g : Game) (st : List (String × Nat) × Game) : Prop where
  sound : st.2.SeatsSound
  lookup : ∀ u n, st.2.expectedUserGenerations.lookup u = some n ↔
    g.expectedUserGenerations.lookup u = some n ∨ (u, n) ∈ st.1
  fresh : ∀ u n, (u, n) ∈ st.1 → u ∉ g.expectedUsers

theorem reservedSince_reserveForJoin {peer : Option PeerRef} {userId : String}
    {st : List (String × Nat) × Game} (hst : ReservedSince g st) (hg : g.SeatsSound)
    (user : String) : ReservedSince g (reserveForJoin h peer userId st user) := by
  obtain ⟨added, g'⟩ := st
  unfold reserveForJoin
  simp only
  split
  · exact hst
  · rcases reserve_cases user 30000 g' with ⟨heq, -⟩ | ⟨hne, hnot, heq⟩
    · rw [heq]
      exact hst
    · rw [heq]
      have hold : ∀ n, g'.expectedUserGenerations.lookup user ≠ some n := fun n hl =>
        hnot ((hst.sound.keys user).mp (AList.mem_iff_lookup.mpr ⟨n, hl⟩))
      have hsound : (g'.withReservation user 30000).SeatsSound := by
        have hreserved := seatsSound_invariant.reserve user 30000 hst.sound
        rwa [heq] at hreserved
      refine ⟨hsound, fun u n => ?_, fun u n hmem => ?_⟩
      · simp only [withReservation, AList.lookup_insert_eq, List.mem_append, List.mem_singleton,
          Prod.mk.injEq, ← or_assoc, ← hst.lookup]
        by_cases hu : u = user
        · subst hu
          simp [hold, eq_comm]
        · simp [hu]
      · rcases List.mem_append.mp hmem with hmem | hnew
        · exact hst.fresh u n hmem
        · obtain ⟨rfl, rfl⟩ := Prod.mk.inj (List.mem_singleton.mp hnew)
          intro hexpected
          obtain ⟨n, hn⟩ := AList.mem_iff_lookup.mp ((hg.keys u).mpr hexpected)
          exact hold n ((hst.lookup u n).mpr (.inl hn))

theorem reservedSince_reserveAllForJoin (hg : g.SeatsSound) (peer : Option PeerRef)
    (userId : String) (users : List String) :
    ReservedSince g (g.reserveAllForJoin h peer userId users) := by
  have hinit : ReservedSince g ([], g) := ⟨hg, fun u n => by simp, fun u n hmem => by cases hmem⟩
  exact List.foldlRecOn users _ hinit fun _ hst user _ =>
    reservedSince_reserveForJoin hst hg user

theorem rollbackExpectedUsers_eq (added : List (String × Nat)) (g : Game) :
    g.rollbackExpectedUsers added =
      (added.map fun entry => (⟨entry.1, entry.2⟩ : Σ _ : String, Nat)).foldl release g := by
  rw [List.foldl_map]
  rfl

theorem lookup_rollbackExpectedUsers (added : List (String × Nat)) (g : Game) (u : String)
    (n : Nat) : (g.rollbackExpectedUsers added).expectedUserGenerations.lookup u = some n ↔
      g.expectedUserGenerations.lookup u = some n ∧ (u, n) ∉ added := by
  rw [rollbackExpectedUsers_eq, lookup_releaseAll]
  simp

theorem rollbackExpectedUsers_frame (added : List (String × Nat)) (g : Game) :
    ∃ expectedUsers expectedUserGenerations,
      g.rollbackExpectedUsers added = { g with expectedUsers, expectedUserGenerations } := by
  rw [rollbackExpectedUsers_eq]
  exact releaseAll_frame _ g

theorem seatsSound_rollbackExpectedUsers (added : List (String × Nat)) (hg : g.SeatsSound) :
    (g.rollbackExpectedUsers added).SeatsSound :=
  List.foldlRecOn added _ hg fun _ hg' entry _ =>
    seatsSound_invariant.removeIfGeneration entry.1 entry.2 hg'

/-- The rollback of a join leaves the reservations that were there, but for those of the users that
are no longer on record. -/
theorem mem_rollbackExpectedUsers (hg : g.SeatsSound) {st : List (String × Nat) × Game}
    (hst : ReservedSince g st) {g' : Game} (hg' : g'.SeatsSound) (gone : String → Prop)
    (hlookup : ∀ u n, g'.expectedUserGenerations.lookup u = some n ↔
      ¬gone u ∧ st.2.expectedUserGenerations.lookup u = some n) (u : String) :
    u ∈ (g'.rollbackExpectedUsers st.1).expectedUsers ↔ ¬gone u ∧ u ∈ g.expectedUsers := by
  rw [← (seatsSound_rollbackExpectedUsers st.1 hg').keys, ← hg.keys, AList.mem_iff_lookup,
    AList.mem_iff_lookup]
  simp only [lookup_rollbackExpectedUsers, hlookup, hst.lookup]
  constructor
  · rintro ⟨n, ⟨hstays, hold | hnew⟩, hnot⟩
    · exact ⟨hstays, n, hold⟩
    · exact absurd hnew hnot
  · rintro ⟨hstays, n, hold⟩
    refine ⟨n, ⟨hstays, .inl hold⟩, fun hnew => hst.fresh u n hnew ?_⟩
    exact (hg.keys u).mp (AList.mem_iff_lookup.mpr ⟨n, hold⟩)

end Reserving

section Refusing

variable {userId : String} {st : List (String × Nat) × Game}

theorem seatsTaken_eq {g g' : Game} (hpeers : g'.peers = g.peers)
    (hdummies : g'.dummyPeerCount = g.dummyPeerCount)
    (husers : ∀ u, u ∈ g'.expectedUsers ↔ u ∈ g.expectedUsers) :
    g'.seatsTaken = g.seatsTaken := by
  have hset : g'.expectedUsers.toFinset = g.expectedUsers.toFinset := by
    ext u
    rw [ListSet.mem_toFinset, ListSet.mem_toFinset, husers]
  rw [seatsTaken, seatsTaken, hpeers, hdummies, ← ListSet.card_toFinset, hset,
    ListSet.card_toFinset]

/-- The room is what it was when an actor has come and gone: the user had no reservation to use up,
`remove_peer` meets no other node that it retires, and no event of the next number, which it would
drop. -/
structure Removable (h : PeerHeap) (userId : String) (g : Game) : Prop where
  unexpected : userId ∉ g.expectedUsers
  live : ∀ gp ∈ g.peers, (h.lock gp.peer).isSome
  uncached : GameFlag.deleteCacheOnLeave.isSet g.flags = true →
    ∀ actorId ∈ g.nextActorId, ∀ ev ∈ g.eventCache, ev.senderActorId ≠ actorId

theorem removePeer_seats (peer : Option PeerRef) (g : Game) :
    (g.removePeer h peer).2.expectedUsers = g.expectedUsers ∧
      (g.removePeer h peer).2.expectedUserGenerations = g.expectedUserGenerations ∧
      (g.removePeer h peer).2.nextExpectedUserGeneration = g.nextExpectedUserGeneration ∧
      (g.removePeer h peer).2.dummyPeerCount = g.dummyPeerCount := by
  cases peer with
  | none => exact ⟨rfl, rfl, rfl, rfl⟩
  | some r =>
    obtain ⟨_, _, _, heq⟩ := removePeer_eq h r g
    rw [heq]
    exact ⟨rfl, rfl, rfl, rfl⟩

section Removing

variable {r : PeerRef} {gp : GamePeer}

theorem lock_ne_of_findPeer_eq_none (hactive : ∀ gp ∈ g.peers, gp.active = true)
    (hout : g.findPeer h (some r) = none) : ∀ gp ∈ g.peers, h.lock gp.peer ≠ some r := by
  intro gp hgp hlock
  have hnot := List.find?_eq_none.mp hout gp hgp
  simp [hactive gp hgp, hlock] at hnot

/-- `remove_peer` right after the actor of a connection has been added. -/
theorem peers_removePeer_added (hpeers : ∀ gp ∈ g.peers, h.lock gp.peer ≠ some r)
    (hlock : h.lock gp.peer = some r) :
    (g.peers ++ [gp]).filter (stays h r) = g.peers ↔ ∀ gp ∈ g.peers, (h.lock gp.peer).isSome := by
  have hgone : stays h r gp = false := by simp [stays, hlock]
  rw [List.filter_append, List.filter_singleton, hgone, cond_false, List.append_nil,
    List.filter_eq_self]
  refine forall₂_congr fun gp hgp => ?_
  have hother := hpeers gp hgp
  cases hl : h.lock gp.peer with
  | none => simp [stays, hl]
  | some other =>
    rw [hl] at hother
    simpa [stays, hl] using hother

theorem sentBy_added (hpeers : ∀ gp ∈ g.peers, h.lock gp.peer ≠ some r)
    (hlock : h.lock gp.peer = some r) (hne : gp.actorId ≠ 0) (ev : Event) :
    sentBy h r (g.peers ++ [gp]) ev = (ev.senderActorId == gp.actorId) := by
  have hnone : (g.peers.any fun gp => h.lock gp.peer == some r &&
      (ev.senderActorId == gp.actorId && ev.senderActorId != 0)) = false := by
    rw [List.any_eq_false]
    intro gp hgp
    simp [hpeers gp hgp]
  rw [sentBy, List.any_append, hnone, Bool.false_or, List.any_cons, List.any_nil, Bool.or_false,
    hlock, beq_self_eq_true, Bool.true_and]
  by_cases hsender : ev.senderActorId = gp.actorId
  · simp [hsender, hne]
  · simp [hsender]

end Removing

theorem noTrace_of_added_iff (hg : g.SeatsSound) (hactors : g.ActorsSound)
    (hst : ReservedSince g st) (hseats : SeatsOnly g st.2) {r : PeerRef}
    (huser : h.userId (some r) = some userId) (hout : g.findPeer h (some r) = none)
    {gp : GamePeer} (hpeer : gp.peer = some r) (hnext : g.nextActorId = some gp.actorId)
    (lastActorId : Int) :
    NoTrace g (((({ st.2 with lastActorId }.emplacePeer gp userId).removePeer h
        (some r)).2).rollbackExpectedUsers st.1) ↔ Removable h userId g := by
  have hne : gp.actorId ≠ 0 := ne_of_gt (findActor_nextActorId hnext).2
  have hlock : h.lock gp.peer = some r := by
    rw [hpeer, PeerHeap.lock_eq_some]
    refine ⟨rfl, ?_⟩
    rw [PeerHeap.userId_some] at huser
    cases hget : h.get r with
    | none => simp [hget] at huser
    | some peer => rfl
  have hpeers := lock_ne_of_findPeer_eq_none hactors.active hout
  obtain ⟨users, generations, next, reserved, removed, scheduled, hsame⟩ := hseats
  have hsound : ({ st.2 with lastActorId }.emplacePeer gp userId).SeatsSound :=
    seatsSound_invariant.emplacePeer gp userId (seatsSound_invariant.congr hst.sound rfl rfl rfl)
  generalize hadd : { st.2 with lastActorId }.emplacePeer gp userId = g₂ at hsound ⊢
  obtain ⟨hadded, hcache, hflags, hdummies, hgens⟩ : g₂.peers = g.peers ++ [gp] ∧
      g₂.eventCache = g.eventCache ∧ g₂.flags = g.flags ∧
      g₂.dummyPeerCount = g.dummyPeerCount ∧
      g₂.expectedUserGenerations = st.2.expectedUserGenerations.erase userId := by
    rw [← hadd, emplacePeer_eq]
    refine ⟨?_, ?_, ?_, ?_, rfl⟩ <;> rw [hsame]
  obtain ⟨husers₃, hgens₃, hnext₃, hdummies₃⟩ := removePeer_seats (h := h) (some r) g₂
  have hpeers₃ : (g₂.removePeer h (some r)).2.peers = (g.peers ++ [gp]).filter (stays h r) := by
    obtain ⟨_, _, _, heq⟩ := removePeer_eq h r g₂
    rw [heq, ← hadded]
  have hcache₃ : (g₂.removePeer h (some r)).2.eventCache =
      if GameFlag.deleteCacheOnLeave.isSet g.flags then
        g.eventCache.filter fun ev => !(ev.senderActorId == gp.actorId)
      else g.eventCache := by
    rw [eventCache_removePeer, hflags, hcache, hadded]
    simp only [sentBy_added hpeers hlock hne]
  have husers := mem_rollbackExpectedUsers hg hst
    (seatsSound_invariant.congr hsound husers₃ hgens₃ hnext₃) (· = userId) (fun u n => by
      rw [hgens₃, hgens, AList.lookup_erase_eq]
      by_cases hu : u = userId <;> simp [hu])
  obtain ⟨_, _, hframe⟩ := rollbackExpectedUsers_frame st.1 (g₂.removePeer h (some r)).2
  generalize hend : (g₂.removePeer h (some r)).2.rollbackExpectedUsers st.1 = g₄ at husers hframe ⊢
  constructor
  · intro htrace
    refine ⟨fun hexpected => ?_, ?_, fun hflag actorId hactor ev hev hsender => ?_⟩
    · exact ((husers userId).mp ((htrace.expectedUsers userId).mpr hexpected)).1 rfl
    · rw [← peers_removePeer_added hpeers hlock, ← hpeers₃, ← htrace.peers, hframe]
    · have hkept : g₄.eventCache =
          g.eventCache.filter fun ev => !(ev.senderActorId == gp.actorId) := by
        rw [hframe, hcache₃, if_pos hflag]
      have hsame := List.filter_eq_self.mp (hkept.symm.trans htrace.eventCache) ev hev
      rw [Option.some.inj (hactor.symm.trans hnext)] at hsender
      simp [hsender] at hsame
  · rintro ⟨hunexpected, hlive, huncached⟩
    have hpeers₄ : g₄.peers = g.peers := by
      rw [hframe]
      exact hpeers₃.trans ((peers_removePeer_added hpeers hlock).mpr hlive)
    have hmem : ∀ u, u ∈ g₄.expectedUsers ↔ u ∈ g.expectedUsers := fun u =>
      (husers u).trans (and_iff_right_of_imp fun hu heq => hunexpected (heq ▸ hu))
    refine ⟨hpeers₄, hmem, ?_, seatsTaken_eq hpeers₄ (by rw [hframe, ← hdummies, ← hdummies₃]) hmem⟩
    rw [hframe, hcache₃]
    split
    · next hflag =>
      exact List.filter_eq_self.mpr fun ev hev => by simpa using huncached hflag _ hnext ev hev
    · rfl

/-- The actor that a client is given does not depend on the reservations. -/
theorem createPeer_seatsOnly (hseats : SeatsOnly g st.2) (peer : Option PeerRef) :
    (st.2.createPeer h peer).1 = (g.createPeer h peer).1 := by
  obtain ⟨_, _, _, _, _, _, hsame⟩ := hseats
  rw [createPeer_fst, createPeer_fst, hsame]
  rfl

/-- A join that both checks accept adds an actor to the room with the reservations. -/
theorem addPeer_of_validated {settings : AppSettings} (hactors : g.ActorsSound)
    (hseats : SeatsOnly g st.2) {peer : Option PeerRef} (huser : h.userId peer = some userId)
    (hcreated : g.isCreated = true) {count : Nat}
    (hok : (g.validateJoin h settings userId count false).1 = .ok) :
    ∃ gp lastActorId, st.2.createPeer h peer = (gp, { st.2 with lastActorId }) ∧
      gp.isValid = true ∧ gp.peer = peer ∧ gp = (g.createPeer h peer).1 ∧
      { st.2 with lastActorId }.addPeer h gp =
        (true, { st.2 with lastActorId }.emplacePeer gp userId) := by
  obtain ⟨-, -, -, -, hall, hjoined⟩ := validateJoin_ok hok
  have hsame := hseats
  obtain ⟨_, _, _, _, _, _, hsame⟩ := hsame
  have hpeers : st.2.peers = g.peers := by rw [hsame]
  have hroom : st.2.peers.length < 0xfe := hpeers ▸ length_lt_of_finalPeerCount hall
  obtain ⟨hvalid, hpeer, hfree, lastActorId, hgame⟩ :=
    createPeer_isValid (hactors.seatsOnly hseats) hroom huser
  refine ⟨_, lastActorId, Prod.ext rfl hgame, hvalid, hpeer, createPeer_seatsOnly hseats peer, ?_⟩
  have hadd : { st.2 with lastActorId }.addJoining h peer none (st.2.createPeer h peer).1 =
      (true, { st.2 with lastActorId }.emplacePeer (st.2.createPeer h peer).1 userId) := by
    refine addJoining_joins hpeer huser hfree ?_ rfl fun _ => ?_
    · rw [hsame]
      exact hjoined
    · rw [hsame]
      exact hcreated
  exact hadd

/-- The join is turned away before it has changed the room. -/
def RefusedEarly (h : PeerHeap) (settings : AppSettings) (userId : String) (request : JoinRequest)
    (plugins : JoinPlugins) (g : Game) : Prop :=
  (g.validateJoin h settings userId 0 false).1 ≠ .ok ∨ plugins.beforeJoin ≠ .continue ∨
    (g.validateJoinWith h settings userId request.expectedUsers false).1 ≠ .ok

variable {settings : AppSettings} {request : JoinRequest} {plugins : JoinPlugins}

theorem joinExisting_of_refusedEarly
    (hearly : RefusedEarly h settings userId request plugins g) (peer : Option PeerRef) :
    (g.joinExisting h settings peer userId request plugins).2 = g := by
  unfold joinExisting
  split
  · next hfirst =>
    split
    · rfl
    · next hbefore =>
      split
      · next hsecond =>
        rcases hearly with hnot | hnot | hnot
        · exact absurd (congrArg Prod.fst hfirst) hnot
        · exact absurd hnot hbefore
        · exact absurd (congrArg Prod.fst hsecond) hnot
      · rfl
  · rfl

/-- The plugins decide on a join that is not turned away before its actor is added. -/
theorem joinExisting_of_not_refusedEarly
    (hearly : ¬RefusedEarly h settings userId request plugins g) (hactors : g.ActorsSound)
    (hcreated : g.isCreated = true) {peer : Option PeerRef} (huser : h.userId peer = some userId)
    (hout : g.findPeer h peer = none) :
    let st := g.reserveAllForJoin h peer userId request.expectedUsers
    let gp := (g.createPeer h peer).1
    gp.isValid = true ∧ gp.peer = peer ∧ ∃ lastActorId : Int,
      let added := { st.2 with lastActorId }.emplacePeer gp userId
      g.joinExisting h settings peer userId request plugins =
        if plugins.onJoinGame ≠ .continue then
          (.refusedByPlugin plugins.onJoinGame,
            (added.removePeer h peer).2.rollbackExpectedUsers st.1)
        else (.joined, added.completeJoin h peer request plugins) := by
  intro st gp
  simp only [RefusedEarly, not_or, not_not] at hearly
  obtain ⟨hfirst, hbefore, hsecond⟩ := hearly
  have hreserved : ReservedFor h userId request.expectedUsers ([], g) st :=
    reserveAll_spec request.expectedUsers hout
  have hseats : SeatsOnly g st.2 := hreserved.seats
  obtain ⟨_, lastActorId, hcreate, hvalid, hpeer, rfl, hadd⟩ :=
    addPeer_of_validated hactors hseats huser hcreated hsecond
  refine ⟨hvalid, hpeer, lastActorId, ?_⟩
  have hok₁ : g.validateJoin h settings userId 0 false = (.ok, _) := Prod.ext hfirst rfl
  have hok₂ : g.validateJoinWith h settings userId request.expectedUsers false = (.ok, _) :=
    Prod.ext hsecond rfl
  unfold joinExisting
  rw [hok₁, hok₂]
  simp only [hbefore, ne_eq, not_true_eq_false, if_false]
  rw [show g.reserveAllForJoin h peer userId request.expectedUsers = st from rfl]
  simp only [hcreate, hvalid, hadd]
  rfl

end Refusing

end Game

namespace Room

open Game

variable {settings : AppSettings} {s : Room}

/-- A join that is refused leaves a created room as it was exactly if it is refused before its actor
is added, or if the actor can be taken out again without a loss. -/
theorem noTrace_joinExisting_iff (hs : Reachable settings s)
    (hcreated : s.game.isCreated = true ∧ s.game.isCreating = false) {r : PeerRef} {userId : String}
    (huser : s.heap.userId (some r) = some userId)
    (hout : s.game.findPeer s.heap (some r) = none) (request : JoinRequest)
    (plugins : JoinPlugins) :
    let ended := s.game.joinExisting s.heap settings (some r) userId request plugins
    ended.1.IsRefusal → (NoTrace s.game ended.2 ↔
      RefusedEarly s.heap settings userId request plugins s.game ∨
        Removable s.heap userId s.game) := by
  intro ended hrefusal
  by_cases hearly : RefusedEarly s.heap settings userId request plugins s.game
  · have hended : ended.2 = s.game := joinExisting_of_refusedEarly hearly (some r)
    rw [hended]
    exact iff_of_true (.refl _) (.inl hearly)
  obtain ⟨hvalid, hpeer, lastActorId, hended⟩ :=
    joinExisting_of_not_refusedEarly hearly hs.valid.actors hcreated.1 huser hout
  rw [show ended = _ from hended] at hrefusal ⊢
  split at hrefusal
  · next hon =>
    rw [if_pos hon, or_iff_right hearly]
    have hnext : s.game.nextActorId = some (s.game.createPeer s.heap (some r)).1.actorId := by
      obtain ⟨actorId, hnext⟩ := Option.isSome_iff_exists.mp
        ((createPeer_isValid_iff_nextActorId huser).mp hvalid)
      rw [createPeer_fst, huser, hnext]
      rfl
    have hreserved : ReservedFor s.heap userId request.expectedUsers ([], s.game)
        (s.game.reserveAllForJoin s.heap (some r) userId request.expectedUsers) :=
      reserveAll_spec request.expectedUsers hout
    exact noTrace_of_added_iff hs.valid.seats hs.valid.actors
      (reservedSince_reserveAllForJoin hs.valid.seats (some r) userId request.expectedUsers)
      hreserved.seats huser hout hpeer hnext lastActorId
  · exact absurd rfl hrefusal

/-- Ada's room after Bob has connected; Eve, or Bob himself, is expected there. -/
def adasGuests (expected : String) : Room :=
  Transition.run (step {}) (create ⟨"app", "1.0", "lobby", 0, "room", ""⟩)
    [.connect 1, .setPersistent 1 (some { userId := "ada", token := "a" }),
      .tryBeginCreation (some 1), .setConfigState 3 true true 4 1, .createPeer (some 1),
      .addPeerForCreation 0 (some 1) 1, .commitCreation (some 1) 1,
      .connect 2, .setPersistent 2 (some { userId := "bob", token := "b" }),
      .reserveExpectedUser expected 30000]

/-- A plugin turns Bob away after he has joined with a friend. -/
theorem noTrace_joinExisting_cancelled :
    let s := adasGuests "eve"
    NoTrace s.game (s.game.joinExisting s.heap {} (some 2) "bob" { expectedUsers := ["zoe"] }
      { onJoinGame := .cancel }).2 := by
  intro s
  have hs : Reachable {} s := reachable_run _ _
  refine (noTrace_joinExisting_iff hs (by decide) (by decide : s.heap.userId (some 2) = some "bob")
    rfl { expectedUsers := ["zoe"] } { onJoinGame := .cancel } (by decide)).mpr (.inr ⟨?_, ?_, ?_⟩)
  all_goals decide

/-- Bob is turned away in the same way, and is no longer expected. -/
theorem not_noTrace_joinExisting_reserved :
    let s := adasGuests "bob"
    let ended := s.game.joinExisting s.heap {} (some 2) "bob" {} { onJoinGame := .cancel }
    s.game.isCreated = true ∧ s.game.isCreating = false ∧ s.heap.userId (some 2) = some "bob" ∧
      s.game.findPeer s.heap (some 2) = none ∧ ended.1.IsRefusal ∧
      "bob" ∈ s.game.expectedUsers ∧ "bob" ∉ ended.2.expectedUsers :=
  ⟨by decide, by decide, by decide, rfl, by decide, by decide, by decide⟩

end Room

end LuxonServer
