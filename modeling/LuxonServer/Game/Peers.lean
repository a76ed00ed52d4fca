import LuxonServer.Game.Reservations

/-! The actors of a room: how they are found, constructed, added and removed. -/

namespace LuxonServer.Game

variable (h : PeerHeap)

/-- `find_peer(int32_t)`. -/
def findActor (actorId : Int) (g : Game) : Option GamePeer :=
  g.peers.find? fun gp => gp.active && gp.actorId == actorId

/-- `find_peer(const std::shared_ptr<Peer>&)`. -/
def findPeer (peer : Option PeerRef) (g : Game) : Option GamePeer :=
  g.peers.find? fun gp => gp.active && h.lock gp.peer == peer

/-- `actor_id_for_peer`. -/
def actorIdForPeer (peer : Option PeerRef) (g : Game) : Option Int :=
  if peer = none then none else (g.findPeer h peer).map (·.actorId)

/-- The loop of `create_peer`, with the number of attempts left: the actor number that it found,
or `0`, and `last_actor_id` after it. -/
def allocateActor (used : Int → Bool) : Nat → Int → Int × Int
  | 0, last => (0, last)
  | attempts + 1, last =>
    let next := (if last ≥ 0xfe then 0 else last) + 1
    if used next then allocateActor used attempts next else (next, next)

/-- The properties that a new actor starts with. -/
def initialActorProps (userId : String) (g : Game) : Hashtable :=
  if GameFlag.publishUserId.isSet g.flags then
    AList.insert userIdKey (.string userId) ∅
  else ∅

/-- `create_peer`. -/
def createPeer (peer : Option PeerRef) (g : Game) : GamePeer × Game :=
  match h.userId peer with
  | none => ({}, g)
  | some userId =>
    let (actorId, last) :=
      allocateActor (fun actorId => (g.findActor actorId).isSome) 0xfe g.lastActorId
    let g := { g with lastActorId := last }
    if actorId > 0 then
      ({ peer, actorId, actorProps := g.initialActorProps userId }, g)
    else ({}, g)

/-- `create_peer_for_actor`. -/
def createPeerForActor (peer : Option PeerRef) (actorId : Int) (g : Game) : GamePeer :=
  match h.userId peer with
  | none => {}
  | some userId =>
    if actorId ≤ 0 ∨ actorId ≥ 0xfe then {}
    else if (g.findActor actorId).isSome then {}
    else { peer, actorId, actorProps := g.initialActorProps userId }

/-- Whether a connection of the room has the user id; asked only when the room checks users. -/
def userJoined (userId : String) (g : Game) : Bool :=
  GameFlag.checkUserOnJoin.isSet g.flags && g.peers.any fun gp => h.userId gp.peer == some userId

/-- The end of both ways to add a peer: the node goes to the back of the list, and the
reservation of its user is used up. -/
def emplacePeer (gp : GamePeer) (userId : String) (g : Game) : Game :=
  removeExpectedUser userId { g with peers := g.peers ++ [gp] }

/-- `add_peer`; `false` for a null result. -/
def addPeer (gp : GamePeer) (g : Game) : Bool × Game :=
  if g.isCreating ∧ ¬g.isCreated then (false, g)
  else
    match h.userId gp.peer with
    | none => (false, g)
    | some userId =>
      if (g.findActor gp.actorId).isSome then (false, g)
      else if g.userJoined h userId then (false, g)
      else (true, g.emplacePeer gp userId)

/-- What a pass over the peer list takes out of it. -/
structure Sweep where
  kept : List GamePeer := []
  retired : List GamePeer := []
  leavingActorId : Int := 0
  eventCache : List Event

/-- `event_cache.remove_if` for a leaving actor. -/
def dropEventsOf (actorId : Int) (cache : List Event) : List Event :=
  cache.filter fun ev => !(ev.senderActorId == actorId && ev.senderActorId != 0)

/-- One node in the loop of `remove_peer`.  The restarts of that loop meet again only nodes that it
has kept, and keeps them again, so one pass does the same. -/
def sweepPeer (flags : UInt8) (peer : PeerRef) (st : Sweep) (gp : GamePeer) : Sweep :=
  match h.lock gp.peer with
  | none => { st with retired := st.retired ++ [{ gp with active := false }] }
  | some r =>
    if r = peer then
      { st with
        retired := st.retired ++ [{ gp with active := false }]
        leavingActorId := gp.actorId
        eventCache :=
          if GameFlag.deleteCacheOnLeave.isSet flags then dropEventsOf gp.actorId st.eventCache
          else st.eventCache }
    else { st with kept := st.kept ++ [gp] }

/-- `remove_peer`. -/
def removePeer (peer : Option PeerRef) (g : Game) : Bool × Game :=
  match peer with
  | none => (false, g)
  | some r =>
    let st := g.peers.foldl (sweepPeer h g.flags r) { eventCache := g.eventCache }
    let g :=
      { g with
        peers := st.kept
        retiredPeers := g.retiredPeers ++ st.retired
        eventCache := st.eventCache }
    if st.leavingActorId = 0 then (false, g)
    else
      match g.peers with
      | [] =>
        (true,
          if g.emptyGameTtl > 0 then
            { g with scheduled := g.scheduled ++ [.keepAlive g.emptyGameTtl.toNat] }
          else g)
      | front :: _ =>
        (true,
          if st.leavingActorId = g.masterActor then { g with masterActor := front.actorId } else g)

/-- A change made through the pointer that a search of the peer list returned. -/
def updatePeer (found : GamePeer → Bool) (change : GamePeer → GamePeer) :
    List GamePeer → List GamePeer
  | [] => []
  | gp :: rest => if found gp then change gp :: rest else gp :: updatePeer found change rest

/-- `apply_interest_groups`; an empty list stands for every group. -/
def applyInterestGroups (peer : Option PeerRef) (add remove : List UInt8) (g : Game) :
    Bool × Game :=
  let bit (v : UInt8) : BitVec 256 := 1 <<< v.toNat
  let change (gp : GamePeer) : GamePeer :=
    let kept :=
      if remove = [] then 0
      else remove.foldl (fun b v => b &&& ~~~bit v) gp.interestGroups.bitset
    let bits := if add = [] then BitVec.allOnes 256 else add.foldl (fun b v => b ||| bit v) kept
    { gp with interestGroups := ⟨bits⟩ }
  if (g.findPeer h peer).isSome then
    (true,
      { g with
        peers := updatePeer (fun gp => gp.active && h.lock gp.peer == peer) change g.peers })
  else (false, g)

/-- `insert_actor_props`. -/
def insertActorProps (actorId : Int) (update : Hashtable) (g : Game) : Bool × Game :=
  let deleteNull := GameFlag.deleteNullProps.isSet g.flags
  let insert (props : Hashtable) (entry : Σ _ : Value, Value) : Hashtable :=
    if entry.1 ≠ .null then AList.insert entry.1 entry.2 props
    else if deleteNull then AList.erase entry.1 props
    else props
  if (g.findActor actorId).isSome then
    (true,
      { g with
        peers := updatePeer (fun gp => gp.active && gp.actorId == actorId)
          (fun gp => { gp with actorProps := update.entries.foldl insert gp.actorProps }) g.peers })
  else (false, g)

section Allocation

variable {used : Int → Bool} {attempts : Nat} {last : Int}

/-- Where the search for a number starts: after `last`, and after `254` from the front. -/
def searchStart (last : Int) : Int := if last ≥ 0xfe then 0 else last

theorem allocateActor_succ : allocateActor used (attempts + 1) last =
    if used (searchStart last + 1) then allocateActor used attempts (searchStart last + 1)
    else (searchStart last + 1, searchStart last + 1) := rfl

/-- The numbers that come after `last`, in their order. -/
def numbersAfter (last : Int) : Nat → List Int
  | 0 => []
  | count + 1 => (searchStart last + 1) :: numbersAfter (searchStart last + 1) count

/-- The search takes the first number after `last` that is not used. -/
theorem allocateActor_fst (used : Int → Bool) (attempts : Nat) (last : Int) :
    (allocateActor used attempts last).1 =
      ((numbersAfter last attempts).find? fun actorId => !used actorId).getD 0 := by
  induction attempts generalizing last with
  | zero => rfl
  | succ attempts ih =>
    rw [allocateActor_succ, numbersAfter, List.find?_cons]
    cases hused : used (searchStart last + 1) with
    | false => rfl
    | true =>
      rw [if_pos rfl]
      exact ih _

/-- The search ends without a number, or with an unused one from `1` to `254`. -/
theorem allocateActor_spec (used : Int → Bool) (attempts : Nat)
    (hlast : 0 ≤ last ∧ last ≤ 0xfe) :
    (0 ≤ (allocateActor used attempts last).2 ∧ (allocateActor used attempts last).2 ≤ 0xfe) ∧
      ((allocateActor used attempts last).1 = 0 ∨
        1 ≤ (allocateActor used attempts last).1 ∧ (allocateActor used attempts last).1 ≤ 0xfe ∧
          used (allocateActor used attempts last).1 = false) := by
  induction attempts generalizing last with
  | zero => exact ⟨hlast, Or.inl rfl⟩
  | succ attempts ih =>
    have hnext : 1 ≤ searchStart last + 1 ∧ searchStart last + 1 ≤ 0xfe := by
      unfold searchStart
      split <;> omega
    rw [allocateActor_succ]
    split
    · exact ih ⟨by omega, hnext.2⟩
    · next hfree => exact ⟨⟨by omega, hnext.2⟩, Or.inr ⟨hnext.1, hnext.2, by simpa using hfree⟩⟩

/-- A search that fails has met only used numbers, in their order from the start. -/
theorem used_of_allocateActor_eq_zero (hlast : 0 ≤ last)
    (hfail : (allocateActor used attempts last).1 = 0) :
    ∀ i < attempts, used ((searchStart last + i) % 254 + 1) = true := by
  induction attempts generalizing last with
  | zero => intro i hi; omega
  | succ attempts ih =>
    have hstart : 0 ≤ searchStart last ∧ searchStart last < 254 := by
      unfold searchStart
      split <;> omega
    rw [allocateActor_succ] at hfail
    by_cases hused : used (searchStart last + 1)
    · rw [if_pos hused] at hfail
      intro i hi
      cases i with
      | zero =>
        have hmod : (searchStart last + (0 : Nat)) % 254 = searchStart last := by omega
        rw [hmod]
        exact hused
      | succ i =>
        have hrest := ih (by omega) hfail i (by omega)
        have hmod : (searchStart (searchStart last + 1) + i) % 254 =
            (searchStart last + (i + 1 : Nat)) % 254 := by
          rw [searchStart]
          split <;> omega
        rw [← hmod]
        exact hrest
    · rw [if_neg hused] at hfail
      simp only at hfail
      omega

theorem used_of_allocateActor_full (hlast : 0 ≤ last)
    (hfail : (allocateActor used 0xfe last).1 = 0) {actorId : Int}
    (hactor : 1 ≤ actorId ∧ actorId ≤ 0xfe) : used actorId = true := by
  have hstart : 0 ≤ searchStart last ∧ searchStart last < 254 := by
    unfold searchStart
    split <;> omega
  obtain ⟨i, hi⟩ : ∃ i : Nat, (i : Int) = (actorId - 1 - searchStart last) % 254 :=
    ⟨((actorId - 1 - searchStart last) % 254).toNat, by omega⟩
  have hused := used_of_allocateActor_eq_zero hlast hfail i (by omega)
  have hmod : (searchStart last + i) % 254 + 1 = actorId := by omega
  rwa [hmod] at hused

end Allocation

section Lookup

variable {h : PeerHeap} {g : Game}

/-- The numbers of the room's actors. -/
def actorIds (g : Game) : List Int := g.peers.map (·.actorId)

theorem findActor_isSome {actorId : Int} :
    (g.findActor actorId).isSome ↔ ∃ gp ∈ g.peers, gp.active ∧ gp.actorId = actorId := by
  simp [findActor, List.find?_isSome]

theorem findActor_of_active (hactive : ∀ gp ∈ g.peers, gp.active = true) {actorId : Int} :
    (g.findActor actorId).isSome ↔ actorId ∈ g.actorIds := by
  rw [findActor_isSome, actorIds, List.mem_map]
  exact ⟨fun ⟨gp, hmem, _, heq⟩ => ⟨gp, hmem, heq⟩,
    fun ⟨gp, hmem, heq⟩ => ⟨gp, hmem, hactive gp hmem, heq⟩⟩

theorem findPeer_isSome {peer : Option PeerRef} :
    (g.findPeer h peer).isSome ↔ ∃ gp ∈ g.peers, gp.active ∧ h.lock gp.peer = peer := by
  simp [findPeer, List.find?_isSome]

end Lookup

section Adding

variable {h : PeerHeap}

/-- `create_peer` changes only where the next search starts. -/
theorem createPeer_game (h : PeerHeap) (peer : Option PeerRef) (g : Game) :
    (g.createPeer h peer).2 = g ∨ (g.createPeer h peer).2 =
      { g with
        lastActorId :=
          (allocateActor (fun actorId => (g.findActor actorId).isSome) 0xfe g.lastActorId).2 } := by
  unfold createPeer
  cases h.userId peer with
  | none => exact Or.inl rfl
  | some userId =>
    simp only
    split <;> exact Or.inr rfl

/-- The number that the next actor is given: the first after the last one, and after `254` from `1`
again, that no actor has.  A search that finds a number that is not positive has none. -/
def nextActorId (g : Game) : Option Int :=
  ((numbersAfter g.lastActorId 0xfe).find? fun actorId => !(g.findActor actorId).isSome).filter
    fun actorId => decide (actorId > 0)

/-- `create_peer` makes a node with the next number, for a client that is there to take it. -/
theorem createPeer_fst (h : PeerHeap) (peer : Option PeerRef) (g : Game) :
    (g.createPeer h peer).1 = (h.userId peer).elim {} fun userId =>
      g.nextActorId.elim {} fun actorId =>
        { peer, actorId, actorProps := g.initialActorProps userId } := by
  have hsearch := allocateActor_fst (fun actorId => (g.findActor actorId).isSome) 0xfe g.lastActorId
  unfold createPeer nextActorId
  cases h.userId peer with
  | none => rfl
  | some userId =>
    simp only [Option.elim_some]
    cases hfound : (numbersAfter g.lastActorId 0xfe).find? fun actorId =>
        !(g.findActor actorId).isSome with
    | none =>
      rw [hfound, Option.getD_none] at hsearch
      rw [hsearch, if_neg (by decide)]
      rfl
    | some actorId =>
      rw [hfound, Option.getD_some] at hsearch
      rw [hsearch]
      by_cases hpos : actorId > 0
      · rw [if_pos hpos, Option.filter_some, if_pos (decide_eq_true hpos)]
        rfl
      · rw [if_neg hpos, Option.filter_some, if_neg (by simpa using hpos)]
        rfl

theorem createPeer_isValid_iff_nextActorId {peer : Option PeerRef} {userId : String}
    (huser : h.userId peer = some userId) {g : Game} :
    (g.createPeer h peer).1.isValid = true ↔ g.nextActorId.isSome = true := by
  rw [createPeer_fst, huser, Option.elim_some]
  cases hnext : g.nextActorId with
  | none => exact iff_of_false Bool.false_ne_true Bool.false_ne_true
  | some actorId =>
    refine iff_of_true ?_ rfl
    have hpos := (Option.filter_eq_some_iff.mp hnext).2
    simp only [Option.elim_some, GamePeer.isValid, Bool.true_and]
    exact hpos

/-- The next number is one that no actor has. -/
theorem findActor_nextActorId {g : Game} {actorId : Int} (hnext : g.nextActorId = some actorId) :
    (g.findActor actorId).isSome = false ∧ 0 < actorId := by
  obtain ⟨hfound, hpos⟩ := Option.filter_eq_some_iff.mp hnext
  have hfree := List.find?_some hfound
  exact ⟨by simpa using hfree, by simpa using hpos⟩

/-- `add_peer` refuses and changes nothing, or it puts the peer into the room. -/
theorem addPeer_cases (gp : GamePeer) (g : Game) :
    g.addPeer h gp = (false, g) ∨
      ∃ userId, h.userId gp.peer = some userId ∧ ¬(g.isCreating ∧ ¬g.isCreated) ∧
        (g.findActor gp.actorId).isSome = false ∧ g.userJoined h userId = false ∧
        g.addPeer h gp = (true, g.emplacePeer gp userId) := by
  unfold addPeer
  by_cases hlease : g.isCreating ∧ ¬g.isCreated
  · exact Or.inl (if_pos hlease)
  rw [if_neg hlease]
  cases hu : h.userId gp.peer with
  | none => exact Or.inl rfl
  | some userId =>
    cases hactor : (g.findActor gp.actorId).isSome with
    | true => exact Or.inl rfl
    | false =>
      cases hjoined : g.userJoined h userId with
      | true => exact Or.inl (by simp [hjoined])
      | false => exact Or.inr ⟨userId, rfl, hlease, rfl, hjoined, by simp [hjoined]⟩

theorem emplacePeer_eq (gp : GamePeer) (userId : String) (g : Game) :
    g.emplacePeer gp userId =
      { g with
        peers := g.peers ++ [gp]
        creationRemoved :=
          (g.expectedUserGenerations.lookup userId).elim g.creationRemoved
            fun generation => g.logRemoved userId generation
        expectedUserGenerations := g.expectedUserGenerations.erase userId
        expectedUsers := g.expectedUsers.erase userId } :=
  removeExpectedUser_eq userId { g with peers := g.peers ++ [gp] }

end Adding

section Removing

variable {h : PeerHeap} {r : PeerRef}

/-- Whether `remove_peer` for the connection `r` keeps a node. -/
def stays (h : PeerHeap) (r : PeerRef) (gp : GamePeer) : Bool :=
  (h.lock gp.peer).any fun other => other != r

/-- The actor that leaves with the connection `r`: the last of its nodes, and `0` without one. -/
def leavingActor (h : PeerHeap) (r : PeerRef) (peers : List GamePeer) : Int :=
  peers.foldl (fun leaving gp => if h.lock gp.peer = some r then gp.actorId else leaving) 0

theorem sweep_kept (flags : UInt8) (peers : List GamePeer) (st : Sweep) :
    (peers.foldl (sweepPeer h flags r) st).kept = st.kept ++ peers.filter (stays h r) := by
  induction peers generalizing st with
  | nil => simp
  | cons gp peers ih =>
    rw [List.foldl_cons, ih, sweepPeer]
    cases hl : h.lock gp.peer with
    | none => simp [stays, hl]
    | some other =>
      by_cases hother : other = r
      · simp [stays, hl, hother]
      · simp [stays, hl, hother]

theorem sweep_leaving (flags : UInt8) (peers : List GamePeer) (st : Sweep) :
    (peers.foldl (sweepPeer h flags r) st).leavingActorId =
      peers.foldl (fun leaving gp => if h.lock gp.peer = some r then gp.actorId else leaving)
        st.leavingActorId := by
  induction peers generalizing st with
  | nil => rfl
  | cons gp peers ih =>
    rw [List.foldl_cons, List.foldl_cons, ih, sweepPeer]
    cases hl : h.lock gp.peer with
    | none => simp
    | some other =>
      by_cases hother : other = r
      · simp [hother]
      · simp [hother]

/-- The master of a room that `leaving` has left to `peers`. -/
def masterAfter (leaving : Int) (peers : List GamePeer) (master : Int) : Int :=
  match peers with
  | [] => master
  | front :: _ => if leaving ≠ 0 ∧ leaving = master then front.actorId else master

/-- Every field that `remove_peer` may touch: the peers that stay are those with another live
connection. -/
theorem removePeer_eq (h : PeerHeap) (r : PeerRef) (g : Game) :
    ∃ retiredPeers eventCache scheduled, (g.removePeer h (some r)).2 =
      { g with
        peers := g.peers.filter (stays h r)
        masterActor :=
          masterAfter (leavingActor h r g.peers) (g.peers.filter (stays h r)) g.masterActor
        retiredPeers, eventCache, scheduled } := by
  have hkept := sweep_kept (h := h) (r := r) g.flags g.peers
    { eventCache := g.eventCache }
  have hleaving := sweep_leaving (h := h) (r := r) g.flags g.peers
    { eventCache := g.eventCache }
  simp only [List.nil_append] at hkept
  rw [← leavingActor] at hleaving
  unfold removePeer
  simp only [hkept, hleaving]
  by_cases hzero : leavingActor h r g.peers = 0
  · have hmaster : masterAfter (leavingActor h r g.peers) (g.peers.filter (stays h r))
        g.masterActor = g.masterActor := by
      rw [hzero]
      cases g.peers.filter (stays h r) <;> simp [masterAfter]
    rw [if_pos hzero, hmaster]
    exact ⟨_, _, _, rfl⟩
  · rw [if_neg hzero]
    cases hpeers : g.peers.filter (stays h r) with
    | nil =>
      simp only [masterAfter]
      split <;> exact ⟨_, _, _, rfl⟩
    | cons front rest =>
      simp only [masterAfter, ne_eq, hzero, not_false_eq_true, true_and]
      split <;> exact ⟨_, _, _, rfl⟩

end Removing

section Updating

variable {found : GamePeer → Bool} {change : GamePeer → GamePeer}

theorem map_updatePeer {β : Type*} {f : GamePeer → β} (hf : ∀ gp, f (change gp) = f gp)
    (peers : List GamePeer) : (updatePeer found change peers).map f = peers.map f := by
  induction peers with
  | nil => rfl
  | cons gp peers ih =>
    unfold updatePeer
    split
    · simp [hf]
    · simp [ih]

theorem length_updatePeer (peers : List GamePeer) :
    (updatePeer found change peers).length = peers.length := by
  induction peers with
  | nil => rfl
  | cons gp peers ih =>
    unfold updatePeer
    split
    · rfl
    · rw [List.length_cons, List.length_cons, ih]

variable (change) in
/-- The peer that a search finds, after a change that the search does not see. -/
theorem find?_updatePeer {gp : GamePeer} (hsame : ∀ gp, found (change gp) = found gp)
    {peers : List GamePeer} (hfind : peers.find? found = some gp) :
    (updatePeer found change peers).find? found = some (change gp) := by
  induction peers with
  | nil => cases hfind
  | cons other peers ih =>
    rw [List.find?_cons] at hfind
    unfold updatePeer
    split at hfind
    · next hfound =>
      cases hfind
      rw [if_pos hfound, List.find?_cons, hsame, hfound]
    · next hfound =>
      rw [if_neg (by simp [hfound]), List.find?_cons, hfound]
      exact ih hfind

theorem updatePeer_false (peers : List GamePeer) :
    updatePeer (fun _ => false) change peers = peers := by
  induction peers with
  | nil => rfl
  | cons gp peers ih => rw [updatePeer, if_neg (by simp), ih]

/-- `apply_interest_groups` and `insert_actor_props` leave connections, numbers and the order of
the peers alone. -/
theorem applyInterestGroups_eq (h : PeerHeap) (peer : Option PeerRef) (add remove : List UInt8)
    (g : Game) : ∃ found change, (∀ gp : GamePeer, ∃ groups, change gp =
        { gp with interestGroups := groups }) ∧
      (g.applyInterestGroups h peer add remove).2 =
        { g with peers := updatePeer found change g.peers } := by
  unfold applyInterestGroups
  simp only
  split
  · exact ⟨_, _, fun gp => ⟨_, rfl⟩, rfl⟩
  · exact ⟨fun _ => false, id, fun gp => ⟨gp.interestGroups, rfl⟩, by rw [updatePeer_false]⟩

theorem insertActorProps_eq (actorId : Int) (update : Hashtable) (g : Game) :
    ∃ found change, (∀ gp : GamePeer, ∃ props, change gp = { gp with actorProps := props }) ∧
      (g.insertActorProps actorId update).2 =
        { g with peers := updatePeer found change g.peers } := by
  unfold insertActorProps
  simp only
  split
  · exact ⟨_, _, fun gp => ⟨_, rfl⟩, rfl⟩
  · exact ⟨fun _ => false, id, fun gp => ⟨gp.actorProps, rfl⟩, by rw [updatePeer_false]⟩

end Updating

end LuxonServer.Game
