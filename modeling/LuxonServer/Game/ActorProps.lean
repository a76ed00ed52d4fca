import LuxonServer.Game.Broadcast
import LuxonServer.Game.JoinRollback
import LuxonServer.Game.Matching
import LuxonServer.Game.NullProps

/-! The properties of the actors: how requests change them, and a join in the two halves that the
call of `OnJoinGame` divides it into. -/

namespace LuxonServer

/-- The properties of actors by their numbers. -/
abbrev Roster := AList fun _ : Int => Hashtable

/-- What the keys of a table hold. -/
abbrev Props := Value → Option Value

/-- The answer to a join that has succeeded. -/
structure JoinResponse where
  actorNo : Int
  actorList : List Int
  actorProperties : Option Roster

/-- The `Join` event. -/
structure JoinEvent where
  actorNo : Int
  actorList : List Int
  actorProperties : Option Hashtable

/-- How the first half of a join ends. -/
inductive Begun where
  | refused (answer : JoinAnswer) (game : Game)
  | admitted (added : List (String × Nat)) (game : Game)

namespace Game

/-- `apply_actor_props`; `none` is the exception of `expect_actor_props`. -/
def applyActorProps (actorId : Int) (update : Hashtable) (expected : Option Hashtable)
    (g : Game) : Option (Bool × Game) :=
  match expected with
  | none => some (g.insertActorProps actorId update)
  | some expected =>
    match g.expectActorProps actorId expected with
    | none => none
    | some false => some (false, g)
    | some true => some (g.insertActorProps actorId update)

/-- The handler of `SetProperties` for a request that names an actor. -/
def setActorProperties (h : PeerHeap) (peer : Option PeerRef) (request : SetPropertiesRequest)
    (actorNo : Int) (g : Game) : SetPropertiesOutcome :=
  match g.actorIdForPeer h peer with
  | none => { game := g, response := some (.operationNotAllowedInCurrentState, "Must join first") }
  | some senderActorId =>
    match request.properties.filter fun props => props.entries != [] with
    | none => { game := g, response := some (.operationInvalid, "Properties cannot be empty") }
    | some props =>
      if senderActorId = 0 then { game := g }
      else
        match g.applyActorProps actorNo props request.expectedValues with
        | none => { game := g }
        | some (ok, g) =>
          { game := g
            response := some (if ok then .ok else .operationInvalid, "")
            event :=
              if ok && request.broadcast then
                some (g.createPropertyUpdateEvent senderActorId props actorNo)
              else none }

/-- `JoinGame` of a connection that is not in the room, for a room that is created, up to the call
of `OnJoinGame`. -/
def beginJoin (h : PeerHeap) (settings : AppSettings) (peer : Option PeerRef) (userId : String)
    (expectedUsers : List String) (beforeJoin : GamePluginResult) (g : Game) : Begun :=
  match g.validateJoin h settings userId 0 false with
  | (.ok, _) =>
    if beforeJoin ≠ .continue then
      .refused (.refusedByPlugin beforeJoin) (g.rollbackJoinExisting h peer false [])
    else
      match g.validateJoinWith h settings userId expectedUsers false with
      | (.ok, _) =>
        let (added, g) := g.reserveAllForJoin h peer userId expectedUsers
        let (gp, g) := g.createPeer h peer
        if !gp.isValid then
          .refused (.refused .gameFull "Unable to allocate an actor" true)
            (g.rollbackJoinExisting h peer false added)
        else
          match g.addPeer h gp with
          | (false, g) =>
            .refused (.refused .gameFull "Unable to add player to game" true)
              (g.rollbackJoinExisting h peer false added)
          | (true, g) => .admitted added g
      | (code, message) =>
        .refused (.refused code message true) (g.rollbackJoinExisting h peer false [])
  | (code, message) =>
    .refused (.refused code message false) (g.rollbackJoinExisting h peer false [])

/-- What a join takes back when `OnJoinGame` turns it down. -/
def refuseJoin (h : PeerHeap) (peer : Option PeerRef) (added : List (String × Nat)) (g : Game) :
    Game :=
  (g.removePeer h peer).2.rollbackJoinExisting h peer false added

/-- The answer of a join, after `completeJoin`. -/
def joinResponse (actorNo : Int) (broadcastActorProps : Bool) (g : Game) : JoinResponse where
  actorNo
  actorList := g.actorIds
  actorProperties := if broadcastActorProps then some g.getActorProps else none

/-- The event that tells the room of a join. -/
def joinEvent (actorNo : Int) (broadcastActorProps : Bool) (g : Game) : Option JoinEvent :=
  if GameFlag.suppressRoomEvents.isSet g.flags then none
  else
    some
      { actorNo
        actorList := g.actorIds
        actorProperties :=
          if broadcastActorProps && !GameFlag.suppressPlayerInfo.isSet g.flags then
            (g.findActor actorNo).map (·.actorProps)
          else none }

/-- The two halves make up the join. -/
theorem joinExisting_eq (h : PeerHeap) (settings : AppSettings) (peer : Option PeerRef)
    (userId : String) (request : JoinRequest) (plugins : JoinPlugins) (g : Game) :
    g.joinExisting h settings peer userId request plugins =
      match g.beginJoin h settings peer userId request.expectedUsers plugins.beforeJoin with
      | .refused answer g => (answer, g)
      | .admitted added g =>
        if plugins.onJoinGame ≠ .continue then
          (.refusedByPlugin plugins.onJoinGame, g.refuseJoin h peer added)
        else (.joined, g.completeJoin h peer request plugins) := by
  unfold joinExisting beginJoin
  cases hvalid : g.validateJoin h settings userId 0 false with
  | mk code message =>
  cases code <;> try rfl
  simp only
  split
  · rfl
  cases hvalid' : g.validateJoinWith h settings userId request.expectedUsers false with
  | mk code message =>
  cases code <;> try rfl
  simp only
  split
  · rfl
  generalize (g.reserveAllForJoin h peer userId request.expectedUsers).2.createPeer h peer = created
  cases created.2.addPeer h created.1 with
  | mk ok g' => cases ok <;> rfl

/-- What the room has under the keys of an actor. -/
def actorTable (g : Game) (actorId : Int) : Option Props :=
  (g.findActor actorId).map fun gp key => gp.actorProps.lookup key

/-- The clients of a room are connected, and no two nodes share a connection. -/
structure PeersSound (h : PeerHeap) (g : Game) : Prop where
  live : ∀ peer ∈ g.connections, ∃ r, peer = some r ∧ (h.get r).isSome
  distinct : g.connections.Nodup

end Game

/-- What a roster has under the keys of an actor. -/
def Roster.view (roster : Roster) (actorId : Int) : Option Props :=
  (roster.lookup actorId).map fun props key => props.lookup key

namespace Game

variable {h : PeerHeap} {g g' : Game} {peer : Option PeerRef} {r : PeerRef} {n m : Int}

theorem actorTable_congr (hpeers : g'.peers = g.peers) : g'.actorTable = g.actorTable := by
  funext actorId
  rw [actorTable, actorTable, findActor, findActor, hpeers]

theorem actorTable_eq_some (hg : g.ActorsSound) {table : Props} : g.actorTable n = some table ↔
    ∃ gp ∈ g.peers, gp.actorId = n ∧ (fun key => gp.actorProps.lookup key) = table := by
  rw [actorTable, Option.map_eq_some_iff]
  constructor
  · rintro ⟨gp, hfind, htable⟩
    obtain ⟨hgp, hid⟩ := (findActor_eq_some hg).mp hfind
    exact ⟨gp, hgp, hid, htable⟩
  · rintro ⟨gp, hgp, hid, htable⟩
    exact ⟨gp, (findActor_eq_some hg).mpr ⟨hgp, hid⟩, htable⟩

theorem actorTable_isSome (hg : g.ActorsSound) : (g.actorTable n).isSome ↔ n ∈ g.actorIds := by
  rw [actorTable, Option.isSome_map, findActor_of_active hg.active]

theorem actorTable_eq_none (hg : g.ActorsSound) : g.actorTable n = none ↔ n ∉ g.actorIds := by
  rw [← actorTable_isSome hg, Option.not_isSome_iff_eq_none]

theorem lookup_foldl_actorProps (peers : List GamePeer) (roster : Roster)
    (hdistinct : (peers.map (·.actorId)).Nodup) :
    (peers.foldl (fun table gp => table.insert gp.actorId gp.actorProps) roster).lookup n =
      ((peers.find? fun gp => gp.actorId == n).map (·.actorProps)).or (roster.lookup n) := by
  induction peers generalizing roster with
  | nil => rfl
  | cons gp peers ih =>
    rw [List.map_cons, List.nodup_cons] at hdistinct
    rw [List.foldl_cons, ih _ hdistinct.2, AList.lookup_insert_eq, List.find?_cons]
    by_cases hid : gp.actorId = n
    · have hnone : (peers.find? fun gp => gp.actorId == n) = none := by
        refine List.find?_eq_none.mpr fun other hother heq => hdistinct.1 ?_
        rw [hid, ← eq_of_beq heq]
        exact List.mem_map_of_mem hother
      simp [hid, hnone]
    · have hbeq : (gp.actorId == n) = false := beq_false_of_ne hid
      simp [hbeq, Ne.symm hid]

theorem view_getActorProps (hg : g.ActorsSound) : Roster.view g.getActorProps = g.actorTable := by
  funext actorId
  have hfind : g.findActor actorId = g.peers.find? fun gp => gp.actorId == actorId := by
    rw [findActor, ← List.head?_filter, ← List.head?_filter]
    refine congrArg List.head? (List.filter_congr fun gp hgp => ?_)
    rw [hg.active gp hgp, Bool.true_and]
  rw [Roster.view, getActorProps, lookup_foldl_actorProps _ _ hg.distinct, actorTable, hfind,
    AList.lookup_empty, Option.or_none, Option.map_map]
  rfl

theorem updatePeer_of_forall {found : GamePeer → Bool} {change : GamePeer → GamePeer}
    {peers : List GamePeer} (hnone : ∀ gp ∈ peers, ¬found gp = true) :
    updatePeer found change peers = peers := by
  induction peers with
  | nil => rfl
  | cons gp peers ih =>
    rw [List.forall_mem_cons] at hnone
    rw [updatePeer, if_neg hnone.1, ih hnone.2]

/-- A search does not see a change of a peer that it passes by. -/
theorem find?_updatePeer_of_ne {found p : GamePeer → Bool} {change : GamePeer → GamePeer}
    (hsame : ∀ gp, p (change gp) = p gp) (hne : ∀ gp, found gp = true → p gp = false)
    (peers : List GamePeer) : (updatePeer found change peers).find? p = peers.find? p := by
  induction peers with
  | nil => rfl
  | cons gp peers ih =>
    unfold updatePeer
    split
    · next hfound =>
      rw [List.find?_cons, hsame, hne gp hfound, List.find?_cons, hne gp hfound]
    · rw [List.find?_cons, List.find?_cons, ih]

/-- One actor's properties change. -/
theorem actorTable_updatePeer {change : GamePeer → GamePeer}
    (hchange : ∀ gp, ∃ props, change gp = { gp with actorProps := props }) :
    actorTable { g with
        peers := updatePeer (fun gp => gp.active && gp.actorId == n) change g.peers } =
      Function.update g.actorTable n
        ((g.findActor n).map fun gp key => (change gp).actorProps.lookup key) := by
  have hsame : ∀ m gp, ((change gp).active && (change gp).actorId == m) =
      (gp.active && gp.actorId == m) := by
    intro m gp
    obtain ⟨props, heq⟩ := hchange gp
    rw [heq]
  funext m
  by_cases hm : m = n
  · subst hm
    rw [Function.update_self, actorTable, findActor]
    cases hfind : g.findActor m with
    | none =>
      rw [findActor, List.find?_eq_none] at hfind
      have hall : updatePeer (fun gp => gp.active && gp.actorId == m) change g.peers = g.peers :=
        updatePeer_of_forall hfind
      rw [hall, List.find?_eq_none.mpr hfind]
      rfl
    | some gp => rw [find?_updatePeer change (hsame m) hfind, Option.map_some, Option.map_some]
  · rw [Function.update_of_ne hm, actorTable, actorTable, findActor, findActor]
    congr 1
    refine find?_updatePeer_of_ne (hsame m) (fun gp hfound => ?_) g.peers
    simp only [Bool.and_eq_true, beq_iff_eq] at hfound
    simp [hfound.2, Ne.symm hm]

/-- Nothing has changed that the rest of the room could see, but for one actor's properties. -/
structure OnlyActor (n : Int) (g g' : Game) : Prop where
  actors : g.ActorsSound → g'.ActorsSound
  ids : g'.actorIds = g.actorIds
  connections : g'.connections = g.connections
  flags : g'.flags = g.flags
  table : ∃ table, g'.actorTable = Function.update g.actorTable n table

theorem OnlyActor.refl (n : Int) (g : Game) : OnlyActor n g g where
  actors hg := hg
  ids := rfl
  connections := rfl
  flags := rfl
  table := ⟨g.actorTable n, (Function.update_eq_self n _).symm⟩

theorem OnlyActor.trans {g'' : Game} (hg : OnlyActor n g g') (hg' : OnlyActor n g' g'') :
    OnlyActor n g g'' where
  actors hactors := hg'.actors (hg.actors hactors)
  ids := hg'.ids.trans hg.ids
  connections := hg'.connections.trans hg.connections
  flags := hg'.flags.trans hg.flags
  table := by
    obtain ⟨table, htable⟩ := hg.table
    obtain ⟨table', htable'⟩ := hg'.table
    exact ⟨table', by rw [htable', htable, Function.update_idem]⟩

theorem onlyActor_updatePeer {change : GamePeer → GamePeer}
    (hchange : ∀ gp, ∃ props, change gp = { gp with actorProps := props }) :
    OnlyActor n g { g with
      peers := updatePeer (fun gp => gp.active && gp.actorId == n) change g.peers } where
  actors hg := hg.updatePeer (fun gp => by obtain ⟨_, heq⟩ := hchange gp; rw [heq])
    fun gp => by obtain ⟨_, heq⟩ := hchange gp; rw [heq]
  ids := map_updatePeer (fun gp => by obtain ⟨_, heq⟩ := hchange gp; rw [heq]) g.peers
  connections := map_updatePeer (fun gp => by obtain ⟨_, heq⟩ := hchange gp; rw [heq]) g.peers
  flags := rfl
  table := ⟨_, actorTable_updatePeer hchange⟩

theorem onlyActor_insertActorProps (update : Hashtable) (g : Game) :
    OnlyActor n g (g.insertActorProps n update).2 := by
  unfold insertActorProps
  simp only
  split
  · exact onlyActor_updatePeer fun gp => ⟨_, rfl⟩
  · exact OnlyActor.refl n g

theorem onlyActor_completeJoin (h : PeerHeap) (peer : Option PeerRef) (request : JoinRequest)
    (plugins : JoinPlugins) (g : Game) : OnlyActor ((g.actorIdForPeer h peer).getD 0) g
      (g.completeJoin h peer request plugins) := by
  have herase : OnlyActor ((g.actorIdForPeer h peer).getD 0) g
      (if plugins.publishUserId then g
        else { g with
          peers := updatePeer
            (fun gp => gp.active && gp.actorId == (g.actorIdForPeer h peer).getD 0)
            (fun gp => { gp with actorProps := gp.actorProps.erase userIdKey }) g.peers }) := by
    split
    · exact OnlyActor.refl _ g
    · exact onlyActor_updatePeer fun gp => ⟨_, rfl⟩
  unfold completeJoin
  simp only
  cases request.actorProperties with
  | none => exact herase
  | some props => exact herase.trans (onlyActor_insertActorProps props _)

/-- What `insert_actor_props` makes of a key. -/
def storedForActor (deleteNull : Bool) (key value : Value) (old : Option Value) : Option Value :=
  if key ≠ .null then some value else if deleteNull then none else old

theorem lookup_foldl_insertActorProp (deleteNull : Bool) (update props : Hashtable) (key : Value) :
    (update.entries.foldl (insertActorProp deleteNull) props).lookup key =
      (update.lookup key).elim (props.lookup key) fun value =>
        storedForActor deleteNull key value (props.lookup key) := by
  refine AList.view_foldl (fun (props : Hashtable) key => props.lookup key)
    (storedForActor deleteNull) ?_ ?_ props key
  · rintro props ⟨key, value⟩
    unfold insertActorProp storedForActor
    split
    · rw [AList.lookup_insert]
    · split
      · rw [AList.lookup_erase]
      · rfl
  · rintro props ⟨key, value⟩ other hne
    unfold insertActorProp
    split
    · rw [AList.lookup_insert_ne hne]
    · split
      · rw [AList.lookup_erase_ne hne]
      · rfl

theorem actorTable_insertActorProps (update : Hashtable) (g : Game) :
    (g.insertActorProps n update).2.actorTable = Function.update g.actorTable n
      ((g.actorTable n).map fun old key => (update.lookup key).elim (old key) fun value =>
        storedForActor (GameFlag.deleteNullProps.isSet g.flags) key value (old key)) := by
  unfold insertActorProps
  simp only
  split
  · rw [actorTable_updatePeer fun gp => ⟨_, rfl⟩, actorTable, Option.map_map]
    congr 2
    funext gp key
    exact lookup_foldl_insertActorProp _ update gp.actorProps key
  · next hnone =>
    have htable : g.actorTable n = none := by
      rw [actorTable, Option.not_isSome_iff_eq_none.mp hnone]
      rfl
    rw [htable, Option.map_none, ← htable, Function.update_eq_self]

/-- A connection is the one of the actor that is found for it. -/
theorem actorIdForPeer_eq_some (hg : g.ActorsSound) (hp : g.PeersSound h) :
    g.actorIdForPeer h (some r) = some n ↔ ∃ gp ∈ g.peers, gp.peer = some r ∧ gp.actorId = n := by
  have hlock : ∀ gp ∈ g.peers, h.lock gp.peer = gp.peer := by
    intro gp hgp
    obtain ⟨other, hpeer, hlive⟩ := hp.live gp.peer (List.mem_map_of_mem hgp)
    rw [hpeer]
    exact PeerHeap.lock_eq_some.mpr ⟨rfl, hlive⟩
  have hfind : g.findPeer h (some r) = g.peers.find? fun gp => gp.peer == some r := by
    rw [findPeer, ← List.head?_filter, ← List.head?_filter]
    refine congrArg List.head? (List.filter_congr fun gp hgp => ?_)
    rw [hg.active gp hgp, hlock gp hgp, Bool.true_and]
  rw [actorIdForPeer, if_neg (by simp), hfind, Option.map_eq_some_iff]
  constructor
  · rintro ⟨gp, hgp, hid⟩
    exact ⟨gp, List.mem_of_find?_eq_some hgp, by simpa using List.find?_some hgp, hid⟩
  · rintro ⟨gp, hgp, hpeer, hid⟩
    obtain ⟨other, hother⟩ : ∃ other, (g.peers.find? fun gp => gp.peer == some r) = some other :=
      Option.isSome_iff_exists.mp (List.find?_isSome.mpr ⟨gp, hgp, by simpa using hpeer⟩)
    have hpeer' : other.peer = some r := by simpa using List.find?_some hother
    have hsame : other = gp :=
      List.inj_on_of_nodup_map hp.distinct (List.mem_of_find?_eq_some hother) hgp
        (hpeer'.trans hpeer.symm)
    exact ⟨gp, hsame ▸ hother, hid⟩

/-- What is left of a room when a client has gone. -/
theorem removePeer_sound (hg : g.ActorsSound) (hp : g.PeersSound h)
    (hn : g.actorIdForPeer h (some r) = some n) :
    (g.removePeer h (some r)).2.PeersSound h ∧
      (g.removePeer h (some r)).2.flags = g.flags ∧
      some r ∉ (g.removePeer h (some r)).2.connections ∧
      (g.removePeer h (some r)).2.actorTable = Function.update g.actorTable n none := by
  have hsound := hg.removePeer (h := h) (some r)
  obtain ⟨gp, hgp, hpeer, rfl⟩ := (actorIdForPeer_eq_some hg hp).mp hn
  obtain ⟨_, _, _, heq⟩ := removePeer_eq h r g
  have hstays : ∀ other ∈ g.peers, stays h r other = true ↔ other ≠ gp := by
    intro other hother
    obtain ⟨r', hr', hlive⟩ := hp.live other.peer (List.mem_map_of_mem hother)
    have hlock : h.lock other.peer = some r' := by
      rw [hr']
      exact PeerHeap.lock_eq_some.mpr ⟨rfl, hlive⟩
    rw [stays, hlock, Option.any_some, bne_iff_ne]
    constructor
    · rintro hne rfl
      exact hne (Option.some.inj (hr'.symm.trans hpeer))
    · rintro hne rfl
      exact hne (List.inj_on_of_nodup_map hp.distinct hother hgp (hr'.trans hpeer.symm))
  have hpeers : (g.removePeer h (some r)).2.peers = g.peers.filter (stays h r) := by rw [heq]
  have hmem : ∀ other, other ∈ (g.removePeer h (some r)).2.peers ↔
      other ∈ g.peers ∧ other ≠ gp := by
    intro other
    rw [hpeers, List.mem_filter]
    exact and_congr_right fun hother => hstays other hother
  refine ⟨⟨?_, ?_⟩, by rw [heq], ?_, ?_⟩
  · intro peer hpeer'
    obtain ⟨other, hother, rfl⟩ := List.mem_map.mp hpeer'
    exact hp.live _ (List.mem_map_of_mem ((hmem other).mp hother).1)
  · rw [connections, hpeers]
    exact hp.distinct.sublist (List.filter_sublist.map _)
  · intro hr
    obtain ⟨other, hother, hpeer'⟩ := List.mem_map.mp hr
    obtain ⟨hother, hne⟩ := (hmem other).mp hother
    exact hne (List.inj_on_of_nodup_map hp.distinct hother hgp (hpeer'.trans hpeer.symm))
  · funext m
    by_cases hm : m = gp.actorId
    · subst hm
      rw [Function.update_self, actorTable_eq_none hsound]
      intro hid
      obtain ⟨other, hother, hid⟩ := List.mem_map.mp hid
      obtain ⟨hother, hne⟩ := (hmem other).mp hother
      exact hne (List.inj_on_of_nodup_map hg.distinct hother hgp hid)
    · rw [Function.update_of_ne hm]
      ext table
      rw [actorTable_eq_some hsound, actorTable_eq_some hg]
      constructor
      · rintro ⟨other, hother, htable⟩
        exact ⟨other, ((hmem other).mp hother).1, htable⟩
      · rintro ⟨other, hother, rfl, htable⟩
        refine ⟨other, (hmem other).mpr ⟨hother, ?_⟩, rfl, htable⟩
        rintro rfl
        exact hm rfl

/-- The actors are the same, though seats may be taken or freed. -/
structure SamePeers (g g' : Game) : Prop where
  actors : g.ActorsSound → g'.ActorsSound
  peers : g'.peers = g.peers
  flags : g'.flags = g.flags

theorem SamePeers.refl (g : Game) : SamePeers g g := ⟨id, rfl, rfl⟩

theorem SamePeers.trans {g'' : Game} (hg : SamePeers g g') (hg' : SamePeers g' g'') :
    SamePeers g g'' :=
  ⟨hg'.actors ∘ hg.actors, hg'.peers.trans hg.peers, hg'.flags.trans hg.flags⟩

theorem SamePeers.peersSound (hg : SamePeers g g') (hp : g.PeersSound h) : g'.PeersSound h := by
  have hconnections : g'.connections = g.connections := by
    rw [connections, hg.peers, connections]
  exact ⟨hconnections ▸ hp.live, hconnections ▸ hp.distinct⟩

theorem SeatsOnly.samePeers (hg : SeatsOnly g g') : SamePeers g g' := by
  refine ⟨fun hactors => hactors.seatsOnly hg, ?_, ?_⟩
  all_goals
    obtain ⟨_, _, _, _, _, _, rfl⟩ := hg
    rfl

theorem PropsOnly.samePeers (hg : PropsOnly g g') : SamePeers g g' := by
  refine ⟨fun hactors => hactors.propsOnly hg, ?_, ?_⟩
  all_goals
    obtain ⟨_, _, _, _, _, _, _, _, _, rfl⟩ := hg
    rfl

theorem samePeers_rollbackExpectedUsers (added : List (String × Nat)) (g : Game) :
    SamePeers g (g.rollbackExpectedUsers added) := by
  obtain ⟨_, _, heq⟩ := rollbackExpectedUsers_frame added g
  rw [heq]
  exact ⟨fun hactors => hactors.congr rfl rfl rfl rfl, rfl, rfl⟩

theorem samePeers_createPeer (h : PeerHeap) (peer : Option PeerRef) (g : Game) :
    SamePeers g (g.createPeer h peer).2 := by
  refine ⟨fun hactors => hactors.createPeer peer, ?_, ?_⟩
  all_goals rcases createPeer_game h peer g with heq | heq <;> rw [heq]

/-- A client has become the last actor of the room. -/
structure Enters (peer : Option PeerRef) (gp : GamePeer) (g g' : Game) : Prop where
  actors : g'.ActorsSound
  peers : g'.peers = g.peers ++ [gp]
  connection : gp.peer = peer
  number : gp.actorId ∉ g.actorIds
  flags : g'.flags = g.flags

/-- The first half of a join lets the client in, or leaves the actors alone. -/
theorem beginJoin_cases (hg : g.ActorsSound) (hout : g.findPeer h peer = none)
    (settings : AppSettings) (userId : String) (expectedUsers : List String)
    (beforeJoin : GamePluginResult) :
    (∃ answer g', g.beginJoin h settings peer userId expectedUsers beforeJoin =
        .refused answer g' ∧ SamePeers g g') ∨
      ∃ added g' gp, g.beginJoin h settings peer userId expectedUsers beforeJoin =
        .admitted added g' ∧ Enters peer gp g g' := by
  have hrefused : ∀ added, SamePeers g (g.rollbackJoinExisting h peer false added) :=
    fun added => samePeers_rollbackExpectedUsers added g
  unfold beginJoin
  split
  swap
  · exact .inl ⟨_, _, rfl, hrefused _⟩
  split
  · exact .inl ⟨_, _, rfl, hrefused _⟩
  split
  swap
  · exact .inl ⟨_, _, rfl, hrefused _⟩
  have hseats : ReservedFor h userId expectedUsers ([], g)
      (g.reserveAllForJoin h peer userId expectedUsers) := reserveAll_spec expectedUsers hout
  have hreserved : SamePeers g (g.reserveAllForJoin h peer userId expectedUsers).2 :=
    hseats.seats.samePeers
  clear hseats
  generalize g.reserveAllForJoin h peer userId expectedUsers = st at hreserved
  obtain ⟨added, g₁⟩ := st
  dsimp only at hreserved ⊢
  have hcreated : SamePeers g (g₁.createPeer h peer).2 :=
    hreserved.trans (samePeers_createPeer h peer g₁)
  have hvalid : (g₁.createPeer h peer).1.isValid = true → (g₁.createPeer h peer).1.active = true ∧
      1 ≤ (g₁.createPeer h peer).1.actorId ∧ (g₁.createPeer h peer).1.actorId ≤ 0xfe :=
    (hreserved.actors hg).createPeer_valid
  have hpeer : (g₁.createPeer h peer).1.isValid = true → (g₁.createPeer h peer).1.peer = peer := by
    intro hvalid
    cases huser : h.userId peer with
    | none =>
      rw [createPeer, huser] at hvalid
      cases hvalid
    | some userId =>
      obtain ⟨hfound, htakes⟩ := (hreserved.actors hg).createPeer_of_user huser
      exact (htakes (hfound.mp hvalid)).2.2
  generalize g₁.createPeer h peer = created at hcreated hvalid hpeer
  obtain ⟨gp, g₂⟩ := created
  dsimp only at hcreated hvalid hpeer ⊢
  have hback : ∀ added, SamePeers g (g₂.rollbackJoinExisting h peer false added) :=
    fun added => hcreated.trans (samePeers_rollbackExpectedUsers added g₂)
  split
  · exact .inl ⟨_, _, rfl, hback _⟩
  · next hnotInvalid =>
    have hgp : gp.isValid = true := by simpa using hnotInvalid
    obtain ⟨hactive, hone, hmax⟩ := hvalid hgp
    rcases addPeer_cases (h := h) gp g₂ with heq | ⟨userId, -, -, hfree, -, heq⟩
    · rw [heq]
      exact .inl ⟨_, _, rfl, hback _⟩
    · rw [heq]
      have hactors := hcreated.actors hg
      refine .inr ⟨_, _, gp, rfl, hactors.emplacePeer userId hactive ⟨hone, hmax⟩ hfree, ?_,
        hpeer hgp, ?_, ?_⟩
      · rw [emplacePeer_eq, hcreated.peers]
      · rw [actorIds, ← hcreated.peers, ← actorIds, ← findActor_of_active hactors.active, hfree]
        decide
      · rw [emplacePeer_eq, hcreated.flags]

/-- The disconnect of a client that is in the room, and of one that is not. -/
theorem handleDisconnect_eq (hg : g.ActorsSound) (peer : Option PeerRef) :
    ∃ eventCache, g.handleDisconnect h peer 0 =
      match g.actorIdForPeer h peer with
      | none => { game := g, lobbyUpdates := 0 }
      | some n =>
        let left := ({ g with eventCache }.removePeer h peer).2
        { game := left
          lobbyUpdates := 1
          leaveEvent :=
            if GameFlag.suppressRoomEvents.isSet left.flags then none
            else
              some
                { senderActorId := n
                  actorList := left.peers.map (·.actorId)
                  masterClientId :=
                    if n = g.masterActor then some left.masterActor else none } } := by
  obtain ⟨keep, hcleanup⟩ := cleanupCacheOnLeave_eq h cleanupCacheOnLeaveCode peer g
  refine ⟨g.eventCache.filter keep, ?_⟩
  unfold handleDisconnect
  rw [if_neg (by simp)]
  dsimp only
  rw [hcleanup]
  cases hn : g.actorIdForPeer h peer with
  | none => simp
  | some n =>
    obtain ⟨gp, hgp, hid⟩ : ∃ gp ∈ g.peers, gp.actorId = n := by
      unfold actorIdForPeer at hn
      split at hn
      · cases hn
      · obtain ⟨gp, hfind, hid⟩ := Option.map_eq_some_iff.mp hn
        exact ⟨gp, List.mem_of_find?_eq_some hfind, hid⟩
    have hmem : n ∈ g.actorIds := hid ▸ List.mem_map_of_mem hgp
    have hpos : n ≠ 0 := by
      have hrange := hg.range n hmem
      omega
    have hcount : g.activePeerCount ≠ 0 := (List.length_pos_of_mem hgp).ne'
    have hfind : (g.findActor n).isSome := (findActor_of_active hg.active).mpr hmem
    rw [Option.getD_some, if_pos ⟨hcount, hpos, hfind⟩]
    rfl

end Game

end LuxonServer
