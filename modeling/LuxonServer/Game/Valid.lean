import Mathlib.Data.Int.Interval
import LuxonServer.Lib.Run
import LuxonServer.Game.Room

/-! What holds of a room in every state that its operations, in any order, bring about: the tables
of reservations agree, and the actors are told apart by their numbers. -/

namespace LuxonServer

namespace Game

/-- A property of the tables of reservations that reserving and removing keep. -/
structure SeatInvariant (P : Game → Prop) : Prop where
  congr : ∀ {g g' : Game}, P g → g'.expectedUsers = g.expectedUsers →
    g'.expectedUserGenerations = g.expectedUserGenerations →
    g'.nextExpectedUserGeneration = g.nextExpectedUserGeneration → P g'
  reserve : ∀ {g : Game} (userId : String) (ttlMs : Nat), P g →
    P (g.reserveExpectedUserWithGeneration userId ttlMs).2
  remove : ∀ {g : Game} (userId : String), P g → P (g.removeExpectedUser userId)

namespace SeatInvariant

variable {P : Game → Prop} (hP : SeatInvariant P) {g : Game}
include hP

theorem removeIfGeneration (userId : String) (generation : Nat) (hg : P g) :
    P (g.removeExpectedUserIfGeneration userId generation).2 := by
  by_cases hl : g.expectedUserGenerations.lookup userId = some generation
  · rw [removeIfGeneration_of_lookup hl]
    have hremoved := hP.remove userId hg
    rw [removeExpectedUser_eq] at hremoved
    exact hP.congr hremoved rfl rfl rfl
  · rwa [removeIfGeneration_of_ne hl]

theorem runScheduledTask (task : ScheduledTask) (hg : P g) : P (g.runScheduledTask task) := by
  rcases runScheduledTask_cases task g with ⟨_, heq⟩ | ⟨_, _, _, _, -, -, heq⟩
  · rw [heq]
    exact hP.congr hg rfl rfl rfl
  · rw [heq]
    apply hP.remove
    exact hP.congr hg rfl rfl rfl

theorem emplacePeer (gp : GamePeer) (userId : String) (hg : P g) : P (g.emplacePeer gp userId) := by
  apply hP.remove userId
  exact hP.congr hg rfl rfl rfl

theorem releaseReserved (hg : P g) : P g.releaseReserved :=
  List.foldlRecOn _ _ hg fun _ hg' entry _ => hP.removeIfGeneration entry.1 entry.2 hg'

theorem restoreRemoved (hg : P g) : P g.restoreRemoved := by
  apply List.foldlRecOn _ _ hg
  intro _ hg' entry _
  split
  · exact hg'
  · exact hP.reserve entry.1 30000 hg'

theorem rollbackSeats (h : PeerHeap) (hg : P g) : P (g.rollbackSeats h) := by
  apply hP.restoreRemoved
  apply hP.releaseReserved
  exact hP.congr hg rfl rfl rfl

theorem abort (h : PeerHeap) (owner : Option PeerRef) (generation : Nat) (hg : P g) :
    P (g.abortCreationTransaction h owner generation).2 := by
  by_cases hactive : g.isCreationActive h owner generation
  · obtain ⟨_, heq⟩ := abortCreationTransaction_eq hactive
    rw [heq]
    exact hP.congr (hP.rollbackSeats h hg) rfl rfl rfl
  · rwa [abortCreationTransaction_of_inactive (Bool.eq_false_iff.mpr hactive)]

theorem replaceExpectedUsers (users : List String) (hg : P g) :
    P (g.replaceExpectedUsers users) :=
  List.foldlRecOn users _
    (List.foldlRecOn g.expectedUsers.toList _ hg fun _ hg' user _ => hP.remove user hg')
    fun _ hg' user _ => hP.reserve user 30000 hg'

theorem propsOnly {g' : Game} (hg : P g) (hprops : PropsOnly g g') : P g' := by
  obtain ⟨_, _, _, _, _, _, _, _, _, rfl⟩ := hprops
  exact hP.congr hg rfl rfl rfl

theorem receiveUpdate (settings : AppSettings) (isNew : Bool) (m : GameUpdate) (hg : P g) :
    P (g.receiveUpdate settings isNew m).1 :=
  receiveUpdate_induction hg (fun _ hg' => hP.congr hg' rfl rfl rfl)
    (fun _ users hg' => hP.replaceExpectedUsers users hg')
    (fun _ _ hg' => hP.congr hg' rfl rfl rfl) (fun _ _ hg' => hP.propsOnly hg') settings isNew

/-- Every operation of a room keeps such a property. -/
theorem perform (settings : AppSettings) (s : Room) (op : RoomOp) (hs : P s.game) :
    P (s.perform settings op).game := by
  cases op with
  | connect peer | setPersistent peer persistent =>
    simp only [Room.perform]
    split <;> exact hs
  | tryBeginCreation owner =>
    rcases tryBeginCreation_cases owner s.game with heq | ⟨-, -, -, -, heq⟩
    · simpa only [Room.perform, heq] using hs
    · simp only [Room.perform, heq]
      exact hP.congr hs rfl rfl rfl
  | applyCreationSettings owner generation values =>
    simp only [Room.perform, applyCreationSettings]
    split
    · exact hP.congr hs rfl rfl rfl
    · exact hs
  | commitCreation owner generation =>
    rcases commitCreation_cases s.heap owner generation s.game with heq | ⟨-, -, heq⟩
    · simpa only [Room.perform, heq] using hs
    · simp only [Room.perform, heq]
      exact hP.congr hs rfl rfl rfl
  | abortCreationTransaction owner generation => exact hP.abort s.heap owner generation hs
  | createPeer peer =>
    rcases createPeer_game s.heap peer s.game with heq | heq
    · simpa only [Room.perform, Room.handOut_game, heq] using hs
    · simp only [Room.perform, Room.handOut_game, heq]
      exact hP.congr hs rfl rfl rfl
  | addPeer index =>
    rcases Room.addPeer_game_cases settings s index with heq | ⟨gp, userId, -, -, heq⟩
    · rwa [heq]
    · rw [heq]
      exact hP.emplacePeer gp userId hs
  | addPeerForCreation index owner generation =>
    rcases Room.addPeerForCreation_game_cases settings s index owner generation with
      heq | ⟨gp, userId, -, -, -, -, heq⟩
    · rwa [heq]
    · rw [heq]
      exact hP.emplacePeer gp userId hs
  | removePeer peer =>
    cases peer with
    | none => exact hs
    | some r =>
      obtain ⟨_, _, _, heq⟩ := removePeer_eq s.heap r s.game
      simp only [Room.perform, heq]
      exact hP.congr hs rfl rfl rfl
  | reserveExpectedUser userId ttlMs => exact hP.reserve userId ttlMs hs
  | removeExpectedUser userId => exact hP.remove userId hs
  | removeExpectedUserIfGeneration userId generation =>
    exact hP.removeIfGeneration userId generation hs
  | runScheduledTask task => exact hP.runScheduledTask task hs
  | insertGameProps update =>
    exact hP.propsOnly hs (propsOnly_insertGameProps settings update s.game)
  | applyGameProps update expected =>
    exact hP.propsOnly hs (propsOnly_applyGameProps settings update expected s.game)
  | insertActorProps actorId update =>
    obtain ⟨_, _, -, heq⟩ := insertActorProps_eq actorId update s.game
    simp only [Room.perform, heq]
    exact hP.congr hs rfl rfl rfl
  | applyInterestGroups peer add remove =>
    obtain ⟨_, _, -, heq⟩ := applyInterestGroups_eq s.heap peer add remove s.game
    simp only [Room.perform, heq]
    exact hP.congr hs rfl rfl rfl
  | receiveUpdate isNew message => exact hP.receiveUpdate settings isNew message hs
  | disconnect peer => exact hs
  | createPeerForActor peer actorId => exact hs
  | _ => exact hP.congr hs rfl rfl rfl

theorem step (settings : AppSettings) (s : Room) (op : RoomOp) (hs : P s.game) :
    P (s.step settings op).game := by
  rcases Room.step_cases settings s op with heq | ⟨-, heq⟩
  · rwa [heq]
  · rw [heq]
    exact hP.perform settings s op hs

end SeatInvariant

/-- The tables of reservations agree, and no reservation is without a user. -/
structure SeatsSound (g : Game) : Prop where
  named : "" ∉ g.expectedUsers
  keys : ∀ userId, userId ∈ g.expectedUserGenerations ↔ userId ∈ g.expectedUsers
  issued : ∀ userId generation, g.expectedUserGenerations.lookup userId = some generation →
    generation ≤ g.nextExpectedUserGeneration

theorem seatsSound_invariant : SeatInvariant SeatsSound where
  congr hg husers hgens hnext := by
    constructor
    · rw [husers]
      exact hg.named
    · rw [husers, hgens]
      exact hg.keys
    · rw [hgens, hnext]
      exact hg.issued
  reserve := by
    intro g userId ttlMs hg
    rcases reserve_cases userId ttlMs g with ⟨heq, -⟩ | ⟨hne, hnot, heq⟩
    · rwa [heq]
    · rw [heq]
      constructor
      · simp [withReservation, hg.named, hne]
      · intro u
        simp [withReservation, hg.keys u]
      · intro u n hl
        simp only [withReservation, AList.lookup_insert_eq] at hl ⊢
        split at hl
        · cases hl
          exact le_refl _
        · exact Nat.le_succ_of_le (hg.issued u n hl)
  remove := by
    intro g userId hg
    rw [removeExpectedUser_eq]
    constructor
    · simp [hg.named]
    · intro u
      simp [hg.keys u]
    · intro u n hl
      simp only [AList.lookup_erase_eq] at hl
      split at hl
      · cases hl
      · exact hg.issued u n hl

/-- The actors are active, and their numbers are distinct numbers from `1` to `254`. -/
structure ActorsSound (g : Game) : Prop where
  active : ∀ gp ∈ g.peers, gp.active = true
  range : ∀ actorId ∈ g.actorIds, 1 ≤ actorId ∧ actorId ≤ 0xfe
  distinct : g.actorIds.Nodup
  last : 0 ≤ g.lastActorId ∧ g.lastActorId ≤ 0xfe
  initial : 0 ≤ g.creationInitial.lastActorId ∧ g.creationInitial.lastActorId ≤ 0xfe

namespace ActorsSound

variable {g g' : Game} {h : PeerHeap}

theorem congr (hg : g.ActorsSound) (hactive : g'.peers.map (·.active) = g.peers.map (·.active))
    (hids : g'.actorIds = g.actorIds) (hlast : g'.lastActorId = g.lastActorId)
    (hinitial : g'.creationInitial.lastActorId = g.creationInitial.lastActorId) :
    g'.ActorsSound := by
  refine ⟨?_, hids ▸ hg.range, hids ▸ hg.distinct, hlast ▸ hg.last, hinitial ▸ hg.initial⟩
  intro gp hgp
  have hmem : gp.active ∈ g.peers.map (·.active) := hactive ▸ List.mem_map_of_mem hgp
  obtain ⟨gp', hgp', heq⟩ := List.mem_map.mp hmem
  rw [← heq]
  exact hg.active gp' hgp'

/-- An actor is found under its own number. -/
theorem findActor_of_mem (hg : g.ActorsSound) {gp : GamePeer} (hgp : gp ∈ g.peers) :
    g.findActor gp.actorId = some gp := by
  obtain ⟨other, hother⟩ := Option.isSome_iff_exists.mp
    (findActor_isSome.mpr ⟨gp, hgp, hg.active gp hgp, rfl⟩)
  have hfound := List.find?_some hother
  have hid : other.actorId = gp.actorId := by
    simpa using (Bool.and_eq_true_iff.mp hfound).2
  have hsame : other = gp :=
    List.inj_on_of_nodup_map hg.distinct (List.mem_of_find?_eq_some hother) hgp hid
  rw [hother, hsame]

theorem length_le (hg : g.ActorsSound) : g.peers.length ≤ 0xfe := by
  have hrange : g.actorIds.toFinset ⊆ Finset.Icc (1 : Int) 0xfe := by
    intro actorId hmem
    exact Finset.mem_Icc.mpr (hg.range actorId (List.mem_toFinset.mp hmem))
  have hcard := Finset.card_le_card hrange
  rw [List.toFinset_card_of_nodup hg.distinct, Int.card_Icc, actorIds, List.length_map] at hcard
  have hwidth : ((0xfe : Int) + 1 - 1).toNat = 0xfe := by decide
  omega

theorem seatsOnly (hg : g.ActorsSound) (hseats : SeatsOnly g g') : g'.ActorsSound := by
  obtain ⟨_, _, _, _, _, _, rfl⟩ := hseats
  exact hg.congr rfl rfl rfl rfl

theorem propsOnly (hg : g.ActorsSound) (hprops : PropsOnly g g') : g'.ActorsSound := by
  obtain ⟨_, _, _, _, _, _, _, _, _, rfl⟩ := hprops
  exact hg.congr rfl rfl rfl rfl

theorem updatePeer (hg : g.ActorsSound) {found : GamePeer → Bool} {change : GamePeer → GamePeer}
    (hactive : ∀ gp, (change gp).active = gp.active)
    (hid : ∀ gp, (change gp).actorId = gp.actorId) :
    { g with peers := updatePeer found change g.peers }.ActorsSound :=
  hg.congr (map_updatePeer hactive g.peers) (map_updatePeer hid g.peers) rfl rfl

theorem sublist (hg : g.ActorsSound) (hpeers : g'.peers.Sublist g.peers)
    (hlast : 0 ≤ g'.lastActorId ∧ g'.lastActorId ≤ 0xfe)
    (hinitial : g'.creationInitial.lastActorId = g.creationInitial.lastActorId) :
    g'.ActorsSound where
  active gp hgp := hg.active gp (hpeers.subset hgp)
  range actorId hid := hg.range actorId ((hpeers.map _).subset hid)
  distinct := hg.distinct.sublist (hpeers.map _)
  last := hlast
  initial := hinitial ▸ hg.initial

theorem createPeer (hg : g.ActorsSound) (peer : Option PeerRef) :
    (g.createPeer h peer).2.ActorsSound := by
  rcases createPeer_game h peer g with heq | heq
  · rwa [heq]
  · rw [heq]
    exact hg.sublist (List.Sublist.refl _) (allocateActor_spec _ _ hg.last).1 rfl

/-- `create_peer` takes the number that its search finds. -/
theorem createPeer_of_user (hg : g.ActorsSound) {peer : Option PeerRef} {userId : String}
    (huser : h.userId peer = some userId) :
    let actorId := (allocateActor (fun actorId => (g.findActor actorId).isSome) 0xfe
      g.lastActorId).1
    ((g.createPeer h peer).1.isValid = true ↔ actorId ≠ 0) ∧
      (actorId ≠ 0 → (g.createPeer h peer).1.active = true ∧
        (g.createPeer h peer).1.actorId = actorId ∧ (g.createPeer h peer).1.peer = peer) := by
  intro actorId
  have hspec := (allocateActor_spec (fun actorId => (g.findActor actorId).isSome) 0xfe hg.last).2
  unfold Game.createPeer
  rw [huser]
  simp only
  split
  · next hpos =>
    refine ⟨iff_of_true ?_ (ne_of_gt hpos), fun _ => ⟨rfl, rfl, rfl⟩⟩
    simp only [GamePeer.isValid, Bool.true_and, decide_eq_true_eq]
    exact hpos
  · next hpos =>
    have hzero : actorId = 0 := by
      rcases hspec with hzero | ⟨hone, -⟩
      · exact hzero
      · omega
    refine ⟨iff_of_false (fun hvalid => ?_) (not_not_intro hzero), fun hne => absurd hzero hne⟩
    cases hvalid

/-- A peer that `create_peer` returns as valid has a number that no actor of the room has. -/
theorem createPeer_valid (hg : g.ActorsSound) {peer : Option PeerRef}
    (hvalid : (g.createPeer h peer).1.isValid = true) :
    (g.createPeer h peer).1.active = true ∧ 1 ≤ (g.createPeer h peer).1.actorId ∧
      (g.createPeer h peer).1.actorId ≤ 0xfe := by
  cases huser : h.userId peer with
  | none =>
    rw [Game.createPeer, huser] at hvalid
    cases hvalid
  | some userId =>
    obtain ⟨hfound, htakes⟩ := hg.createPeer_of_user huser
    obtain ⟨hactive, hactor, -⟩ := htakes (hfound.mp hvalid)
    obtain ⟨hone, hmax, -⟩ := (allocateActor_spec _ _ hg.last).2.resolve_left (hfound.mp hvalid)
    rw [hactor]
    exact ⟨hactive, hone, hmax⟩

theorem createPeerForActor_valid {peer : Option PeerRef} {actorId : Int}
    (hvalid : (g.createPeerForActor h peer actorId).isValid = true) :
    (g.createPeerForActor h peer actorId).active = true ∧
      1 ≤ (g.createPeerForActor h peer actorId).actorId ∧
      (g.createPeerForActor h peer actorId).actorId ≤ 0xfe := by
  revert hvalid
  unfold createPeerForActor
  cases h.userId peer with
  | none => intro hvalid; cases hvalid
  | some userId =>
    simp only
    split
    · intro hvalid
      cases hvalid
    · next hrange =>
      split
      · intro hvalid
        cases hvalid
      · exact fun _ => ⟨rfl, by dsimp only; omega, by dsimp only; omega⟩

theorem emplacePeer (hg : g.ActorsSound) {gp : GamePeer} (userId : String)
    (hactive : gp.active = true) (hrange : 1 ≤ gp.actorId ∧ gp.actorId ≤ 0xfe)
    (hfree : (g.findActor gp.actorId).isSome = false) : (g.emplacePeer gp userId).ActorsSound := by
  have hnot : gp.actorId ∉ g.actorIds := fun hmem => by
    rw [(findActor_of_active hg.active).mpr hmem] at hfree
    cases hfree
  have hids : (g.emplacePeer gp userId).actorIds = g.actorIds ++ [gp.actorId] := by
    simp [actorIds, emplacePeer_eq]
  refine ⟨?_, ?_, ?_, ?_, ?_⟩
  · intro gp' hgp'
    rw [emplacePeer_eq] at hgp'
    rcases List.mem_append.mp hgp' with hold | hnew
    · exact hg.active gp' hold
    · rw [List.mem_singleton.mp hnew, hactive]
  · intro actorId hid
    rw [hids] at hid
    rcases List.mem_append.mp hid with hold | hnew
    · exact hg.range actorId hold
    · rw [List.mem_singleton.mp hnew]
      exact hrange
  · rw [hids]
    exact List.nodup_append.mpr
      ⟨hg.distinct, List.nodup_singleton _, fun a ha b hb heq =>
        hnot (List.mem_singleton.mp hb ▸ heq ▸ ha)⟩
  · rw [emplacePeer_eq]
    exact hg.last
  · rw [emplacePeer_eq]
    exact hg.initial

theorem removePeer (hg : g.ActorsSound) (peer : Option PeerRef) :
    (g.removePeer h peer).2.ActorsSound := by
  cases peer with
  | none => exact hg
  | some r =>
    obtain ⟨_, _, _, heq⟩ := removePeer_eq h r g
    rw [heq]
    exact hg.sublist List.filter_sublist hg.last rfl

theorem abort (hg : g.ActorsSound) (owner : Option PeerRef) (generation : Nat) :
    (g.abortCreationTransaction h owner generation).2.ActorsSound := by
  by_cases hactive : g.isCreationActive h owner generation
  · obtain ⟨_, heq⟩ := abortCreationTransaction_eq hactive
    rw [heq]
    exact hg.sublist List.filter_sublist hg.initial rfl
  · rwa [abortCreationTransaction_of_inactive (Bool.eq_false_iff.mpr hactive)]

theorem tryBegin (hg : g.ActorsSound) (owner : Option PeerRef) :
    (g.tryBeginCreation owner).2.ActorsSound := by
  rcases tryBeginCreation_cases owner g with heq | ⟨-, -, -, -, heq⟩
  · rwa [heq]
  · rw [heq]
    exact ⟨hg.active, hg.range, hg.distinct, hg.last, hg.last⟩

theorem receiveUpdate (hg : g.ActorsSound) (settings : AppSettings) (isNew : Bool)
    (m : GameUpdate) : (g.receiveUpdate settings isNew m).1.ActorsSound :=
  receiveUpdate_induction hg (fun _ hg' => hg'.congr rfl rfl rfl rfl)
    (fun _ users hg' => hg'.seatsOnly (seatsOnly_replaceExpectedUsers users _))
    (fun _ _ hg' => hg'.congr rfl rfl rfl rfl) (fun _ _ hg' => hg'.propsOnly) settings isNew

end ActorsSound

end Game

namespace Room

open Game

/-- A room whose tables agree and whose actors are told apart; a peer that it has handed out has an
actor's number. -/
structure Valid (s : Room) : Prop where
  seats : s.game.SeatsSound
  actors : s.game.ActorsSound
  handed : ∀ gp ∈ s.handedOut, gp.active = true ∧ 1 ≤ gp.actorId ∧ gp.actorId ≤ 0xfe

variable {settings : AppSettings} {s : Room}

theorem valid_of_isNew (hnew : s.IsNew) : s.Valid := by
  obtain ⟨hgame, hhanded⟩ := hnew
  refine ⟨?_, ?_, by simp [hhanded]⟩
  · rw [hgame]
    exact ⟨by simp, fun _ => by simp, fun _ _ hl => by simp at hl⟩
  · rw [hgame]
    exact ⟨by simp, by simp [actorIds], by simp [actorIds], by simp, by simp⟩

/-- An operation that hands no peer out. -/
theorem Valid.of_game (hs : s.Valid) {s' : Room} (hhanded : s'.handedOut = s.handedOut)
    (hactors : s'.game.ActorsSound) (hseats : s'.game.SeatsSound) : s'.Valid :=
  ⟨hseats, hactors, hhanded ▸ hs.handed⟩

theorem Valid.handOut (hs : s.Valid) {gp : GamePeer} {game : Game} (hactors : game.ActorsSound)
    (hgp : gp.isValid = true → gp.active = true ∧ 1 ≤ gp.actorId ∧ gp.actorId ≤ 0xfe)
    (hseats : game.SeatsSound) : (s.handOut gp game).Valid := by
  refine ⟨hseats, hactors, ?_⟩
  intro gp' hgp'
  by_cases hvalid : gp.isValid
  · simp only [Room.handOut, hvalid, if_true] at hgp'
    rcases List.mem_append.mp hgp' with hold | hnew
    · exact hs.handed gp' hold
    · rw [List.mem_singleton.mp hnew]
      exact hgp hvalid
  · simp only [Room.handOut, hvalid] at hgp'
    exact hs.handed gp' hgp'

theorem Valid.give (hs : s.Valid) (index : Nat) {add : GamePeer → Game}
    (hadd : ∀ gp ∈ s.handedOut, (add gp).ActorsSound)
    (hseats : (s.give index add).game.SeatsSound) : (s.give index add).Valid := by
  revert hseats
  unfold Room.give
  split
  · exact fun _ => hs
  · next gp hgp =>
    exact fun hseats => ⟨hseats, hadd gp (List.mem_of_getElem? hgp),
      fun gp' hgp' => hs.handed gp' (List.mem_of_mem_eraseIdx hgp')⟩

/-- Every operation keeps a valid room valid. -/
theorem Valid.perform (hs : s.Valid) (settings : AppSettings) (op : RoomOp) :
    (s.perform settings op).Valid := by
  have hseats := seatsSound_invariant.perform settings s op hs.seats
  have hactors := hs.actors
  cases op with
  | connect peer | setPersistent peer persistent =>
    simp only [Room.perform]
    split
    · exact hs.of_game rfl hactors hs.seats
    · exact hs
  | disconnect peer => exact hs.of_game rfl hactors hseats
  | tryBeginCreation owner => exact hs.of_game rfl (hactors.tryBegin owner) hseats
  | applyCreationSettings owner generation values =>
    refine hs.of_game rfl ?_ hseats
    simp only [Room.perform, applyCreationSettings]
    split
    · exact hactors.congr rfl rfl rfl rfl
    · exact hactors
  | commitCreation owner generation =>
    refine hs.of_game rfl ?_ hseats
    rcases commitCreation_cases s.heap owner generation s.game with heq | ⟨-, -, heq⟩
    · simpa only [Room.perform, heq] using hactors
    · simp only [Room.perform, heq]
      exact hactors.congr rfl rfl rfl rfl
  | abortCreationTransaction owner generation =>
    exact hs.of_game rfl (hactors.abort owner generation) hseats
  | createPeer peer =>
    exact hs.handOut (hactors.createPeer peer) hactors.createPeer_valid hseats
  | createPeerForActor peer actorId =>
    exact hs.handOut hactors ActorsSound.createPeerForActor_valid hseats
  | addPeer index =>
    refine hs.give index (fun gp hgp => ?_) hseats
    rcases addPeer_cases (h := s.heap) gp s.game with heq | ⟨userId, -, -, hfree, -, heq⟩
    · rwa [heq]
    · rw [heq]
      exact hactors.emplacePeer userId (hs.handed gp hgp).1 (hs.handed gp hgp).2 hfree
  | addPeerForCreation index owner generation =>
    refine hs.give index (fun gp hgp => ?_) hseats
    rcases addPeerForCreation_cases s.heap gp owner generation s.game with
      heq | ⟨userId, -, -, -, hfree, -, heq⟩
    · rwa [heq]
    · rw [heq]
      exact hactors.emplacePeer userId (hs.handed gp hgp).1 (hs.handed gp hgp).2 hfree
  | removePeer peer => exact hs.of_game rfl (hactors.removePeer peer) hseats
  | reserveExpectedUser userId ttlMs =>
    exact hs.of_game rfl (hactors.seatsOnly (seatsOnly_reserve userId ttlMs s.game)) hseats
  | removeExpectedUser userId =>
    exact hs.of_game rfl (hactors.seatsOnly (seatsOnly_remove userId s.game)) hseats
  | removeExpectedUserIfGeneration userId generation =>
    exact hs.of_game rfl
      (hactors.seatsOnly (seatsOnly_removeIfGeneration userId generation s.game)) hseats
  | runScheduledTask task =>
    exact hs.of_game rfl (hactors.seatsOnly (seatsOnly_runScheduledTask task s.game)) hseats
  | insertGameProps update =>
    exact hs.of_game rfl (hactors.propsOnly (propsOnly_insertGameProps settings update s.game))
      hseats
  | applyGameProps update expected =>
    exact hs.of_game rfl
      (hactors.propsOnly (propsOnly_applyGameProps settings update expected s.game)) hseats
  | insertActorProps actorId update =>
    refine hs.of_game rfl ?_ hseats
    obtain ⟨found, change, hchange, heq⟩ := insertActorProps_eq actorId update s.game
    simp only [Room.perform, heq]
    exact hactors.updatePeer (fun gp => by obtain ⟨_, h⟩ := hchange gp; rw [h])
      fun gp => by obtain ⟨_, h⟩ := hchange gp; rw [h]
  | applyInterestGroups peer add remove =>
    refine hs.of_game rfl ?_ hseats
    obtain ⟨found, change, hchange, heq⟩ := applyInterestGroups_eq s.heap peer add remove s.game
    simp only [Room.perform, heq]
    exact hactors.updatePeer (fun gp => by obtain ⟨_, h⟩ := hchange gp; rw [h])
      fun gp => by obtain ⟨_, h⟩ := hchange gp; rw [h]
  | receiveUpdate isNew message =>
    exact hs.of_game rfl (hactors.receiveUpdate settings isNew message) hseats
  | _ => exact hs.of_game rfl (hactors.congr rfl rfl rfl rfl) hseats

theorem valid_keeps (B : Room → RoomOp → Prop) : Transition.Keeps (step settings) B Valid :=
  fun _ op hs _ => step_induction hs fun _ => hs.perform settings op

/-- The states of a room: what its operations, in any order, make of a new one. -/
abbrev Reachable (settings : AppSettings) : Room → Prop :=
  Transition.Reachable (step settings) IsNew fun _ _ => True

theorem Reachable.valid (hs : Reachable settings s) : s.Valid :=
  hs.invariant (fun _ => valid_of_isNew) (valid_keeps _)

theorem reachable_run (info : GameInfo) (ops : List RoomOp) :
    Reachable settings (Transition.run (step settings) (create info) ops) :=
  (Transition.Reachable.init (isNew_create info)).run
    (Transition.eachStep_of_forall fun _ _ _ => trivial)

end Room

end LuxonServer
