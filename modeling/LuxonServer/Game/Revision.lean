import Mathlib.Data.Finmap
import LuxonServer.Game.Valid
import LuxonServer.Game.Lease

/-! The revision of a room and what `trigger_lobby_update` publishes of it: which operations bump
the one when they change the other. -/

namespace LuxonServer

namespace Game

/-- What `trigger_lobby_update` publishes, without the order of its tables. -/
structure Published where
  created : Bool
  creating : Bool
  visible : Bool
  expectedUsers : Finset String
  lobbyProps : Finmap fun _ : Value => Value
  deriving DecidableEq

/-- The published part of the room. -/
def published (g : Game) : Published where
  created := g.isCreated
  creating := g.isCreating
  visible := g.isVisible
  expectedUsers := g.expectedUsers.toFinset
  lobbyProps := g.getLobbyGameProps.toFinmap

/-- The revision counts the change from `g` to `g'`, and does not go back. -/
def Counted (g g' : Game) : Prop :=
  (g'.published ≠ g.published → g.stateRevision < g'.stateRevision) ∧
    g.stateRevision ≤ g'.stateRevision

instance (g g' : Game) : Decidable (Counted g g') := inferInstanceAs (Decidable (_ ∧ _))

section Published

variable {g g' : Game}

theorem playerCount_eq_iff : g'.playerCount = g.playerCount ↔
    (g'.peers.length + g'.dummyPeerCount.toNat) % 256 =
      (g.peers.length + g.dummyPeerCount.toNat) % 256 := by
  rw [playerCount, playerCount, ← UInt8.toNat_inj, UInt8.toNat_ofNat', UInt8.toNat_ofNat']

/-- Two lobby tables agree in the fields that they are built from. -/
theorem lobbyTable_eq_iff :
    g'.getLobbyGameProps.toFinmap = g.getLobbyGameProps.toFinmap ↔ g'.maxPeers = g.maxPeers ∧
      g'.isOpen = g.isOpen ∧ g'.playerCount = g.playerCount ∧ ∀ name, g'.shown name = g.shown name := by
  constructor
  · intro heq
    have hlookup : ∀ key, g'.getLobbyGameProps.lookup key = g.getLobbyGameProps.lookup key := by
      intro key
      rw [← Finmap.lookup_toFinmap, ← Finmap.lookup_toFinmap, heq]
    have hbuiltin : ∀ key, (∀ name, key ≠ .string name) →
        g'.builtinLobbyProps.lookup key = g.builtinLobbyProps.lookup key := fun key hkey => by
      rw [← lookup_getLobbyGameProps_of_ne g' hkey, ← lookup_getLobbyGameProps_of_ne g hkey, hlookup]
    refine ⟨?_, ?_, ?_, fun name => ?_⟩
    · have hmax := hbuiltin (.byte GameProp.maxPlayers.code) (by simp)
      simpa [lookup_builtinLobbyProps] using hmax
    · have hopen := hbuiltin (.byte GameProp.isOpen.code) (by simp)
      simpa [lookup_builtinLobbyProps, GameProp.code] using hopen
    · have hcount := hbuiltin playerCountKey (by simp [playerCountKey])
      simpa [lookup_builtinLobbyProps, GameProp.code, playerCountKey] using hcount
    · rw [← lookup_getLobbyGameProps_string, ← lookup_getLobbyGameProps_string, hlookup]
  · rintro ⟨hmax, hopen, hcount, hshown⟩
    apply Finmap.ext_lookup
    intro key
    rw [Finmap.lookup_toFinmap, Finmap.lookup_toFinmap]
    by_cases hkey : ∃ name, key = .string name
    · obtain ⟨name, rfl⟩ := hkey
      rw [lookup_getLobbyGameProps_string, lookup_getLobbyGameProps_string, hshown]
    · have hne : ∀ name, key ≠ .string name := fun name heq => hkey ⟨name, heq⟩
      rw [lookup_getLobbyGameProps_of_ne g' hne, lookup_getLobbyGameProps_of_ne g hne,
        lookup_builtinLobbyProps, lookup_builtinLobbyProps, hmax, hopen, hcount]

theorem published_eq_iff : g'.published = g.published ↔
    g'.isCreated = g.isCreated ∧ g'.isCreating = g.isCreating ∧ g'.isVisible = g.isVisible ∧
      g'.expectedUsers.toFinset = g.expectedUsers.toFinset ∧ g'.maxPeers = g.maxPeers ∧
      g'.isOpen = g.isOpen ∧ g'.playerCount = g.playerCount ∧
      ∀ name, g'.shown name = g.shown name := by
  simp only [published, Published.mk.injEq, lobbyTable_eq_iff]

theorem counted_of_bump (hbump : g'.stateRevision = g.stateRevision + 1) : Counted g g' :=
  ⟨fun _ => by omega, by omega⟩

theorem counted_iff_of_same (hsame : g'.stateRevision = g.stateRevision) :
    Counted g g' ↔ g'.published = g.published := by
  unfold Counted
  rw [hsame]
  simp

theorem counted_refl (g : Game) : Counted g g := (counted_iff_of_same rfl).mpr rfl

/-- A change of the seats is counted exactly if the expected users stay the same. -/
theorem SeatsOnly.counted_iff (hseats : SeatsOnly g g') :
    Counted g g' ↔ ∀ userId, userId ∈ g'.expectedUsers ↔ userId ∈ g.expectedUsers := by
  obtain ⟨users, _, _, _, _, _, rfl⟩ := hseats
  refine (counted_iff_of_same ?_).trans ?_
  · rfl
  rw [published_eq_iff, ← ListSet.toFinset_eq_iff]
  exact ⟨fun hall => hall.2.2.2.1, fun husers => ⟨rfl, rfl, rfl, husers, rfl, rfl, rfl, fun _ => rfl⟩⟩

theorem removal_counted_iff (userId : String) (users : ListSet String) :
    (∀ u, u ∈ users.erase userId ↔ u ∈ users) ↔ userId ∉ users := by
  constructor
  · intro hall hmem
    exact (ListSet.mem_erase.mp ((hall userId).mpr hmem)).1 rfl
  · intro hnot u
    rw [ListSet.erase_of_notMem hnot]

theorem not_counted_emplacePeer (gp : GamePeer) (userId : String) (g : Game) :
    ¬Counted g (g.emplacePeer gp userId) := by
  have hsame : (g.emplacePeer gp userId).stateRevision = g.stateRevision := by
    rw [emplacePeer_eq]
  rw [counted_iff_of_same hsame, published_eq_iff]
  intro hall
  rw [emplacePeer_eq] at hall
  have hcount := playerCount_eq_iff.mp hall.2.2.2.2.2.2.1
  simp only [List.length_append, List.length_singleton] at hcount
  omega

end Published

/-- Whether the connection of a node may join the room at all. -/
def mayJoin (h : PeerHeap) (gp : GamePeer) (g : Game) : Prop :=
  (g.findActor gp.actorId).isSome = false ∧
    ∃ userId, h.userId gp.peer = some userId ∧ g.userJoined h userId = false

theorem addPeer_counted_iff (h : PeerHeap) (gp : GamePeer) (g : Game) :
    Counted g (g.addPeer h gp).2 ↔ ¬(¬(g.isCreating = true ∧ ¬g.isCreated = true) ∧ g.mayJoin h gp) := by
  rcases addPeer_cases (h := h) gp g with heq | ⟨userId, huser, hlease, hfree, hjoined, heq⟩
  · rw [heq]
    apply iff_of_true (counted_refl g)
    rintro ⟨hlease, hfree, userId, huser, hjoined⟩
    simp only [addPeer, huser, hfree, hjoined] at heq
    rw [if_neg hlease] at heq
    simp at heq
  · rw [heq]
    exact iff_of_false (not_counted_emplacePeer gp userId g)
      (not_not_intro ⟨hlease, hfree, userId, huser, hjoined⟩)

theorem addPeerForCreation_counted_iff (h : PeerHeap) (gp : GamePeer) (owner : Option PeerRef)
    (generation : Nat) (g : Game) :
    Counted g (g.addPeerForCreation h gp owner generation).2 ↔
      ¬(g.isCreationActive h owner generation = true ∧ gp.peer = owner ∧ g.mayJoin h gp) := by
  rcases addPeerForCreation_cases h gp owner generation g with
    heq | ⟨userId, hactive, hpeer, huser, hfree, hjoined, heq⟩
  · rw [heq]
    apply iff_of_true (counted_refl g)
    rintro ⟨hactive, hpeer, hfree, userId, huser, hjoined⟩
    rw [hpeer] at huser
    simp [addPeerForCreation, hactive, hpeer, huser, hfree, hjoined] at heq
  · rw [heq]
    exact iff_of_false (not_counted_emplacePeer gp userId g)
      (not_not_intro ⟨hactive, hpeer, hfree, userId, huser, hjoined⟩)

/-- A room loses fewer than `256` peers at once, so that its count changes when one goes. -/
theorem removePeer_counted_iff (h : PeerHeap) {g : Game} (hg : g.ActorsSound) (r : PeerRef) :
    Counted g (g.removePeer h (some r)).2 ↔ ∀ gp ∈ g.peers, stays h r gp = true := by
  obtain ⟨_, _, _, heq⟩ := removePeer_eq h r g
  have hsame : (g.removePeer h (some r)).2.stateRevision = g.stateRevision := by rw [heq]
  rw [counted_iff_of_same hsame, published_eq_iff, heq]
  have hlength := hg.length_le
  constructor
  · intro hall
    have hcount := playerCount_eq_iff.mp hall.2.2.2.2.2.2.1
    have hle := List.length_filter_le (stays h r) g.peers
    simp only at hcount
    have hfilter : (g.peers.filter (stays h r)).length = g.peers.length := by omega
    exact List.length_filter_eq_length_iff.mp hfilter
  · intro hall
    have hfilter : g.peers.filter (stays h r) = g.peers := List.filter_eq_self.mpr hall
    refine ⟨rfl, rfl, rfl, rfl, rfl, rfl, ?_, fun _ => rfl⟩
    rw [playerCount_eq_iff, hfilter]

theorem setCustomProps_counted_iff (props : Hashtable) (g : Game) :
    Counted g { g with customProps := props } ↔
      ∀ name ∈ g.lobbyProps, props.lookup (.string name) = g.customProps.lookup (.string name) := by
  refine (counted_iff_of_same ?_).trans ?_
  · rfl
  rw [published_eq_iff]
  constructor
  · intro hall name hname
    have hshown := hall.2.2.2.2.2.2.2 name
    simpa [shown, hname] using hshown
  · intro hall
    refine ⟨rfl, rfl, rfl, rfl, rfl, rfl, rfl, fun name => ?_⟩
    unfold shown
    split
    · next hname => exact hall name hname
    · rfl

theorem setLobbyProps_counted_iff (names : List String) (g : Game) :
    Counted g { g with lobbyProps := names } ↔
      ∀ name, Value.string name ∈ g.customProps → (name ∈ names ↔ name ∈ g.lobbyProps) := by
  refine (counted_iff_of_same ?_).trans ?_
  · rfl
  rw [published_eq_iff]
  constructor
  · intro hall name hmem
    have hshown := hall.2.2.2.2.2.2.2 name
    obtain ⟨value, hvalue⟩ := AList.mem_iff_lookup.mp hmem
    simp only [shown, hvalue] at hshown
    by_cases hnew : name ∈ names <;> by_cases hold : name ∈ g.lobbyProps <;>
      simp [hnew, hold] at hshown ⊢
  · intro hall
    refine ⟨rfl, rfl, rfl, rfl, rfl, rfl, rfl, fun name => ?_⟩
    unfold shown
    by_cases hmem : Value.string name ∈ g.customProps
    · simp only [hall name hmem]
    · simp only [AList.lookup_eq_none.mpr hmem, ite_self]

theorem setDummyPeerCount_counted_iff (count : UInt8) (g : Game) :
    Counted g { g with dummyPeerCount := count } ↔ count = g.dummyPeerCount := by
  refine (counted_iff_of_same ?_).trans ?_
  · rfl
  rw [published_eq_iff]
  constructor
  · intro hall
    have hcount := playerCount_eq_iff.mp hall.2.2.2.2.2.2.1
    simp only at hcount
    have hnew := count.toNat_lt
    have hold := g.dummyPeerCount.toNat_lt
    exact UInt8.toNat_inj.mp (by omega)
  · rintro rfl
    exact ⟨rfl, rfl, rfl, rfl, rfl, rfl, rfl, fun _ => rfl⟩

theorem insertGameProps_counted (settings : AppSettings) (update : Hashtable) (g : Game) :
    Counted g (g.insertGameProps settings update).1 := by
  rcases insertGameProps_cases settings update g with heq | hbump
  · rw [heq]
    exact counted_refl g
  · exact counted_of_bump hbump

end Game

namespace Room

open Game

/-- When an operation is counted.  Admitting and removing peers, reserving and giving up seats and
the direct writes of plugins bump nothing, so these are counted only when they change nothing. -/
def Counts (s : Room) : RoomOp → Prop
  | .addPeer index => ∀ gp, s.handedOut[index]? = some gp →
    ¬(¬(s.game.isCreating = true ∧ ¬s.game.isCreated = true) ∧ s.game.mayJoin s.heap gp)
  | .addPeerForCreation index owner generation => ∀ gp, s.handedOut[index]? = some gp →
    ¬(s.game.isCreationActive s.heap owner generation = true ∧ gp.peer = owner ∧
      s.game.mayJoin s.heap gp)
  | .removePeer (some r) => (s.heap.get r).isSome = true →
    ∀ gp ∈ s.game.peers, stays s.heap r gp = true
  | .reserveExpectedUser userId _ => userId = "" ∨ userId ∈ s.game.expectedUsers
  | .removeExpectedUser userId => userId ∉ s.game.expectedUsers
  | .removeExpectedUserIfGeneration userId generation =>
    s.game.expectedUserGenerations.lookup userId ≠ some generation
  | .runScheduledTask (.expireReservation ttlMs userId generation) =>
    .expireReservation ttlMs userId generation ∈ s.game.scheduled →
      s.game.expectedUserGenerations.lookup userId ≠ some generation
  | .setCustomProps props => ∀ name ∈ s.game.lobbyProps,
    props.lookup (.string name) = s.game.customProps.lookup (.string name)
  | .setLobbyProps names => ∀ name, Value.string name ∈ s.game.customProps →
    (name ∈ names ↔ name ∈ s.game.lobbyProps)
  | .setDummyPeerCount count => count = s.game.dummyPeerCount
  | _ => True

variable {settings : AppSettings} {s : Room}

theorem runScheduledTask_counted_iff (hs : s.game.SeatsSound) (task : ScheduledTask) :
    Counted s.game (s.game.runScheduledTask task) ↔ s.Counts (.runScheduledTask task) := by
  rw [(seatsOnly_runScheduledTask task s.game).counted_iff]
  unfold runScheduledTask
  by_cases hmem : task ∈ s.game.scheduled
  · rw [if_pos hmem]
    cases task with
    | keepAlive ttlMs => exact iff_of_true (fun _ => Iff.rfl) trivial
    | expireReservation ttlMs userId generation =>
      simp only [expireReservation_eq, Counts, hmem, forall_const]
      by_cases hl : s.game.expectedUserGenerations.lookup userId = some generation
      · have hexpected : userId ∈ s.game.expectedUsers :=
          (hs.keys userId).mp (AList.mem_iff_lookup.mpr ⟨generation, hl⟩)
        simp only [hl, if_true, removeExpectedUser_eq, ne_eq, not_true_eq_false]
        rw [removal_counted_iff]
        exact iff_of_false (not_not_intro hexpected) id
      · simp [hl]
  · rw [if_neg hmem]
    refine iff_of_true (fun _ => Iff.rfl) ?_
    cases task with
    | keepAlive ttlMs => trivial
    | expireReservation ttlMs userId generation => exact fun hin => absurd hin hmem

theorem reserve_counted_iff (userId : String) (ttlMs : Nat) (g : Game) :
    Counted g (g.reserveExpectedUserWithGeneration userId ttlMs).2 ↔
      userId = "" ∨ userId ∈ g.expectedUsers := by
  rw [(seatsOnly_reserve userId ttlMs g).counted_iff]
  rcases reserve_cases userId ttlMs g with ⟨heq, hwhy⟩ | ⟨hne, hnot, heq⟩
  · rw [heq]
    exact iff_of_true (fun _ => Iff.rfl) hwhy
  · rw [heq]
    refine iff_of_false (fun hall => ?_) (not_or.mpr ⟨hne, hnot⟩)
    exact hnot ((hall userId).mp (by simp [withReservation]))

theorem remove_counted_iff (userId : String) (g : Game) :
    Counted g (g.removeExpectedUser userId) ↔ userId ∉ g.expectedUsers := by
  rw [(seatsOnly_remove userId g).counted_iff, removeExpectedUser_eq]
  exact removal_counted_iff userId g.expectedUsers

theorem removeIfGeneration_counted_iff {g : Game} (hg : g.SeatsSound) (userId : String)
    (generation : Nat) : Counted g (g.removeExpectedUserIfGeneration userId generation).2 ↔
      g.expectedUserGenerations.lookup userId ≠ some generation := by
  rw [(seatsOnly_removeIfGeneration userId generation g).counted_iff]
  by_cases hl : g.expectedUserGenerations.lookup userId = some generation
  · have hexpected : userId ∈ g.expectedUsers :=
      (hg.keys userId).mp (AList.mem_iff_lookup.mpr ⟨generation, hl⟩)
    rw [removeIfGeneration_of_lookup hl]
    exact iff_of_false
      (fun hall => (removal_counted_iff userId g.expectedUsers).mp hall hexpected) (not_not_intro hl)
  · rw [removeIfGeneration_of_ne hl]
    exact iff_of_true (fun _ => Iff.rfl) hl

theorem counted_updatePeer {found : GamePeer → Bool} {change : GamePeer → GamePeer} (g : Game) :
    Counted g { g with peers := updatePeer found change g.peers } := by
  refine (counted_iff_of_same ?_).mpr ?_
  · rfl
  · exact published_eq_iff.mpr ⟨rfl, rfl, rfl, rfl, rfl, rfl,
      playerCount_eq_iff.mpr (by rw [length_updatePeer]), fun _ => rfl⟩

theorem perform_counted_iff (hs : s.Valid) {op : RoomOp} (hlocal : op.isLocal = true)
    (hcaller : s.heap.lock op.caller = op.caller) :
    Counted s.game (s.perform settings op).game ↔ s.Counts op := by
  cases op with
  | receiveUpdate isNew message => cases hlocal
  | addPeer index =>
    unfold Counts
    cases hgp : s.handedOut[index]? with
    | none =>
      simp only [perform, give, hgp]
      exact iff_of_true (counted_refl _) fun gp hgp' => by cases hgp'
    | some gp =>
      simp only [perform, give, hgp, Option.some.injEq, forall_eq']
      exact addPeer_counted_iff s.heap gp s.game
  | addPeerForCreation index owner generation =>
    unfold Counts
    cases hgp : s.handedOut[index]? with
    | none =>
      simp only [perform, give, hgp]
      exact iff_of_true (counted_refl _) fun gp hgp' => by cases hgp'
    | some gp =>
      simp only [perform, give, hgp, Option.some.injEq, forall_eq']
      exact addPeerForCreation_counted_iff s.heap gp owner generation s.game
  | removePeer peer =>
    cases peer with
    | none => exact iff_of_true (counted_refl _) trivial
    | some r =>
      have hlive : (s.heap.get r).isSome = true := (PeerHeap.lock_eq_some.mp hcaller).2
      simp only [Counts, hlive, forall_const]
      exact removePeer_counted_iff s.heap hs.actors r
  | reserveExpectedUser userId ttlMs => exact reserve_counted_iff userId ttlMs s.game
  | removeExpectedUser userId => exact remove_counted_iff userId s.game
  | removeExpectedUserIfGeneration userId generation =>
    exact removeIfGeneration_counted_iff hs.seats userId generation
  | runScheduledTask task => exact runScheduledTask_counted_iff hs.seats task
  | setCustomProps props => exact setCustomProps_counted_iff props s.game
  | setLobbyProps names => exact setLobbyProps_counted_iff names s.game
  | setDummyPeerCount count => exact setDummyPeerCount_counted_iff count s.game
  | connect peer | setPersistent peer persistent =>
    refine iff_of_true ?_ trivial
    simp only [perform]
    split <;> exact counted_refl s.game
  | tryBeginCreation owner =>
    refine iff_of_true ?_ trivial
    rcases tryBeginCreation_cases owner s.game with heq | ⟨-, -, -, -, heq⟩
    · simp only [perform, heq]
      exact counted_refl s.game
    · simp only [perform, heq]
      exact counted_of_bump rfl
  | applyCreationSettings owner generation values =>
    refine iff_of_true ?_ trivial
    simp only [perform, applyCreationSettings]
    split
    · exact counted_of_bump rfl
    · exact counted_refl s.game
  | commitCreation owner generation =>
    refine iff_of_true ?_ trivial
    rcases commitCreation_cases s.heap owner generation s.game with heq | ⟨-, -, heq⟩
    · simp only [perform, heq]
      exact counted_refl s.game
    · simp only [perform, heq]
      exact counted_of_bump rfl
  | abortCreationTransaction owner generation =>
    refine iff_of_true ?_ trivial
    by_cases hactive : s.game.isCreationActive s.heap owner generation = true
    · obtain ⟨_, heq⟩ := abortCreationTransaction_eq hactive
      simp only [perform, heq]
      exact counted_of_bump rfl
    · simp only [perform, abortCreationTransaction_of_inactive (Bool.eq_false_iff.mpr hactive)]
      exact counted_refl s.game
  | setConfigState flags isOpen isVisible maxPeers masterActor =>
    exact iff_of_true (counted_of_bump rfl) trivial
  | setTtlConfig playerTtl emptyGameTtl => exact iff_of_true (counted_of_bump rfl) trivial
  | createPeer peer =>
    refine iff_of_true ?_ trivial
    rcases createPeer_game s.heap peer s.game with heq | heq
    · simp only [perform, handOut_game, heq]
      exact counted_refl s.game
    · simp only [perform, handOut_game, heq]
      exact (counted_iff_of_same rfl).mpr rfl
  | insertGameProps update =>
    exact iff_of_true (insertGameProps_counted settings update s.game) trivial
  | applyGameProps update expected =>
    refine iff_of_true ?_ trivial
    simp only [perform, applyGameProps]
    split
    · exact insertGameProps_counted settings update s.game
    · exact counted_refl s.game
  | insertActorProps actorId update =>
    obtain ⟨_, _, -, heq⟩ := insertActorProps_eq actorId update s.game
    simp only [perform, heq]
    exact iff_of_true (counted_updatePeer s.game) trivial
  | applyInterestGroups peer add remove =>
    obtain ⟨_, _, -, heq⟩ := applyInterestGroups_eq s.heap peer add remove s.game
    simp only [perform, heq]
    exact iff_of_true (counted_updatePeer s.game) trivial
  | disconnect peer | createPeerForActor peer actorId =>
    exact iff_of_true (counted_refl s.game) trivial
  | editEventCache edit => exact iff_of_true ((counted_iff_of_same rfl).mpr rfl) trivial

/-- In a reachable room an operation of its own process is counted exactly if it meets its
condition. -/
theorem revision_counts_iff (hs : Reachable settings s) {op : RoomOp} (hlocal : op.isLocal = true) :
    Counted s.game (s.step settings op).game ↔ s.Counts op := by
  by_cases hcaller : s.heap.lock op.caller = op.caller
  · have hstep : s.step settings op = s.perform settings op := if_pos hcaller
    rw [hstep]
    exact perform_counted_iff hs.valid hlocal hcaller
  · have hstep : s.step settings op = s := if_neg hcaller
    rw [hstep]
    apply iff_of_true (counted_refl s.game)
    cases op with
    | addPeerForCreation index owner generation =>
      exact fun gp _ hboth => hcaller (lock_owner_of_active hboth.1)
    | removePeer peer =>
      cases peer with
      | none => trivial
      | some r => exact fun hlive => absurd (PeerHeap.lock_eq_some.mpr ⟨rfl, hlive⟩) hcaller
    | tryBeginCreation | applyCreationSettings | commitCreation | abortCreationTransaction =>
      trivial
    | createPeer | createPeerForActor | applyInterestGroups => trivial
    | _ => exact absurd rfl hcaller

/-- A room that its creator is in, and a second client about to join it. -/
def joining : Room :=
  Transition.run (step {}) (create ⟨"app", "1.0", "lobby", 0, "room", ""⟩)
    [.connect 1, .setPersistent 1 (some { userId := "ada", token := "a" }),
      .tryBeginCreation (some 1), .createPeer (some 1), .addPeerForCreation 0 (some 1) 1,
      .commitCreation (some 1) 1, .connect 2,
      .setPersistent 2 (some { userId := "bob", token := "b" }), .createPeer (some 2)]

/-- The join changes the published player count and not the revision. -/
theorem revision_misses_join :
    Reachable {} joining ∧ ¬Counted joining.game (joining.step {} (.addPeer 0)).game :=
  ⟨reachable_run _ _, by decide⟩

/-- When the room is closed the revision counts it. -/
theorem revision_counts_closing :
    Counted joining.game (joining.step {} (.insertGameProps
      (AList.insert (.byte GameProp.isOpen.code) (.bool false) ∅))).game :=
  (revision_counts_iff (reachable_run _ _ : Reachable {} joining) rfl).mpr trivial

end Room

end LuxonServer
