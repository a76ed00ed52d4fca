import LuxonServer.Game.Valid

/-! Admission is sound: a join that `validate_join` accepts goes through, and fills as many seats as
the check has counted. -/

namespace LuxonServer.Game

variable {h : PeerHeap} {peer : Option PeerRef} {userId : String}

section Reserving

/-- The reservations that the loop adds, for a connection that is not in the room. -/
structure ReservedFor (h : PeerHeap) (userId : String) (users : List String)
    (st st' : List (String × Nat) × Game) : Prop where
  seats : SeatsOnly st.2 st'.2
  keeps : ∀ entry ∈ st.1, entry ∈ st'.1
  expected : ∀ u, u ∈ st'.2.expectedUsers ↔
    u ∈ st.2.expectedUsers ∨ u ∈ users ∧ u ≠ "" ∧ u ≠ userId
  added : ∀ u ∈ users, u ≠ "" → u ≠ userId → u ∉ st.2.expectedUsers → ∃ n, (u, n) ∈ st'.1

theorem reserveForJoin_skip {st : List (String × Nat) × Game} {user : String}
    (hskip : user = "" ∨ user = userId) : reserveForJoin h peer userId st user = st := by
  obtain ⟨added, g⟩ := st
  unfold reserveForJoin
  apply if_pos
  rcases hskip with heq | heq
  · exact Or.inl heq
  · exact Or.inr (Or.inl heq)

theorem reserveForJoin_reserve {st : List (String × Nat) × Game} {user : String}
    (hne : user ≠ "") (huser : user ≠ userId) (hout : st.2.findPeer h peer = none) :
    reserveForJoin h peer userId st user =
      if user ∈ st.2.expectedUsers then st
      else (st.1 ++ [(user, st.2.nextExpectedUserGeneration + 1)],
        st.2.withReservation user 30000) := by
  unfold reserveForJoin
  simp only [hne, huser, hout, Option.isSome_none, Bool.false_eq_true, or_self, if_false]
  by_cases hmem : user ∈ st.2.expectedUsers
  · rw [reserve_of_mem hmem, if_pos hmem]
  · rw [reserve_of_notMem hne hmem, if_neg hmem]

theorem reserveForJoin_spec {st : List (String × Nat) × Game} (userId user : String)
    (hout : st.2.findPeer h peer = none) :
    ReservedFor h userId [user] st (reserveForJoin h peer userId st user) := by
  by_cases hskip : user = "" ∨ user = userId
  · rw [reserveForJoin_skip hskip]
    refine ⟨SeatsOnly.refl _, fun _ hmem => hmem, ?_, ?_⟩
    · intro u
      simp only [List.mem_singleton, iff_self_or]
      rintro ⟨rfl, hne, hself⟩
      exact absurd hskip (by simp [hne, hself])
    · intro u hu hne hself
      rw [List.mem_singleton.mp hu] at hne hself
      exact absurd hskip (by simp [hne, hself])
  · simp only [not_or] at hskip
    rw [reserveForJoin_reserve hskip.1 hskip.2 hout]
    split
    · next hmem =>
      refine ⟨SeatsOnly.refl _, fun _ hmem => hmem, ?_, ?_⟩
      · intro u
        simp only [List.mem_singleton, iff_self_or]
        rintro ⟨rfl, -⟩
        exact hmem
      · intro u hu _ _ hnot
        rw [List.mem_singleton.mp hu] at hnot
        exact absurd hmem hnot
    · next hmem =>
      refine ⟨⟨_, _, _, _, _, _, rfl⟩, fun _ hold => List.mem_append_left _ hold, ?_, ?_⟩
      · intro u
        simp only [withReservation, ListSet.mem_insert, List.mem_singleton]
        constructor
        · rintro (rfl | hold)
          · exact Or.inr ⟨rfl, hskip⟩
          · exact Or.inl hold
        · rintro (hold | ⟨rfl, -⟩)
          · exact Or.inr hold
          · exact Or.inl rfl
      · intro u hu _ _ _
        rw [List.mem_singleton.mp hu]
        exact ⟨_, List.mem_append_right _ (List.mem_singleton.mpr rfl)⟩

theorem ReservedFor.cons {st st' st'' : List (String × Nat) × Game} {user : String}
    {users : List String} (hfirst : ReservedFor h userId [user] st st')
    (hrest : ReservedFor h userId users st' st'') : ReservedFor h userId (user :: users) st st'' := by
  refine ⟨hfirst.seats.trans hrest.seats, fun e he => hrest.keeps e (hfirst.keeps e he), ?_, ?_⟩
  · intro u
    rw [hrest.expected, hfirst.expected, List.mem_singleton, List.mem_cons]
    tauto
  · intro u hu hne hself hnot
    by_cases hadded : u ∈ st'.2.expectedUsers
    · rcases (hfirst.expected u).mp hadded with hold | ⟨hmem, -⟩
      · exact absurd hold hnot
      · obtain ⟨n, hn⟩ := hfirst.added u hmem hne hself hnot
        exact ⟨n, hrest.keeps _ hn⟩
    · rcases List.mem_cons.mp hu with rfl | htail
      · exact absurd ((hfirst.expected u).mpr
          (Or.inr ⟨List.mem_singleton.mpr rfl, hne, hself⟩)) hadded
      · exact hrest.added u htail hne hself hadded

theorem SeatsOnly.findPeer {g g' : Game} (hg : SeatsOnly g g') :
    g'.findPeer h peer = g.findPeer h peer := by
  obtain ⟨_, _, _, _, _, _, rfl⟩ := hg
  rfl

theorem reserveAll_spec {st : List (String × Nat) × Game} (users : List String)
    (hout : st.2.findPeer h peer = none) :
    ReservedFor h userId users st (users.foldl (reserveForJoin h peer userId) st) := by
  induction users generalizing st with
  | nil => exact ⟨SeatsOnly.refl _, fun _ hmem => hmem, fun u => by simp, fun u hu => by simp at hu⟩
  | cons user users ih =>
    have hfirst := reserveForJoin_spec userId user hout
    exact hfirst.cons (ih (hfirst.seats.findPeer.trans hout))

/-- The loop makes as many reservations as `validate_join` has counted. -/
theorem ReservedFor.card {users : List String} {st st' : List (String × Nat) × Game}
    (hst : ReservedFor h userId users st st') :
    st'.2.expectedUsers.card =
      st.2.expectedUsers.card + (st.2.uniqueExpected userId users).length := by
  have hset : st'.2.expectedUsers.toFinset =
      st.2.expectedUsers.toFinset ∪ (st.2.uniqueExpected userId users).toFinset := by
    ext u
    simp only [ListSet.mem_toFinset, hst.expected, uniqueExpected, Finset.mem_union,
      List.mem_toFinset, List.mem_dedup, List.mem_filter]
    by_cases hu : u ∈ st.2.expectedUsers <;> simp [hu]
  have hdisjoint : Disjoint st.2.expectedUsers.toFinset
      (st.2.uniqueExpected userId users).toFinset := by
    rw [Finset.disjoint_left]
    intro u hold hnew
    simp only [uniqueExpected, List.mem_toFinset, List.mem_dedup, List.mem_filter,
      Bool.and_eq_true, Bool.not_eq_true', decide_eq_false_iff_not] at hnew
    exact hnew.2.2 (ListSet.mem_toFinset.mp hold)
  have hnodup : (st.2.uniqueExpected userId users).Nodup := List.nodup_dedup _
  rw [← ListSet.card_toFinset, hset, Finset.card_union_of_disjoint hdisjoint,
    ListSet.card_toFinset, List.toFinset_card_of_nodup hnodup]

end Reserving

section Allocating

theorem createPeer_isValid {g : Game} (hg : g.ActorsSound) (hroom : g.peers.length < 0xfe)
    (huser : h.userId peer = some userId) :
    (g.createPeer h peer).1.isValid = true ∧ (g.createPeer h peer).1.peer = peer ∧
      (g.findActor (g.createPeer h peer).1.actorId).isSome = false ∧
      ∃ lastActorId, (g.createPeer h peer).2 = { g with lastActorId } := by
  have hfound : (allocateActor (fun actorId => (g.findActor actorId).isSome) 0xfe
      g.lastActorId).1 ≠ 0 := by
    intro hzero
    have hall : Finset.Icc (1 : Int) 0xfe ⊆ g.actorIds.toFinset := by
      intro actorId hrange
      rw [List.mem_toFinset, ← findActor_of_active hg.active]
      exact used_of_allocateActor_full hg.last.1 hzero (Finset.mem_Icc.mp hrange)
    have hcard := (Finset.card_le_card hall).trans (List.toFinset_card_le g.actorIds)
    rw [Int.card_Icc, actorIds, List.length_map] at hcard
    have hwidth : ((0xfe : Int) + 1 - 1).toNat = 0xfe := by decide
    omega
  obtain ⟨hvalid, htakes⟩ := hg.createPeer_of_user huser
  obtain ⟨-, hactor, hpeer⟩ := htakes hfound
  obtain ⟨-, -, hfree⟩ := (allocateActor_spec _ _ hg.last).2.resolve_left hfound
  refine ⟨hvalid.mpr hfound, hpeer, by rw [hactor, hfree], ?_⟩
  rcases createPeer_game h peer g with heq | heq
  · exact ⟨g.lastActorId, heq⟩
  · exact ⟨_, heq⟩

end Allocating

/-- What `validate_join` has checked when it answers `Ok`. -/
theorem validateJoin_ok {settings : AppSettings} {count : Nat} {allowUncreated : Bool} {g : Game}
    (hok : (g.validateJoin h settings userId count allowUncreated).1 = .ok) :
    (g.isCreated = true ∨ allowUncreated = true) ∧ g.isOpen = true ∧
      (g.maxPeers > 0 → g.finalPeerCount userId count ≤ g.maxPeers.toNat) ∧
      (settings.maxPeersPerGame ≠ 0 → g.finalPeerCount userId count ≤ settings.maxPeersPerGame) ∧
      g.finalPeerCount userId count ≤ 0xfe ∧ g.userJoined h userId = false := by
  unfold validateJoin at hok
  simp only at hok
  split at hok
  · cases hok
  split at hok
  · cases hok
  split at hok
  · cases hok
  split at hok
  · cases hok
  split at hok
  · cases hok
  split at hok
  · cases hok
  next hcreated hopen hmax happ hactors hjoined =>
    refine ⟨?_, by simpa using hopen, ?_, ?_, by omega, by simpa using hjoined⟩
    · by_contra hneither
      simp only [not_or, Bool.not_eq_true] at hneither
      exact hcreated ⟨by simp [hneither.1], by simp [hneither.2]⟩
    · intro hpos
      by_contra hover
      exact hmax ⟨hpos, by omega⟩
    · intro hpos
      by_contra hover
      exact happ ⟨hpos, by omega⟩

section Adding

variable {g : Game}

theorem addJoining_joins {lease : Option Nat} {gp : GamePeer} (hpeer : gp.peer = peer)
    (huser : h.userId peer = some userId) (hfree : (g.findActor gp.actorId).isSome = false)
    (hjoined : g.userJoined h userId = false) (hlease : g.leaseLost h peer lease = false)
    (hcreated : lease = none → g.isCreated = true) :
    g.addJoining h peer lease gp = (true, g.emplacePeer gp userId) := by
  cases lease with
  | none =>
    simp [addJoining, addPeer, hcreated rfl, hpeer, huser, hfree, hjoined]
  | some generation =>
    have hactive : g.isCreationActive h peer generation = true := by
      simpa [leaseLost] using hlease
    simp [addJoining, addPeerForCreation, hactive, hpeer, huser, hfree, hjoined]

/-- The seats that are taken after the join. -/
def seatsTaken (g : Game) : Nat :=
  g.peers.length + g.dummyPeerCount.toNat + g.expectedUsers.card

/-- The count of `validate_join`: a user with a reservation has its seat already. -/
theorem finalPeerCount_eq (userId : String) (count : Nat) (g : Game) :
    g.finalPeerCount userId count + (if userId ∈ g.expectedUsers then 1 else 0) =
      g.seatsTaken + 1 + count := by
  unfold finalPeerCount seatsTaken
  split <;> simp only <;> omega

theorem length_lt_of_finalPeerCount {count : Nat}
    (hall : g.finalPeerCount userId count ≤ 0xfe) : g.peers.length < 0xfe := by
  have hcount := finalPeerCount_eq userId count g
  unfold seatsTaken at hcount
  by_cases hmem : userId ∈ g.expectedUsers
  · have hreserved := ListSet.card_erase hmem
    simp only [hmem, if_true] at hcount
    omega
  · simp only [hmem, if_false] at hcount
    omega

theorem seatsTaken_emplacePeer (gp : GamePeer) (userId : String) (g : Game) :
    (g.emplacePeer gp userId).seatsTaken + (if userId ∈ g.expectedUsers then 1 else 0) =
      g.seatsTaken + 1 := by
  have hcard : (g.expectedUsers.erase userId).card + (if userId ∈ g.expectedUsers then 1 else 0) =
      g.expectedUsers.card := by
    split
    · next hmem => exact ListSet.card_erase hmem
    · next hmem => rw [ListSet.erase_of_notMem hmem, Nat.add_zero]
  simp only [seatsTaken, emplacePeer_eq, List.length_append, List.length_singleton]
  omega

end Adding

end LuxonServer.Game

namespace LuxonServer.Room

open Game

variable {settings : AppSettings} {s : Room}

/-- A join that `validate_join` accepts goes through: every further expected user gets a seat, the
client becomes an actor, and the room holds as many seats as the check has counted. -/
theorem admission_sound (hs : Reachable settings s) {peer : PeerRef} {userId : String}
    (huser : s.heap.userId (some peer) = some userId)
    (hout : s.game.findPeer s.heap (some peer) = none) (expectedUsers : List String)
    {lease : Option Nat} (hlease : s.game.leaseLost s.heap (some peer) lease = false)
    (hok : (s.game.validateJoinWith s.heap settings userId expectedUsers lease.isSome).1 = .ok) :
    ∃ added game,
      s.game.admitJoin s.heap settings (some peer) userId expectedUsers lease =
        .joined added game ∧
      (∀ user ∈ expectedUsers, user ≠ "" → user ≠ userId → user ∉ s.game.expectedUsers →
        ∃ generation, (user, generation) ∈ added) ∧
      game.peers.length = s.game.peers.length + 1 ∧
      game.seatsTaken = s.game.finalPeerCount userId
        (s.game.uniqueExpected userId expectedUsers).length ∧
      (game.maxPeers > 0 → game.seatsTaken ≤ game.maxPeers.toNat) ∧
      (settings.maxPeersPerGame ≠ 0 → game.seatsTaken ≤ settings.maxPeersPerGame) ∧
      game.seatsTaken ≤ 0xfe := by
  obtain ⟨hcreated, -, hmax, happ, hall, hjoined⟩ := validateJoin_ok hok
  have hspec : ReservedFor s.heap userId expectedUsers ([], s.game)
      (s.game.reserveAllForJoin s.heap (some peer) userId expectedUsers) :=
    reserveAll_spec expectedUsers hout
  have hcard := hspec.card
  have hself : userId ∈ (s.game.reserveAllForJoin s.heap (some peer) userId
      expectedUsers).2.expectedUsers ↔ userId ∈ s.game.expectedUsers := by
    rw [hspec.expected]
    simp
  have hactors := hs.valid.actors.seatsOnly hspec.seats
  generalize hst : s.game.reserveAllForJoin s.heap (some peer) userId expectedUsers = st
    at hspec hcard hself hactors
  obtain ⟨added, g⟩ := st
  obtain ⟨users, generations, next, reserved, removed, scheduled, hg⟩ := hspec.seats
  simp only at hg hcard hself hactors
  have hpeers : g.peers = s.game.peers := by rw [hg]
  have hroom : g.peers.length < 0xfe := hpeers ▸ length_lt_of_finalPeerCount hall
  obtain ⟨hvalid, hgp, hfree, last, hgame⟩ := createPeer_isValid hactors hroom huser
  generalize hcreate : g.createPeer s.heap (some peer) = created at hvalid hgp hfree hgame
  obtain ⟨gp, g'⟩ := created
  simp only at hvalid hgp hfree hgame
  have hlease' : g'.leaseLost s.heap (some peer) lease = false := by
    rw [hgame, hg]
    exact hlease
  have hjoin : g'.addJoining s.heap (some peer) lease gp = (true, g'.emplacePeer gp userId) := by
    refine addJoining_joins hgp huser (by rw [hgame]; exact hfree) ?_ hlease' ?_
    · rw [hgame, hg]
      exact hjoined
    · rintro rfl
      rw [hgame, hg]
      exact hcreated.resolve_right (by simp)
  have hadmit : s.game.admitJoin s.heap settings (some peer) userId expectedUsers lease =
      .joined added (g'.emplacePeer gp userId) := by
    have hvalidate : s.game.validateJoinWith s.heap settings userId expectedUsers lease.isSome =
        (.ok, (s.game.validateJoinWith s.heap settings userId expectedUsers lease.isSome).2) :=
      Prod.ext hok rfl
    unfold admitJoin
    rw [hlease, hvalidate]
    simp [hst, hcreate, hvalid, hlease', hjoin]
  have htaken : (g'.emplacePeer gp userId).seatsTaken = s.game.finalPeerCount userId
      (s.game.uniqueExpected userId expectedUsers).length := by
    have hnew := seatsTaken_emplacePeer gp userId g'
    have hcount := finalPeerCount_eq userId
      (s.game.uniqueExpected userId expectedUsers).length s.game
    have hdummy : g'.dummyPeerCount = s.game.dummyPeerCount := by rw [hgame, hg]
    have husers : g'.expectedUsers = g.expectedUsers := by rw [hgame]
    have hpeers' : g'.peers = s.game.peers := by rw [hgame, hpeers]
    simp only [husers, hself] at hnew
    unfold seatsTaken at hnew hcount ⊢
    rw [husers, hcard, hdummy, hpeers'] at hnew
    omega
  have hcap : (g'.emplacePeer gp userId).maxPeers = s.game.maxPeers := by
    rw [emplacePeer_eq, hgame, hg]
  refine ⟨added, g'.emplacePeer gp userId, hadmit, hspec.added, ?_, htaken, ?_, ?_, ?_⟩
  · rw [emplacePeer_eq, hgame, hpeers, List.length_append, List.length_singleton]
  · rw [htaken, hcap]
    exact hmax
  · rw [htaken]
    exact happ
  · rw [htaken]
    exact hall

/-- A second client joins a room of at most three, and brings a friend. -/
theorem admission_sound_second_join :
    let s := Transition.run (step {}) (create ⟨"app", "1.0", "lobby", 0, "room", ""⟩)
      [.connect 1, .setPersistent 1 (some { userId := "ada", token := "a" }),
        .tryBeginCreation (some 1), .setConfigState 3 true true 3 1, .createPeer (some 1),
        .addPeerForCreation 0 (some 1) 1, .commitCreation (some 1) 1,
        .connect 2, .setPersistent 2 (some { userId := "bob", token := "b" })]
    ∃ added game,
      s.game.admitJoin s.heap {} (some 2) "bob" ["eve", "eve", "bob", ""] none =
        .joined added game ∧ game.seatsTaken = 3 := by
  intro s
  have hs : Reachable {} s := reachable_run _ _
  obtain ⟨added, game, hadmit, -, -, htaken, -⟩ :=
    admission_sound hs (by decide : s.heap.userId (some 2) = some "bob") rfl
      ["eve", "eve", "bob", ""] (rfl : s.game.leaseLost s.heap (some 2) none = false) (by decide)
  exact ⟨added, game, hadmit, by rw [htaken]; decide⟩

end LuxonServer.Room
