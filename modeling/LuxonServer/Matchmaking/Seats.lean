import LuxonServer.Game.Lease
import LuxonServer.Matchmaking.Entering

/-! The seats that the requests of a client take, against the count that `validate_join` makes. -/

namespace LuxonServer

namespace Game

variable {h : PeerHeap} {userId : String}

section Counting

/-- The users of a set that has the expected ones, with those of the list, need no more seats than
`validate_join` has counted for the list. -/
theorem card_expectedUsers_le {g g' : Game} {s : Finset String} (hs : g.expectedUsers.toFinset ⊆ s)
    (users : List String)
    (hmem : ∀ u ∈ g'.expectedUsers, u ∈ s ∨ u ∈ users ∧ u ≠ "" ∧ u ≠ userId) :
    g'.expectedUsers.card ≤ s.card + (g.uniqueExpected userId users).length := by
  have hsub : g'.expectedUsers.toFinset ⊆ s ∪ (g.uniqueExpected userId users).toFinset := by
    intro u hu
    simp only [Finset.mem_union, uniqueExpected, List.mem_toFinset, List.mem_dedup,
      List.mem_filter, Bool.and_eq_true, bne_iff_ne, Bool.not_eq_true', decide_eq_false_iff_not]
    by_cases hold : u ∈ g.expectedUsers
    · exact Or.inl (hs (ListSet.mem_toFinset.mpr hold))
    · rcases hmem u (ListSet.mem_toFinset.mp hu) with hin | ⟨hin, hne, hself⟩
      · exact Or.inl hin
      · exact Or.inr ⟨hin, ⟨hne, hself⟩, hold⟩
  have hnew : (g.uniqueExpected userId users).toFinset.card =
      (g.uniqueExpected userId users).length := List.toFinset_card_of_nodup (List.nodup_dedup _)
  have hcard := (Finset.card_le_card hsub).trans (Finset.card_union_le _ _)
  rwa [ListSet.card_toFinset, hnew] at hcard

theorem SeatsOnly.seatsTaken {g g' : Game} (hseats : SeatsOnly g g') :
    g'.seatsTaken = g.peers.length + g.dummyPeerCount.toNat + g'.expectedUsers.card := by
  obtain ⟨_, _, _, _, _, _, rfl⟩ := hseats
  rfl

theorem mem_reserveSeat {g : Game} {u : String} :
    u ∈ (g.reserveSeat userId).expectedUsers ↔ u ∈ g.expectedUsers ∨ u ≠ "" ∧ u = userId := by
  have hone : u ∈ (g.reserveSeat userId).expectedUsers ↔ _ :=
    mem_foldl_reserveExpectedUser [userId] g u
  rw [hone, List.mem_singleton]

theorem seatsOnly_reserveSeat (userId : String) (g : Game) : SeatsOnly g (g.reserveSeat userId) :=
  seatsOnly_reserve userId 30000 g

theorem seatsOnly_reserveExpectedUsers (userId : String) (users : List String) (g : Game) :
    SeatsOnly g (g.reserveExpectedUsers userId users) := by
  apply List.foldlRecOn _ _ (SeatsOnly.refl g)
  intro g' hg user _
  split
  · exact hg
  · exact hg.trans (seatsOnly_reserveSeat user g')

/-- The loop holds a seat for each user of the list. -/
theorem mem_reserveExpectedUsers {users : List String} {g : Game} {u : String} :
    u ∈ (g.reserveExpectedUsers userId users).expectedUsers ↔
      u ∈ g.expectedUsers ∨ u ∈ users ∧ u ≠ "" ∧ u ≠ userId := by
  unfold reserveExpectedUsers
  induction users generalizing g with
  | nil => simp
  | cons user users ih =>
    rw [List.foldl_cons, ih, List.mem_cons]
    split
    · next hskip =>
      constructor
      · rintro (hold | ⟨hmem, hne⟩)
        · exact Or.inl hold
        · exact Or.inr ⟨Or.inr hmem, hne⟩
      · rintro (hold | ⟨rfl | hmem, hne⟩)
        · exact Or.inl hold
        · exact absurd hskip (not_or.mpr hne)
        · exact Or.inr ⟨hmem, hne⟩
    · next hreserve =>
      rw [not_or] at hreserve
      rw [mem_reserveSeat]
      constructor
      · rintro ((hold | ⟨-, rfl⟩) | ⟨hmem, hne⟩)
        · exact Or.inl hold
        · exact Or.inr ⟨Or.inl rfl, hreserve⟩
        · exact Or.inr ⟨Or.inr hmem, hne⟩
      · rintro (hold | ⟨rfl | hmem, hne⟩)
        · exact Or.inl (Or.inl hold)
        · exact Or.inl (Or.inr ⟨hne.1, rfl⟩)
        · exact Or.inr ⟨hmem, hne⟩

/-- A client that is sent to a room takes a seat there, and one for each of its expected users. -/
theorem seatsTaken_routed_le (userId : String) (users : List String) (g : Game) :
    ((g.reserveSeat userId).reserveExpectedUsers userId users).seatsTaken ≤
      g.finalPeerCount userId (g.uniqueExpected userId users).length := by
  have hseats := (seatsOnly_reserveSeat userId g).trans
    (seatsOnly_reserveExpectedUsers userId users (g.reserveSeat userId))
  have hcard : ((g.reserveSeat userId).reserveExpectedUsers userId users).expectedUsers.card ≤
      (insert userId g.expectedUsers.toFinset).card + (g.uniqueExpected userId users).length := by
    refine card_expectedUsers_le (Finset.subset_insert _ _) users fun u hu => ?_
    rw [Finset.mem_insert, ListSet.mem_toFinset]
    rcases mem_reserveExpectedUsers.mp hu with hold | hnew
    · exact Or.inl ((mem_reserveSeat.mp hold).imp_right And.right).symm
    · exact Or.inr hnew
  have hself : (insert userId g.expectedUsers.toFinset).card ≤
      g.expectedUsers.card + if userId ∈ g.expectedUsers then 0 else 1 := by
    rw [← ListSet.card_toFinset]
    split
    · next hin => rw [Finset.insert_eq_of_mem (ListSet.mem_toFinset.mpr hin), Nat.add_zero]
    · exact Finset.card_insert_le _ _
  rw [hseats.seatsTaken]
  unfold finalPeerCount
  simp only
  omega

theorem seatsTaken_reserveSeat_le (userId : String) (g : Game) :
    (g.reserveSeat userId).seatsTaken ≤ g.finalPeerCount userId 0 :=
  seatsTaken_routed_le userId [] g

theorem reserveAllForJoin_mem (h : PeerHeap) (peer : Option PeerRef) (userId : String)
    (users : List String) (g : Game) :
    SeatsOnly g (g.reserveAllForJoin h peer userId users).2 ∧
      ∀ u, (u ∈ g.expectedUsers → u ∈ (g.reserveAllForJoin h peer userId users).2.expectedUsers) ∧
        (u ∈ (g.reserveAllForJoin h peer userId users).2.expectedUsers →
          u ∈ g.expectedUsers ∨ u ∈ users ∧ u ≠ "" ∧ u ≠ userId) := by
  cases hin : g.findPeer h peer with
  | none =>
    have hspec : ReservedFor h userId users ([], g) (g.reserveAllForJoin h peer userId users) :=
      reserveAll_spec users hin
    exact ⟨hspec.seats, fun u => ⟨fun hu => (hspec.expected u).mpr (Or.inl hu),
      (hspec.expected u).mp⟩⟩
  | some gp =>
    -- A connection that is in the room already reserves for no one.
    have hsame : g.reserveAllForJoin h peer userId users = ([], g) := by
      refine List.foldlRecOn (motive := fun st => st = ([], g)) users _ rfl ?_
      rintro _ rfl user _
      unfold reserveForJoin
      exact if_pos (Or.inr (Or.inr (by rw [hin]; rfl)))
    rw [hsame]
    exact ⟨SeatsOnly.refl g, fun u => ⟨id, Or.inl⟩⟩

end Counting

section Admitting

variable {settings : AppSettings} {peer : PeerRef} {users : List String} {lease : Option Nat}
  {added : List (String × Nat)} {g g' : Game}

theorem addJoining_cases {gp : GamePeer} (hadd : g.addJoining h (some peer) lease gp = (true, g')) :
    ∃ userId, h.userId gp.peer = some userId ∧ (g.findActor gp.actorId).isSome = false ∧
      g' = g.emplacePeer gp userId := by
  cases lease with
  | none =>
    rcases addPeer_cases (h := h) gp g with heq | ⟨userId, huser, -, hfree, -, heq⟩
    · have hfalse : (false, g) = (true, g') := heq.symm.trans hadd
      cases hfalse
    · have hjoined : (true, g.emplacePeer gp userId) = (true, g') := heq.symm.trans hadd
      exact ⟨userId, huser, hfree, (congrArg Prod.snd hjoined).symm⟩
  | some generation =>
    rcases addPeerForCreation_cases h gp (some peer) generation g with
      heq | ⟨userId, -, -, huser, hfree, -, heq⟩
    · have hfalse : (false, g) = (true, g') := heq.symm.trans hadd
      cases hfalse
    · have hjoined : (true, g.emplacePeer gp userId) = (true, g') := heq.symm.trans hadd
      exact ⟨userId, huser, hfree, (congrArg Prod.snd hjoined).symm⟩

theorem createPeer_peer (huser : h.userId (some peer) = some userId)
    (hvalid : (g.createPeer h (some peer)).1.isValid = true) :
    (g.createPeer h (some peer)).1.peer = some peer := by
  unfold createPeer at hvalid ⊢
  rw [huser] at hvalid ⊢
  simp only at hvalid ⊢
  split
  · rfl
  · next hnone => simp [hnone, GamePeer.isValid] at hvalid

/-- The steps of a join that is let in: the reservations, a new node, and its place in the room. -/
theorem admitJoin_eq_joined (huser : h.userId (some peer) = some userId)
    (hjoin : g.admitJoin h settings (some peer) userId users lease = .joined added g') :
    g.leaseLost h (some peer) lease = false ∧
      (g.validateJoinWith h settings userId users lease.isSome).1 = .ok ∧
      ∃ (g₁ g₂ : Game) (gp : GamePeer),
        g.reserveAllForJoin h (some peer) userId users = (added, g₁) ∧
        g₁.createPeer h (some peer) = (gp, g₂) ∧ gp.isValid = true ∧ gp.peer = some peer ∧
        (g₂.findActor gp.actorId).isSome = false ∧ g' = g₂.emplacePeer gp userId := by
  unfold admitJoin at hjoin
  split at hjoin
  · cases hjoin
  next hlease =>
  split at hjoin
  case h_2 => cases hjoin
  next message hok =>
  simp only at hjoin
  cases hreserved : g.reserveAllForJoin h (some peer) userId users with
  | mk added' g₁ =>
  simp only [hreserved] at hjoin
  have hpeer := createPeer_peer (g := g₁) huser
  cases hcreated : g₁.createPeer h (some peer) with
  | mk gp g₂ =>
  simp only [hcreated] at hjoin hpeer
  split at hjoin
  · cases hjoin
  next hvalid =>
  have hnode : gp.isValid = true := by simpa using hvalid
  split at hjoin
  · cases hjoin
  split at hjoin
  case h_2 => cases hjoin
  next g₃ hadd =>
  obtain ⟨rfl, rfl⟩ : added' = added ∧ g₃ = g' := by simpa using hjoin
  obtain ⟨user, huser', hfree, hg₃⟩ := addJoining_cases hadd
  obtain rfl : userId = user := by
    rw [hpeer hnode, huser] at huser'
    exact Option.some.inj huser'
  exact ⟨by simpa using hlease, by rw [hok], g₁, g₂, gp, rfl, hcreated, hnode, hpeer hnode, hfree,
    hg₃⟩

/-- What a join does to the room, and what it has checked for it. -/
theorem admitJoin_joined (huser : h.userId (some peer) = some userId)
    (hjoin : g.admitJoin h settings (some peer) userId users lease = .joined added g') :
    g.leaseLost h (some peer) lease = false ∧
      (g.validateJoinWith h settings userId users lease.isSome).1 = .ok ∧
      g'.lease = g.lease ∧ g'.maxPeers = g.maxPeers ∧
      (∃ gp : GamePeer, gp.peer = some peer ∧ g'.peers = g.peers ++ [gp]) ∧
      g'.seatsTaken ≤ g.finalPeerCount userId (g.uniqueExpected userId users).length := by
  obtain ⟨hseats, hmem⟩ := reserveAllForJoin_mem h (some peer) userId users g
  obtain ⟨hlease, hok, g₁, g₂, gp, hreserved, hcreated, -, hpeer, -, hg₃⟩ :=
    admitJoin_eq_joined huser hjoin
  have hgame := createPeer_game h (some peer) g₁
  simp only [hcreated] at hgame
  simp only [hreserved] at hseats hmem
  have hg₂ : g₂.lease = g₁.lease ∧ g₂.maxPeers = g₁.maxPeers ∧ g₂.peers = g₁.peers ∧
      g₂.seatsTaken = g₁.seatsTaken ∧ g₂.expectedUsers = g₁.expectedUsers := by
    rcases hgame with heq | heq <;> subst heq <;> exact ⟨rfl, rfl, rfl, rfl, rfl⟩
  have hsame : g₁.maxPeers = g.maxPeers ∧ g₁.peers = g.peers ∧
      g₁.dummyPeerCount = g.dummyPeerCount := by
    obtain ⟨_, _, _, _, _, _, heq⟩ := hseats
    exact ⟨by rw [heq], by rw [heq], by rw [heq]⟩
  refine ⟨hlease, hok, ?_, ?_, ⟨gp, hpeer, ?_⟩, ?_⟩
  · rw [hg₃, emplacePeer_lease, hg₂.1, hseats.lease]
  · rw [hg₃, emplacePeer_eq, ← hsame.1, ← hg₂.2.1]
  · rw [hg₃, emplacePeer_eq, ← hsame.2.1, ← hg₂.2.2.1]
  · -- The client's own seat, if it has one, goes when it takes its place.
    have hnew := seatsTaken_emplacePeer gp userId g₂
    have hcount := finalPeerCount_eq userId (g.uniqueExpected userId users).length g
    have hcard : g₁.expectedUsers.card ≤
        g.expectedUsers.toFinset.card + (g.uniqueExpected userId users).length :=
      card_expectedUsers_le subset_rfl users fun u hu =>
        ((hmem u).2 hu).imp_left ListSet.mem_toFinset.mpr
    have hself : userId ∈ g₁.expectedUsers ↔ userId ∈ g.expectedUsers :=
      ⟨fun hu => ((hmem userId).2 hu).resolve_right fun hnew => hnew.2.2 rfl, (hmem userId).1⟩
    have hold : g.seatsTaken =
        g.peers.length + g.dummyPeerCount.toNat + g.expectedUsers.card := rfl
    rw [ListSet.card_toFinset] at hcard
    rw [hg₃]
    simp only [hg₂.2.2.2.2, hself, hg₂.2.2.2.1, hseats.seatsTaken] at hnew
    omega

end Admitting

end Game

namespace RouteRequest

/-- What a request does to a room that it finds: the seats that it takes have been checked, or it is
a `JoinGame` with `CreateIfNotExists = 1` for a room that is not created yet. -/
inductive Takes (h : PeerHeap) (userId : String) (app : App) (request : RouteRequest)
    (ref : GameRef) (g g' : Game) : Prop where
  | checked (count : Nat) (seatsOnly : Game.SeatsOnly g g')
      (ok : (g.validateJoin h app.settings userId count false).1 = .ok)
      (seats : g'.seatsTaken ≤ g.finalPeerCount userId count)
  | unchecked (join : JoinGameRequest) (seatsOnly : Game.SeatsOnly g g')
      (isJoin : request = .joinGame join) (mode : join.joinMode = 1)
      (found : app.games.lookup join.gameId = some ref) (uncreated : g.isCreated = false)
      (seats : g'.seatsTaken ≤
        g.finalPeerCount userId (g.uniqueExpected userId join.expectedUsers).length)

end RouteRequest

namespace App

/-- A request changes rooms as `takes` says, and may make new ones with seats held in them. -/
structure Routes (takes : GameRef → Game → Game → Prop) (app app' : App) : Prop where
  settings : app'.settings = app.settings
  live : ∀ ref g', app'.live.lookup ref = some g' → app.live.lookup ref = some g' ∨
    (∃ g, app.live.lookup ref = some g ∧ takes ref g g') ∨
      ∃ info, Game.SeatsOnly { info } g'

variable {takes : GameRef → Game → Game → Prop} {app app' : App}

theorem Routes.refl (takes : GameRef → Game → Game → Prop) (app : App) : Routes takes app app :=
  ⟨rfl, fun _ _ hg => Or.inl hg⟩

/-- Lobbies do not matter. -/
theorem Routes.congr (hroutes : Routes takes app app') {app₀ app₁ : App}
    (h₀ : app₀.live = app.live ∧ app₀.settings = app.settings)
    (h₁ : app₁.live = app'.live ∧ app₁.settings = app'.settings) : Routes takes app₀ app₁ := by
  refine ⟨by rw [h₁.2, h₀.2, hroutes.settings], ?_⟩
  rw [h₀.1, h₁.1]
  exact hroutes.live

theorem Routes.withLobby {lobby : LobbyId} {request : App → RouteResult}
    (hroutes : Routes takes (app.getLobby lobby) (request (app.getLobby lobby)).app) :
    Routes takes app (App.withLobby lobby request app).app := by
  obtain ⟨_, hget⟩ := getLobby_frame lobby app
  obtain ⟨_, hrelease⟩ := releaseLobby_frame lobby (request (app.getLobby lobby)).app
  refine hroutes.congr ?_ ?_
  · rw [hget]
    exact ⟨rfl, rfl⟩
  · have hthis : (App.withLobby lobby request app).app =
        (request (app.getLobby lobby)).app.releaseLobby lobby := rfl
    rw [hthis, hrelease]
    exact ⟨rfl, rfl⟩

theorem Routes.modifyGame {ref : GameRef} {change : Game → Game}
    (hchange : ∀ g, app.live.lookup ref = some g → takes ref g (change g)) :
    Routes takes app (app.modifyGame ref change) := by
  unfold App.modifyGame
  cases hg : app.live.lookup ref with
  | none => exact Routes.refl takes app
  | some g =>
    refine ⟨rfl, fun other g' hg' => ?_⟩
    simp only [AList.lookup_insert_eq] at hg'
    split at hg'
    · next hsame =>
      cases hg'
      rw [hsame]
      exact Or.inr (Or.inl ⟨g, hg, hchange g hg⟩)
    · exact Or.inl hg'

/-- A request that creates a room ends there, or goes on with the new room. -/
theorem createFor_cases (lobby : LobbyId) (gameId address : String)
    (found : GameRef → App → RouteResult) (app : App) :
    (app.createFor lobby gameId address found).app = app ∨
      (app.createFor lobby gameId address found).app =
        (found app.nextRef (app.addGame lobby gameId address)).app := by
  unfold createFor createGame
  by_cases hempty : gameId = ""
  · rw [if_pos hempty]
    exact Or.inl rfl
  rw [if_neg hempty]
  cases hlookup : app.games.lookup gameId with
  | some weak => exact Or.inl rfl
  | none =>
    by_cases hfull : app.settings.maxGameCount ≠ 0 ∧ app.getGameCount ≥ app.settings.maxGameCount
    · simp only [if_pos hfull, true_or]
    · simp only [if_neg hfull, or_true]

/-- What follows on a new room may hold seats in it, or drop it. -/
theorem Routes.createFor (lobby : LobbyId) (gameId address : String)
    {found : GameRef → App → RouteResult}
    (hfound : ∀ (app : App) (ref : GameRef) (info : GameInfo),
      app.live.lookup ref = some { info } →
      Routes (fun _ _ g' => Game.SeatsOnly { info } g') app (found ref app).app) :
    Routes takes app (app.createFor lobby gameId address found).app := by
  rcases createFor_cases lobby gameId address found app with heq | heq
  · rw [heq]
    exact Routes.refl takes app
  · obtain ⟨_, hadd⟩ := addGame_frame lobby gameId address app
    have hnew : (app.addGame lobby gameId address).live.lookup app.nextRef =
        some { info := (app.newGame lobby gameId address).info } := by
      rw [hadd, AList.lookup_insert]
      rfl
    have hroutes := hfound _ _ _ hnew
    rw [heq]
    refine ⟨by rw [hroutes.settings, hadd], fun other g' hg' => ?_⟩
    rcases hroutes.live other g' hg' with hold | ⟨-, -, hnew⟩ | hnew
    · rw [hadd, AList.lookup_insert_eq] at hold
      split at hold
      · cases hold
        exact Or.inr (Or.inr ⟨_, Game.SeatsOnly.refl _⟩)
      · exact Or.inl hold
    · exact Or.inr (Or.inr ⟨_, hnew⟩)
    · exact Or.inr (Or.inr hnew)

theorem Routes.mono {takes' : GameRef → Game → Game → Prop} (hroutes : Routes takes app app')
    (htakes : ∀ ref g g', takes ref g g' → takes' ref g g') : Routes takes' app app' := by
  refine ⟨hroutes.settings, fun ref g' hg' => ?_⟩
  rcases hroutes.live ref g' hg' with hold | ⟨g, hg, htaken⟩ | hnew
  · exact Or.inl hold
  · exact Or.inr (Or.inl ⟨g, hg, htakes ref g g' htaken⟩)
  · exact Or.inr (Or.inr hnew)

theorem Routes.dropGame (takes : GameRef → Game → Game → Prop) (ref : GameRef) (app : App) :
    Routes takes app (app.dropGame ref).1 := by
  cases hg : app.live.lookup ref with
  | none =>
    simp only [App.dropGame, hg]
    exact Routes.refl takes app
  | some g =>
    obtain ⟨⟨_, hframe⟩, -, -⟩ := dropGame_spec hg
    rw [hframe]
    refine ⟨rfl, fun other g' hg' => ?_⟩
    simp only [AList.lookup_erase_eq] at hg'
    split at hg'
    · cases hg'
    · exact Or.inl hg'

variable {h : PeerHeap} {userId : String}

/-- `JoinGame` goes on with the room that it has created. -/
theorem Routes.joinNewGame (request : JoinGameRequest) {ref : GameRef} {info : GameInfo}
    (hnew : app.live.lookup ref = some { info }) :
    Routes (fun _ _ g' => Game.SeatsOnly { info } g') app
      (app.joinFoundGame h userId request true ref).app := by
  unfold App.joinFoundGame
  rw [hnew]
  simp only [if_true, not_true_eq_false, false_and, if_false]
  split
  · exact Routes.dropGame _ ref app
  · apply Routes.modifyGame
    intro g hg
    rw [hnew] at hg
    cases hg
    exact (Game.seatsOnly_reserveSeat userId _).trans
      (Game.seatsOnly_reserveExpectedUsers userId request.expectedUsers _)

/-- `JoinGame` for a room that is there. -/
theorem Routes.joinFoundGame {request : JoinGameRequest} {ref : GameRef}
    (hfound : app.games.lookup request.gameId = some ref) :
    Routes (RouteRequest.Takes h userId app (.joinGame request)) app
      (app.joinFoundGame h userId request false ref).app := by
  unfold App.joinFoundGame
  cases hg : app.live.lookup ref with
  | none => exact Routes.refl _ app
  | some g =>
    simp only [Bool.false_eq_true, if_false, not_false_eq_true, true_and]
    split
    · exact Routes.refl _ app
    split
    · split <;> exact Routes.refl _ app
    split
    · exact Routes.refl _ app
    next hcreate hvalid =>
    apply Routes.modifyGame
    intro g' hg'
    rw [hg] at hg'
    cases hg'
    have hseats := (Game.seatsOnly_reserveSeat userId g).trans
      (Game.seatsOnly_reserveExpectedUsers userId request.expectedUsers _)
    have htaken := Game.seatsTaken_routed_le userId request.expectedUsers g
    cases hcreated : g.isCreated with
    | true =>
      refine .checked _ hseats ?_ htaken
      by_contra hrefused
      exact hvalid ⟨hcreated, hrefused⟩
    | false =>
      have hmode : request.joinMode = 1 := by simpa [hcreated] using hcreate
      exact .unchecked request hseats rfl hmode hfound hcreated htaken

/-- Rooms that `JoinRandomGame` selects have passed `validate_join`. -/
theorem isSelectable_of_mem_selection {request : JoinRandomGameRequest} {ref : GameRef}
    (href : ref ∈ app.selection h userId request) {g : Game} (hg : app.live.lookup ref = some g) :
    isSelectable h app.settings userId g = true := by
  unfold selection at href
  simp only at href
  split at href
  · have hlive := (List.mem_filter.mp (List.mem_of_mem_take href)).2
    rwa [hg] at hlive
  · have hlive := (List.mem_filter.mp (List.mem_filter.mp href).1).2
    rw [hg] at hlive
    exact (Bool.and_eq_true _ _ ▸ hlive).1

/-- What a routing request does to the rooms. -/
theorem routes_route (h : PeerHeap) (userId : String) (request : RouteRequest) (app : App) :
    Routes (request.Takes h userId app) app (app.route h userId request).app := by
  cases request with
  | createGame request =>
    apply Routes.withLobby
    simp only
    generalize (if request.gameId = "" then request.generatedId else request.gameId) = gameId
    split
    · exact Routes.refl _ _
    · apply Routes.createFor
      intro app ref info hnew
      apply Routes.modifyGame
      intro g hg
      rw [hnew] at hg
      cases hg
      exact Game.seatsOnly_reserveExpectedUsers userId request.expectedUsers _
  | joinGame request =>
    apply Routes.withLobby
    obtain ⟨_, hget⟩ := getLobby_frame request.lobby app
    rw [hget]
    split
    · split
      · exact Routes.refl _ _
      · exact Routes.createFor _ _ _ fun app ref info hnew => Routes.joinNewGame request hnew
    · next ref hfound =>
      refine (Routes.joinFoundGame hfound).mono fun other g g' htakes => ?_
      cases htakes with
      | checked count hseats hok htaken => exact .checked count hseats hok htaken
      | unchecked join hseats hjoin hmode hfound huncreated htaken =>
        exact .unchecked join hseats hjoin hmode hfound huncreated htaken
  | joinRandomGame request =>
    apply Routes.withLobby
    obtain ⟨_, hget⟩ := getLobby_frame request.lobby app
    rw [hget]
    simp only
    split
    · next ref href =>
      apply Routes.modifyGame
      intro g hg
      have hselected := isSelectable_of_mem_selection (List.mem_of_getElem? href) hg
      rw [isSelectable, Bool.and_eq_true, beq_iff_eq] at hselected
      exact .checked 0 (Game.seatsOnly_reserveSeat userId g) hselected.2
        (Game.seatsTaken_reserveSeat_le userId g)
    · split
      · exact Routes.refl _ _
      · apply Routes.createFor
        intro app ref info hnew
        apply Routes.modifyGame
        intro g hg
        rw [hnew] at hg
        cases hg
        exact Game.seatsOnly_reserveSeat userId _

end App

end LuxonServer
