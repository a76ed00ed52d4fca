import LuxonServer.Game.PropertyTable
import LuxonServer.Matchmaking.Seats

/-! Whether a room is ever over-committed, over whole runs of a process.  A record beside the
process says which rooms have had their limit lowered. -/

namespace LuxonServer

namespace Game

/-- A number of seats that the room's limit and the app's allow; `0` stands for no limit. -/
def Allows (settings : AppSettings) (seats : Nat) (g : Game) : Prop :=
  (g.maxPeers > 0 → seats ≤ g.maxPeers.toNat) ∧
    (settings.maxPeersPerGame ≠ 0 → seats ≤ settings.maxPeersPerGame)

instance (settings : AppSettings) (seats : Nat) (g : Game) : Decidable (g.Allows settings seats) :=
  inferInstanceAs (Decidable (_ ∧ _))

/-- Whether the limit of a created room is lowered. -/
def limitLowered (g g' : Game) : Bool :=
  g.isCreated && g'.maxPeers > 0 && (g.maxPeers == 0 || g'.maxPeers < g.maxPeers)

end Game

/-- A process, with the rooms whose limit has been lowered after their creation. -/
structure LimitedWorld where
  world : SeatWorld
  lowered : List GameRef := []

namespace LimitedWorld

open Game

/-- The rooms whose limit a step lowers. -/
def lowers (w w' : SeatWorld) : List GameRef :=
  w.app.live.keys.filter fun ref =>
    (w.app.live.lookup ref).any fun g => (w'.app.live.lookup ref).any fun g' => g.limitLowered g'

/-- A step of the process. -/
def step (t : LimitedWorld) (op : SeatOp) : LimitedWorld where
  world := t.world.step op
  lowered := t.lowered ++ lowers t.world (t.world.step op)

/-- No created room with a limit that was not lowered holds more seats than that, and none refuses
a user who has a seat reserved, and brings no one, for being full. -/
def Honoured (t : LimitedWorld) : Prop :=
  ∀ ref g, t.world.app.live.lookup ref = some g → g.isCreated = true → g.maxPeers > 0 →
    ref ∉ t.lowered → g.seatsTaken ≤ g.maxPeers.toNat ∧
      ∀ userId ∈ g.expectedUsers,
        (g.validateJoin t.world.heap t.world.app.settings userId 0 false).1 ≠ .gameFull

/-- What `JoinGame` with `CreateIfNotExists = 1` does not check: a room that is being created, and
that its creator has joined, has seats for the client and its expected users. -/
def FitsUnchecked (t : LimitedWorld) : SeatOp → Prop
  | .route client (.joinGame request) =>
    request.joinMode = 1 → ∀ userId ∈ t.world.heap.userId (some client),
      ∀ ref ∈ t.world.app.games.lookup request.gameId, ∀ g ∈ t.world.app.live.lookup ref,
        g.isCreating = true → g.peers ≠ [] →
          g.Allows t.world.app.settings
            (g.finalPeerCount userId (g.uniqueExpected userId request.expectedUsers).length)
  | _ => True

instance (t : LimitedWorld) : ∀ op, Decidable (t.FitsUnchecked op)
  | .route client (.joinGame request) =>
    inferInstanceAs (Decidable (request.joinMode = 1 →
      ∀ userId ∈ t.world.heap.userId (some client),
        ∀ ref ∈ t.world.app.games.lookup request.gameId, ∀ g ∈ t.world.app.live.lookup ref,
          g.isCreating = true → g.peers ≠ [] →
            g.Allows t.world.app.settings
              (g.finalPeerCount userId (g.uniqueExpected userId request.expectedUsers).length)))
  | .route _ (.createGame _) | .route _ (.joinRandomGame _) => .isTrue trivial
  | .connection _ _ | .enter _ _ _ | .resume _ | .cancel _ | .leave _ _ => .isTrue trivial
  | .runScheduledTask _ _ | .setProperties _ _ _ _ | .dropGame _ => .isTrue trivial

end LimitedWorld

/-- The limit that a request to create a room asks for. -/
def EnterRequest.limit (request : EnterRequest) : Option UInt8 :=
  request.creationSettings.maxPlayers.bind Value.byte?

/-- What a request says about the room whose attempt it is: before the admission no one is in the
room, and after the settings its limit is the one that the request asks for. -/
structure Entering.IsAttempt (ref : GameRef) (g : Game) (e : Entering) : Prop where
  game : e.game = ref
  generation : e.generation = some g.activeCreationGeneration
  empty : e.stage = .settings ∨ e.stage = .admission → g.peers = []
  limited : e.stage ≠ .settings → ∀ limit, e.request.limit = some limit → g.maxPeers = limit

/-- A request after its admission. -/
theorem Entering.IsAttempt.seated {ref : GameRef} {g g' : Game} {e : Entering}
    (hattempt : e.IsAttempt ref g) (hlease : g'.lease = g.lease) (hlimit : g'.maxPeers = g.maxPeers)
    (hstage : e.stage ≠ .settings) {stage : EnterStage}
    (hseated : stage = .properties ∨ stage = .commit) (added : List (String × Nat)) :
    Entering.IsAttempt ref g' { e with stage, added } := by
  have hgeneration : g'.activeCreationGeneration = g.activeCreationGeneration :=
    congrArg Lease.activeCreationGeneration hlease
  refine ⟨hattempt.game, ?_, ?_, fun _ limit hasked => ?_⟩
  · rw [hgeneration]
    exact hattempt.generation
  · rintro (rfl | rfl) <;> rcases hseated with h | h <;> cases h
  · rw [hlimit]
    exact hattempt.limited hstage limit hasked

namespace LimitedWorld

open Game

/-- What holds of a room on the way.  Only the owner of an attempt is in its room, and its request
is under way as long as the connection lives. -/
structure RoomSound (t : LimitedWorld) (ref : GameRef) (g : Game) : Prop where
  lease : g.isCreating = true → g.isCreated = false ∧ g.creationInitial.isCreated = false
  attempt : g.isCreating = true → ∃ owner, g.creationOwner = some owner ∧
    t.world.heap owner ≠ .unused ∧ g.activeCreationGeneration ≠ 0 ∧
    (∀ gp ∈ g.peers, gp.peer = some owner) ∧
    ((t.world.heap.get owner).isSome = true →
      ∃ e, t.world.entering.lookup owner = some e ∧ e.IsAttempt ref g)
  seats : g.isCreated = true ∨ g.isCreating = true ∧ g.peers ≠ [] →
    (ref ∉ t.lowered → g.maxPeers > 0 → g.seatsTaken ≤ g.maxPeers.toNat) ∧
      (t.world.app.settings.maxPeersPerGame ≠ 0 →
        g.seatsTaken ≤ t.world.app.settings.maxPeersPerGame)

def Sound (t : LimitedWorld) : Prop :=
  ∀ ref g, t.world.app.live.lookup ref = some g → RoomSound t ref g

variable {t t' : LimitedWorld} {ref : GameRef} {g g' : Game}

theorem Sound.honoured (ht : t.Sound) : t.Honoured := by
  intro ref g hg hcreated hlimited hlowered
  obtain ⟨hroom, happ⟩ := (ht ref g hg).seats (Or.inl hcreated)
  refine ⟨hroom hlowered hlimited, fun userId hmem hfull => ?_⟩
  have hcount : g.finalPeerCount userId 0 = g.seatsTaken := by
    have heq := finalPeerCount_eq userId 0 g
    rw [if_pos hmem] at heq
    omega
  unfold validateJoin at hfull
  simp only [hcount] at hfull
  split at hfull
  · cases hfull
  split at hfull
  · cases hfull
  split at hfull
  · next hover =>
    have := hroom hlowered hlimited
    omega
  split at hfull
  · next hover =>
    have := happ hover.1
    omega
  split at hfull
  · cases hfull
  split at hfull <;> cases hfull

end LimitedWorld

namespace Game

/-- `g'` is as far in its creation as `g` is, has the same limit, takes no more seats and has no one
else in it. -/
structure Settles (g g' : Game) : Prop where
  lease : g'.lease = g.lease
  limit : g'.maxPeers = g.maxPeers
  peers : ∀ gp' ∈ g'.peers, ∃ gp ∈ g.peers, gp'.peer = gp.peer
  seats : g'.seatsTaken ≤ g.seatsTaken

namespace Settles

variable {h : PeerHeap} {g g' g'' : Game}

theorem refl (g : Game) : Settles g g := ⟨rfl, rfl, fun gp hgp => ⟨gp, hgp, rfl⟩, le_refl _⟩

theorem trans (hg : Settles g g') (hg' : Settles g' g'') : Settles g g'' := by
  refine ⟨hg'.lease.trans hg.lease, hg'.limit.trans hg.limit, fun gp'' hmem => ?_,
    hg'.seats.trans hg.seats⟩
  obtain ⟨gp', hgp', heq'⟩ := hg'.peers gp'' hmem
  obtain ⟨gp, hgp, heq⟩ := hg.peers gp' hgp'
  exact ⟨gp, hgp, heq'.trans heq⟩

theorem of_seatsOnly (hseats : SeatsOnly g g')
    (hsub : ∀ u ∈ g'.expectedUsers, u ∈ g.expectedUsers) : Settles g g' := by
  have hcard : g'.expectedUsers.card ≤ g.expectedUsers.card := by
    rw [← ListSet.card_toFinset, ← ListSet.card_toFinset]
    refine Finset.card_le_card fun u hu => ?_
    exact ListSet.mem_toFinset.mpr (hsub u (ListSet.mem_toFinset.mp hu))
  have htaken := hseats.seatsTaken
  refine ⟨hseats.lease, ?_, ?_, ?_⟩
  · obtain ⟨_, _, _, _, _, _, rfl⟩ := hseats
    rfl
  · obtain ⟨_, _, _, _, _, _, rfl⟩ := hseats
    exact fun gp hgp => ⟨gp, hgp, rfl⟩
  · show g'.seatsTaken ≤ g.peers.length + g.dummyPeerCount.toNat + g.expectedUsers.card
    omega

theorem removeExpectedUser (userId : String) (g : Game) :
    Settles g (g.removeExpectedUser userId) := by
  refine of_seatsOnly (seatsOnly_remove userId g) fun u hu => ?_
  rw [removeExpectedUser_eq] at hu
  exact (ListSet.mem_erase.mp hu).2

theorem removeIfGeneration (userId : String) (generation : Nat) (g : Game) :
    Settles g (g.removeExpectedUserIfGeneration userId generation).2 := by
  refine of_seatsOnly (seatsOnly_removeIfGeneration userId generation g) fun u hu => ?_
  unfold removeExpectedUserIfGeneration at hu
  split at hu
  · exact (ListSet.mem_erase.mp hu).2
  · exact hu

theorem runScheduledTask (task : ScheduledTask) (g : Game) :
    Settles g (g.runScheduledTask task) := by
  rcases runScheduledTask_cases task g with ⟨_, heq⟩ | ⟨scheduled, _, userId, _, -, -, heq⟩
  · rw [heq]
    exact ⟨rfl, rfl, fun gp hgp => ⟨gp, hgp, rfl⟩, le_refl _⟩
  · rw [heq]
    have hsame : Settles g { g with scheduled } :=
      ⟨rfl, rfl, fun gp hgp => ⟨gp, hgp, rfl⟩, le_refl _⟩
    exact hsame.trans (removeExpectedUser userId _)

theorem removePeer (h : PeerHeap) (peer : PeerRef) (g : Game) :
    Settles g (g.removePeer h (some peer)).2 := by
  obtain ⟨_, _, _, heq⟩ := removePeer_eq h peer g
  refine ⟨removePeer_lease (some peer) g, by rw [heq], ?_, ?_⟩
  · rw [heq]
    exact fun gp hgp => ⟨gp, (List.mem_filter.mp hgp).1, rfl⟩
  · rw [heq]
    have hlength := List.length_filter_le (stays h peer) g.peers
    simp only [seatsTaken]
    omega

theorem insertActorProps (actorId : Int) (update : Hashtable) (g : Game) :
    Settles g (g.insertActorProps actorId update).2 := by
  obtain ⟨found, change, hchange, heq⟩ := insertActorProps_eq actorId update g
  have hpeer : ∀ gp : GamePeer, (change gp).peer = gp.peer := by
    intro gp
    obtain ⟨_, hgp⟩ := hchange gp
    rw [hgp]
  rw [heq]
  refine ⟨rfl, rfl, fun gp' hgp' => ?_, ?_⟩
  · have hmem : gp'.peer ∈ (updatePeer found change g.peers).map (·.peer) :=
      List.mem_map_of_mem hgp'
    rw [map_updatePeer hpeer] at hmem
    obtain ⟨gp, hgp, hsame⟩ := List.mem_map.mp hmem
    exact ⟨gp, hgp, hsame.symm⟩
  · simp only [seatsTaken, length_updatePeer]
    exact le_refl _

theorem insertGameProps (settings : AppSettings) {update : Hashtable} {g : Game}
    (hlimit : ∀ limit, (update.lookup (.byte GameProp.maxPlayers.code)).bind Value.byte? =
      some limit → g.maxPeers = limit) : Settles g (g.insertGameProps settings update).1 := by
  have hprops := propsOnly_insertGameProps settings update g
  refine ⟨hprops.lease, ?_, ?_, ?_⟩
  · have hread := propAt_insertGameProps settings update g (.byte GameProp.maxPlayers.code)
    rw [propAt_code, propAt_code] at hread
    cases hvalue : update.lookup (.byte GameProp.maxPlayers.code) with
    | none => simpa [hvalue, GameProp.read] using hread
    | some value =>
      rw [hvalue] at hread hlimit
      simp only [Option.elim_some, stored_builtin (GameProp.ofCode_code _), GameProp.accepts] at hread
      cases value with
      | byte limit =>
        rw [hlimit limit rfl]
        simpa [GameProp.hasType, GameProp.read] using hread
      | _ => simpa [GameProp.hasType, GameProp.read] using hread
  · obtain ⟨_, _, _, _, _, _, _, _, _, heq⟩ := hprops
    rw [heq]
    exact fun gp hgp => ⟨gp, hgp, rfl⟩
  · obtain ⟨_, _, _, _, _, _, _, _, _, heq⟩ := hprops
    rw [heq]
    exact le_refl _

end Settles

end Game

namespace LimitedWorld

open Game

variable {t t' : LimitedWorld} {ref : GameRef} {g g' : Game}

/-- What becomes of the connections: one that has been used and is alive was alive before. -/
def Ages (h h' : PeerHeap) : Prop :=
  ∀ peer, h peer ≠ .unused →
    h' peer ≠ .unused ∧ ((h'.get peer).isSome = true → (h.get peer).isSome = true)

theorem Ages.refl (h : PeerHeap) : Ages h h := fun _ hpeer => ⟨hpeer, id⟩

theorem Ages.update {h : PeerHeap} {peer : PeerRef} {slot : PeerSlot} (hdead : h peer ≠ .dead)
    (hslot : slot ≠ .unused) : Ages h (Function.update h peer slot) := by
  intro other hother
  by_cases hsame : other = peer
  · subst hsame
    refine ⟨by rwa [Function.update_self], fun _ => ?_⟩
    cases hold : h other with
    | unused => exact absurd hold hother
    | dead => exact absurd hold hdead
    | live value => simp [PeerHeap.get, hold]
  · unfold PeerHeap.get
    rw [Function.update_of_ne hsame]
    exact ⟨hother, id⟩

/-- A step that a room takes no part in: its attempt stays under way. -/
structure Passes (t t' : LimitedWorld) (ref : GameRef) (g : Game) : Prop where
  ages : Ages t.world.heap t'.world.heap
  settings : t'.world.app.settings = t.world.app.settings
  lowered : ref ∈ t.lowered → ref ∈ t'.lowered
  entering : ∀ owner e, g.isCreating = true → g.creationOwner = some owner →
    (t.world.heap.get owner).isSome = true → t.world.entering.lookup owner = some e →
    e.IsAttempt ref g → t'.world.entering.lookup owner = some e

theorem RoomSound.passes (hroom : RoomSound t ref g) (hpasses : Passes t t' ref g) :
    RoomSound t' ref g := by
  refine ⟨hroom.lease, fun hcreating => ?_, fun hwhen => ?_⟩
  · obtain ⟨owner, howner, hused, hgeneration, hpeers, hrunning⟩ := hroom.attempt hcreating
    obtain ⟨hused', halive⟩ := hpasses.ages owner hused
    refine ⟨owner, howner, hused', hgeneration, hpeers, fun halive' => ?_⟩
    obtain ⟨e, he, hattempt⟩ := hrunning (halive halive')
    exact ⟨e, hpasses.entering owner e hcreating howner (halive halive') he hattempt, hattempt⟩
  · rw [hpasses.settings]
    obtain ⟨hlimit, happ⟩ := hroom.seats hwhen
    exact ⟨fun hlowered => hlimit fun hold => hlowered (hpasses.lowered hold), happ⟩

theorem RoomSound.settles (hroom : RoomSound t ref g) (hg : Settles g g') :
    RoomSound t ref g' := by
  have hlease := hg.lease
  simp only [Game.lease, Lease.mk.injEq] at hlease
  obtain ⟨hcreated, hcreating, howner, -, hactive, hinitial⟩ := hlease
  have hempty : g.peers = [] → g'.peers = [] := by
    intro hnil
    refine List.eq_nil_iff_forall_not_mem.mpr fun gp' hgp' => ?_
    obtain ⟨gp, hgp, -⟩ := hg.peers gp' hgp'
    rw [hnil] at hgp
    exact List.not_mem_nil hgp
  refine ⟨?_, fun hcreating' => ?_, fun hwhen => ?_⟩
  · rw [hcreating, hcreated, hinitial]
    exact hroom.lease
  · obtain ⟨owner, howner', hused, hgeneration, hpeers, hrunning⟩ :=
      hroom.attempt (hcreating ▸ hcreating')
    refine ⟨owner, howner ▸ howner', hused, hactive ▸ hgeneration, fun gp' hgp' => ?_,
      fun halive => ?_⟩
    · obtain ⟨gp, hgp, heq⟩ := hg.peers gp' hgp'
      exact heq.trans (hpeers gp hgp)
    · obtain ⟨e, he, hattempt⟩ := hrunning halive
      refine ⟨e, he, hattempt.game, hactive ▸ hattempt.generation,
        fun hstage => hempty (hattempt.empty hstage), ?_⟩
      rw [hg.limit]
      exact hattempt.limited
  · have hbefore := hroom.seats (hwhen.imp (fun h => hcreated ▸ h) fun h =>
      ⟨hcreating ▸ h.1, fun hnil => h.2 (hempty hnil)⟩)
    rw [hg.limit]
    exact ⟨fun hlowered hlimited => hg.seats.trans (hbefore.1 hlowered hlimited),
      fun happ => hg.seats.trans (hbefore.2 happ)⟩

/-- Seats are reserved, in a room that no one sits in yet or that may hold them. -/
theorem RoomSound.seatsOnly (hroom : RoomSound t ref g) (hg : SeatsOnly g g')
    (hseats : g.isCreated = true ∨ g.isCreating = true ∧ g.peers ≠ [] →
      g'.Allows t.world.app.settings g'.seatsTaken) : RoomSound t ref g' := by
  obtain ⟨_, _, _, _, _, _, rfl⟩ := hg
  refine ⟨hroom.lease, fun hcreating => ?_, fun hwhen => ?_⟩
  · obtain ⟨owner, howner, hused, hgeneration, hpeers, hrunning⟩ := hroom.attempt hcreating
    refine ⟨owner, howner, hused, hgeneration, hpeers, fun halive => ?_⟩
    obtain ⟨e, he, hattempt⟩ := hrunning halive
    exact ⟨e, he, hattempt.game, hattempt.generation, hattempt.empty, hattempt.limited⟩
  · exact ⟨fun _ => (hseats hwhen).1, (hseats hwhen).2⟩

/-- A room that is neither created nor being created. -/
theorem RoomSound.of_idle (hcreated : g.isCreated = false) (hcreating : g.isCreating = false) :
    RoomSound t ref g := by
  refine ⟨fun h => ?_, fun h => ?_, ?_⟩
  · rw [hcreating] at h
    cases h
  · rw [hcreating] at h
    cases h
  · rintro (h | ⟨h, -⟩)
    · rw [hcreated] at h
      cases h
    · rw [hcreating] at h
      cases h

section Advancing

variable {peer : PeerRef} {next : Option Entering} {e : Entering}

/-- What a connection's request leaves of it. -/
structure Advances (t t' : LimitedWorld) (peer : PeerRef) (next : Option Entering) : Prop where
  heap : t'.world.heap = t.world.heap
  settings : t'.world.app.settings = t.world.app.settings
  lowered : ∀ ref ∈ t.lowered, ref ∈ t'.lowered
  entering : t'.world.entering =
    next.elim (t.world.entering.erase peer) fun e => t.world.entering.insert peer e

theorem Advances.lookup_ne (hadv : Advances t t' peer next) {other : PeerRef} (hne : other ≠ peer) :
    t'.world.entering.lookup other = t.world.entering.lookup other := by
  rw [hadv.entering]
  cases next with
  | none => exact AList.lookup_erase_ne hne
  | some e => exact AList.lookup_insert_ne hne

/-- The rooms that the connection has no attempt in. -/
theorem Advances.passes (hadv : Advances t t' peer next)
    (hnone : ∀ e, g.isCreating = true → g.creationOwner = some peer →
      (t.world.heap.get peer).isSome = true → t.world.entering.lookup peer = some e →
      ¬e.IsAttempt ref g) : Passes t t' ref g := by
  refine ⟨by rw [hadv.heap]; exact Ages.refl _, hadv.settings, hadv.lowered ref, ?_⟩
  intro owner e hcreating howner halive he hattempt
  by_cases hsame : owner = peer
  · subst hsame
    exact absurd hattempt (hnone e hcreating howner halive he)
  · rw [hadv.lookup_ne hsame, he]

/-- The request that a lease belongs to. -/
theorem RoomSound.of_active (hroom : RoomSound t ref g) {generation : Nat}
    (hactive : g.isCreationActive t.world.heap (some peer) generation = true) :
    g.isCreating = true ∧ g.isCreated = false ∧ g.creationOwner = some peer ∧
      t.world.heap peer ≠ .unused ∧ generation = g.activeCreationGeneration ∧ generation ≠ 0 ∧
      (∀ gp ∈ g.peers, gp.peer = some peer) ∧
      ∃ e, t.world.entering.lookup peer = some e ∧ e.IsAttempt ref g := by
  obtain ⟨hcreating, -, hne, hgeneration, hlock⟩ := isCreationActive_iff.mp hactive
  obtain ⟨howner, halive⟩ := PeerHeap.lock_eq_some.mp hlock
  obtain ⟨owner, howner', hused, -, hpeers, hrunning⟩ := hroom.attempt hcreating
  obtain rfl : owner = peer := Option.some.inj (howner'.symm.trans howner)
  exact ⟨hcreating, (hroom.lease hcreating).1, howner, hused, hgeneration, hne, hpeers,
    hrunning halive⟩

/-- The attempt goes on with a new record. -/
theorem RoomSound.goesOn (hroom : RoomSound t ref g) (hadv : Advances t t' peer (some e))
    {generation : Nat} (hactive : g.isCreationActive t.world.heap (some peer) generation = true)
    (hlease : g'.lease = g.lease) (hpeers : ∀ gp ∈ g'.peers, gp.peer = some peer)
    (hattempt : e.IsAttempt ref g')
    (hseats : g'.peers ≠ [] → (ref ∉ t.lowered → g'.maxPeers > 0 →
      g'.seatsTaken ≤ g'.maxPeers.toNat) ∧ (t.world.app.settings.maxPeersPerGame ≠ 0 →
        g'.seatsTaken ≤ t.world.app.settings.maxPeersPerGame)) : RoomSound t' ref g' := by
  obtain ⟨hcreating, hcreated, howner, hused, hgeneration, hne, -, -⟩ := hroom.of_active hactive
  simp only [Game.lease, Lease.mk.injEq] at hlease
  obtain ⟨hcreated', -, howner', -, hactive', hinitial'⟩ := hlease
  refine ⟨fun _ => ?_, fun _ => ⟨peer, ?_, ?_, ?_, hpeers, fun _ => ⟨e, ?_, hattempt⟩⟩, ?_⟩
  · rw [hcreated', hinitial']
    exact hroom.lease hcreating
  · rw [howner', howner]
  · rw [hadv.heap]
    exact hused
  · rw [hactive', ← hgeneration]
    exact hne
  · rw [hadv.entering]
    exact AList.lookup_insert _
  · rintro (hcreated'' | ⟨-, hpeers'⟩)
    · rw [hcreated', hcreated] at hcreated''
      cases hcreated''
    · obtain ⟨hlimit, happ⟩ := hseats hpeers'
      rw [hadv.settings]
      exact ⟨fun hlowered => hlimit fun hold => hlowered (hadv.lowered ref hold), happ⟩

/-- The request ends with a rollback. -/
theorem RoomSound.rollback (hroom : RoomSound t ref g) (hadv : Advances t t' peer none)
    (he : t.world.entering.lookup peer = some e) :
    RoomSound t' ref (g.rollbackJoin t.world.heap peer e) := by
  unfold rollbackJoin
  cases hgeneration : e.generation with
  | none =>
    have hreleased : ∀ g : Game, Settles g (e.added.foldl (fun g seat =>
        (g.removeExpectedUserIfGeneration seat.1 seat.2).2) g) := fun g =>
      List.foldlRecOn _ _ (Settles.refl g) fun g' hg seat _ =>
        hg.trans (Settles.removeIfGeneration seat.1 seat.2 g')
    have hremoved : Settles g
        (if e.stage = .properties then (g.removePeer t.world.heap (some peer)).2 else g) := by
      split
      · exact Settles.removePeer t.world.heap peer g
      · exact Settles.refl g
    refine (hroom.settles (hremoved.trans (hreleased _))).passes (hadv.passes ?_)
    intro e' _ _ _ he' hattempt
    rw [he] at he'
    cases he'
    rw [hattempt.generation] at hgeneration
    cases hgeneration
  | some generation =>
    cases hactive : g.isCreationActive t.world.heap (some peer) generation with
    | true =>
      have hinitial := (hroom.lease (hroom.of_active hactive).1).2
      obtain ⟨_, heq⟩ := abortCreationTransaction_eq hactive
      simp only [heq]
      exact RoomSound.of_idle hinitial rfl
    | false =>
      simp only [abortCreationTransaction_of_inactive hactive]
      refine hroom.passes (hadv.passes ?_)
      -- A request with a lease and a live connection could have aborted the attempt.
      intro e' hcreating howner halive he' hattempt
      rw [he] at he'
      cases he'
      rw [hattempt.generation] at hgeneration
      cases hgeneration
      obtain ⟨_, _, _, hne, -, -⟩ := hroom.attempt hcreating
      have hlock : t.world.heap.lock g.creationOwner = some peer :=
        PeerHeap.lock_eq_some.mpr ⟨howner, halive⟩
      have hthis : g.isCreationActive t.world.heap (some peer) g.activeCreationGeneration = true :=
        isCreationActive_iff.mpr ⟨hcreating, nofun, hne, rfl, hlock⟩
      rw [hactive] at hthis
      cases hthis

/-- The join of a client, which has been checked. -/
theorem seats_of_joined {userId : String} {users : List String} {lease : Option Nat}
    {added : List (String × Nat)} {settings : AppSettings} {h : PeerHeap}
    (huser : h.userId (some peer) = some userId)
    (hjoin : g.admitJoin h settings (some peer) userId users lease = .joined added g') :
    (g'.maxPeers > 0 → g'.seatsTaken ≤ g'.maxPeers.toNat) ∧
      (settings.maxPeersPerGame ≠ 0 → g'.seatsTaken ≤ settings.maxPeersPerGame) := by
  obtain ⟨-, hok, -, hlimit, -, htaken⟩ := admitJoin_joined huser hjoin
  obtain ⟨-, -, hmax, happ, -, -⟩ := validateJoin_ok hok
  rw [hlimit]
  exact ⟨fun hlimited => htaken.trans (hmax hlimited), fun hcapped => htaken.trans (happ hcapped)⟩

theorem settles_insertEntering {h : PeerHeap} {settings : AppSettings}
    (hlimit : ∀ limit, e.generation ≠ none → e.request.limit = some limit → g.maxPeers = limit) :
    Settles g (g.insertEntering h settings peer e) := by
  have hinsert : ∀ g' generation props, Settles g g' → e.generation = some generation →
      e.request.gameProperties = some props → Settles g (g'.insertGameProps settings props).1 := by
    intro g' generation props hset hgeneration hprops
    refine hset.trans (Settles.insertGameProps settings fun limit hasked => ?_)
    rw [hset.limit]
    refine hlimit limit (by simp [hgeneration]) ?_
    simpa [EnterRequest.limit, EnterRequest.creationSettings, hprops] using hasked
  unfold insertEntering
  simp only
  cases e.request.actorProperties with
  | none =>
    split
    · next generation props hgeneration hprops =>
      exact hinsert g generation props (Settles.refl g) hgeneration hprops
    · exact Settles.refl g
  | some props =>
    have hactor := Settles.insertActorProps ((g.actorIdForPeer h (some peer)).getD 0) props g
    split
    · next generation props hgeneration hprops =>
      exact hinsert _ generation props hactor hgeneration hprops
    · exact hactor

/-- A room that is created holds as many seats as it may. -/
theorem RoomSound.of_created (hcreating : g.isCreating = false)
    (hseats : (ref ∉ t.lowered → g.maxPeers > 0 → g.seatsTaken ≤ g.maxPeers.toNat) ∧
      (t.world.app.settings.maxPeersPerGame ≠ 0 →
        g.seatsTaken ≤ t.world.app.settings.maxPeersPerGame)) : RoomSound t ref g := by
  refine ⟨fun h => ?_, fun h => ?_, fun _ => hseats⟩
  · rw [hcreating] at h
    cases h
  · rw [hcreating] at h
    cases h

/-- The request of a client that does not create the room is no attempt. -/
theorem not_isAttempt_of_guest (hguest : e.generation = none)
    (he : t.world.entering.lookup peer = some e) {e' : Entering}
    (he' : t.world.entering.lookup peer = some e') : ¬e'.IsAttempt ref g := by
  intro hattempt
  rw [he] at he'
  cases he'
  rw [hattempt.generation] at hguest
  cases hguest

/-- The admission of a client. -/
theorem RoomSound.admission (hroom : RoomSound t ref g) {userId : String}
    (huser : t.world.heap.userId (some peer) = some userId)
    (he : t.world.entering.lookup peer = some e) (hstage : e.stage = .admission)
    {added : List (String × Nat)}
    (hjoin : g.admitJoin t.world.heap t.world.app.settings (some peer) userId
      e.request.expectedUsers e.generation = .joined added g')
    (hadv : Advances t t' peer (some { e with stage := .properties, added })) :
    RoomSound t' ref g' := by
  obtain ⟨hlost, hok, hlease, hlimit, ⟨gp, hgp, hpeers⟩, -⟩ := admitJoin_joined huser hjoin
  have hseats := seats_of_joined huser hjoin
  cases hgeneration : e.generation with
  | some generation =>
    rw [hgeneration] at hlost
    have hactive : g.isCreationActive t.world.heap (some peer) generation = true := by
      simpa [leaseLost] using hlost
    obtain ⟨-, -, -, -, -, -, -, e', he', hattempt⟩ := hroom.of_active hactive
    obtain rfl : e = e' := Option.some.inj (he.symm.trans he')
    refine hroom.goesOn hadv hactive hlease ?_ ?_ fun _ => ⟨fun _ => hseats.1, hseats.2⟩
    · rw [hpeers, hattempt.empty (Or.inr hstage)]
      intro gp' hgp'
      rw [List.mem_singleton.mp hgp', hgp]
    · exact hattempt.seated hlease hlimit (by simp [hstage]) (Or.inl rfl) added
  | none =>
    rw [hgeneration] at hok
    obtain ⟨hcreated, -⟩ := validateJoin_ok hok
    have hcreating : g.isCreating = false := by
      by_contra hcreating
      have huncreated := (hroom.lease (by simpa using hcreating)).1
      simp [huncreated] at hcreated
    refine RoomSound.of_created ((congrArg Lease.isCreating hlease).trans hcreating) ?_
    rw [hadv.settings]
    exact ⟨fun _ => hseats.1, hseats.2⟩

/-- The properties of a client that has joined. -/
theorem RoomSound.properties (hroom : RoomSound t ref g)
    (he : t.world.entering.lookup peer = some e) (hstage : e.stage = .properties)
    (hlost : g.hasLost t.world.heap peer e = false)
    (hadv : Advances t t' peer
      (if e.generation.isSome then some { e with stage := .commit } else none)) :
    RoomSound t' ref (g.insertEntering t.world.heap t.world.app.settings peer e) := by
  cases hgeneration : e.generation with
  | some generation =>
    rw [if_pos (Option.isSome_iff_exists.mpr ⟨generation, hgeneration⟩)] at hadv
    have hactive : g.isCreationActive t.world.heap (some peer) generation = true := by
      unfold hasLost leaseLost at hlost
      rw [hgeneration, Bool.or_eq_false_iff] at hlost
      simpa using hlost.1
    obtain ⟨-, -, -, -, -, -, hpeers, e', he', hattempt⟩ := hroom.of_active hactive
    obtain rfl : e = e' := Option.some.inj (he.symm.trans he')
    have hset : Settles g (g.insertEntering t.world.heap t.world.app.settings peer e) :=
      settles_insertEntering fun limit _ => hattempt.limited (by simp [hstage]) limit
    refine hroom.goesOn hadv hactive hset.lease (fun gp' hgp' => ?_)
      (hattempt.seated hset.lease hset.limit (by simp [hstage]) (Or.inr rfl) e.added)
      fun hne => (hroom.settles hset).seats (Or.inr ⟨?_, hne⟩)
    · obtain ⟨gp, hgp, heq⟩ := hset.peers gp' hgp'
      exact heq.trans (hpeers gp hgp)
    · have hcreating := congrArg Lease.isCreating hset.lease
      exact hcreating.trans (hroom.of_active hactive).1
  | none =>
    rw [hgeneration] at hadv
    have hset : Settles g (g.insertEntering t.world.heap t.world.app.settings peer e) :=
      settles_insertEntering fun _ hcreator => absurd hgeneration hcreator
    exact (hroom.settles hset).passes (hadv.passes fun e' _ _ _ he' =>
      not_isAttempt_of_guest hgeneration he he')

theorem RoomSound.commit (hroom : RoomSound t ref g) {generation : Nat}
    (hcommit : g.commitCreation t.world.heap (some peer) generation = (true, g'))
    (hadv : Advances t t' peer none) : RoomSound t' ref g' := by
  rcases commitCreation_cases t.world.heap (some peer) generation g with
    heq | ⟨hactive, hin, heq⟩
  · rw [heq] at hcommit
    cases hcommit
  · rw [heq] at hcommit
    obtain ⟨-, rfl⟩ := Prod.mk.inj hcommit
    obtain ⟨gp, hgp, -⟩ := findPeer_isSome.mp hin
    obtain ⟨hlimit, happ⟩ := hroom.seats (Or.inr ⟨(hroom.of_active hactive).1,
      List.ne_nil_of_mem hgp⟩)
    refine RoomSound.of_created rfl ?_
    rw [hadv.settings]
    exact ⟨fun hlowered => hlimit fun hold => hlowered (hadv.lowered ref hold), happ⟩

/-- The next part of a request. -/
theorem RoomSound.continue (hroom : RoomSound t ref g) {userId : String}
    (huser : t.world.heap.userId (some peer) = some userId)
    (he : t.world.entering.lookup peer = some e) {result : Game × Option Entering}
    (hresult : g.continueEntering t.world.heap t.world.app.settings peer userId e = result)
    (hadv : Advances t t' peer result.2) : RoomSound t' ref result.1 := by
  unfold continueEntering at hresult
  simp only at hresult
  split at hresult
  · next generation hstage hgeneration =>
    split at hresult
    · next g₁ happly =>
      subst hresult
      unfold applyCreationSettings at happly
      split at happly
      · next hactive =>
        obtain ⟨-, -, -, -, -, -, -, e', he', hattempt⟩ := hroom.of_active hactive
        obtain rfl : e = e' := Option.some.inj (he.symm.trans he')
        have hempty := hattempt.empty (Or.inl hstage)
        simp only [Prod.mk.injEq, true_and] at happly
        subst happly
        refine hroom.goesOn hadv hactive rfl ?_ ?_ fun hne => absurd hempty hne
        · rw [hempty]
          exact fun gp hgp => absurd hgp List.not_mem_nil
        · refine ⟨hattempt.game, hattempt.generation, fun _ => hempty, fun _ limit hlimit => ?_⟩
          rw [EnterRequest.limit] at hlimit
          simp only [hlimit, Option.getD_some]
      · cases happly
    · subst hresult
      exact hroom.rollback hadv he
  · next lease hstage =>
    split at hresult
    · subst hresult
      exact hroom.rollback hadv he
    · subst hresult
      exact hroom.rollback hadv he
    · next added g₁ hjoin =>
      subst hresult
      exact hroom.admission huser he hstage hjoin hadv
  · next lease hstage =>
    split at hresult
    · subst hresult
      exact hroom.rollback hadv he
    · next hlost =>
      subst hresult
      exact hroom.properties he hstage (by simpa using hlost) hadv
  · split at hresult
    · next g₁ hcommit =>
      subst hresult
      exact hroom.commit hcommit hadv
    · subst hresult
      exact hroom.rollback hadv he
  · next hguest _ _ =>
    subst hresult
    exact hroom.passes (hadv.passes fun e' _ _ _ he' => not_isAttempt_of_guest hguest he he')

/-- The first part of a request. -/
theorem RoomSound.begin (hroom : RoomSound t ref g) {userId : String} {request : EnterRequest}
    (huser : t.world.heap.userId (some peer) = some userId)
    (hidle : t.world.entering.lookup peer = none) {result : Game × Option Entering}
    (hresult : g.beginEntering t.world.heap t.world.app.settings ref peer userId request = result)
    (hadv : Advances t t' peer result.2) : RoomSound t' ref result.1 := by
  have hsame : result.1 = g → RoomSound t' ref result.1 := by
    intro heq
    rw [heq]
    refine hroom.passes (hadv.passes fun e _ _ _ he => ?_)
    rw [hidle] at he
    cases he
  unfold beginEntering at hresult
  split at hresult
  · exact hsame (by rw [← hresult])
  split at hresult
  · exact hsame (by rw [← hresult])
  split at hresult
  · exact hsame (by rw [← hresult])
  split at hresult
  · split at hresult
    · exact hsame (by rw [← hresult])
    · split at hresult
      · exact hsame (by rw [← hresult])
      · exact hsame (by rw [← hresult])
  · next generation g₁ hne hbegin =>
    subst hresult
    rcases tryBeginCreation_cases (some peer) g with heq | ⟨-, hcreated, -, hpeers, heq⟩
    · rw [heq] at hbegin
      exact absurd (congrArg Prod.fst hbegin).symm hne
    · obtain ⟨rfl, rfl⟩ := Prod.mk.inj (heq.symm.trans hbegin)
      have halive : (t.world.heap.get peer).isSome = true := by
        rw [PeerHeap.userId_some] at huser
        exact Option.isSome_of_eq_some (Option.bind_eq_some_iff.mp huser).choose_spec.1
      refine ⟨fun _ => ⟨hcreated, hcreated⟩,
        fun _ => ⟨peer, rfl, ?_, Nat.succ_ne_zero _, ?_, fun _ => ?_⟩, ?_⟩
      · rw [hadv.heap]
        exact PeerHeap.ne_unused_of_get halive
      · rw [hpeers]
        exact fun gp hgp => absurd hgp List.not_mem_nil
      · refine ⟨{ game := ref, request, generation := some _, stage := .settings }, ?_, rfl, rfl,
          fun _ => hpeers, fun hlater => absurd rfl hlater⟩
        rw [hadv.entering]
        exact AList.lookup_insert _
      · rintro (hcreated' | ⟨-, hne'⟩)
        · rw [hcreated] at hcreated'
          cases hcreated'
        · exact absurd hpeers hne'

end Advancing

section Stepping

variable {op : SeatOp} {peer : PeerRef}

theorem mem_lowered_step (t : LimitedWorld) (op : SeatOp) (hlowered : ref ∈ t.lowered) :
    ref ∈ (t.step op).lowered :=
  List.mem_append_left _ hlowered

/-- A step that leaves a room out of the record has not lowered its limit. -/
theorem not_lowered_step (hlowered : ref ∉ (t.step op).lowered)
    (hg : t.world.app.live.lookup ref = some g)
    (hg' : (t.step op).world.app.live.lookup ref = some g') :
    ref ∉ t.lowered ∧ g.limitLowered g' = false := by
  have hnot := not_or.mp (mt List.mem_append.mpr hlowered)
  refine ⟨hnot.1, ?_⟩
  by_contra hlimit
  refine hnot.2 (List.mem_filter.mpr ⟨AList.mem_keys.mp (AList.mem_iff_lookup.mpr ⟨g, hg⟩), ?_⟩)
  have hworld : (t.world.step op).app.live.lookup ref = some g' := hg'
  rw [hg, hworld]
  simpa using hlimit

theorem pos_of_not_lowered (hcreated : g.isCreated = true) (hlimited : g'.maxPeers > 0)
    (hkept : g.limitLowered g' = false) :
    g.maxPeers > 0 ∧ g.maxPeers.toNat ≤ g'.maxPeers.toNat := by
  simp only [limitLowered, hcreated, hlimited, decide_true, Bool.and_self, Bool.true_and,
    Bool.or_eq_false_iff, beq_eq_false_iff_ne, decide_eq_false_iff_not] at hkept
  exact ⟨UInt8.pos_iff_ne_zero.mpr hkept.1, Nat.not_lt.mp hkept.2⟩

/-- A step that a connection takes in a room. -/
theorem Sound.advance (ht : t.Sound) {next : Game → Game × Option Entering}
    (hstep : t.world.step op = t.world.advance peer ref next)
    (hrecord : ∀ e, t.world.entering.lookup peer = some e → e.game = ref)
    (hnext : ∀ g, t.world.app.live.lookup ref = some g → RoomSound t ref g →
      ∀ result, next g = result → Advances t (t.step op) peer result.2 →
        RoomSound (t.step op) ref result.1) : (t.step op).Sound := by
  have hother : ∀ e, Advances t (t.step op) peer e → ∀ other g, other ≠ ref →
      t.world.app.live.lookup other = some g → RoomSound (t.step op) other g := by
    intro e hadv other g hne hg
    refine (ht other g hg).passes (hadv.passes fun e _ _ _ he hattempt => ?_)
    exact hne (hattempt.game.symm.trans (hrecord e he))
  unfold SeatWorld.advance at hstep
  cases hg : t.world.app.live.lookup ref with
  | none =>
    simp only [hg] at hstep
    have hadv : Advances t (t.step op) peer none := by
      refine ⟨by simp only [step, hstep], by simp only [step, hstep],
        fun _ => mem_lowered_step t op, ?_⟩
      simp only [step, hstep]
      rfl
    intro other g' hg'
    simp only [step, hstep] at hg'
    refine hother none hadv other g' ?_ hg'
    rintro rfl
    rw [hg] at hg'
    cases hg'
  | some g =>
    simp only [hg] at hstep
    have hadv : Advances t (t.step op) peer (next g).2 := by
      refine ⟨?_, ?_, fun _ => mem_lowered_step t op, ?_⟩ <;> simp only [step, hstep]
    intro other g' hg'
    simp only [step, hstep, AList.lookup_insert_eq] at hg'
    split at hg'
    · next hsame =>
      cases hg'
      rw [hsame]
      exact hnext g hg (ht ref g hg) _ rfl hadv
    · next hne => exact hother _ hadv other g' hne hg'

/-- A step that leaves the clients, the settings and the requests under way as they are. -/
theorem passes_step (hages : Ages t.world.heap (t.step op).world.heap)
    (hsettings : (t.step op).world.app.settings = t.world.app.settings)
    (hentering : (t.step op).world.entering = t.world.entering) (ref : GameRef) (g : Game) :
    Passes t (t.step op) ref g := by
  refine ⟨hages, hsettings, mem_lowered_step t op, ?_⟩
  rw [hentering]
  exact fun _ _ _ _ _ he _ => he

/-- A step in which no room changes. -/
theorem Sound.keepRooms (ht : t.Sound) (hages : Ages t.world.heap (t.step op).world.heap)
    (happ : (t.step op).world.app = t.world.app)
    (hentering : (t.step op).world.entering = t.world.entering) : (t.step op).Sound := by
  intro ref g hg
  rw [happ] at hg
  exact (ht ref g hg).passes (passes_step hages (by rw [happ]) hentering ref g)

/-- A step that does nothing. -/
theorem Sound.of_step_eq (ht : t.Sound) (heq : t.world.step op = t.world) : (t.step op).Sound := by
  have hworld : (t.step op).world = t.world := heq
  refine ht.keepRooms ?_ (by rw [hworld]) (by rw [hworld])
  rw [hworld]
  exact Ages.refl _

/-- A step that only a room takes part in. -/
theorem Sound.modifyGame (ht : t.Sound) {change : Game → Game}
    (hstep : t.world.step op = { t.world with app := t.world.app.modifyGame ref change })
    (hchange : ∀ g, t.world.app.live.lookup ref = some g → RoomSound t ref g →
      Passes t (t.step op) ref (change g) → RoomSound (t.step op) ref (change g)) :
    (t.step op).Sound := by
  have hsettings : (t.step op).world.app.settings = t.world.app.settings := by
    simp only [step, hstep, App.modifyGame]
    split <;> rfl
  have hpasses : ∀ other g, Passes t (t.step op) other g := by
    refine passes_step ?_ hsettings ?_ <;> simp only [step, hstep]
    exact Ages.refl _
  intro other g' hg'
  simp only [step, hstep, App.modifyGame] at hg'
  cases hg : t.world.app.live.lookup ref with
  | none =>
    rw [hg] at hg'
    exact (ht other g' hg').passes (hpasses other g')
  | some g =>
    rw [hg] at hg'
    simp only [AList.lookup_insert_eq] at hg'
    split at hg'
    · next hsame =>
      cases hg'
      rw [hsame]
      exact hchange g hg (ht ref g hg) (hpasses ref _)
    · exact (ht other g' hg').passes (hpasses other g')

/-- An actor of a room that is being created is its creator, whose connection is busy. -/
theorem RoomSound.busy (hroom : RoomSound t ref g) (hcreating : g.isCreating = true)
    (hin : (g.findPeer t.world.heap (some peer)).isSome = true) : peer ∈ t.world.entering := by
  obtain ⟨gp, hgp, -, hlock⟩ := findPeer_isSome.mp hin
  obtain ⟨hpeer, halive⟩ := PeerHeap.lock_eq_some.mp hlock
  obtain ⟨owner, -, -, -, hpeers, hrunning⟩ := hroom.attempt hcreating
  obtain rfl : owner = peer := Option.some.inj ((hpeers gp hgp).symm.trans hpeer)
  obtain ⟨e, he, -⟩ := hrunning halive
  exact AList.mem_iff_lookup.mpr ⟨e, he⟩

theorem RoomSound.takes (hroom : RoomSound t ref g) {client : PeerRef} {request : RouteRequest}
    {userId : String} (huser : t.world.heap.userId (some client) = some userId)
    (hfits : t.FitsUnchecked (.route client request))
    (hg : t.world.app.live.lookup ref = some g)
    (htakes : request.Takes t.world.heap userId t.world.app ref g g') : RoomSound t ref g' := by
  have hallows : ∀ seats, SeatsOnly g g' → g.Allows t.world.app.settings seats →
      g'.seatsTaken ≤ seats → g'.Allows t.world.app.settings g'.seatsTaken := by
    intro seats hseats hbound hle
    obtain ⟨_, _, _, _, _, _, rfl⟩ := hseats
    exact ⟨fun hlimited => hle.trans (hbound.1 hlimited), fun happ => hle.trans (hbound.2 happ)⟩
  cases htakes with
  | checked count hseats hok htaken =>
    obtain ⟨-, -, hmax, happ, -, -⟩ := validateJoin_ok hok
    exact hroom.seatsOnly hseats fun _ => hallows _ hseats ⟨hmax, happ⟩ htaken
  | unchecked join hseats hjoin hmode hfound huncreated htaken =>
    subst hjoin
    refine hroom.seatsOnly hseats fun hwhen => ?_
    rw [huncreated] at hwhen
    obtain ⟨hcreating, hpeers⟩ := hwhen.resolve_left nofun
    exact hallows _ hseats (hfits hmode userId huser ref hfound g hg hcreating hpeers) htaken

theorem Sound.route (ht : t.Sound) {client : PeerRef} {request : RouteRequest} {userId : String}
    (huser : t.world.heap.userId (some client) = some userId)
    (hfits : t.FitsUnchecked (.route client request)) :
    (t.step (.route client request)).Sound := by
  have hroutes := App.routes_route t.world.heap userId request t.world.app
  have halive : (t.world.heap.get client).isSome = true := by
    rw [PeerHeap.userId_some] at huser
    exact Option.isSome_of_eq_some (Option.bind_eq_some_iff.mp huser).choose_spec.1
  have hstep : Ages t.world.heap (t.step (.route client request)).world.heap ∧
      (t.step (.route client request)).world.app =
        (t.world.app.route t.world.heap userId request).app ∧
      (t.step (.route client request)).world.entering = t.world.entering := by
    simp only [step, SeatWorld.step, SeatWorld.route, huser]
    generalize t.world.app.route t.world.heap userId request = result
    obtain ⟨answer, app⟩ := result
    cases answer with
    | routed routedTo isNew =>
      refine ⟨Ages.update ?_ nofun, rfl, rfl⟩
      intro hdead
      simp [PeerHeap.get, hdead] at halive
    | refused code message => exact ⟨Ages.refl _, rfl, rfl⟩
    | pending => exact ⟨Ages.refl _, rfl, rfl⟩
  obtain ⟨hages, happ, hentering⟩ := hstep
  have hpasses := passes_step hages (by rw [happ, hroutes.settings]) hentering
  intro ref g' hg'
  rw [happ] at hg'
  rcases hroutes.live ref g' hg' with hold | ⟨g, hg, htakes⟩ | ⟨info, hseats⟩
  · exact (ht ref g' hold).passes (hpasses ref g')
  · refine ((ht ref g hg).takes huser hfits hg htakes).passes (hpasses ref g')
  · exact RoomSound.of_idle (congrArg Lease.isCreated hseats.lease)
      (congrArg Lease.isCreating hseats.lease)

/-- A connection is opened or closed. -/
theorem Sound.connection (ht : t.Sound) (peer : PeerRef) (slot : PeerSlot) :
    (t.step (.connection peer slot)).Sound := by
  by_cases hguard : t.world.heap peer = .dead ∨ slot = .unused
  · exact ht.of_step_eq (if_pos hguard)
  · have hworld : (t.step (.connection peer slot)).world =
        { t.world with heap := Function.update t.world.heap peer slot } := if_neg hguard
    rw [not_or] at hguard
    refine ht.keepRooms ?_ ?_ ?_ <;> rw [hworld]
    exact Ages.update hguard.1 hguard.2

/-- A request to change the properties may change the limit, and then takes no seat. -/
theorem Sound.setProperties (ht : t.Sound) (peer : PeerRef) (ref : GameRef)
    (update : Hashtable) (expected : Option Hashtable) :
    (t.step (.setProperties peer ref update expected)).Sound := by
  refine ht.modifyGame rfl fun g hg hroom hpasses => ?_
  by_cases hrefused : peer ∈ t.world.entering ∨ (g.findPeer t.world.heap (some peer)).isNone
  · rw [if_pos hrefused] at hpasses ⊢
    exact hroom.passes hpasses
  have hprops := propsOnly_applyGameProps t.world.app.settings update expected g
  rw [not_or] at hrefused
  have hcreating : g.isCreating = false := by
    by_contra hcreating
    exact hrefused.1 (hroom.busy (by simpa using hcreating)
      (by simpa [Option.isSome_iff_ne_none] using hrefused.2))
  have hlive : (t.step (.setProperties peer ref update expected)).world.app.live.lookup ref =
      some (g.applyGameProps t.world.app.settings update expected).2.1 := by
    simp only [LimitedWorld.step, SeatWorld.step, App.modifyGame, hg, AList.lookup_insert]
    rw [if_neg (not_or.mpr hrefused)]
  rw [if_neg (not_or.mpr hrefused)] at hpasses ⊢
  cases hcreated : g.isCreated with
  | false =>
    exact RoomSound.of_idle ((congrArg Lease.isCreated hprops.lease).trans hcreated)
      ((congrArg Lease.isCreating hprops.lease).trans hcreating)
  | true =>
    refine RoomSound.of_created ((congrArg Lease.isCreating hprops.lease).trans hcreating) ?_
    rw [hpasses.settings]
    obtain ⟨hlimit, happ⟩ := hroom.seats (Or.inl hcreated)
    have htaken : (g.applyGameProps t.world.app.settings update expected).2.1.seatsTaken =
        g.seatsTaken := by
      obtain ⟨_, _, _, _, _, _, _, _, _, heq⟩ := hprops
      rw [heq]
      rfl
    rw [htaken]
    refine ⟨fun hlowered hlimited => ?_, happ⟩
    obtain ⟨hold, hkept⟩ := not_lowered_step hlowered hg hlive
    obtain ⟨hlimited', hle⟩ := pos_of_not_lowered hcreated hlimited hkept
    exact (hlimit hold hlimited').trans hle

/-- The last pointer to a room is dropped. -/
theorem Sound.dropGame (ht : t.Sound) (ref : GameRef) : (t.step (.dropGame ref)).Sound := by
  cases hg : t.world.app.live.lookup ref with
  | none => exact ht.of_step_eq (by simp only [SeatWorld.step, App.dropGame, hg])
  | some g =>
    obtain ⟨⟨_, hframe⟩, -, -⟩ := App.dropGame_spec hg
    have hworld : (t.step (.dropGame ref)).world =
        { t.world with app := (t.world.app.dropGame ref).1 } := rfl
    intro other g' hg'
    rw [hworld, hframe] at hg'
    simp only [AList.lookup_erase_eq] at hg'
    split at hg'
    · cases hg'
    · refine (ht other g' hg').passes (passes_step ?_ ?_ ?_ other g') <;> rw [hworld]
      · exact Ages.refl _
      · rw [hframe]

theorem Sound.step (ht : t.Sound) (hfits : t.FitsUnchecked op) : (t.step op).Sound := by
  cases op with
  | connection peer slot => exact ht.connection peer slot
  | route client request =>
    cases huser : t.world.heap.userId (some client) with
    | none => exact ht.of_step_eq (by simp only [SeatWorld.step, SeatWorld.route, huser])
    | some userId => exact ht.route huser hfits
  | enter peer ref request =>
    cases huser : t.world.heap.userId (some peer) with
    | none => exact ht.of_step_eq (by simp only [SeatWorld.step, huser])
    | some userId =>
      by_cases hbusy : peer ∈ t.world.entering
      · exact ht.of_step_eq (by simp only [SeatWorld.step, huser, if_pos hbusy])
      · have hidle := AList.lookup_eq_none.mpr hbusy
        refine ht.advance (by simp only [SeatWorld.step, huser, if_neg hbusy]; rfl) ?_
          fun g _ hroom result hresult hadv => hroom.begin huser hidle hresult hadv
        intro e he
        rw [hidle] at he
        cases he
  | resume peer =>
    cases he : t.world.entering.lookup peer with
    | none => exact ht.of_step_eq (by simp only [SeatWorld.step, he])
    | some e =>
      cases huser : t.world.heap.userId (some peer) with
      | none => exact ht.of_step_eq (by simp only [SeatWorld.step, he, huser])
      | some userId =>
        refine ht.advance (by simp only [SeatWorld.step, he, huser]; rfl) ?_
          fun g _ hroom result hresult hadv => hroom.continue huser he hresult hadv
        intro e' he'
        rw [he] at he'
        cases he'
        rfl
  | cancel peer =>
    cases he : t.world.entering.lookup peer with
    | none => exact ht.of_step_eq (by simp only [SeatWorld.step, he])
    | some e =>
      refine ht.advance (by simp only [SeatWorld.step, he]; rfl) ?_ ?_
      · intro e' he'
        rw [he] at he'
        cases he'
        rfl
      · rintro g - hroom result rfl hadv
        exact hroom.rollback hadv he
  | leave peer ref =>
    by_cases hbusy : peer ∈ t.world.entering
    · exact ht.of_step_eq (if_pos hbusy)
    · have hidle := AList.lookup_eq_none.mpr hbusy
      refine ht.advance (if_neg hbusy) ?_ ?_
      · intro e he
        rw [hidle] at he
        cases he
      · rintro g - hroom result rfl hadv
        refine (hroom.settles (Settles.removePeer _ peer g)).passes
          (hadv.passes fun e _ _ _ he => ?_)
        rw [hidle] at he
        cases he
  | runScheduledTask ref task =>
    exact ht.modifyGame rfl fun g _ hroom hpasses =>
      (hroom.settles (Settles.runScheduledTask task g)).passes hpasses
  | setProperties peer ref update expected => exact ht.setProperties peer ref update expected
  | dropGame ref => exact ht.dropGame ref

end Stepping

theorem sound_of_isFresh {w : SeatWorld} (hfresh : w.IsFresh) : Sound { world := w } := by
  intro ref g hg
  have hlive : w.app.live = ∅ := hfresh.1.2.2
  rw [hlive, AList.lookup_empty] at hg
  cases hg

/-- In every run of a process that starts without rooms, a created room never holds more seats than
its limit, as long as the requests that skip the check of a room in creation would pass it. -/
theorem always_honoured {w : SeatWorld} (hfresh : w.IsFresh) {ops : List SeatOp}
    (hfits : Transition.EachStep step FitsUnchecked { world := w } ops) :
    Transition.Always step Honoured { world := w } ops := by
  have hkeeps : Transition.Keeps step FitsUnchecked Sound := fun _ _ ht hfits => ht.step hfits
  exact (hkeeps.always (sound_of_isFresh hfresh) hfits).imp fun _ ht => ht.honoured

/-- Ada is routed to a new room, and has joined it with a limit on its seats; Bob is connected. -/
def adaCreating (limit : UInt8) : List SeatOp :=
  [.connection 1 (.live { persistent := some { userId := "ada", token := "a" } }),
    .connection 2 (.live { persistent := some { userId := "ada", token := "a" } }),
    .connection 3 (.live { persistent := some { userId := "bob", token := "b" } }),
    .route 1 (.createGame { lobby := ("lobby", 0), gameId := "room" }),
    .enter 2 0
      { canCreate := true, gameProperties := some (AList.insert (.byte 255) (.byte limit) ∅) },
    .resume 2, .resume 2]

/-- Bob's `JoinGame` with `CreateIfNotExists = 1`, before Ada's request ends. -/
def bobJoins : List SeatOp :=
  [.route 3 (.joinGame { lobby := ("lobby", 0), gameId := "room", joinMode := 1 }),
    .resume 2, .resume 2]

/-- There is room for Bob. -/
theorem always_honoured_two_seats :
    Transition.Always step Honoured { world := .start } (adaCreating 2 ++ bobJoins) :=
  always_honoured ⟨⟨rfl, rfl, rfl⟩, rfl⟩ (by decide)

/-- There is no room for Bob, and he gets a seat. -/
theorem not_always_honoured_one_seat :
    ¬Transition.Always step Honoured { world := .start } (adaCreating 1 ++ bobJoins) := by
  intro halways
  obtain ⟨g, hg, hcreated, hlimited, hover⟩ : ∃ g,
      (Transition.run step { world := .start } (adaCreating 1 ++ bobJoins)).world.app.live.lookup
        0 = some g ∧ g.isCreated = true ∧ g.maxPeers > 0 ∧ g.maxPeers.toNat < g.seatsTaken :=
    ⟨_, rfl, by decide, by decide, by decide⟩
  have hheld := (halways.last 0 g hg hcreated hlimited (by decide)).1
  omega

end LimitedWorld

end LuxonServer
