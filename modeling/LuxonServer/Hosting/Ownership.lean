import LuxonServer.Hosting.Host
import LuxonServer.Matchmaking.Held

/-! Who owns a room that is not created yet.  A client owns at most one room, so the owners are
counted: `w.owners.count ref` is the number of records that own `ref`. -/

namespace LuxonServer

/-- The room that the client of a connection owns. -/
def Connection.owned (connection : Connection) : Option GameRef :=
  connection.persistent.bind (·.ownedGame)

/-- The rooms that stored records own, once for each owner. -/
def TokenStore.owners (ts : TokenStore) : List GameRef := ts.stored.filterMap (·.ownedGame)

namespace Host

/-- The owners but the client of one connection. -/
def ownersBut (peer : PeerRef) (w : Host) : List GameRef :=
  w.tokens.owners ++ (w.connections.erase peer).entries.filterMap fun entry => entry.2.owned

/-- Whether no room has two owners. -/
def OneOwner (w : Host) : Prop := w.owners.Nodup

instance (w : Host) : Decidable w.OneOwner := inferInstanceAs (Decidable (List.Nodup _))

/-- No room has two owners after the step, and none has an owner after its ownership is reset. -/
def KeepsOneOwner (w : Host) (op : HostOp) : Prop :=
  (w.step op).OneOwner ∧
    match op with
    | .resetOwnership ref => ref ∉ (w.step op).owners
    | _ => True

instance (w : Host) (op : HostOp) : Decidable (w.KeepsOneOwner op) := by
  unfold KeepsOneOwner
  cases op <;> infer_instance

/-- Another client does not own the room that an unsolicited `CreateGame` finds, and a client whose
ownership is reset is not connected. -/
def Uncontested (w : Host) : HostOp → Prop
  | .unsolicited peer call =>
    ∀ pendingJoin pp,
      w.connections.lookup peer = some ⟨.gameServer true none pendingJoin, some pp⟩ →
      call.operation = .createGame → ∀ ref, w.collect.app.games.lookup call.gameId = some ref →
      ref ∈ w.collect.app.live → ref ∉ w.ownersBut peer
  | .resetOwnership ref => ∀ peer connection,
    w.connections.lookup peer = some connection → connection.owned ≠ some ref
  | _ => True

section Counting

variable {w : Host} {peer : PeerRef} {connection : Connection} {ref : GameRef}

theorem owners_eq (w : Host) : w.owners =
    w.tokens.owners ++ w.connections.entries.filterMap fun entry => entry.2.owned := by
  rw [owners, persistents, List.filterMap_append, List.filterMap_filterMap]
  rfl

theorem count_owners (h : w.connections.lookup peer = some connection) (ref : GameRef) :
    w.owners.count ref = connection.owned.toList.count ref + (w.ownersBut peer).count ref := by
  have hperm := (AList.perm_cons_erase h).filterMap fun entry => entry.2.owned
  rw [owners_eq, ownersBut, List.count_append, List.count_append, hperm.count_eq,
    List.filterMap_cons]
  cases connection.owned with
  | none => simp
  | some ref' =>
    simp only [List.count_cons, Option.toList_some, List.count_nil]
    omega

/-- Only the owner at the connection can become another one. -/
theorem count_owners_modify (h : w.connections.lookup peer = some connection)
    (change : Connection → Connection) (ref : GameRef) :
    (w.modify peer change).owners.count ref =
      (change connection).owned.toList.count ref + (w.ownersBut peer).count ref := by
  have hmodify : w.modify peer change =
      { w with connections := w.connections.insert peer (change connection) } := by
    simp only [modify, h]
  have hlookup : (w.modify peer change).connections.lookup peer = some (change connection) := by
    rw [hmodify]
    exact AList.lookup_insert _
  have hbut : (w.modify peer change).ownersBut peer = w.ownersBut peer := by
    rw [hmodify, ownersBut, ownersBut, AList.erase_insert_eq]
  rw [count_owners hlookup, hbut]

end Counting

end Host

@[simp] theorem PeerPersistent.invite_app (info : GameInfo) (ref : GameRef) (isCreating : Bool)
    (pp : PeerPersistent) : (pp.invite info ref isCreating).app = pp.app := rfl

namespace TokenStore

variable {ts : TokenStore} {ref : GameRef}

theorem count_storePersistentPeer_le (pp : PeerPersistent) (ts : TokenStore) (ref : GameRef) :
    (ts.storePersistentPeer pp).owners.count ref ≤
      ts.owners.count ref + pp.ownedGame.toList.count ref := by
  unfold TokenStore.storePersistentPeer
  split
  · omega
  have hkept : (ts.stored.filter fun value => value.token != pp.token).Sublist ts.stored :=
    List.filter_sublist
  have hle := (hkept.filterMap (·.ownedGame)).count_le ref
  simp only [owners, List.filterMap_append, List.count_append, List.filterMap_cons,
    List.filterMap_nil]
  cases pp.ownedGame with
  | none => simpa using hle
  | some owned =>
    simp only [Option.toList_some]
    omega

/-- A record keeps what it owns when it leaves the store. -/
theorem count_loadPersistentPeer (token : String) (fresh : Option String) (ts : TokenStore)
    (ref : GameRef) :
    ((ts.loadPersistentPeer token fresh).1.bind (·.ownedGame)).toList.count ref +
      (ts.loadPersistentPeer token fresh).2.1.owners.count ref = ts.owners.count ref := by
  rcases hload : ts.loadPersistentPeer token fresh with ⟨loaded, after, messages⟩
  cases loaded with
  | none =>
    unfold loadPersistentPeer at hload
    split at hload
    · cases hload
      simp
    · cases hload
  | some loaded =>
    obtain ⟨pp, rfl, hperm⟩ := perm_of_loadPersistentPeer hload
    have hcount : ts.owners.count ref =
        ((pp :: after.stored).filterMap fun pp => pp.ownedGame).count ref :=
      (hperm.filterMap PeerPersistent.ownedGame).count_eq ref
    rw [hcount, owners]
    cases howned : pp.ownedGame with
    | none => simp [howned]
    | some owned =>
      simp only [Option.bind_some, howned, List.filterMap_cons, List.count_cons,
        Option.toList_some, List.count_nil]
      omega

theorem count_expire_le (task : RecordExpiry) (ts : TokenStore) (ref : GameRef) :
    (ts.expire task).owners.count ref ≤ ts.owners.count ref :=
  ((expire_sublist task ts).filterMap _).count_le ref

/-- The loop takes the room from one owner. -/
theorem count_resetFirstOwner (reset ref : GameRef) (stored : List PeerPersistent) :
    ((resetFirstOwner reset stored).filterMap (·.ownedGame)).count ref =
      (stored.filterMap (·.ownedGame)).count ref - if ref = reset then 1 else 0 := by
  induction stored with
  | nil => simp [resetFirstOwner]
  | cons pp stored ih =>
    unfold resetFirstOwner
    split
    · next howns =>
      have howned : pp.ownedGame = some reset := by simpa [PeerPersistent.owns] using howns
      simp only [List.filterMap_cons, howned, List.count_cons, beq_iff_eq, eq_comm (a := reset)]
      split <;> omega
    · next howns =>
      have howned : pp.ownedGame ≠ some reset := by simpa [PeerPersistent.owns] using howns
      rw [List.filterMap_cons, List.filterMap_cons]
      cases hgame : pp.ownedGame with
      | none => exact ih
      | some owned =>
        have hne : owned ≠ reset := by
          rintro rfl
          exact howned hgame
        simp only [List.count_cons, beq_iff_eq, ih]
        by_cases href : ref = reset
        · simp [href, hne]
        · simp [href]

end TokenStore

namespace App

variable {app : App}

@[simp] theorem nextRef_getLobby (id : LobbyId) (app : App) :
    (app.getLobby id).nextRef = app.nextRef := by
  obtain ⟨_, hget⟩ := getLobby_frame id app
  rw [hget]

@[simp] theorem nextRef_releaseLobby (id : LobbyId) (app : App) :
    (app.releaseLobby id).nextRef = app.nextRef := by
  obtain ⟨_, hrelease⟩ := releaseLobby_frame id app
  rw [hrelease]

@[simp] theorem nextRef_addGame (lobby : LobbyId) (id address : String) (app : App) :
    (app.addGame lobby id address).nextRef = app.nextRef + 1 := by
  obtain ⟨_, hadd⟩ := addGame_frame lobby id address app
  rw [hadd]

@[simp] theorem nextRef_modifyGame (ref : GameRef) (change : Game → Game) (app : App) :
    (app.modifyGame ref change).nextRef = app.nextRef := by
  unfold modifyGame
  split <;> rfl

@[simp] theorem nextRef_dropGame (ref : GameRef) (app : App) :
    (app.dropGame ref).1.nextRef = app.nextRef := by
  cases hg : app.live.lookup ref with
  | none => simp only [dropGame, hg]
  | some g =>
    obtain ⟨⟨_, hframe⟩, -, -⟩ := dropGame_spec hg
    rw [hframe]

/-- How a routing request ends in an app that has its lobby, with the seats that it holds. -/
inductive Routing (app : App) : RouteResult → Prop
  | kept {answer : RouteAnswer} {effects : List Effect}
      (hnot : ∀ ref isNew, answer ≠ .routed ref isNew) :
      Routing app { answer, app, effects }
  | found (ref : GameRef) {change : Game → Game} {effects : List Effect}
      (hchange : ∀ g, Game.Reserves g (change g)) :
      Routing app { answer := .routed ref false, app := app.modifyGame ref change, effects }
  | made (lobby : LobbyId) (gameId address : String) {change : Game → Game}
      {effects : List Effect} (hchange : ∀ g, Game.Reserves g (change g)) :
      Routing app
        { answer := .routed app.nextRef true
          app := (app.addGame lobby gameId address).modifyGame app.nextRef change
          effects }
  /-- A rejoin drops the room that was made for it. -/
  | dropped (lobby : LobbyId) (gameId address : String) {answer : RouteAnswer}
      {effects : List Effect} (hnot : ∀ ref isNew, answer ≠ .routed ref isNew) :
      Routing app
        { answer, app := ((app.addGame lobby gameId address).dropGame app.nextRef).1, effects }

/-- What is called and sent does not matter. -/
theorem Routing.withEffects {result : RouteResult} (hrouting : Routing app result)
    (effects : List Effect) : Routing app { result with effects } := by
  cases hrouting with
  | kept hnot => exact .kept hnot
  | found ref hchange => exact .found ref hchange
  | made lobby gameId address hchange => exact .made lobby gameId address hchange
  | dropped lobby gameId address hnot => exact .dropped lobby gameId address hnot

theorem reserves_reserveExpectedUsers (userId : String) (users : List String) (g : Game) :
    Game.Reserves g (g.reserveExpectedUsers userId users) := by
  apply List.foldlRecOn _ _ (Game.Reserves.refl g)
  intro g' hg user _
  split
  · exact hg
  · exact hg.trans (Game.reserves_reserve user g')

theorem Routing.createFor (lobby : LobbyId) (gameId address : String)
    {found : GameRef → App → RouteResult}
    (hfound : (app.addGame lobby gameId address).live.lookup app.nextRef =
        some (app.newGame lobby gameId address) →
      Routing app (found app.nextRef (app.addGame lobby gameId address))) :
    Routing app (app.createFor lobby gameId address found) := by
  by_cases hadd : app.MayAdd gameId
  · rw [createFor_of_mayAdd hadd]
    exact (hfound (lookup_addGame lobby gameId address app)).withEffects _
  · obtain ⟨code, message, heq⟩ := createFor_refused hadd lobby address found
    rw [heq]
    exact .kept (by simp)

/-- Every routing request ends so. -/
theorem routing_route (h : PeerHeap) (userId : String) (request : RouteRequest) (app : App) :
    ∃ lobby routing, Routing (app.getLobby lobby) (routing (app.getLobby lobby)) ∧
      app.route h userId request = withLobby lobby routing app := by
  have hseat : ∀ g : Game, Game.Reserves g (g.reserveSeat userId) :=
    fun g => Game.reserves_reserve userId g
  have hjoin : ∀ (users : List String) (g : Game),
      Game.Reserves g ((g.reserveSeat userId).reserveExpectedUsers userId users) :=
    fun users g => (hseat g).trans (reserves_reserveExpectedUsers userId users _)
  cases request with
  | createGame request =>
    simp only [route, routeCreateGame]
    refine ⟨request.lobby, _, ?_, rfl⟩
    generalize app.getLobby request.lobby = app
    generalize (if request.gameId = "" then request.generatedId else request.gameId) = gameId
    split
    · exact .kept (by simp)
    · exact Routing.createFor _ _ _ fun _ =>
        .made _ _ _ fun g => reserves_reserveExpectedUsers userId request.expectedUsers g
  | joinGame request =>
    simp only [route, routeJoinGame]
    refine ⟨request.lobby, _, ?_, rfl⟩
    generalize app.getLobby request.lobby = app
    split
    · split
      · exact .kept (by simp)
      refine Routing.createFor _ _ _ fun hnew => ?_
      by_cases hrejoin : request.joinMode = 3
      · simp only [joinFoundGame, hnew, hrejoin, newGame, if_true]
        exact .dropped _ _ _ (by simp)
      · rw [RouteRequest.joinFoundGame_new hnew rfl hrejoin]
        exact .made _ _ _ (hjoin _)
    · unfold joinFoundGame
      split
      · exact .kept (by simp)
      simp only [Bool.false_eq_true, if_false]
      split
      · exact .kept (by simp)
      split
      · split <;> exact .kept (by simp)
      split
      · exact .kept (by simp)
      · exact .found _ (hjoin _)
  | joinRandomGame request =>
    simp only [route, routeJoinRandomGame]
    refine ⟨request.lobby, _, ?_, rfl⟩
    generalize app.getLobby request.lobby = app
    split
    · exact .found _ hseat
    · split
      · exact .kept (by simp)
      · exact Routing.createFor _ _ _ fun _ => .made _ _ _ hseat

/-- What a request calls a new room has a reference that is new. -/
theorem nextRef_route (h : PeerHeap) (userId : String) (request : RouteRequest) (app : App) :
    app.nextRef ≤ (app.route h userId request).app.nextRef ∧
      ∀ ref, (app.route h userId request).answer = .routed ref true →
        app.nextRef ≤ ref ∧ ref < (app.route h userId request).app.nextRef := by
  obtain ⟨lobby, routing, hrouting, heq⟩ := routing_route h userId request app
  rw [heq]
  simp only [withLobby, nextRef_releaseLobby, ← nextRef_getLobby lobby app]
  generalize routing (app.getLobby lobby) = result at hrouting ⊢
  cases hrouting with
  | kept hnot => simp [hnot]
  | found ref hchange => simp
  | made lobby gameId address hchange => simp
  | dropped lobby gameId address hnot => simp [hnot]

end App

namespace Host

/-- What a step does to the owners if no one is given a room that has an owner: the rooms that are
made have new references, and at most one of them gets an owner. -/
structure Grants (w w' : Host) : Prop where
  le : w.app.nextRef ≤ w'.app.nextRef
  owners : ∃ granted : Option GameRef,
    (∀ ref ∈ granted, w.app.nextRef ≤ ref ∧ ref < w'.app.nextRef) ∧
      ∀ ref, w'.owners.count ref ≤ w.owners.count ref + granted.toList.count ref

variable {w w' : Host} {peer : PeerRef} {connection : Connection} {ref : GameRef}

theorem Grants.of_le (hle : w.app.nextRef ≤ w'.app.nextRef)
    (hcount : ∀ ref, w'.owners.count ref ≤ w.owners.count ref) : Grants w w' :=
  ⟨hle, none, by simp, fun ref => by simpa using hcount ref⟩

theorem count_ownersBut (w : Host) (peer : PeerRef) (ref : GameRef) :
    (w.ownersBut peer).count ref = w.tokens.owners.count ref +
      ((w.connections.erase peer).entries.filterMap fun entry => entry.2.owned).count ref :=
  List.count_append

theorem count_resetOwnedGameIfCreated_le (app : App) (pp : PeerPersistent) (ref : GameRef) :
    (pp.resetOwnedGameIfCreated app).ownedGame.toList.count ref ≤
      pp.ownedGame.toList.count ref := by
  unfold PeerPersistent.resetOwnedGameIfCreated
  split
  · exact Nat.zero_le _
  · exact Nat.le_refl _

/-- An invitation gives the client the room if it is to create it. -/
theorem count_invite_le (info : GameInfo) (ref : GameRef) (isCreating : Bool) (pp : PeerPersistent)
    (ref' : GameRef) : (pp.invite info ref isCreating).ownedGame.toList.count ref' ≤
      pp.ownedGame.toList.count ref' +
        (if isCreating then some ref else none).toList.count ref' := by
  cases isCreating with
  | false => exact Nat.le_add_right _ _
  | true => exact Nat.le_add_left _ _

/-- A record that goes to the store brings what it owns. -/
theorem count_storePersistentPeer_le (pp : PeerPersistent) (w : Host) (ref : GameRef) :
    (w.storePersistentPeer pp).owners.count ref ≤
      w.owners.count ref + if pp.app = none then 0 else pp.ownedGame.toList.count ref := by
  unfold storePersistentPeer
  split
  · exact Nat.le_refl _
  · have hstore := TokenStore.count_storePersistentPeer_le (pp.resetOwnedGameIfCreated w.app)
      w.tokens ref
    have hreset := count_resetOwnedGameIfCreated_le w.app pp ref
    rw [owners_eq, owners_eq, List.count_append, List.count_append]
    simp only
    omega

@[simp] theorem app_storePersistentPeer (pp : PeerPersistent) (w : Host) :
    (w.storePersistentPeer pp).app = w.app := by
  unfold storePersistentPeer
  split <;> rfl

@[simp] theorem app_modify (peer : PeerRef) (change : Connection → Connection) (w : Host) :
    (w.modify peer change).app = w.app := by
  unfold modify
  split <;> rfl

/-- A client's record is where it was, or in the client's hands. -/
theorem credential_frame (credentials : Credentials) (refreshToken : Bool) (w : Host) :
    ∃ persistent tokens,
      w.credential credentials refreshToken = (persistent, { w with tokens }) ∧
      ∀ ref, (persistent.bind (·.ownedGame)).toList.count ref + tokens.owners.count ref =
        w.tokens.owners.count ref := by
  cases credentials with
  | token token fresh =>
    exact ⟨_, _, rfl, TokenStore.count_loadPersistentPeer token _ w.tokens⟩
  | standard userId token => exact ⟨_, w.tokens, rfl, fun ref => Nat.zero_add _⟩

theorem nextRef_getGame (invitation : Option GameInfo) (app : App) :
    app.nextRef ≤ (getGame invitation app).2.nextRef := by
  cases invitation with
  | none => exact Nat.le_refl _
  | some info =>
    simp only [getGame, App.nextRef_releaseLobby]
    rcases App.createGame_cases (info.lobbyName, info.lobbyType) info.id info.serverAddress true
      (app.getLobby (info.lobbyName, info.lobbyType)) with heq | ⟨-, heq⟩ <;> simp [heq]

/-- A record leaves the store, and its client has no more of it than it was. -/
theorem Grants.of_credential (h : w.connections.lookup peer = some connection)
    (hnone : connection.persistent = none) {tokens : TokenStore} {app : App}
    {change : Connection → Connection} (hle : w.app.nextRef ≤ app.nextRef)
    (hcount : ∀ ref, (change connection).owned.toList.count ref + tokens.owners.count ref ≤
      w.tokens.owners.count ref) :
    Grants w ({ w with app, tokens }.modify peer change) := by
  have howned : connection.owned = none := by rw [Connection.owned, hnone, Option.bind_none]
  refine Grants.of_le (by rwa [app_modify]) fun ref => ?_
  have hother : ({ w with app, tokens } : Host).connections.lookup peer = some connection := h
  rw [count_owners_modify hother, count_owners h, howned, count_ownersBut, count_ownersBut]
  have := hcount ref
  simp only [Option.toList_none, List.count_nil]
  omega

/-- A client that authenticates takes its record from the store. -/
theorem grants_authenticate (peer : PeerRef) (credentials : Credentials) (w : Host) :
    Grants w (w.authenticate peer credentials) := by
  have hrefl : Grants w w := Grants.of_le (Nat.le_refl _) fun _ => Nat.le_refl _
  unfold authenticate
  split
  · exact hrefl
  next connection hlookup =>
  split
  · exact hrefl
  next hsome =>
  have hnone : connection.persistent = none := by simpa using hsome
  split
  · next hhandler =>
    obtain ⟨persistent, tokens, hframe, hcount⟩ := credential_frame credentials true w
    rw [hframe]
    exact Grants.of_credential hlookup hnone (Nat.le_refl _) fun ref => (hcount ref).le
  · next hhandler =>
    obtain ⟨persistent, tokens, hframe, hcount⟩ := credential_frame credentials true w
    rw [hframe]
    refine Grants.of_credential hlookup hnone (Nat.le_refl _) fun ref => ?_
    have hreset : ((persistent.map PeerPersistent.resetGame).bind (·.ownedGame)) = none := by
      cases persistent <;> rfl
    have := hcount ref
    simp only [Connection.owned, hreset, Option.toList_none, List.count_nil]
    omega
  · obtain ⟨persistent, tokens, hframe, hcount⟩ := credential_frame credentials false w
    rw [hframe]
    cases persistent with
    | none =>
      refine Grants.of_le (Nat.le_refl _) fun ref => ?_
      have := hcount ref
      simp only [owners_eq, List.count_append]
      omega
    | some pp =>
      have hle := nextRef_getGame pp.invitation w.app
      simp only
      generalize getGame pp.invitation w.app = game at hle
      obtain ⟨ref, app⟩ := game
      cases ref with
      | none =>
        refine Grants.of_credential hlookup hnone hle fun ref => ?_
        have := hcount ref
        simp only [Connection.owned, Option.bind_some, PeerPersistent.resetGame,
          Option.toList_none, List.count_nil]
        omega
      | some ref =>
        refine Grants.of_credential hlookup hnone hle fun ref => ?_
        have hfound := hcount ref
        have hreset := count_resetOwnedGameIfCreated_le app pp ref
        simp only [Connection.owned, Option.bind_some] at hfound ⊢
        omega

/-- A client that is routed owns the room that has been made for it. -/
theorem grants_route (peer : PeerRef) (request : RouteRequest) (w : Host) :
    Grants w (w.route peer request) := by
  unfold route
  split
  next pendingJoin pp hlookup =>
    obtain ⟨hle, hnew⟩ := App.nextRef_route w.heap pp.userId request w.app
    simp only
    generalize w.app.route w.heap pp.userId request = result at hle hnew
    obtain ⟨answer, app⟩ := result
    have hother : ({ w with app } : Host).connections.lookup peer = some _ := hlookup
    have hbut : ({ w with app } : Host).ownersBut peer = w.ownersBut peer := rfl
    cases answer with
    | refused code message => exact Grants.of_le hle fun _ => Nat.le_refl _
    | pending =>
      simp only
      split
      · refine Grants.of_le (by rw [app_modify]; exact hle) fun ref => ?_
        rw [count_owners_modify hother, count_owners hlookup, hbut]
        rfl
      · exact Grants.of_le hle fun _ => Nat.le_refl _
    | routed ref isNew =>
      simp only
      cases hg : app.live.lookup ref with
      | none => exact Grants.of_le hle fun _ => Nat.le_refl _
      | some g =>
        simp only
        refine ⟨by simpa using hle, if isNew then some ref else none, ?_, fun ref' => ?_⟩
        · intro ref' hmem
          split at hmem
          · next hisNew =>
            obtain rfl : ref = ref' := by simpa using hmem
            simpa using hnew ref (by simp [hisNew])
          · cases hmem
        · have hstore := count_storePersistentPeer_le (pp.invite g.info ref isNew)
            (({ w with app } : Host).modify peer fun connection =>
              { connection with
                persistent := if pp.app = none then some (pp.invite g.info ref isNew) else none })
            ref'
          have hinvite := count_invite_le g.info ref isNew pp ref'
          rw [count_owners_modify hother, hbut] at hstore
          rw [count_owners hlookup]
          -- The record is at the connection or in the store, but not in both.
          by_cases happ : pp.app = none
          · simp only [Connection.owned, PeerPersistent.invite_app, happ, if_true,
              Option.bind_some] at hstore ⊢
            omega
          · simp only [Connection.owned, PeerPersistent.invite_app, happ, if_false,
              Option.bind_none, Option.bind_some, Option.toList_none, List.count_nil] at hstore ⊢
            omega
  · exact Grants.of_le (Nat.le_refl _) fun _ => Nat.le_refl _

/-- The room that an unsolicited request goes to is new, or one that the app has. -/
theorem unsolicitedGame_cases (call : EnterCall) (app : App) :
    (∃ ref, app.games.lookup call.gameId = some ref ∧
      unsolicitedGame call app = (app.lock ref, app)) ∨
    app.games.lookup call.gameId = none ∧
      app.nextRef ≤ (unsolicitedGame call app).2.nextRef ∧
      ∀ ref, (unsolicitedGame call app).1 = some ref →
        app.nextRef ≤ ref ∧ ref < (unsolicitedGame call app).2.nextRef := by
  unfold unsolicitedGame
  cases hgames : app.games.lookup call.gameId with
  | some ref => exact Or.inl ⟨ref, rfl, rfl⟩
  | none =>
    right
    refine ⟨rfl, ?_⟩
    simp only
    split
    · obtain ⟨_, hget⟩ := App.getLobby_frame ("", 0) app
      have hnone : (app.getLobby ("", 0)).games.lookup call.gameId = none := by
        rw [hget]
        exact hgames
      simp only [App.nextRef_releaseLobby, App.createGame, hnone]
      split
      · simp [Except.toOption]
      split
      · simp [Except.toOption]
      · simp [Except.toOption]
    · simp

/-- An unsolicited `CreateGame` that finds the room makes its client the owner. -/
theorem count_unsolicited_found {pendingJoin : Option GameRef} {pp : PeerPersistent}
    {call : EnterCall}
    (h : w.connections.lookup peer = some ⟨.gameServer true none pendingJoin, some pp⟩)
    (hcreate : call.operation = .createGame) (hgames : w.app.games.lookup call.gameId = some ref)
    (hlive : ref ∈ w.app.live) :
    (w.unsolicited peer call).app = w.app ∧
      ∀ ref', (w.unsolicited peer call).owners.count ref' =
        [ref].count ref' + (w.ownersBut peer).count ref' := by
  obtain ⟨g, hg⟩ := AList.mem_iff_lookup.mp hlive
  have hgame : unsolicitedGame call w.app = (some ref, w.app) := by
    simp only [unsolicitedGame, hgames, App.lock, if_pos hlive]
  simp only [unsolicited, h, hgame, hg, app_modify, true_and]
  intro ref'
  rw [count_owners_modify h]
  simp [Connection.owned, PeerPersistent.invite, hcreate]

/-- Every other unsolicited request gives no one a room that has an owner. -/
theorem grants_unsolicited (call : EnterCall)
    (hnot : ∀ pendingJoin pp,
      w.connections.lookup peer = some ⟨.gameServer true none pendingJoin, some pp⟩ →
      call.operation = .createGame → ∀ ref, w.app.games.lookup call.gameId = some ref →
      ref ∉ w.app.live) :
    Grants w (w.unsolicited peer call) := by
  unfold unsolicited
  split
  next pendingJoin pp hlookup =>
    have hcases := unsolicitedGame_cases call w.app
    have hfound : ∀ ref, w.app.games.lookup call.gameId = some ref → ref ∈ w.app.live →
        call.operation ≠ .createGame :=
      fun ref hgames hlive hcreate => hnot pendingJoin pp hlookup hcreate ref hgames hlive
    generalize unsolicitedGame call w.app = found at hcases
    obtain ⟨game, app⟩ := found
    have hle : w.app.nextRef ≤ app.nextRef := by
      rcases hcases with ⟨ref, -, heq⟩ | ⟨-, hle, -⟩
      · exact (congrArg (fun found => found.2.nextRef) heq).ge
      · exact hle
    cases game with
    | none => exact Grants.of_le hle fun _ => Nat.le_refl _
    | some ref =>
      simp only
      cases hg : app.live.lookup ref with
      | none => exact Grants.of_le hle fun _ => Nat.le_refl _
      | some g =>
        simp only
        have hother : ({ w with app } : Host).connections.lookup peer = some _ := hlookup
        have hbut : ({ w with app } : Host).ownersBut peer = w.ownersBut peer := rfl
        refine ⟨by rwa [app_modify],
          if call.operation == .createGame then some ref else none, ?_, fun ref' => ?_⟩
        · intro ref' hmem
          split at hmem
          · next hcreate =>
            obtain rfl : ref = ref' := by simpa using hmem
            rw [app_modify]
            rcases hcases with ⟨weak, hgames, heq⟩ | ⟨-, -, hnew⟩
            · obtain ⟨hlock, rfl⟩ := Prod.mk.inj heq
              unfold App.lock at hlock
              split at hlock
              · next hlive =>
                obtain rfl := Option.some.inj hlock
                exact absurd (beq_iff_eq.mp hcreate) (hfound ref hgames hlive)
              · cases hlock
            · exact hnew ref rfl
          · cases hmem
        · have hinvite := count_invite_le g.info ref (call.operation == .createGame) pp ref'
          rw [count_owners_modify hother, count_owners hlookup, hbut]
          simp only [Connection.owned, Option.bind_some]
          omega
  · exact Grants.of_le (Nat.le_refl _) fun _ => Nat.le_refl _

/-- Every operation but those two gives no one a room that has an owner. -/
theorem grants_perform {op : HostOp} (hunsolicited : ∀ peer call, op = .unsolicited peer call →
      ∀ pendingJoin pp,
        w.connections.lookup peer = some ⟨.gameServer true none pendingJoin, some pp⟩ →
        call.operation = .createGame → ∀ ref, w.app.games.lookup call.gameId = some ref →
        ref ∉ w.app.live) :
    Grants w (w.perform op) := by
  have hrefl : Grants w w := Grants.of_le (Nat.le_refl _) fun _ => Nat.le_refl _
  have hmodify : ∀ peer (change : Connection → Connection),
      (∀ connection, (change connection).persistent = connection.persistent) →
      Grants w (w.modify peer change) := by
    intro peer change hchange
    refine Grants.of_le (by rw [app_modify]) fun ref => ?_
    cases hlookup : w.connections.lookup peer with
    | none => simp only [modify, hlookup, Nat.le_refl]
    | some connection =>
      rw [count_owners_modify hlookup, count_owners hlookup, Connection.owned, hchange]
      exact Nat.le_refl _
  cases op with
  | tick ms => exact Grants.of_le (Nat.le_refl _) fun _ => Nat.le_refl _
  | runScheduledTask task =>
    simp only [perform]
    split
    · exact Grants.of_le (by simp) fun _ => Nat.le_refl _
    · exact hrefl
  | expireRecord task =>
    refine Grants.of_le (Nat.le_refl _) fun ref => ?_
    have := TokenStore.count_expire_le task w.tokens ref
    simp only [perform, owners_eq, List.count_append]
    omega
  | connect handler =>
    refine Grants.of_le (Nat.le_refl _) fun ref => ?_
    have herase := List.kerase_sublist w.nextPeer w.connections.entries
    have := (herase.filterMap fun entry => entry.2.owned).count_le ref
    simp only [perform, owners_eq, List.count_append, AList.insert, List.kinsert_def,
      List.filterMap_cons, Connection.owned, Option.bind_none]
    simp only [Connection.owned] at this
    omega
  | authenticate peer credentials => exact grants_authenticate peer credentials w
  | route peer request => exact grants_route peer request w
  | unsolicited peer call => exact grants_unsolicited call (hunsolicited peer call rfl)
  | room ref op =>
    simp only [perform, onRoom]
    split
    · exact hrefl
    · split
      · exact Grants.of_le (Nat.le_refl _) fun _ => Nat.le_refl _
      · exact hrefl
  | retainJoin peer => exact hmodify peer _ fun connection => by split <;> rfl
  | releaseJoin peer => exact hmodify peer _ fun connection => by split <;> rfl
  | handleDisconnect peer => exact hmodify peer _ fun _ => rfl
  | close peer =>
    simp only [perform]
    split
    · exact hrefl
    next connection hlookup =>
    have howners : ({ w with connections := w.connections.erase peer } : Host).owners =
        w.ownersBut peer := owners_eq _
    split
    · next hnone =>
      refine Grants.of_le (Nat.le_refl _) fun ref => ?_
      rw [howners, count_owners hlookup]
      omega
    · next pp hpp =>
      refine Grants.of_le (by simp) fun ref => ?_
      have hstore := count_storePersistentPeer_le pp
        { w with connections := w.connections.erase peer } ref
      rw [howners] at hstore
      rw [count_owners hlookup, Connection.owned, hpp, Option.bind_some]
      split at hstore <;> omega
  | resetOwnership ref =>
    refine Grants.of_le (Nat.le_refl _) fun ref' => ?_
    simp only [perform, owners_eq, TokenStore.owners, List.count_append,
      TokenStore.count_resetFirstOwner]
    omega

/-- What holds of the owners in every state of a run that has kept one owner so far. -/
structure Owned (w : Host) : Prop where
  one : w.OneOwner
  older : ∀ ref ∈ w.owners, ref < w.app.nextRef
  numbered : w.app.Numbered

theorem numbered_createGame {app : App} (hn : app.Numbered) (lobby : LobbyId)
    (id address : String) (orGet : Bool) :
    (((app.getLobby lobby).createGame lobby id address orGet).2.1.releaseLobby lobby).Numbered := by
  have hget := (App.KeepsSeats.getLobby hn lobby).numbered
  refine (App.KeepsSeats.releaseLobby ?_ lobby).numbered
  rcases App.createGame_cases lobby id address orGet (app.getLobby lobby) with heq | ⟨-, heq⟩
  · rw [heq]
    exact hget
  · rw [heq]
    exact (App.KeepsSeats.addGame hget lobby id address).numbered

theorem numbered_getGame {app : App} (hn : app.Numbered) (invitation : Option GameInfo) :
    (getGame invitation app).2.Numbered := by
  cases invitation with
  | none => exact hn
  | some info => exact numbered_createGame hn _ _ _ _

theorem numbered_unsolicitedGame {app : App} (hn : app.Numbered) (call : EnterCall) :
    (unsolicitedGame call app).2.Numbered := by
  unfold unsolicitedGame
  split
  · exact hn
  split
  · exact numbered_createGame hn _ _ _ _
  · exact hn

/-- Of the rooms, a client that authenticates makes at most the one that it is invited to. -/
theorem app_authenticate (peer : PeerRef) (credentials : Credentials) (w : Host) :
    ∃ invitation, (w.authenticate peer credentials).app = (getGame invitation w.app).2 := by
  unfold authenticate
  split
  · exact ⟨none, rfl⟩
  split
  · exact ⟨none, rfl⟩
  have hframe : ∀ refreshToken, (w.credential credentials refreshToken).2.app = w.app := by
    intro refreshToken
    obtain ⟨_, _, hframe, -⟩ := credential_frame credentials refreshToken w
    rw [hframe]
  split
  · exact ⟨none, (app_modify _ _ _).trans (hframe true)⟩
  · exact ⟨none, (app_modify _ _ _).trans (hframe true)⟩
  · have happ := hframe false
    generalize w.credential credentials false = found at happ
    obtain ⟨persistent, w'⟩ := found
    simp only at happ
    cases persistent with
    | none => exact ⟨none, happ⟩
    | some pp =>
      refine ⟨pp.invitation, ?_⟩
      simp only [happ]
      generalize getGame pp.invitation w.app = game
      obtain ⟨ref, app⟩ := game
      cases ref with
      | none => exact app_modify _ _ _
      | some ref => exact app_modify _ _ _

theorem app_route (peer : PeerRef) (request : RouteRequest) (w : Host) :
    (w.route peer request).app = w.app ∨
      ∃ userId, (w.route peer request).app = (w.app.route w.heap userId request).app := by
  unfold route
  split
  next pendingJoin pp hlookup =>
    refine Or.inr ⟨pp.userId, ?_⟩
    generalize w.app.route w.heap pp.userId request = result
    obtain ⟨answer, app⟩ := result
    cases answer with
    | refused code message => rfl
    | pending =>
      simp only
      split
      · exact app_modify _ _ _
      · rfl
    | routed ref isNew =>
      simp only
      split
      · rfl
      · rw [app_storePersistentPeer, app_modify]
  · exact Or.inl rfl

theorem app_unsolicited (peer : PeerRef) (call : EnterCall) (w : Host) :
    (w.unsolicited peer call).app = w.app ∨
      (w.unsolicited peer call).app = (unsolicitedGame call w.app).2 := by
  unfold unsolicited
  split
  next pendingJoin pp hlookup =>
    right
    generalize unsolicitedGame call w.app = found
    obtain ⟨ref, app⟩ := found
    cases ref with
    | none => rfl
    | some ref =>
      simp only
      split
      · rfl
      · exact app_modify _ _ _
  · exact Or.inl rfl

theorem numbered_perform (hn : w.app.Numbered) (op : HostOp) : (w.perform op).app.Numbered := by
  cases op with
  | tick ms => exact hn
  | runScheduledTask task =>
    simp only [perform]
    split
    · simp only [App.modifyGame]
      split
      · exact hn
      · next g hg => exact (App.KeepsSeats.insert hn hg fun _ hu => hu).numbered
    · exact hn
  | expireRecord task => exact hn
  | connect handler => exact hn
  | authenticate peer credentials =>
    obtain ⟨invitation, happ⟩ := app_authenticate peer credentials w
    show (w.authenticate peer credentials).app.Numbered
    rw [happ]
    exact numbered_getGame hn invitation
  | route peer request =>
    show (w.route peer request).app.Numbered
    rcases app_route peer request w with happ | ⟨userId, happ⟩
    · rwa [happ]
    · rw [happ]
      exact (App.holds_route w.heap userId request hn).keeps.numbered
  | unsolicited peer call =>
    show (w.unsolicited peer call).app.Numbered
    rcases app_unsolicited peer call w with happ | happ
    · rwa [happ]
    · rw [happ]
      exact numbered_unsolicitedGame hn call
  | room ref op =>
    simp only [perform, onRoom]
    split
    · exact hn
    · next g hg =>
      split
      · intro other hmem
        rcases (AList.mem_insert _).mp hmem with rfl | hold
        · exact hn _ (AList.mem_iff_lookup.mpr ⟨g, hg⟩)
        · exact hn other hold
      · exact hn
  | retainJoin peer => simpa only [perform, app_modify] using hn
  | releaseJoin peer => simpa only [perform, app_modify] using hn
  | handleDisconnect peer => simpa only [perform, app_modify] using hn
  | close peer =>
    simp only [perform]
    split
    · exact hn
    · split
      · exact hn
      · rwa [app_storePersistentPeer]
  | resetOwnership ref => exact hn

theorem numbered_collect (hn : w.app.Numbered) : w.collect.app.Numbered := by
  refine collect_induction hn fun app ref happ other hmem => ?_
  cases hg : app.live.lookup ref with
  | none =>
    simp only [App.dropGame, hg] at hmem ⊢
    exact happ other hmem
  | some g =>
    obtain ⟨⟨_, hframe⟩, -, -⟩ := App.dropGame_spec hg
    rw [hframe] at hmem ⊢
    exact happ other (AList.mem_erase.mp hmem).2

theorem nextRef_collect (w : Host) : w.collect.app.nextRef = w.app.nextRef :=
  collect_induction (P := fun app => app.nextRef = w.app.nextRef) rfl fun _ _ happ => by
    rwa [App.nextRef_dropGame]

theorem owners_step (w : Host) (op : HostOp) : (w.step op).owners = (w.collect.perform op).owners :=
  rfl

theorem app_step (w : Host) (op : HostOp) : (w.step op).app = (w.collect.perform op).app := rfl

theorem oneOwner_iff : w.OneOwner ↔ ∀ ref, w.owners.count ref ≤ 1 := List.nodup_iff_count_le_one

theorem Owned.collect (hw : w.Owned) : w.collect.Owned where
  one := hw.one
  older := by
    rw [nextRef_collect]
    exact hw.older
  numbered := numbered_collect hw.numbered

/-- A step that gives no one a room that has an owner keeps the owners apart. -/
theorem Owned.grants (hw : w.Owned) (hgrants : Grants w w') (hn : w'.app.Numbered) :
    w'.Owned := by
  obtain ⟨hle, granted, hnew, hcount⟩ := hgrants
  have hold : ∀ ref, w.app.nextRef ≤ ref → w.owners.count ref = 0 := by
    intro ref hge
    exact List.count_eq_zero.mpr fun hmem => Nat.not_lt.mpr hge (hw.older ref hmem)
  have hgranted : ∀ ref, granted.toList.count ref = if granted = some ref then 1 else 0 := by
    intro ref
    cases granted <;> simp [List.count_cons]
  refine ⟨oneOwner_iff.mpr fun ref => ?_, fun ref hmem => ?_, hn⟩
  · have hone := oneOwner_iff.mp hw.one ref
    have hthis := hcount ref
    rw [hgranted] at hthis
    split at hthis
    · next hsome =>
      have := hold ref (hnew ref hsome).1
      omega
    · omega
  · have hpos := List.count_pos_iff.mpr hmem
    have hthis := hcount ref
    rw [hgranted] at hthis
    split at hthis
    · next hsome => exact (hnew ref hsome).2
    · exact Nat.lt_of_lt_of_le (hw.older ref (List.count_pos_iff.mp (by omega))) hle

/-- An unsolicited `CreateGame` that finds its room keeps the owners apart if no other client owns
the room. -/
theorem oneOwner_unsolicited_found (hw : w.Owned) {pendingJoin : Option GameRef}
    {pp : PeerPersistent} {call : EnterCall}
    (h : w.connections.lookup peer = some ⟨.gameServer true none pendingJoin, some pp⟩)
    (hcreate : call.operation = .createGame) (hgames : w.app.games.lookup call.gameId = some ref)
    (hlive : ref ∈ w.app.live) :
    (w.unsolicited peer call).OneOwner ↔ ref ∉ w.ownersBut peer := by
  obtain ⟨-, hcount⟩ := count_unsolicited_found h hcreate hgames hlive
  have hbut : ∀ ref', (w.ownersBut peer).count ref' ≤ 1 := by
    intro ref'
    have hone := oneOwner_iff.mp hw.one ref'
    rw [count_owners h] at hone
    omega
  constructor
  · intro hone hmem
    have hthis := oneOwner_iff.mp hone ref
    have hpos := List.count_pos_iff.mpr hmem
    rw [hcount, List.count_singleton_self] at hthis
    omega
  · intro hnot
    refine oneOwner_iff.mpr fun ref' => ?_
    rw [hcount, List.count_singleton]
    have := hbut ref'
    split
    · next hsame =>
      obtain rfl := beq_iff_eq.mp hsame
      rw [List.count_eq_zero.mpr hnot]
    · omega

/-- After a reset no stored record owns the room. -/
theorem mem_owners_reset (hw : w.Owned) (ref : GameRef) :
    ref ∈ (w.perform (.resetOwnership ref)).owners ↔
      ∃ peer connection, w.connections.lookup peer = some connection ∧
        connection.owned = some ref := by
  have hstored : ref ∉ (resetFirstOwner ref w.tokens.stored).filterMap (·.ownedGame) := by
    refine List.count_eq_zero.mp ?_
    have hone := oneOwner_iff.mp hw.one ref
    rw [owners_eq, List.count_append, TokenStore.owners] at hone
    rw [TokenStore.count_resetFirstOwner, if_pos rfl]
    omega
  simp only [perform, owners_eq, TokenStore.owners, List.mem_append, hstored, false_or,
    List.mem_filterMap]
  constructor
  · rintro ⟨⟨peer, connection⟩, hmem, howned⟩
    exact ⟨peer, connection, AList.mem_entries_iff.mp hmem, howned⟩
  · rintro ⟨peer, connection, hlookup, howned⟩
    exact ⟨⟨peer, connection⟩, AList.mem_entries_iff.mpr hlookup, howned⟩

/-- A step keeps one owner exactly if it is not contested. -/
theorem keepsOneOwner_iff (hw : w.Owned) (op : HostOp) :
    w.KeepsOneOwner op ↔ w.Uncontested op := by
  have hgrants : ∀ op, Grants w.collect (w.collect.perform op) → (w.step op).OneOwner :=
    fun op hgrants => (hw.collect.grants hgrants (numbered_perform hw.collect.numbered op)).one
  have hother : ∀ op, (∀ peer call, op ≠ .unsolicited peer call) → (w.step op).OneOwner :=
    fun op hnot => hgrants op (grants_perform fun peer call heq => absurd heq (hnot peer call))
  cases op with
  | unsolicited peer call =>
    have honly : w.KeepsOneOwner (.unsolicited peer call) ↔
        (w.step (.unsolicited peer call)).OneOwner := and_iff_left trivial
    rw [honly]
    constructor
    · intro hone pendingJoin pp hlookup hcreate ref hgames hlive
      exact (oneOwner_unsolicited_found hw.collect hlookup hcreate hgames hlive).mp hone
    · intro huncontested
      by_cases hfound : ∃ pendingJoin pp ref,
          w.connections.lookup peer = some ⟨.gameServer true none pendingJoin, some pp⟩ ∧
            call.operation = .createGame ∧ w.collect.app.games.lookup call.gameId = some ref ∧
            ref ∈ w.collect.app.live
      · obtain ⟨pendingJoin, pp, ref, hlookup, hcreate, hgames, hlive⟩ := hfound
        exact (oneOwner_unsolicited_found hw.collect hlookup hcreate hgames hlive).mpr
          (huncontested pendingJoin pp hlookup hcreate ref hgames hlive)
      · refine hgrants _ (grants_unsolicited call ?_)
        intro pendingJoin pp hlookup hcreate ref hgames hlive
        exact hfound ⟨pendingJoin, pp, ref, hlookup, hcreate, hgames, hlive⟩
  | resetOwnership ref =>
    have hreset : ref ∈ (w.step (.resetOwnership ref)).owners ↔ _ :=
      mem_owners_reset hw.collect ref
    rw [KeepsOneOwner, and_iff_right (hother _ (by simp))]
    simp only [hreset, Uncontested, not_exists, not_and]
    exact Iff.rfl
  | _ => exact iff_of_true ⟨hother _ (by simp), trivial⟩ trivial

/-- The owners of a step that has kept them apart have rooms that were made before. -/
theorem Owned.step (hw : w.Owned) {op : HostOp} (hone : (w.step op).OneOwner) :
    (w.step op).Owned := by
  have hn := numbered_perform hw.collect.numbered op
  refine ⟨hone, ?_, hn⟩
  by_cases hfound : ∃ peer call pendingJoin pp ref, op = .unsolicited peer call ∧
      w.connections.lookup peer = some ⟨.gameServer true none pendingJoin, some pp⟩ ∧
        call.operation = .createGame ∧ w.collect.app.games.lookup call.gameId = some ref ∧
        ref ∈ w.collect.app.live
  · obtain ⟨peer, call, pendingJoin, pp, ref, rfl, hlookup, hcreate, hgames, hlive⟩ := hfound
    obtain ⟨happ, hcount⟩ := count_unsolicited_found (w := w.collect) hlookup hcreate hgames hlive
    intro ref' hmem
    have hpos := List.count_pos_iff.mpr hmem
    have hold := count_owners (w := w.collect) hlookup ref'
    rw [owners_step, perform, hcount] at hpos
    rw [app_step, perform, happ]
    by_cases hsame : ref' = ref
    · rw [hsame]
      exact hw.collect.numbered ref hlive
    · refine hw.collect.older ref' (List.count_pos_iff.mp ?_)
      simp only [List.count_singleton, beq_iff_eq, Ne.symm hsame, if_false] at hpos
      omega
  · have hgrants : Grants w.collect (w.collect.perform op) := by
      refine grants_perform fun peer call heq pendingJoin pp hlookup hcreate ref hgames hlive => ?_
      exact hfound ⟨peer, call, pendingJoin, pp, ref, heq, hlookup, hcreate, hgames, hlive⟩
    exact (hw.collect.grants hgrants hn).older

theorem owned_of_isFresh (hw : w.IsFresh) : w.Owned := by
  obtain ⟨⟨-, -, hlive⟩, hstored, hconnections, -⟩ := hw
  have howners : w.owners = [] := by
    rw [owners_eq, TokenStore.owners, hstored, hconnections]
    rfl
  refine ⟨?_, by simp [howners], fun ref hmem => ?_⟩
  · rw [OneOwner, howners]
    exact List.nodup_nil
  · rw [hlive] at hmem
    exact absurd hmem (AList.notMem_empty ref)

/-- A run keeps one owner for each room, and every reset releases its room, if and only if no step
of it is contested. -/
theorem keepsOneOwner_run_iff (hfresh : w.IsFresh) (ops : List HostOp) :
    Transition.EachStep step KeepsOneOwner w ops ↔ Transition.EachStep step Uncontested w ops :=
  Transition.eachStep_iff_of_keeps (fun _ _ hw hkeeps => hw.step hkeeps.1)
    (fun _ op hw => keepsOneOwner_iff hw op) (owned_of_isFresh hfresh)

/-- Ada is sent to a room that she is to create, and Bob creates it without an invitation. -/
theorem not_keepsOneOwner :
    ¬Transition.EachStep step KeepsOneOwner start
      [.connect .masterServer, .authenticate 0 (.standard "ada" "a"),
        .route 0 (.createGame { lobby := ("lobby", 0), gameId := "room" }),
        .connect (.gameServer true), .authenticate 1 (.standard "bob" "b"),
        .unsolicited 1 { operation := .createGame, gameId := "room" }] := by
  decide +kernel

/-- Ada goes to the room herself. -/
theorem keepsOneOwner_invited :
    Transition.EachStep step KeepsOneOwner start
      [.connect .masterServer, .authenticate 0 (.standard "ada" "a"),
        .route 0 (.createGame { lobby := ("lobby", 0), gameId := "room" }),
        .connect (.gameServer false), .authenticate 1 (.token "a" "b")] :=
  (keepsOneOwner_run_iff ⟨⟨rfl, rfl, rfl⟩, rfl, rfl, rfl, fun _ => rfl, rfl⟩ _).mpr
    ⟨trivial, trivial, trivial, trivial, trivial, trivial⟩

end Host

end LuxonServer
