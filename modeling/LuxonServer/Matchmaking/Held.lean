import LuxonServer.Convergence
import LuxonServer.Matchmaking.Agreement

/-! The seats that a MasterServer holds in rooms of other processes, while it receives the updates
of these rooms. -/

namespace LuxonServer

open Game

namespace App

/-- No room has a reference that is still to come. -/
def Numbered (app : App) : Prop := ∀ ref ∈ app.live, ref < app.nextRef

/-- Rooms that are there stay, and lose no seat. -/
structure KeepsSeats (app app' : App) : Prop where
  numbered : app'.Numbered
  seats : ∀ ref g, app.live.lookup ref = some g →
    ∃ g', app'.live.lookup ref = some g' ∧ ∀ u ∈ g.expectedUsers, u ∈ g'.expectedUsers

end App

/-- The users whom a request wants seats for. -/
def RouteRequest.seats (userId : String) : RouteRequest → List String
  | .createGame request => request.expectedUsers.filter fun u => u ≠ userId
  | .joinGame request => userId :: request.expectedUsers
  | .joinRandomGame _ => [userId]

/-- A process with a MasterServer.  `held` are the reservations that its routing requests have made,
and that have not ended. -/
structure HeldWorld where
  heap : PeerHeap
  process : Process
  held : List (GameRef × String) := []

/-- What can happen in the process, and to the users whom it holds seats for. -/
inductive HeldOp where
  | connection (peer : PeerRef) (slot : PeerSlot)
  /-- A client of the MasterServer asks for a room. -/
  | route (client : PeerRef) (request : RouteRequest)
  /-- A `GameUpdate` arrives. -/
  | gameUpdate (message : GameUpdate)
  /-- A task of a room runs. -/
  | runScheduledTask (ref : GameRef) (task : ScheduledTask)
  /-- A reservation is released. -/
  | release (ref : GameRef) (userId : String) (generation : Nat)
  /-- A user joins a room, in the process of the room. -/
  | join (ref : GameRef) (userId : String)
  /-- The last pointer to a room is dropped. -/
  | dropGame (ref : GameRef)

namespace HeldWorld

/-- The reservation of a user that is in force. -/
def inForce (ref : GameRef) (userId : String) (w : HeldWorld) : Option Nat :=
  (w.process.app.live.lookup ref).bind fun g => g.expectedUserGenerations.lookup userId

/-- The user of a room whose reservation an operation ends. -/
def ends (w : HeldWorld) : HeldOp → Option (GameRef × String)
  | .runScheduledTask ref (.expireReservation ttlMs userId generation) =>
    if (w.process.app.live.lookup ref).any
          (fun g => .expireReservation ttlMs userId generation ∈ g.scheduled) ∧
        w.inForce ref userId = some generation then
      some (ref, userId)
    else none
  | .release ref userId generation =>
    if w.inForce ref userId = some generation then some (ref, userId) else none
  | .join ref userId => some (ref, userId)
  | _ => none

/-- The reservations that a request has made, in a process with the rooms `app` before it. -/
def reserved (app : App) (userId : String) (request : RouteRequest) :
    RouteAnswer → List (GameRef × String)
  | .routed ref _ =>
    ((request.seats userId).filter fun u =>
      u ≠ "" && !(app.live.lookup ref).any (hasExpectedUser u)).map fun u => (ref, u)
  | _ => []

/-- A client is routed; its persistent part goes to the store with it. -/
def route (client : PeerRef) (request : RouteRequest) (w : HeldWorld) : HeldWorld :=
  match w.heap.userId (some client) with
  | none => w
  | some userId =>
    let ⟨answer, app, _⟩ := w.process.app.route w.heap userId request
    { heap :=
        match answer with
        | .routed .. => Function.update w.heap client (.live { persistent := none })
        | _ => w.heap
      process := { w.process with app }
      held := w.held ++ reserved w.process.app userId request answer }

/-- A change of one room. -/
def modifyGame (ref : GameRef) (change : Game → Game) (w : HeldWorld) : HeldWorld :=
  { w with process := { w.process with app := w.process.app.modifyGame ref change } }

/-- What an operation does to the process. -/
def perform (w : HeldWorld) : HeldOp → HeldWorld
  | .connection peer slot => { w with heap := Function.update w.heap peer slot }
  | .route client request => w.route client request
  | .gameUpdate message => { w with process := (w.process.processGameUpdate message).1 }
  | .runScheduledTask ref task => w.modifyGame ref (Game.runScheduledTask task)
  | .release ref userId generation =>
    w.modifyGame ref fun g => (g.removeExpectedUserIfGeneration userId generation).2
  | .join _ _ => w
  | .dropGame ref =>
    { w with
      process := { w.process with app := (w.process.app.dropGame ref).1 }
      held := w.held.filter fun entry => entry.1 ≠ ref }

/-- A step of the process. -/
def step (w : HeldWorld) (op : HeldOp) : HeldWorld :=
  let w' := w.perform op
  { w' with held := w'.held.filter fun entry => some entry ≠ w.ends op }

/-- A process without rooms. -/
def IsFresh (w : HeldWorld) : Prop :=
  w.process.app.IsEmpty ∧ w.process.externalGames = [] ∧ w.held = []

/-- Every reservation that has not ended is in its room's set of expected users. -/
def Kept (w : HeldWorld) : Prop :=
  ∀ entry ∈ w.held, (w.process.app.live.lookup entry.1).any (hasExpectedUser entry.2) = true

instance (w : HeldWorld) : Decidable w.Kept := inferInstanceAs (Decidable (∀ _ ∈ _, _))

/-- A message does not apply to a room with a user whose seat is held there, unless its own list
has the user. -/
def Spares (w : HeldWorld) : HeldOp → Prop
  | .gameUpdate message =>
    ∀ found ∈ (w.process.findGame message).1,
      ∀ g ∈ (w.process.findGame message).2.1.app.live.lookup found.1,
        g.acceptsUpdate found.2 message = true →
        ∀ users ∈ message.expectedUsers, ∀ entry ∈ w.held, entry.1 = found.1 → entry.2 ∈ users
  | _ => True

end HeldWorld

namespace App

variable {app app' app'' : App}

namespace KeepsSeats

theorem refl (hn : app.Numbered) : KeepsSeats app app :=
  ⟨hn, fun _ g hg => ⟨g, hg, fun _ hu => hu⟩⟩

theorem trans (h : KeepsSeats app app') (h' : KeepsSeats app' app'') : KeepsSeats app app'' := by
  refine ⟨h'.numbered, fun ref g hg => ?_⟩
  obtain ⟨g', hg', hseats⟩ := h.seats ref g hg
  obtain ⟨g'', hg'', hseats'⟩ := h'.seats ref g' hg'
  exact ⟨g'', hg'', fun u hu => hseats' u (hseats u hu)⟩

/-- Lobbies do not matter. -/
theorem congr (h : KeepsSeats app app') {app₀ app₁ : App} (h₀ : app₀.live = app.live)
    (h₁ : app₁.live = app'.live ∧ app₁.nextRef = app'.nextRef) : KeepsSeats app₀ app₁ := by
  refine ⟨?_, ?_⟩
  · unfold Numbered
    rw [h₁.1, h₁.2]
    exact h.numbered
  · rw [h₀, h₁.1]
    exact h.seats

theorem getLobby (hn : app.Numbered) (id : LobbyId) : KeepsSeats app (app.getLobby id) := by
  obtain ⟨_, hget⟩ := getLobby_frame id app
  rw [hget]
  exact (refl hn).congr rfl ⟨rfl, rfl⟩

theorem releaseLobby (hn : app.Numbered) (id : LobbyId) : KeepsSeats app (app.releaseLobby id) := by
  obtain ⟨_, hrelease⟩ := releaseLobby_frame id app
  rw [hrelease]
  exact (refl hn).congr rfl ⟨rfl, rfl⟩

theorem addGame (hn : app.Numbered) (lobby : LobbyId) (id address : String) :
    KeepsSeats app (app.addGame lobby id address) := by
  obtain ⟨_, hadd⟩ := addGame_frame lobby id address app
  rw [hadd]
  constructor
  · intro ref hmem
    rcases (AList.mem_insert _).mp hmem with rfl | hold
    · exact Nat.lt_succ_self _
    · exact Nat.lt_succ_of_lt (hn ref hold)
  · intro ref g hg
    have hne : ref ≠ app.nextRef :=
      Nat.ne_of_lt (hn ref (AList.lookup_isSome.mp (by rw [hg]; rfl)))
    refine ⟨g, ?_, fun _ hu => hu⟩
    rw [AList.lookup_insert_ne hne]
    exact hg

/-- A room changes and loses no seat by it. -/
theorem insert (hn : app.Numbered) {ref : GameRef} {g g' : Game}
    (hg : app.live.lookup ref = some g) (hseats : ∀ u ∈ g.expectedUsers, u ∈ g'.expectedUsers) :
    KeepsSeats app { app with live := app.live.insert ref g' } := by
  constructor
  · intro other hmem
    rcases (AList.mem_insert _).mp hmem with rfl | hold
    · exact hn _ (AList.lookup_isSome.mp (by rw [hg]; rfl))
    · exact hn other hold
  · intro other g₀ hg₀
    simp only [AList.lookup_insert_eq]
    split
    · next hsame =>
      rw [hsame, hg] at hg₀
      obtain rfl := Option.some.inj hg₀
      exact ⟨g', rfl, hseats⟩
    · exact ⟨g₀, hg₀, fun _ hu => hu⟩

theorem modifyGame (hn : app.Numbered) {ref : GameRef} {change : Game → Game}
    (hchange : ∀ g, ∀ u ∈ g.expectedUsers, u ∈ (change g).expectedUsers) :
    KeepsSeats app (app.modifyGame ref change) := by
  unfold App.modifyGame
  cases hg : app.live.lookup ref with
  | none => exact refl hn
  | some g => exact insert hn hg (hchange g)

/-- A room that was not there before goes again. -/
theorem dropNew (h : KeepsSeats app app') {ref : GameRef} (hnew : ref ∉ app.live) :
    KeepsSeats app (app'.dropGame ref).1 := by
  cases hg : app'.live.lookup ref with
  | none =>
    simp only [App.dropGame, hg]
    exact h
  | some g =>
    obtain ⟨⟨_, hframe⟩, -, -⟩ := dropGame_spec hg
    rw [hframe]
    constructor
    · exact fun other hmem => h.numbered other (AList.mem_erase.mp hmem).2
    · intro other g₀ hg₀
      have hne : other ≠ ref := by
        rintro rfl
        exact hnew (AList.lookup_isSome.mp (by rw [hg₀]; rfl))
      simp only [AList.lookup_erase_eq, if_neg hne]
      exact h.seats other g₀ hg₀

end KeepsSeats

end App

namespace App

/-- A request keeps the seats that were held before, and holds the ones that it wants in the room
that it routes to. -/
structure Holds (users : List String) (app : App) (result : RouteResult) : Prop where
  keeps : KeepsSeats app result.app
  routed : ∀ ref isNew, result.answer = .routed ref isNew →
    ∃ g, result.app.live.lookup ref = some g ∧ ∀ u ∈ users, u ≠ "" → u ∈ g.expectedUsers

variable {app : App} {users : List String} {result : RouteResult}

theorem Holds.of_not_routed (hkeeps : KeepsSeats app result.app)
    (hnot : ∀ ref isNew, result.answer ≠ .routed ref isNew) : Holds users app result :=
  ⟨hkeeps, fun ref isNew hrouted => absurd hrouted (hnot ref isNew)⟩

/-- What went before the request has kept the seats. -/
theorem Holds.after {app' : App} (hkeeps : KeepsSeats app app') (hheld : Holds users app' result) :
    Holds users app result :=
  ⟨hkeeps.trans hheld.keeps, hheld.routed⟩

theorem Holds.withLobby (hn : app.Numbered) {lobby : LobbyId} {request : App → RouteResult}
    (hrequest : (app.getLobby lobby).Numbered →
      Holds users (app.getLobby lobby) (request (app.getLobby lobby))) :
    Holds users app (App.withLobby lobby request app) := by
  have hget := KeepsSeats.getLobby hn lobby
  have hheld := hrequest hget.numbered
  refine ⟨?_, fun ref isNew hrouted => ?_⟩
  · exact (hget.trans hheld.keeps).trans (KeepsSeats.releaseLobby hheld.keeps.numbered lobby)
  · rw [withLobby_live]
    exact hheld.routed ref isNew hrouted

/-- A request that ends in a room that is there. -/
theorem Holds.modifyGame (hn : app.Numbered) {ref : GameRef} {isNew : Bool} {change : Game → Game}
    {g : Game} (hg : app.live.lookup ref = some g)
    (hkeeps : ∀ g, ∀ u ∈ g.expectedUsers, u ∈ (change g).expectedUsers)
    (hseats : ∀ g : Game, ∀ u ∈ users, u ≠ "" → u ∈ (change g).expectedUsers) :
    Holds users app { answer := .routed ref isNew, app := app.modifyGame ref change } := by
  refine ⟨KeepsSeats.modifyGame hn hkeeps, fun other _ hrouted => ?_⟩
  obtain rfl := (RouteAnswer.routed.inj hrouted).1
  refine ⟨change g, ?_, hseats g⟩
  rw [lookup_modifyGame, hg, Option.map_some]

theorem Holds.createFor (hn : app.Numbered) (lobby : LobbyId) (gameId address : String)
    {found : GameRef → App → RouteResult}
    (hfound : ∀ app', KeepsSeats app app' →
      app'.live.lookup app.nextRef = some (app.newGame lobby gameId address) →
      Holds users app (found app.nextRef app')) :
    Holds users app (app.createFor lobby gameId address found) := by
  by_cases hadd : app.MayAdd gameId
  · rw [createFor_of_mayAdd hadd]
    have hheld := hfound _ (KeepsSeats.addGame hn lobby gameId address) (lookup_addGame _ _ _ _)
    exact ⟨hheld.keeps, hheld.routed⟩
  · obtain ⟨code, message, heq⟩ := createFor_refused hadd lobby address found
    rw [heq]
    exact Holds.of_not_routed (KeepsSeats.refl hn) (by simp)

theorem lookup_of_mem_selection {h : PeerHeap} {userId : String} {request : JoinRandomGameRequest}
    {ref : GameRef} (href : ref ∈ app.selection h userId request) :
    ∃ g, app.live.lookup ref = some g := by
  have hlive : ∀ {p : Game → Bool}, (app.live.lookup ref).any p = true →
      ∃ g, app.live.lookup ref = some g := by
    intro p hany
    obtain ⟨g, hg, -⟩ := (Option.any_eq_true _ _).mp hany
    exact ⟨g, hg⟩
  unfold selection at href
  simp only at href
  split at href
  · exact hlive (List.mem_filter.mp (List.mem_of_mem_take href)).2
  · exact hlive (List.mem_filter.mp (List.mem_filter.mp href).1).2

/-- Every routing request holds the seats that it wants, and gives up none that is held. -/
theorem holds_route (h : PeerHeap) (userId : String) (request : RouteRequest)
    (hn : app.Numbered) : Holds (request.seats userId) app (app.route h userId request) := by
  have hkeepSeat : ∀ g : Game, ∀ u ∈ g.expectedUsers, u ∈ (g.reserveSeat userId).expectedUsers :=
    fun g u hu => mem_reserveSeat.mpr (Or.inl hu)
  have hkeepUsers : ∀ (users : List String) (g : Game), ∀ u ∈ g.expectedUsers,
      u ∈ (g.reserveExpectedUsers userId users).expectedUsers :=
    fun users g u hu => mem_reserveExpectedUsers.mpr (Or.inl hu)
  have hjoin : ∀ (users : List String) (g : Game), ∀ u ∈ userId :: users, u ≠ "" →
      u ∈ ((g.reserveSeat userId).reserveExpectedUsers userId users).expectedUsers := by
    intro users g u hu hne
    rw [mem_reserveExpectedUsers, mem_reserveSeat]
    by_cases hself : u = userId
    · exact Or.inl (Or.inr ⟨hne, hself⟩)
    · exact Or.inr ⟨(List.mem_cons.mp hu).resolve_left hself, hne, hself⟩
  cases request with
  | createGame request =>
    simp only [route, routeCreateGame, RouteRequest.seats]
    refine Holds.withLobby hn fun hn => ?_
    generalize app.getLobby request.lobby = app at hn ⊢
    generalize (if request.gameId = "" then request.generatedId else request.gameId) = gameId
    split
    · exact Holds.of_not_routed (KeepsSeats.refl hn) (by simp)
    · refine Holds.createFor hn _ _ _ fun app' hkeeps hlive => ?_
      refine (Holds.modifyGame hkeeps.numbered hlive (hkeepUsers _) ?_).after hkeeps
      intro g u hu hne
      simp only [List.mem_filter, decide_eq_true_eq] at hu
      exact mem_reserveExpectedUsers.mpr (Or.inr ⟨hu.1, hne, hu.2⟩)
  | joinGame request =>
    have hkeep : ∀ g : Game, ∀ u ∈ g.expectedUsers,
        u ∈ ((g.reserveSeat userId).reserveExpectedUsers userId
          request.expectedUsers).expectedUsers :=
      fun g u hu => hkeepUsers request.expectedUsers _ u (hkeepSeat g u hu)
    simp only [route, routeJoinGame, RouteRequest.seats]
    refine Holds.withLobby hn fun hn => ?_
    generalize app.getLobby request.lobby = app at hn ⊢
    split
    · split
      · exact Holds.of_not_routed (KeepsSeats.refl hn) (by simp)
      refine Holds.createFor hn _ _ _ fun app' hkeeps hlive => ?_
      by_cases hrejoin : request.joinMode = 3
      · have hdrop : joinFoundGame h userId request true app.nextRef app' =
            { answer := .refused (.matchmaking .gameIdNotExists) "Rejoiner does not exist"
              app := (app'.dropGame app.nextRef).1
              effects := (app'.dropGame app.nextRef).2 } := by
          simp [joinFoundGame, hlive, hrejoin, App.newGame]
        rw [hdrop]
        refine Holds.of_not_routed (hkeeps.dropNew fun hmem => ?_) (by simp)
        exact Nat.lt_irrefl _ (hn _ hmem)
      · rw [RouteRequest.joinFoundGame_new hlive rfl hrejoin]
        exact (Holds.modifyGame hkeeps.numbered hlive hkeep (hjoin _)).after hkeeps
    · unfold joinFoundGame
      split
      · exact Holds.of_not_routed (KeepsSeats.refl hn) (by simp)
      next g hg =>
      simp only [Bool.false_eq_true, if_false]
      split
      · exact Holds.of_not_routed (KeepsSeats.refl hn) (by simp)
      split
      · split <;> exact Holds.of_not_routed (KeepsSeats.refl hn) (by simp)
      split
      · exact Holds.of_not_routed (KeepsSeats.refl hn) (by simp)
      · exact Holds.modifyGame hn hg hkeep (hjoin _)
  | joinRandomGame request =>
    have hself : ∀ g : Game, ∀ u ∈ [userId], u ≠ "" → u ∈ (g.reserveSeat userId).expectedUsers :=
      fun g u hu hne => mem_reserveSeat.mpr (Or.inr ⟨hne, List.mem_singleton.mp hu⟩)
    simp only [route, routeJoinRandomGame, RouteRequest.seats]
    refine Holds.withLobby hn fun hn => ?_
    generalize app.getLobby request.lobby = app at hn ⊢
    split
    · next ref href =>
      obtain ⟨g, hg⟩ := lookup_of_mem_selection (List.mem_of_getElem? href)
      exact Holds.modifyGame hn hg hkeepSeat hself
    · split
      · exact Holds.of_not_routed (KeepsSeats.refl hn) (by simp)
      · refine Holds.createFor hn _ _ _ fun app' hkeeps hlive => ?_
        exact (Holds.modifyGame hkeeps.numbered hlive hkeepSeat hself).after hkeeps

end App

/-- The users that a room expects after an update that it lets through. -/
theorem Game.mem_receiveUpdate {settings : AppSettings} {isNew : Bool} {m : GameUpdate} {g : Game}
    (haccepts : g.acceptsUpdate isNew m = true) {u : String} :
    u ∈ (g.receiveUpdate settings isNew m).1.expectedUsers ↔
      m.expectedUsers.elim (u ∈ g.expectedUsers) fun users => u ≠ "" ∧ u ∈ users := by
  have hprops : ∀ g : Game, (g.applyUpdateProps settings m).1.expectedUsers = g.expectedUsers := by
    intro g
    unfold applyUpdateProps
    split
    · rfl
    · next props _ =>
      obtain ⟨_, _, _, _, _, _, _, _, _, heq⟩ :=
        propsOnly_insertGameProps settings props (g.applyPlayerCount props)
      rw [heq]
      rfl
  rw [receiveUpdate, if_pos haccepts, applyUpdate, hprops, applyUpdateState]
  cases m.expectedUsers with
  | none => exact Iff.rfl
  | some users => exact mem_replaceExpectedUsers

namespace Process

variable {p : Process}

theorem keepsSeats_trackGame (hn : p.app.Numbered) (m : GameUpdate) :
    App.KeepsSeats p.app (p.trackGame m).2.1.app := by
  unfold trackGame
  split
  · exact App.KeepsSeats.refl hn
  simp only
  have hget := App.KeepsSeats.getLobby hn m.lobbyId
  split
  · exact hget.trans (App.KeepsSeats.releaseLobby hget.numbered _)
  have hmade : App.KeepsSeats p.app
      ((p.app.getLobby m.lobbyId).createGame m.lobbyId m.info.id m.info.serverAddress true).2.1 := by
    rcases App.createGame_cases m.lobbyId m.info.id m.info.serverAddress true
      (p.app.getLobby m.lobbyId) with heq | ⟨-, heq⟩
    · rw [heq]
      exact hget
    · rw [heq]
      exact hget.trans (App.KeepsSeats.addGame hget.numbered _ _ _)
  generalize (p.app.getLobby m.lobbyId).createGame m.lobbyId m.info.id m.info.serverAddress true =
    made at hmade ⊢
  obtain ⟨result, app, effects⟩ := made
  have hreleased := hmade.trans (App.KeepsSeats.releaseLobby hmade.numbered m.lobbyId)
  split
  · next heq =>
    obtain ⟨-, rfl, -⟩ : _ ∧ app = _ ∧ _ := by simpa using heq
    exact hreleased
  · next heq =>
    obtain ⟨-, rfl, -⟩ : _ ∧ app = _ ∧ _ := by simpa using heq
    exact hreleased

theorem keepsSeats_findGame (hn : p.app.Numbered) (m : GameUpdate) :
    App.KeepsSeats p.app (p.findGame m).2.1.app := by
  unfold findGame
  split
  · exact App.KeepsSeats.refl hn
  · exact keepsSeats_trackGame hn m

end Process

namespace HeldWorld

variable {w : HeldWorld}

/-- What holds of the process while every message spares the seats that are held. -/
structure Sound (w : HeldWorld) : Prop where
  numbered : w.process.app.Numbered
  named : ∀ entry ∈ w.held, entry.2 ≠ ""
  seats : ∀ entry ∈ w.held, ∃ g, w.process.app.live.lookup entry.1 = some g ∧
    entry.2 ∈ g.expectedUsers

theorem kept_iff : w.Kept ↔ ∀ entry ∈ w.held,
    ∃ g, w.process.app.live.lookup entry.1 = some g ∧ entry.2 ∈ g.expectedUsers := by
  simp only [Kept, Option.any_eq_true, hasExpectedUser, decide_eq_true_eq]

theorem sound_of_isFresh (hw : w.IsFresh) : w.Sound := by
  obtain ⟨⟨-, -, hlive⟩, -, hheld⟩ := hw
  refine ⟨fun ref hmem => ?_, by simp [hheld], by simp [hheld]⟩
  rw [hlive] at hmem
  exact absurd hmem (AList.notMem_empty ref)

/-- Seats that are held stay held, however the others fare. -/
theorem Sound.of_keeps (hw : w.Sound) {app : App} (hkeeps : App.KeepsSeats w.process.app app)
    {heap : PeerHeap} {externalGames : List GameRef} {held : List (GameRef × String)}
    (hheld : ∀ entry ∈ held, entry ∈ w.held ∨ entry.2 ≠ "" ∧
      ∃ g, app.live.lookup entry.1 = some g ∧ entry.2 ∈ g.expectedUsers) :
    Sound { heap, process := { app, externalGames }, held } := by
  refine ⟨hkeeps.numbered, fun entry hmem => ?_, fun entry hmem => ?_⟩
  · exact (hheld entry hmem).elim (hw.named entry) And.left
  · rcases hheld entry hmem with hold | ⟨-, hnew⟩
    · obtain ⟨g, hg, hseat⟩ := hw.seats entry hold
      obtain ⟨g', hg', hkept⟩ := hkeeps.seats entry.1 g hg
      exact ⟨g', hg', hkept entry.2 hseat⟩
    · exact hnew

/-- A change of a room ends the seats of the user that it says. -/
theorem Sound.modifyGame (hw : w.Sound) {ref : GameRef} {change : Game → Game}
    {ended : Option (GameRef × String)}
    (hchange : ∀ g, w.process.app.live.lookup ref = some g → ∀ u ∈ g.expectedUsers,
      ended ≠ some (ref, u) → u ∈ (change g).expectedUsers) :
    Sound { w.modifyGame ref change with
      held := w.held.filter fun entry => some entry ≠ ended } := by
  have hfilter : ∀ {entry}, entry ∈ w.held.filter (fun entry => some entry ≠ ended) →
      entry ∈ w.held ∧ some entry ≠ ended := by
    intro entry hmem
    simpa using List.mem_filter.mp hmem
  have hnumbered : (w.process.app.modifyGame ref change).Numbered := by
    unfold App.modifyGame
    split
    · exact hw.numbered
    · next g hg => exact (App.KeepsSeats.insert hw.numbered hg fun _ hu => hu).numbered
  refine ⟨hnumbered, fun entry hmem => hw.named entry (hfilter hmem).1, fun entry hmem => ?_⟩
  obtain ⟨hold, hnot⟩ := hfilter hmem
  obtain ⟨g, hg, hseat⟩ := hw.seats entry hold
  simp only [HeldWorld.modifyGame, App.modifyGame]
  cases hroom : w.process.app.live.lookup ref with
  | none => exact ⟨g, hg, hseat⟩
  | some g₀ =>
    simp only [AList.lookup_insert_eq]
    by_cases hsame : entry.1 = ref
    · rw [hsame, hroom] at hg
      obtain rfl := Option.some.inj hg
      refine ⟨change g₀, if_pos hsame, hchange g₀ hroom entry.2 hseat ?_⟩
      rw [← hsame]
      exact hnot.symm
    · exact ⟨g, by rw [if_neg hsame, hg], hseat⟩

/-- A message that spares the seats that are held. -/
theorem Sound.gameUpdate (hw : w.Sound) {m : GameUpdate} (hspares : w.Spares (.gameUpdate m)) :
    Sound { w with process := (w.process.processGameUpdate m).1 } := by
  have hfind := Process.keepsSeats_findGame hw.numbered m
  have hspared : ∀ found ∈ (w.process.findGame m).1,
      ∀ g ∈ (w.process.findGame m).2.1.app.live.lookup found.1,
        g.acceptsUpdate found.2 m = true →
        ∀ users ∈ m.expectedUsers, ∀ entry ∈ w.held, entry.1 = found.1 → entry.2 ∈ users := hspares
  unfold Process.processGameUpdate
  generalize w.process.findGame m = found at hfind hspared ⊢
  obtain ⟨result, p, effects⟩ := found
  have hold : Sound { w with process := p } :=
    hw.of_keeps hfind fun _ hmem => Or.inl hmem
  cases result with
  | none => exact hold
  | some found =>
    obtain ⟨ref, isNew⟩ := found
    simp only [Process.updateGame]
    cases hg : p.app.live.lookup ref with
    | none => exact hold
    | some g =>
      simp only
      have hheld := hspared (ref, isNew) rfl g hg
      refine ⟨(App.KeepsSeats.insert hold.numbered hg fun _ hu => hu).numbered, hold.named, ?_⟩
      intro entry hmem
      obtain ⟨g₀, hg₀, hseat⟩ := hold.seats entry hmem
      simp only [AList.lookup_insert_eq]
      by_cases hsame : entry.1 = ref
      · refine ⟨_, if_pos hsame, ?_⟩
        have hg₀' : p.app.live.lookup entry.1 = some g₀ := hg₀
        rw [hsame, hg] at hg₀'
        obtain rfl := Option.some.inj hg₀'
        by_cases haccepts : g.acceptsUpdate isNew m = true
        · rw [mem_receiveUpdate haccepts]
          cases hlist : m.expectedUsers with
          | none => exact hseat
          | some users =>
            exact ⟨hold.named entry hmem, hheld haccepts users hlist entry hmem hsame⟩
        · rw [receiveUpdate, if_neg haccepts]
          exact hseat
      · exact ⟨g₀, by rw [if_neg hsame]; exact hg₀, hseat⟩

theorem step_of_ends_none {op : HeldOp} (hends : w.ends op = none) : w.step op = w.perform op := by
  simp [step, hends]

/-- A task of a room ends no reservation but the one that it was scheduled for. -/
theorem mem_runScheduledTask {ref : GameRef} {task : ScheduledTask} {g : Game}
    (hg : w.process.app.live.lookup ref = some g) {u : String} (hu : u ∈ g.expectedUsers)
    (hnot : w.ends (.runScheduledTask ref task) ≠ some (ref, u)) :
    u ∈ (g.runScheduledTask task).expectedUsers := by
  unfold Game.runScheduledTask
  split
  · next hscheduled =>
    cases task with
    | keepAlive ttlMs => exact hu
    | expireReservation ttlMs userId generation =>
      simp only [expireReservation]
      split
      · next hforce =>
        simp only [ListSet.mem_erase]
        refine ⟨?_, hu⟩
        rintro rfl
        simp [ends, inForce, hg, hscheduled, hforce] at hnot
      · exact hu
  · exact hu

theorem mem_release {ref : GameRef} {userId : String} {generation : Nat} {g : Game}
    (hg : w.process.app.live.lookup ref = some g) {u : String} (hu : u ∈ g.expectedUsers)
    (hnot : w.ends (.release ref userId generation) ≠ some (ref, u)) :
    u ∈ (g.removeExpectedUserIfGeneration userId generation).2.expectedUsers := by
  unfold removeExpectedUserIfGeneration
  split
  · next hforce =>
    simp only [ListSet.mem_erase]
    refine ⟨?_, hu⟩
    rintro rfl
    simp [ends, inForce, hg, hforce] at hnot
  · exact hu

/-- A routing request reserves the seats of those whom it answers for. -/
theorem Sound.route (hw : w.Sound) (client : PeerRef) (request : RouteRequest) :
    (w.step (.route client request)).Sound := by
  rw [step_of_ends_none rfl]
  simp only [perform, HeldWorld.route]
  cases huser : w.heap.userId (some client) with
  | none => exact hw
  | some userId =>
    have hholds := App.holds_route w.heap userId request hw.numbered
    refine hw.of_keeps hholds.keeps fun entry hmem => ?_
    rcases List.mem_append.mp hmem with hold | hnew
    · exact Or.inl hold
    right
    unfold reserved at hnew
    split at hnew
    · next ref isNew hrouted =>
      obtain ⟨u, hu, rfl⟩ := List.mem_map.mp hnew
      obtain ⟨hmem, hwanted⟩ := List.mem_filter.mp hu
      simp only [ne_eq, Bool.and_eq_true, decide_eq_true_eq] at hwanted
      obtain ⟨g, hg, hseats⟩ := hholds.routed ref isNew hrouted
      exact ⟨hwanted.1, g, hg, hseats u hmem hwanted.1⟩
    · cases hnew

/-- The seats of a room that is destroyed are held no longer; the other rooms keep theirs. -/
theorem Sound.dropGame (hw : w.Sound) (ref : GameRef) : (w.step (.dropGame ref)).Sound := by
  rw [step_of_ends_none rfl]
  have hne : ∀ {entry}, entry ∈ w.held.filter (fun entry => entry.1 ≠ ref) →
      entry ∈ w.held ∧ entry.1 ≠ ref := by
    intro entry hmem
    simpa using List.mem_filter.mp hmem
  have hlive : (w.process.app.dropGame ref).1.live = w.process.app.live.erase ref ∧
      (w.process.app.dropGame ref).1.nextRef = w.process.app.nextRef ∨
      (w.process.app.dropGame ref).1 = w.process.app := by
    cases hg : w.process.app.live.lookup ref with
    | none => exact Or.inr (by simp only [App.dropGame, hg])
    | some g =>
      obtain ⟨⟨_, hframe⟩, -, -⟩ := App.dropGame_spec hg
      rw [hframe]
      exact Or.inl ⟨rfl, rfl⟩
  refine ⟨?_, fun entry hmem => hw.named entry (hne hmem).1, fun entry hmem => ?_⟩
  · rcases hlive with ⟨hlive, hnext⟩ | heq
    · intro other hmem
      simp only [perform] at hmem ⊢
      rw [hlive] at hmem
      rw [hnext]
      exact hw.numbered other (AList.mem_erase.mp hmem).2
    · simp only [perform, heq]
      exact hw.numbered
  · obtain ⟨g, hg, hseat⟩ := hw.seats entry (hne hmem).1
    refine ⟨g, ?_, hseat⟩
    simp only [perform]
    rcases hlive with ⟨hlive, -⟩ | heq
    · rw [hlive, AList.lookup_erase_eq, if_neg (hne hmem).2]
      exact hg
    · rw [heq]
      exact hg

theorem Sound.step (hw : w.Sound) {op : HeldOp} (hspares : w.Spares op) : (w.step op).Sound := by
  cases op with
  | connection peer slot =>
    rw [step_of_ends_none rfl]
    exact ⟨hw.numbered, hw.named, hw.seats⟩
  | route client request => exact hw.route client request
  | gameUpdate message =>
    rw [step_of_ends_none rfl]
    exact hw.gameUpdate hspares
  | runScheduledTask ref task => exact hw.modifyGame fun g hg u hu => mem_runScheduledTask hg hu
  | release ref userId generation => exact hw.modifyGame fun g hg u hu => mem_release hg hu
  | join ref userId =>
    exact ⟨hw.numbered, fun entry hmem => hw.named entry (List.mem_filter.mp hmem).1,
      fun entry hmem => hw.seats entry (List.mem_filter.mp hmem).1⟩
  | dropGame ref => exact hw.dropGame ref

/-- A message that does not spare a seat ends it. -/
theorem spares_of_kept {op : HeldOp} (hkept : (w.step op).Kept) : w.Spares op := by
  cases op with
  | gameUpdate message =>
    intro found hfound g hg haccepts users husers entry hmem hentry
    rw [step_of_ends_none rfl, kept_iff] at hkept
    obtain ⟨g', hg', hseat⟩ := hkept entry hmem
    obtain ⟨ref, isNew⟩ := found
    simp only [perform, Process.processGameUpdate] at hg'
    generalize w.process.findGame message = made at hfound hg hg'
    obtain ⟨result, p, effects⟩ := made
    obtain rfl : result = some (ref, isNew) := hfound
    simp only [Option.mem_def] at hg hentry
    simp only [Process.updateGame, hg, AList.lookup_insert_eq, if_pos hentry, Option.some.injEq]
      at hg'
    rw [← hg', mem_receiveUpdate haccepts] at hseat
    rw [Option.mem_def.mp husers] at hseat
    exact hseat.2
  | _ => trivial

/-- Reservations are kept in a run if and only if every message spares those that are held when it
arrives. -/
theorem always_kept_iff (hfresh : w.IsFresh) (ops : List HeldOp) :
    Transition.Always step Kept w ops ↔ Transition.EachStep step Spares w ops := by
  refine Transition.always_iff_eachStep_of_invariant (B := fun _ _ => True) (I := Sound)
    (fun w hw => kept_iff.mpr hw.seats) (fun w op hw _ hspares => hw.step hspares)
    (fun w op _ _ hkept => spares_of_kept hkept) (sound_of_isFresh hfresh)
    (Transition.eachStep_of_forall fun _ _ _ => trivial)

/-- What the owner of a room says of it at a revision; there is one player in it, and no one is
expected. -/
def report (revision : Int) : GameUpdate where
  info := ⟨"app", "1.0", "lobby", 0, "room", "host"⟩
  created := some true
  creating := some false
  revision := some revision
  expectedUsers := some []
  visible := some true
  gameProperties := some (AList.insert playerCountKey (.byte 1) ∅)

/-- A process that has just started, with a client. -/
def started : HeldWorld where
  heap := Function.update (fun _ => .unused) 1
    (.live { persistent := some { userId := "ada", token := "a" } })
  process := { app := { id := "app", version := "1.0" } }

/-- Ada is routed to a room while an update is on its way that has been sent before. -/
theorem not_always_kept :
    ¬Transition.Always step Kept started
      [.gameUpdate (report 3),
        .route 1 (.joinGame { lobby := ("lobby", 0), gameId := "room" }),
        .gameUpdate (report 4)] := by
  decide

/-- Without the second update her reservation is kept until it expires. -/
theorem always_kept_until_expiry :
    Transition.Always step Kept started
      [.gameUpdate (report 3),
        .route 1 (.joinGame { lobby := ("lobby", 0), gameId := "room" }),
        .runScheduledTask 0 (.expireReservation 30000 "ada" 1)] :=
  (always_kept_iff ⟨⟨rfl, rfl, rfl⟩, rfl, rfl⟩ _).mpr (by
    refine ⟨?_, trivial, trivial, trivial⟩
    intro found _ g _ _ users _ entry hmem
    cases hmem)

end HeldWorld

end LuxonServer
