import LuxonServer.Config.Manager
import LuxonServer.Peer

/-! `peerGetCurrentGame`, by which a plugin asks for the room that a client plays in. -/

namespace LuxonServer

/-- A handler in `connections_`: its class, the connection that it serves, and `current_game_`,
which a `GameServerHandler` has. -/
structure ConnectionHandler where
  server : ServerType
  peer : PeerRef
  currentGame : Option GameRef := none
  deriving DecidableEq, Repr

namespace Plugin

/-- The loop over the connections: the first one that `dynamic_cast<GameServerHandler *>` takes;
null pointers are passed over. -/
def firstGameServer : List (Option ConnectionHandler) → Option ConnectionHandler
  | [] => none
  | none :: connections => firstGameServer connections
  | some handler :: connections =>
    if handler.server = .gameServer then some handler else firstGameServer connections

/-- `peerGetCurrentGame`; `none` is the null handle. -/
def peerGetCurrentGame (h : PeerHeap) (connections : List (Option ConnectionHandler))
    (peer : Option PeerRef) : Option GameRef :=
  match (peer.bind h.get).bind (·.persistent) with
  | none => none
  | some pp =>
    if pp.app = none then none
    else (firstGameServer connections).bind (·.currentGame)

/-- The GameServer connections of a client. -/
def ownHandlers (connections : List (Option ConnectionHandler)) (peer : PeerRef) :
    List ConnectionHandler :=
  (connections.filterMap id).filter fun handler =>
    handler.server = .gameServer && handler.peer == peer

/-- `game` is the room of the client's own GameServer connection, and null without one. -/
def IsOwnGame (connections : List (Option ConnectionHandler)) (peer : PeerRef)
    (game : Option GameRef) : Prop :=
  (∀ handler ∈ ownHandlers connections peer, game = handler.currentGame) ∧
    (ownHandlers connections peer = [] → game = none)

variable {h : PeerHeap} {connections : List (Option ConnectionHandler)} {peer : PeerRef}
  {pp : PeerPersistent} {handler : ConnectionHandler}

theorem mem_ownHandlers : handler ∈ ownHandlers connections peer ↔
    some handler ∈ connections ∧ handler.server = .gameServer ∧ handler.peer = peer := by
  simp [ownHandlers]

theorem firstGameServer_eq_none (hfirst : firstGameServer connections = none)
    (hmem : some handler ∈ connections) : handler.server ≠ .gameServer := by
  induction connections with
  | nil => cases hmem
  | cons connection connections ih =>
    cases connection with
    | none => exact ih hfirst ((List.mem_cons.mp hmem).resolve_left nofun)
    | some other =>
      rw [firstGameServer] at hfirst
      split at hfirst
      · cases hfirst
      · next hserver =>
        rcases List.mem_cons.mp hmem with heq | hmem
        · cases heq
          exact hserver
        · exact ih hfirst hmem

/-- Only one value is the room of a client, whatever the other connections are and in whatever
order. -/
theorem IsOwnGame.unique {game game' : Option GameRef} (hgame : IsOwnGame connections peer game)
    (hgame' : IsOwnGame connections peer game') : game = game' := by
  cases hown : ownHandlers connections peer with
  | nil => rw [hgame.2 hown, hgame'.2 hown]
  | cons handler handlers =>
    have hmem : handler ∈ ownHandlers connections peer := hown ▸ List.mem_cons_self
    rw [hgame.1 handler hmem, hgame'.1 handler hmem]

/-- Where the first GameServer connection is in the room of the client's own one; a client without
an app is answered with null. -/
def FirstIsOwn (connections : List (Option ConnectionHandler)) (peer : PeerRef)
    (pp : PeerPersistent) : Prop :=
  if pp.app = none then ∀ handler ∈ ownHandlers connections peer, handler.currentGame = none
  else ∀ first, firstGameServer connections = some first →
    (∀ handler ∈ ownHandlers connections peer, handler.currentGame = first.currentGame) ∧
      (ownHandlers connections peer = [] → first.currentGame = none)

theorem peerGetCurrentGame_of_app (hpeer : (h.get peer).bind (·.persistent) = some pp)
    (happ : pp.app ≠ none) : peerGetCurrentGame h connections (some peer) =
      (firstGameServer connections).bind (·.currentGame) := by
  unfold peerGetCurrentGame
  rw [Option.bind_some, hpeer]
  exact if_neg happ

/-- The answer is the client's room exactly if the first GameServer connection of the list is in
that room. -/
theorem isOwnGame_iff (hpeer : (h.get peer).bind (·.persistent) = some pp) :
    IsOwnGame connections peer (peerGetCurrentGame h connections (some peer)) ↔
      FirstIsOwn connections peer pp := by
  unfold FirstIsOwn
  split
  · next happ =>
    have hnull : peerGetCurrentGame h connections (some peer) = none := by
      unfold peerGetCurrentGame
      rw [Option.bind_some, hpeer]
      exact if_pos happ
    rw [hnull]
    exact ⟨fun hown handler hmem => (hown.1 handler hmem).symm,
      fun hown => ⟨fun handler hmem => (hown handler hmem).symm, fun _ => rfl⟩⟩
  · next happ =>
    rw [peerGetCurrentGame_of_app hpeer happ]
    cases hfirst : firstGameServer connections with
    | none =>
      -- without a GameServer connection there is none of the client's own
      refine iff_of_true ⟨fun handler hmem => ?_, fun _ => rfl⟩ nofun
      obtain ⟨hlisted, hserver, -⟩ := mem_ownHandlers.mp hmem
      exact absurd hserver (firstGameServer_eq_none hfirst hlisted)
    | some first =>
      constructor
      · rintro ⟨hown, hnone⟩ other heq
        cases heq
        exact ⟨fun handler hmem => (hown handler hmem).symm, hnone⟩
      · intro hall
        obtain ⟨hown, hnone⟩ := hall first rfl
        exact ⟨fun handler hmem => (hown handler hmem).symm, hnone⟩

/-- The connections of Ada and Bob, who are authenticated. -/
def adaAndBob : PeerHeap := fun r =>
  if r = 1 then
    .live { persistent := some { userId := "ada", token := "a", app := some ("app", "1.0") } }
  else if r = 2 then
    .live { persistent := some { userId := "bob", token := "b", app := some ("app", "1.0") } }
  else .unused

/-- Bob is in a lobby, and Ada plays alone. -/
theorem isOwnGame_iff_ada :
    IsOwnGame [some ⟨.masterServer, 2, none⟩, none, some ⟨.gameServer, 1, some 7⟩] 1 (some 7) :=
  have hpeer : (adaAndBob.get 1).bind (·.persistent) =
      some { userId := "ada", token := "a", app := some ("app", "1.0") } := by decide
  (isOwnGame_iff hpeer).mpr (by simp [FirstIsOwn, firstGameServer, ownHandlers])

/-- Ada has come first, and Bob is said to be in her room. -/
theorem not_isOwnGame_bob :
    let connections := [some ⟨.gameServer, 1, some 7⟩, some ⟨.gameServer, 2, some 8⟩]
    ¬IsOwnGame connections 2 (peerGetCurrentGame adaAndBob connections (some 2)) := by
  intro connections hown
  exact absurd (hown.1 ⟨.gameServer, 2, some 8⟩ (by decide)) (by decide)

/-- While two clients are in different rooms, one of them is said to be in the other's, whatever the
order of the connections is. -/
theorem not_isOwnGame_both {ada bob : ConnectionHandler} {ppAda ppBob : PeerPersistent}
    (hada : (h.get ada.peer).bind (·.persistent) = some ppAda) (happAda : ppAda.app ≠ none)
    (hbob : (h.get bob.peer).bind (·.persistent) = some ppBob) (happBob : ppBob.app ≠ none)
    (hlistedAda : some ada ∈ connections) (hserverAda : ada.server = .gameServer)
    (hlistedBob : some bob ∈ connections) (hserverBob : bob.server = .gameServer)
    (hrooms : ada.currentGame ≠ bob.currentGame) :
    ¬(IsOwnGame connections ada.peer (peerGetCurrentGame h connections (some ada.peer)) ∧
      IsOwnGame connections bob.peer (peerGetCurrentGame h connections (some bob.peer))) := by
  rintro ⟨hownAda, hownBob⟩
  have hfirstAda := hownAda.1 ada (mem_ownHandlers.mpr ⟨hlistedAda, hserverAda, rfl⟩)
  have hfirstBob := hownBob.1 bob (mem_ownHandlers.mpr ⟨hlistedBob, hserverBob, rfl⟩)
  rw [peerGetCurrentGame_of_app hada happAda] at hfirstAda
  rw [peerGetCurrentGame_of_app hbob happBob] at hfirstBob
  exact hrooms (hfirstAda.symm.trans hfirstBob)

end Plugin

end LuxonServer
