import LuxonServer.Game.Peers
import LuxonServer.Hosting.Host
import LuxonServer.Lobby.Pointers

/-! `FindFriends` on the MasterServer: what a client is told about its friends, and what the lookups
of their rooms leave behind. -/

namespace LuxonServer

/-- `FindFriendsOptions`, which of the flags are set. -/
structure FindFriendsOptions where
  createdOnGs : Bool := false
  visible : Bool := false
  isOpen : Bool := false
  deriving DecidableEq, Repr

/-- What a client is told about one friend. -/
structure FriendStatus where
  isOnline : Bool := false
  roomId : String := ""
  deriving DecidableEq, Repr

/-- An entry of `get_connections`. -/
structure FriendConnection where
  peer : PeerRef
  persistent : Option PeerPersistent := none
  deriving DecidableEq, Repr

/-- The connection of a friend; nothing asks which app it is in. -/
def FriendConnection.isOf (friendId : String) (conn : FriendConnection) : Bool :=
  conn.persistent.any fun pp => pp.userId == friendId

/-- The room id that is told of the room that the friend's connection was invited to. -/
def Game.toldTo (options : FindFriendsOptions) (h : PeerHeap) (peer : PeerRef) (g : Game) :
    String :=
  if options.createdOnGs ∧
      (g.findActor ((g.actorIdForPeer h (some peer)).getD 0)).isNone then ""
  else if options.visible ∧ !g.isVisible then ""
  else if options.isOpen ∧ !g.isOpen then ""
  else g.info.id

/-- The apps of a process. -/
abbrev Apps := String × String → App

namespace App

/-- A room is looked up and its pointer dropped, which is the last one if the lookup has made the
room.  The deleted room is broadcast. -/
def peekGame (info : GameInfo) (look : Game → String) (app : App) :
    String × App × List GameInfo :=
  match Host.getGame (some info) app with
  | (none, app') => ("", app', [])
  | (some ref, app') =>
    let seen := (app'.live.lookup ref).elim "" look
    if ref ∈ app.live then (seen, app', [])
    else (seen, (app'.dropGame ref).1, ((app'.live.lookup ref).map Game.info).toList)

end App

/-- What a request has answered, and what has become of the apps. -/
structure FriendSearch where
  apps : Apps
  statuses : List FriendStatus := []
  deletes : List GameInfo := []

/-- The round of the loop for one friend; an authenticated connection has an app. -/
def FriendSearch.find (h : PeerHeap) (options : FindFriendsOptions)
    (connections : List FriendConnection) (search : FriendSearch) (friendId : String) :
    FriendSearch :=
  match connections.find? (FriendConnection.isOf friendId) with
  | some ⟨peer, some pp⟩ =>
    match pp.app with
    | none => { search with statuses := search.statuses ++ [{ isOnline := true }] }
    | some key =>
      let (roomId, app, deletes) :=
        (search.apps key).peekGame (pp.invitation.getD default) (Game.toldTo options h peer)
      { apps := Function.update search.apps key app
        statuses := search.statuses ++ [{ isOnline := true, roomId }]
        deletes := search.deletes ++ deletes }
  | _ => { search with statuses := search.statuses ++ [{}] }

/-- The request `FindFriends`. -/
def findFriends (h : PeerHeap) (options : FindFriendsOptions) (connections : List FriendConnection)
    (friends : List String) (apps : Apps) : FriendSearch :=
  friends.foldl (FriendSearch.find h options connections) { apps }

namespace App

/-- What the lookups of a request leave of an app: the rooms and the map are as they were, and the
lobbies too, but for pointers to rooms that are gone at the ends of their lists. -/
structure Trailed (app app' : App) : Prop where
  id : app'.id = app.id
  version : app'.version = app.version
  settings : app'.settings = app.settings
  games : ∀ id, app'.games.lookup id = app.games.lookup id
  live : ∀ ref, app'.live.lookup ref = app.live.lookup ref
  nextRef : app.nextRef ≤ app'.nextRef
  lobbies : ∀ key, ∃ gone : List GameRef,
    app'.lobbies.lookup key =
      (app.lobbies.lookup key).map (fun lobby => { lobby with games := lobby.games ++ gone }) ∧
    ∀ ref ∈ gone, app.live.lookup ref = none

namespace Trailed

variable {app app' app'' : App}

theorem refl (app : App) : app.Trailed app where
  id := rfl
  version := rfl
  settings := rfl
  games _ := rfl
  live _ := rfl
  nextRef := Nat.le_refl _
  lobbies key := ⟨[], by simp, fun ref href => absurd href List.not_mem_nil⟩

theorem trans (h : app.Trailed app') (h' : app'.Trailed app'') : app.Trailed app'' where
  id := h'.id.trans h.id
  version := h'.version.trans h.version
  settings := h'.settings.trans h.settings
  games id := (h'.games id).trans (h.games id)
  live ref := (h'.live ref).trans (h.live ref)
  nextRef := h.nextRef.trans h'.nextRef
  lobbies key := by
    obtain ⟨gone, hgone, hdead⟩ := h.lobbies key
    obtain ⟨gone', hgone', hdead'⟩ := h'.lobbies key
    refine ⟨gone ++ gone', ?_, fun ref href => ?_⟩
    · rw [hgone', hgone, Option.map_map]
      simp only [Function.comp_def, List.append_assoc]
    · rcases List.mem_append.mp href with hold | hnew
      · exact hdead ref hold
      · rw [← h.live]
        exact hdead' ref hnew

end Trailed

section Lookup

variable {app : App} {holders : LobbyId → Nat} {info : GameInfo}

/-- The app after a lookup that has made no room. -/
def asked (info : GameInfo) (app : App) : App :=
  (app.getLobby (info.lobbyName, info.lobbyType)).releaseLobby (info.lobbyName, info.lobbyType)

/-- The app after a lookup that has made the room. -/
def made (info : GameInfo) (app : App) : App :=
  ((app.getLobby (info.lobbyName, info.lobbyType)).addGame (info.lobbyName, info.lobbyType)
    info.id info.serverAddress).releaseLobby (info.lobbyName, info.lobbyType)

theorem getGame_of_empty (hid : info.id = "") :
    Host.getGame (some info) app = (none, app.asked info) := by
  simp only [Host.getGame, createGame, hid, if_true]
  rfl

theorem getGame_of_found (hid : info.id ≠ "") {weak : GameRef}
    (hfound : app.games.lookup info.id = some weak) :
    Host.getGame (some info) app = (app.lock weak, app.asked info) := by
  obtain ⟨_, hframe⟩ := getLobby_frame (info.lobbyName, info.lobbyType) app
  have hgames : (app.getLobby (info.lobbyName, info.lobbyType)).games = app.games := by rw [hframe]
  have hlock : (app.getLobby (info.lobbyName, info.lobbyType)).lock weak = app.lock weak := by
    rw [hframe]
    rfl
  simp only [Host.getGame, createGame, if_neg hid, hgames, hfound, if_true, hlock]
  rfl

theorem getGame_of_missing (hmissing : app.games.lookup info.id = none) :
    Host.getGame (some info) app = (none, app.asked info) ∨
      Host.getGame (some info) app = (some app.nextRef, app.made info) := by
  obtain ⟨_, hframe⟩ := getLobby_frame (info.lobbyName, info.lobbyType) app
  have hgames : (app.getLobby (info.lobbyName, info.lobbyType)).games = app.games := by rw [hframe]
  have hnext : (app.getLobby (info.lobbyName, info.lobbyType)).nextRef = app.nextRef := by
    rw [hframe]
  simp only [Host.getGame, createGame, hgames, hmissing]
  split
  · exact Or.inl rfl
  · split
    · exact Or.inl rfl
    · right
      rw [hnext]
      rfl

theorem Held.asked (hheld : app.Held holders) (info : GameInfo) : (app.asked info).Held holders :=
  (hheld.getLobby _).release

theorem Trailed.of_asked (hheld : app.Held holders) (info : GameInfo) :
    app.Trailed (app.asked info) := by
  obtain ⟨_, hframe⟩ := getLobby_releaseLobby_frame (info.lobbyName, info.lobbyType) app
  have hasked : app.asked info = _ := hframe
  refine ⟨?_, ?_, ?_, ?_, ?_, ?_,
    fun key => ⟨[], ?_, fun ref href => absurd href List.not_mem_nil⟩⟩
  · rw [hasked]
  · rw [hasked]
  · rw [hasked]
  · rw [hasked]
    exact fun _ => rfl
  · rw [hasked]
    exact fun _ => rfl
  · rw [hasked]
  · rw [App.asked, hheld.getLobby_releaseLobby]
    simp

theorem Held.made (hheld : app.Held holders) (info : GameInfo) : (app.made info).Held holders :=
  ((hheld.getLobby _).addGame (mem_getLobby _ app) _ _).release

theorem made_frame (info : GameInfo) (app : App) : ∃ lobbies, app.made info =
    { app with
      lobbies
      live := app.live.insert app.nextRef
        (app.newGame (info.lobbyName, info.lobbyType) info.id info.serverAddress)
      games := app.games.insert info.id app.nextRef
      nextRef := app.nextRef + 1 } := by
  obtain ⟨_, hget⟩ := getLobby_frame (info.lobbyName, info.lobbyType) app
  obtain ⟨_, hadd⟩ := addGame_frame (info.lobbyName, info.lobbyType) info.id info.serverAddress
    (app.getLobby (info.lobbyName, info.lobbyType))
  obtain ⟨_, hrelease⟩ := releaseLobby_frame (info.lobbyName, info.lobbyType)
    ((app.getLobby (info.lobbyName, info.lobbyType)).addGame (info.lobbyName, info.lobbyType)
      info.id info.serverAddress)
  rw [App.made, hrelease, hadd, hget]
  exact ⟨_, rfl⟩

/-- The lobby that the room is made in has it at the end of its list. -/
theorem lookup_lobbies_made (hheld : app.Held holders) (info : GameInfo) (key : LobbyId) :
    (app.made info).lobbies.lookup key =
      if key = (info.lobbyName, info.lobbyType) then
        some
          { games := (app.lobbies.lookup key).elim [] Lobby.games ++ [app.nextRef]
            handles := holders key }
      else app.lobbies.lookup key := by
  obtain ⟨_, hget⟩ := getLobby_frame (info.lobbyName, info.lobbyType) app
  have hnext : (app.getLobby (info.lobbyName, info.lobbyType)).nextRef = app.nextRef := by rw [hget]
  obtain ⟨_, hframe⟩ := made_frame info app
  by_cases hkey : key = (info.lobbyName, info.lobbyType)
  · have hthere : key ∈ (app.made info).lobbies := by
      refine ((hheld.made info).pointed key).mpr (Or.inr ⟨app.nextRef,
        app.newGame (info.lobbyName, info.lobbyType) info.id info.serverAddress, ?_, hkey.symm⟩)
      rw [hframe]
      exact AList.lookup_insert _
    rw [← AList.lookup_isSome, made, lookup_releaseLobby] at hthere
    rw [made, lookup_releaseLobby, if_pos hkey]
    split at hthere
    · cases hthere
    · next hstays =>
      rw [if_neg hstays, if_pos hkey, lookup_lobbies_addGame, if_pos hkey, hheld.lookup_getLobby,
        if_pos hkey, hnext, hkey]
      rfl
  · rw [made, lookup_releaseLobby, if_neg fun hboth => hkey hboth.1, if_neg hkey,
      lookup_lobbies_addGame, if_neg hkey, hheld.lookup_getLobby, if_neg hkey, if_neg hkey]

theorem Trailed.of_made (hheld : app.Held holders) (hmissing : app.games.lookup info.id = none) :
    app.Trailed ((app.made info).dropGame app.nextRef).1 := by
  obtain ⟨lobbies, hframe⟩ := made_frame info app
  have hlive : (app.made info).live.lookup app.nextRef =
      some (app.newGame (info.lobbyName, info.lobbyType) info.id info.serverAddress) := by
    rw [hframe]
    exact AList.lookup_insert _
  obtain ⟨⟨_, hdrop⟩, hgone, hkept⟩ := dropGame_spec hlive
  have hgames : ∀ id, ((app.made info).dropGame app.nextRef).1.games.lookup id =
      app.games.lookup id := by
    intro id
    have hname : (app.newGame (info.lobbyName, info.lobbyType) info.id info.serverAddress).info.id =
        info.id := rfl
    rw [hdrop, hframe, hname]
    simp only [AList.lookup_erase_eq, AList.lookup_insert_eq]
    split
    · next hid => rw [hid, hmissing]
    · rfl
  have hrooms : ∀ ref, ((app.made info).dropGame app.nextRef).1.live.lookup ref =
      app.live.lookup ref := by
    intro ref
    rw [hdrop, hframe]
    simp only [AList.lookup_erase_eq, AList.lookup_insert_eq]
    split
    · next href => rw [href, hheld.sound.lookup_nextRef]
    · rfl
  refine ⟨?_, ?_, ?_, hgames, hrooms, ?_, fun key => ?_⟩
  · rw [hdrop, hframe]
  · rw [hdrop, hframe]
  · rw [hdrop, hframe]
  · rw [hdrop, hframe]
    exact Nat.le_succ _
  · have hafter := (hheld.made info).dropGame app.nextRef
    have hlast : key ∈ ((app.made info).dropGame app.nextRef).1.lobbies ↔ key ∈ app.lobbies := by
      rw [hafter.pointed, hheld.pointed]
      simp only [hrooms]
    by_cases hmem : key ∈ app.lobbies
    · have hstays : ((app.made info).dropGame app.nextRef).1.lobbies.lookup key =
          (app.made info).lobbies.lookup key := by
        apply hkept
        rintro ⟨hends, rfl⟩
        exact AList.lookup_eq_none.mp (hgone hends) (hlast.mpr hmem)
      obtain ⟨lobby, hlobby⟩ := AList.mem_iff_lookup.mp hmem
      rw [hstays, lookup_lobbies_made hheld, hlobby]
      split
      · refine ⟨[app.nextRef], ?_, fun ref href => ?_⟩
        · rw [← hheld.handles key lobby hlobby]
          rfl
        · rw [List.mem_singleton.mp href]
          exact hheld.sound.lookup_nextRef
      · exact ⟨[], by simp, fun ref href => absurd href List.not_mem_nil⟩
    · refine ⟨[], ?_, fun ref href => absurd href List.not_mem_nil⟩
      rw [AList.lookup_eq_none.mpr (mt hlast.mp hmem), AList.lookup_eq_none.mpr hmem]
      rfl

/-- What is seen of a room in a lookup.  A room of the map is seen as it is; of one that is not
there nothing is seen, or a new room, which is deleted again. -/
structure Peeked (info : GameInfo) (look : Game → String) (app : App) (seen : String)
    (deletes : List GameInfo) : Prop where
  unnamed : info.id = "" → seen = "" ∧ deletes = []
  found : ∀ ref, info.id ≠ "" → app.games.lookup info.id = some ref →
    seen = (app.live.lookup ref).elim "" look ∧ deletes = []
  missing : app.games.lookup info.id = none → seen = "" ∧ deletes = [] ∨
    ∃ address, seen = look (app.newGame (info.lobbyName, info.lobbyType) info.id address) ∧
      deletes = [(app.newGame (info.lobbyName, info.lobbyType) info.id address).info]

/-- Only a room that is not there is deleted. -/
theorem Peeked.deleted {look : Game → String} {seen : String} {deletes : List GameInfo}
    (hpeeked : Peeked info look app seen deletes) (gone : GameInfo) (hgone : gone ∈ deletes) :
    gone.appId = app.id ∧ gone.appVersion = app.version ∧ app.games.lookup gone.id = none := by
  by_cases hid : info.id = ""
  · rw [(hpeeked.unnamed hid).2] at hgone
    exact absurd hgone List.not_mem_nil
  cases hgames : app.games.lookup info.id with
  | some ref =>
    rw [(hpeeked.found ref hid hgames).2] at hgone
    exact absurd hgone List.not_mem_nil
  | none =>
    rcases hpeeked.missing hgames with ⟨-, hnone⟩ | ⟨_, -, hone⟩
    · rw [hnone] at hgone
      exact absurd hgone List.not_mem_nil
    · rw [hone] at hgone
      rw [List.mem_singleton.mp hgone]
      exact ⟨rfl, rfl, hgames⟩

theorem peekGame_spec (hheld : app.Held holders) (info : GameInfo) (look : Game → String) :
    Peeked info look app (app.peekGame info look).1 (app.peekGame info look).2.2 ∧
      app.Trailed (app.peekGame info look).2.1 ∧ (app.peekGame info look).2.1.Held holders := by
  have hasked : ∀ {result : Option GameRef}, Host.getGame (some info) app =
      (result, app.asked info) → (∀ ref ∈ result, ref ∈ app.live) → app.peekGame info look =
        ((result.bind fun ref => app.live.lookup ref).elim "" look, app.asked info, []) := by
    intro result hget hlive
    obtain ⟨_, hframe⟩ := getLobby_releaseLobby_frame (info.lobbyName, info.lobbyType) app
    have hsame : (app.asked info).live = app.live := by rw [asked, hframe]
    rw [peekGame, hget]
    cases result with
    | none => rfl
    | some ref => simp [hlive ref rfl, hsame]
  by_cases hid : info.id = ""
  · rw [hasked (getGame_of_empty hid) fun ref href => nomatch href]
    refine ⟨⟨fun _ => ⟨rfl, rfl⟩, fun _ hne => absurd hid hne, fun _ => Or.inl ⟨rfl, rfl⟩⟩,
      Trailed.of_asked hheld info, hheld.asked info⟩
  cases hgames : app.games.lookup info.id with
  | some weak =>
    have hlock : (app.lock weak).bind (fun ref => app.live.lookup ref) = app.live.lookup weak := by
      unfold lock
      split
      · rfl
      · next hdead => exact (AList.lookup_eq_none.mpr hdead).symm
    rw [hasked (getGame_of_found hid hgames) ?_, hlock]
    · refine ⟨⟨fun hempty => absurd hempty hid, fun ref _ href => ?_, fun hnone => ?_⟩,
        Trailed.of_asked hheld info, hheld.asked info⟩
      · obtain rfl : weak = ref := Option.some.inj (hgames.symm.trans href)
        exact ⟨rfl, rfl⟩
      · rw [hgames] at hnone
        cases hnone
    · intro ref href
      unfold lock at href
      split at href
      · next hlive =>
        cases href
        exact hlive
      · cases href
  | none =>
    have hout : ∀ ref, app.games.lookup info.id ≠ some ref := by simp [hgames]
    rcases getGame_of_missing hgames with hget | hget
    · rw [hasked hget fun ref href => nomatch href]
      exact ⟨⟨fun hempty => absurd hempty hid, fun ref _ href => absurd href (hout ref),
        fun _ => Or.inl ⟨rfl, rfl⟩⟩, Trailed.of_asked hheld info, hheld.asked info⟩
    · obtain ⟨_, hframe⟩ := made_frame info app
      have hlive : (app.made info).live.lookup app.nextRef =
          some (app.newGame (info.lobbyName, info.lobbyType) info.id info.serverAddress) := by
        rw [hframe]
        exact AList.lookup_insert _
      have hnew : app.nextRef ∉ app.live := AList.lookup_eq_none.mp hheld.sound.lookup_nextRef
      have hpeek : app.peekGame info look =
          (look (app.newGame (info.lobbyName, info.lobbyType) info.id info.serverAddress),
            ((app.made info).dropGame app.nextRef).1,
            [(app.newGame (info.lobbyName, info.lobbyType) info.id info.serverAddress).info]) := by
        rw [peekGame, hget]
        simp only [hlive, if_neg hnew]
        rfl
      rw [hpeek]
      exact ⟨⟨fun hempty => absurd hempty hid,
        fun ref _ href => absurd href (hout ref), fun _ => Or.inr ⟨info.serverAddress, rfl, rfl⟩⟩,
        Trailed.of_made hheld hgames, (hheld.made info).dropGame _⟩

/-- A room that has just been made is told, unless only rooms with the friend in them are. -/
theorem toldTo_newGame (options : FindFriendsOptions) (h : PeerHeap) (peer : PeerRef)
    (lobby : LobbyId) (id address : String) (app : App) :
    (app.newGame lobby id address).toldTo options h peer =
      if options.createdOnGs then "" else id := by
  cases hcreated : options.createdOnGs <;>
    simp [Game.toldTo, App.newGame, Game.findActor, hcreated]

end Lookup

end App

section Search

variable (h : PeerHeap) (options : FindFriendsOptions) (connections : List FriendConnection)
  (apps : Apps)

/-- A friend's first connection, in whatever app it is. -/
structure FirstConnection (friendId : String) (conn : FriendConnection) (pp : PeerPersistent)
    (key : String × String) : Prop where
  first : connections.find? (FriendConnection.isOf friendId) = some conn
  persistent : conn.persistent = some pp
  app : pp.app = some key

/-- What is told about a friend: whether it has a connection, and the room that its first connection
was invited to, as it is, or, without the option for rooms with the friend in them, one that is
not there any more. -/
structure FriendTold (friendId : String) (status : FriendStatus) : Prop where
  online : status.isOnline = connections.any (FriendConnection.isOf friendId)
  named : status.roomId ≠ "" →
    ∃ conn pp key, FirstConnection connections friendId conn pp key ∧
      ((∃ ref g, (apps key).games.lookup (pp.invitation.getD default).id = some ref ∧
          (apps key).live.lookup ref = some g ∧
          status.roomId = g.toldTo options h conn.peer) ∨
        (apps key).games.lookup (pp.invitation.getD default).id = none ∧
          options.createdOnGs = false ∧ status.roomId = (pp.invitation.getD default).id)
  room : ∀ conn pp key, FirstConnection connections friendId conn pp key →
    (pp.invitation.getD default).id ≠ "" → ∀ ref g,
      (apps key).games.lookup (pp.invitation.getD default).id = some ref →
      (apps key).live.lookup ref = some g → status.roomId = g.toldTo options h conn.peer

/-- What the loop has done for some friends. -/
structure FriendSearch.Sound (holders : String × String → LobbyId → Nat) (friends : List String)
    (search : FriendSearch) : Prop where
  told : List.Forall₂ (FriendTold h options connections apps) friends search.statuses
  trailed : ∀ key, (apps key).Trailed (search.apps key)
  held : ∀ key, (search.apps key).Held (holders key)
  deletes : ∀ info ∈ search.deletes,
    (apps (info.appId, info.appVersion)).games.lookup info.id = none

variable {h options connections apps}

/-- What is seen in the round of a friend is what is told about it. -/
theorem FriendTold.of_peeked {app : App} {friendId roomId : String} {deletes : List GameInfo}
    {conn : FriendConnection} {pp : PeerPersistent} {key : String × String}
    (hconn : FirstConnection connections friendId conn pp key) (htrailed : (apps key).Trailed app)
    (hpeeked : App.Peeked (pp.invitation.getD default) (Game.toldTo options h conn.peer) app roomId
      deletes) :
    FriendTold h options connections apps friendId { isOnline := true, roomId } := by
  have honly : ∀ conn' pp' key', FirstConnection connections friendId conn' pp' key' →
      conn' = conn ∧ pp' = pp ∧ key' = key := by
    intro conn' pp' key' hother
    obtain rfl : conn' = conn := Option.some.inj (hother.first.symm.trans hconn.first)
    obtain rfl : pp' = pp := Option.some.inj (hother.persistent.symm.trans hconn.persistent)
    exact ⟨rfl, rfl, Option.some.inj (hother.app.symm.trans hconn.app)⟩
  refine ⟨?_, fun hnamed => ⟨conn, pp, key, hconn, ?_⟩, ?_⟩
  · have hmem := List.find?_some hconn.first
    exact (List.any_eq_true.mpr ⟨conn, List.mem_of_find?_eq_some hconn.first, hmem⟩).symm
  · have hid : (pp.invitation.getD default).id ≠ "" := fun hempty =>
      hnamed (hpeeked.unnamed hempty).1
    cases hgames : (apps key).games.lookup (pp.invitation.getD default).id with
    | some ref =>
      left
      obtain ⟨hseen, -⟩ := hpeeked.found ref hid ((htrailed.games _).trans hgames)
      rw [htrailed.live] at hseen
      cases hlive : (apps key).live.lookup ref with
      | none =>
        rw [hlive] at hseen
        exact absurd hseen hnamed
      | some g =>
        rw [hlive] at hseen
        exact ⟨ref, g, rfl, hlive, hseen⟩
    | none =>
      right
      rcases hpeeked.missing ((htrailed.games _).trans hgames) with ⟨hseen, -⟩ | ⟨_, hseen, -⟩
      · exact absurd hseen hnamed
      · rw [App.toldTo_newGame] at hseen
        cases hcreated : options.createdOnGs with
        | true =>
          rw [hcreated] at hseen
          exact absurd hseen hnamed
        | false =>
          rw [hcreated] at hseen
          exact ⟨rfl, rfl, hseen⟩
  · intro conn' pp' key' hother hid ref g hgames hlive
    obtain ⟨rfl, rfl, rfl⟩ := honly conn' pp' key' hother
    obtain ⟨hseen, -⟩ := hpeeked.found ref hid ((htrailed.games _).trans hgames)
    rw [hseen, htrailed.live, hlive]
    rfl

variable {holders : String × String → LobbyId → Nat} {friends : List String}
  {search : FriendSearch}

theorem FriendSearch.Sound.find (hnamed : ∀ key, ((apps key).id, (apps key).version) = key)
    (hs : search.Sound h options connections apps holders friends) (friendId : String) :
    (search.find h options connections friendId).Sound h options connections apps holders
      (friends ++ [friendId]) := by
  have hstay : ∀ status, FriendTold h options connections apps friendId status →
      ({ search with statuses := search.statuses ++ [status] } : FriendSearch).Sound h options
        connections apps holders (friends ++ [friendId]) := fun status htold =>
    ⟨List.rel_append hs.told (.cons htold .nil), hs.trailed, hs.held, hs.deletes⟩
  unfold FriendSearch.find
  split
  · next peer pp hfind =>
    have honline : connections.any (FriendConnection.isOf friendId) = true :=
      List.any_eq_true.mpr ⟨_, List.mem_of_find?_eq_some hfind, List.find?_some hfind⟩
    split
    · next happ =>
      refine hstay _ ⟨honline.symm, fun hnamed => absurd rfl hnamed, ?_⟩
      rintro conn' pp' key' ⟨hfirst, hpp, hkey⟩
      rw [hfind] at hfirst
      cases hfirst
      cases hpp
      rw [happ] at hkey
      cases hkey
    · next key happ =>
      have hconn : FirstConnection connections friendId ⟨peer, some pp⟩ pp key := ⟨hfind, rfl, happ⟩
      obtain ⟨hpeeked, htrailed, hheld⟩ := App.peekGame_spec (hs.held key)
        (pp.invitation.getD default) (Game.toldTo options h peer)
      generalize (search.apps key).peekGame (pp.invitation.getD default)
        (Game.toldTo options h peer) = seen at hpeeked htrailed hheld ⊢
      obtain ⟨roomId, app, deletes⟩ := seen
      refine ⟨List.rel_append hs.told
        (.cons (FriendTold.of_peeked hconn (hs.trailed key) hpeeked) .nil), ?_, ?_, ?_⟩
      · intro other
        by_cases hother : other = key
        · subst hother
          show (apps other).Trailed (Function.update search.apps other app other)
          rw [Function.update_self]
          exact (hs.trailed other).trans htrailed
        · show (apps other).Trailed (Function.update search.apps key app other)
          rw [Function.update_of_ne hother]
          exact hs.trailed other
      · intro other
        by_cases hother : other = key
        · subst hother
          show (Function.update search.apps other app other).Held (holders other)
          rw [Function.update_self]
          exact hheld
        · show (Function.update search.apps key app other).Held (holders other)
          rw [Function.update_of_ne hother]
          exact hs.held other
      · intro info hinfo
        rcases List.mem_append.mp hinfo with hold | hnew
        · exact hs.deletes info hold
        · obtain ⟨hid, hversion, hgone⟩ := hpeeked.deleted info hnew
          have hkey : (info.appId, info.appVersion) = key := by
            rw [hid, hversion, (hs.trailed key).id, (hs.trailed key).version, hnamed]
          rw [hkey]
          exact ((hs.trailed key).games _).symm.trans hgone
  · next hfind =>
    have hnone : connections.find? (FriendConnection.isOf friendId) = none := by
      cases hfirst : connections.find? (FriendConnection.isOf friendId) with
      | none => rfl
      | some conn =>
        obtain ⟨peer, persistent⟩ := conn
        cases persistent with
        | none => cases List.find?_some hfirst
        | some pp => exact (hfind peer pp hfirst).elim
    refine hstay {} ⟨?_, fun hnamed => absurd rfl hnamed, ?_⟩
    · rw [eq_comm, List.any_eq_false]
      exact List.find?_eq_none.mp hnone
    · rintro conn' pp' key' ⟨hfirst, -, -⟩
      rw [hnone] at hfirst
      cases hfirst

/-- For every list of friends, connections of any apps and options, where apps are registered under
their own ids and versions: each friend's answer is right, every app keeps its rooms and its
lobbies, but for pointers to rooms that are gone at the ends of the lobbies' lists, and what is
broadcast as deleted is not a room of its app. -/
theorem find_friends_sound (hnamed : ∀ key, ((apps key).id, (apps key).version) = key)
    (hheld : ∀ key, (apps key).Held (holders key)) (friends : List String) :
    (findFriends h options connections friends apps).Sound h options connections apps holders
      friends := by
  have hloop : ∀ (before friends : List String) (search : FriendSearch),
      search.Sound h options connections apps holders before →
      (friends.foldl (FriendSearch.find h options connections) search).Sound h options connections
        apps holders (before ++ friends) := by
    intro before friends
    induction friends generalizing before with
    | nil =>
      intro search hs
      rw [List.append_nil]
      exact hs
    | cons friendId friends ih =>
      intro search hs
      have hrest := ih (before ++ [friendId]) _ (hs.find hnamed friendId)
      rwa [List.append_assoc] at hrest
  exact hloop [] friends { apps }
    ⟨.nil, fun key => App.Trailed.refl (apps key), hheld, fun info hinfo =>
      absurd hinfo List.not_mem_nil⟩

/-- Someone is in the default lobby, without rooms, of every app. -/
def watchedApps : Apps := fun key =>
  ({ id := key.1, version := key.2 } : App).getLobby ("", 0)

/-- Bob has an invitation to a room that is not there. -/
def invitedBob : FriendConnection where
  peer := 2
  persistent := some
    { userId := "bob", token := "b", app := some ("app", "1.0")
      invitation := some
        { id := "room", appId := "app", appVersion := "1.0", lobbyName := "", lobbyType := 0
          serverAddress := "" } }

/-- Bob is asked for twice, and Carol has no connection. -/
theorem find_friends_sound_bob :
    (findFriends (fun _ => .unused) {} [invitedBob] ["bob", "carol", "bob"] watchedApps).Sound
      (fun _ => .unused) {} [invitedBob] watchedApps
      (fun _ => Function.update (fun _ => 0) ("", 0) 1) ["bob", "carol", "bob"] :=
  find_friends_sound
    (fun key => by
      obtain ⟨_, hframe⟩ :=
        App.getLobby_frame ("", 0) ({ id := key.1, version := key.2 } : App)
      simp only [hframe])
    (fun _ => (App.Held.of_isEmpty ⟨rfl, rfl, rfl⟩).getLobby _) _

-- Every lookup of the room leaves a pointer in the lobby's list, which counts as a room.
example :
    ((findFriends (fun _ => .unused) {} [invitedBob] ["bob", "carol", "bob"] watchedApps).apps
      ("app", "1.0")).getGameCount = 2 := by decide

end Search

end LuxonServer
