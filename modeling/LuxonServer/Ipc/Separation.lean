import LuxonServer.Ipc.Star

/-! Whose room is whose in a star of processes: rooms of one id in several processes, and the
messages about them that meet. -/

namespace LuxonServer

namespace App

variable {app : App}

/-- A request for a room finds one with the id, makes one, or does neither. -/
theorem made_cases (hn : app.Named) (lobby : LobbyId) (id address : String) (orGet : Bool) :
    let made := (app.getLobby lobby).createGame lobby id address orGet
    let after := made.2.1.releaseLobby lobby
    after.Named ∧ after.settings = app.settings ∧
      ((∀ ref, after.live.lookup ref = app.live.lookup ref) ∧ after.nextRef = app.nextRef ∧
          (∀ ref, made.1 = .ok (some ref) → ∃ g, app.live.lookup ref = some g ∧ g.info.id = id) ∨
        made.1 = .ok (some app.nextRef) ∧ after.nextRef = app.nextRef + 1 ∧
          ∃ info : GameInfo, info.id = id ∧ ∀ ref, after.live.lookup ref =
            if ref = app.nextRef then some { info } else app.live.lookup ref) := by
  intro made after
  have hget := hn.getLobby lobby
  have hmade := hget.createGame (mem_getLobby lobby app) id address orGet
  obtain ⟨_, hframe⟩ := getLobby_frame lobby app
  obtain ⟨_, hrelease⟩ := releaseLobby_frame lobby made.2.1
  have hlive : after.live = made.2.1.live := by rw [show after = _ from hrelease]
  have hnext : after.nextRef = made.2.1.nextRef := by rw [show after = _ from hrelease]
  have hsettings : after.settings = made.2.1.settings := by rw [show after = _ from hrelease]
  refine ⟨hmade.releaseLobby lobby, ?_, ?_⟩
  · obtain ⟨_, _, _, _, hcreate⟩ := createGame_frame lobby id address orGet (app.getLobby lobby)
    rw [hsettings, show made.2.1 = _ from hcreate, hframe]
  rcases createGame_made lobby id address orGet (app.getLobby lobby) with heq | ⟨-, heq⟩
  · have hsame : made.2.1 = app.getLobby lobby := congrArg Prod.fst heq
    rw [hlive, hnext, hsame]
    refine Or.inl ⟨fun _ => by rw [hframe], by rw [hframe], fun ref hok => ?_⟩
    obtain ⟨⟨g, hg, hgid⟩, -⟩ := hget.lookup_createGame lobby id address orGet ref hok
    rw [show ((app.getLobby lobby).createGame lobby id address orGet).2.1 = _ from hsame,
      hframe] at hg
    exact ⟨g, hg, hgid⟩
  · obtain ⟨_, hadd⟩ := addGame_frame lobby id address (app.getLobby lobby)
    rw [hlive, hnext, show made = _ from heq, hadd, hframe]
    refine Or.inr ⟨rfl, rfl, (app.newGame lobby id address).info, rfl, fun ref => ?_⟩
    simp only [AList.lookup_insert_eq]
    rfl

end App

namespace Game

/-- A room sends messages of its own name only. -/
theorem info_of_mem_receiveUpdate {settings : AppSettings} {isNew : Bool} {m message : GameUpdate}
    {g : Game}
    (hmessage : message ∈ (g.receiveUpdate settings isNew m).2.filterMap Effect.message?) :
    message.info = g.info := by
  have hinfo := Process.info_receiveUpdate settings isNew m g
  unfold receiveUpdate at hmessage hinfo
  split at hmessage
  · next haccepts =>
    rw [if_pos haccepts] at hinfo
    unfold applyUpdate applyUpdateProps at hmessage hinfo
    split at hmessage
    · cases hmessage
    · next props hprops =>
      simp only [hprops] at hinfo
      rw [Room.message_insertGameProps hmessage]
      exact hinfo
  · cases hmessage

/-- An update brings no one into the room. -/
theorem peers_receiveUpdate (settings : AppSettings) (isNew : Bool) (m : GameUpdate) (g : Game) :
    (g.receiveUpdate settings isNew m).1.peers = g.peers := by
  refine receiveUpdate_induction (P := fun g' => g'.peers = g.peers) rfl (fun _ h => h)
    (fun g' users h => ?_) (fun _ _ h => h) (fun g' g'' h hprops => ?_) settings isNew
  · obtain ⟨_, _, _, _, _, _, heq⟩ := seatsOnly_replaceExpectedUsers users g'
    rw [heq]
    exact h
  · obtain ⟨_, _, _, _, _, _, _, _, _, rfl⟩ := hprops
    exact h

end Game

namespace Process

variable {p : Process}

theorem tracked_congr {p p' : Process} (hgames : p'.externalGames = p.externalGames)
    (hlive : ∀ ref, p'.app.live.lookup ref = p.app.live.lookup ref) (info : GameInfo) :
    p'.tracked info = p.tracked info := by
  unfold tracked
  rw [hgames]
  exact congrArg p.externalGames.find? (funext fun ref => by rw [hlive])

/-- A process that does not track the room of an update tracks none for it, or begins to track one
that was there or that it makes. -/
theorem trackGame_found (hn : p.app.Named) (m : GameUpdate) :
    let after := (p.trackGame m).2.1
    (p.trackGame m).2.2.filterMap Effect.message? = [] ∧
      ((p.trackGame m).1 = none ∧ after.externalGames = p.externalGames ∧
          p.app.nextRef ≤ after.app.nextRef ∧
          (∀ ref, after.app.live.lookup ref = p.app.live.lookup ref) ∨
        ∃ ref g, (p.trackGame m).1 = some ref ∧
          after.externalGames = p.externalGames ++ [ref] ∧ g.info.id = m.info.id ∧
          (p.app.live.lookup ref = some g ∨ ref = p.app.nextRef ∧ g.peers = []) ∧
          p.app.nextRef ≤ after.app.nextRef ∧
          ∀ other, after.app.live.lookup other =
            if other = ref then some g else p.app.live.lookup other) := by
  intro after
  by_cases happ : m.info.appId ≠ p.app.id ∨ m.info.appVersion ≠ p.app.version
  · have heq : p.trackGame m = (none, p, []) := if_pos happ
    simp [after, heq]
  by_cases haddress : m.info.serverAddress = ""
  · have heq : p.trackGame m =
        (none, { p with app := (p.app.getLobby m.lobbyId).releaseLobby m.lobbyId }, []) := by
      rw [trackGame, if_neg happ, if_pos haddress]
    obtain ⟨_, hsame⟩ := App.getLobby_releaseLobby_frame m.lobbyId p.app
    simp [after, heq, hsame]
  have hmade := App.made_cases hn m.lobbyId m.info.id m.info.serverAddress true
  have heffects : ((p.app.getLobby m.lobbyId).createGame m.lobbyId m.info.id m.info.serverAddress
      true).2.2.filterMap Effect.message? = [] := by
    rcases App.createGame_result m.lobbyId m.info.id m.info.serverAddress true
      (p.app.getLobby m.lobbyId) with heq | ⟨-, heq⟩ <;> rw [heq] <;> rfl
  have htrack : p.trackGame m = _ := (if_neg happ).trans (if_neg haddress)
  simp only [after, htrack]
  generalize (p.app.getLobby m.lobbyId).createGame m.lobbyId m.info.id m.info.serverAddress true =
    made at hmade heffects ⊢
  obtain ⟨result, app, effects⟩ := made
  obtain ⟨-, -, hmade⟩ := hmade
  split
  · next ref app effects heq =>
    cases heq
    refine ⟨heffects, Or.inr ?_⟩
    rcases hmade with ⟨hlive, hnext, hfound⟩ | ⟨hnew, hnext, info, hid, hlive⟩
    · obtain ⟨g, hg, hgid⟩ := hfound ref rfl
      refine ⟨ref, g, rfl, rfl, hgid, Or.inl hg, hnext.ge, fun other => ?_⟩
      rw [hlive]
      split
      · next hother => rw [hother, hg]
      · rfl
    · obtain rfl := Option.some.inj (Except.ok.inj hnew)
      exact ⟨_, { info }, rfl, rfl, hid, Or.inr ⟨rfl, rfl⟩, by rw [hnext]; exact Nat.le_succ _,
        hlive⟩
  · next hnot heq =>
    cases heq
    refine ⟨heffects, Or.inl ⟨rfl, rfl, ?_⟩⟩
    rcases hmade with ⟨hlive, hnext, -⟩ | ⟨hnew, -⟩
    · exact ⟨hnext.ge, hlive⟩
    · exact (hnot _ hnew).elim

/-- What becomes of a process that looks for the room of an update: it has none and makes none, it
tracks the room already, or it begins to. -/
theorem findGame_cases (hn : p.app.Named) (m : GameUpdate) :
    let after := (p.findGame m).2.1
    (p.findGame m).2.2.filterMap Effect.message? = [] ∧
      ((p.findGame m).1 = none ∧ p.tracked m.info = none ∧ after.tracked m.info = none ∧
          after.externalGames = p.externalGames ∧ p.app.nextRef ≤ after.app.nextRef ∧
          (∀ ref, after.app.live.lookup ref = p.app.live.lookup ref) ∨
        (∃ ref, p.tracked m.info = some ref ∧ (p.findGame m).1 = some (ref, false) ∧ after = p) ∨
        ∃ ref g, p.tracked m.info = none ∧ (p.findGame m).1 = some (ref, true) ∧
          after.externalGames = p.externalGames ++ [ref] ∧ g.info.id = m.info.id ∧
          (p.app.live.lookup ref = some g ∨ ref = p.app.nextRef ∧ g.peers = []) ∧
          p.app.nextRef ≤ after.app.nextRef ∧
          ∀ other, after.app.live.lookup other =
            if other = ref then some g else p.app.live.lookup other) := by
  intro after
  cases htracked : p.tracked m.info with
  | some ref =>
    have heq : p.findGame m = (some (ref, false), p, []) := by rw [findGame, htracked]
    simp only [after, heq]
    exact ⟨rfl, Or.inr (Or.inl ⟨ref, rfl, rfl, trivial⟩)⟩
  | none =>
    have heq : p.findGame m =
        ((p.trackGame m).1.map fun ref => (ref, true), (p.trackGame m).2) := by
      rw [findGame, htracked]
    obtain ⟨heffects, hfound⟩ := trackGame_found hn m
    simp only [after, heq]
    refine ⟨heffects, ?_⟩
    rcases hfound with ⟨hnone, hgames, hnext, hlive⟩ | ⟨ref, g, href, hgames, hid, hg, hnext, hlive⟩
    · refine Or.inl ⟨by rw [hnone]; rfl, trivial, ?_, hgames, hnext, hlive⟩
      rw [tracked_congr hgames hlive, htracked]
    · exact Or.inr (Or.inr ⟨ref, g, trivial, by rw [href]; rfl, hgames, hid, hg, hnext, hlive⟩)

theorem lookup_of_tracked {info : GameInfo} {ref : GameRef} (href : p.tracked info = some ref) :
    ref ∈ p.externalGames ∧ ∃ g, p.app.live.lookup ref = some g ∧ g.info.id = info.id := by
  have hmatches := List.find?_some href
  obtain ⟨g, hg, hid⟩ := (Option.any_eq_true _ _).mp hmatches
  simp only [Game.matchesGameInfo, Bool.and_eq_true, beq_iff_eq] at hid
  exact ⟨List.mem_of_find?_eq_some href, g, hg, hid.1.1.symm⟩

/-- What becomes of the rooms of a process with an update: there is none for it, or the one for it
is tracked then, and no other room changes. -/
theorem processGameUpdate_cases (hn : p.app.Named) (m : GameUpdate) :
    let after := (p.processGameUpdate m).1
    (∀ message ∈ (p.processGameUpdate m).2.filterMap Effect.message?,
        message.info.id = m.info.id) ∧
      p.app.nextRef ≤ after.app.nextRef ∧
      (after.tracked m.info = none ∧ after.externalGames = p.externalGames ∧
          (∀ ref, after.app.live.lookup ref = p.app.live.lookup ref) ∨
        ∃ ref g', after.tracked m.info = some ref ∧ g'.info.id = m.info.id ∧
          (p.tracked m.info = some ref ∧ after.externalGames = p.externalGames ∨
            p.tracked m.info = none ∧ after.externalGames = p.externalGames ++ [ref]) ∧
          ((∃ g, p.app.live.lookup ref = some g ∧ g.info.id = m.info.id ∧ g'.peers = g.peers) ∨
            ref = p.app.nextRef ∧ g'.peers = []) ∧
          ∀ other, after.app.live.lookup other =
            if other = ref then some g' else p.app.live.lookup other) := by
  obtain ⟨heffects, hcases⟩ := findGame_cases hn m
  obtain ⟨-, -, hspec⟩ := findGame_spec hn m
  unfold processGameUpdate
  generalize p.findGame m = found at heffects hcases hspec ⊢
  obtain ⟨result, p', effects⟩ := found
  simp only at heffects hcases hspec
  rcases hcases with ⟨rfl, hnone, hnone', hgames, hnext, hlive⟩ | hfound
  · simp only
    rw [heffects]
    exact ⟨by simp, hnext, Or.inl ⟨hnone', hgames, hlive⟩⟩
  -- the room that is found, as it is when the update is applied to it
  have hroom : ∃ ref g isNew, result = some (ref, isNew) ∧ p'.app.live.lookup ref = some g ∧
      g.info.id = m.info.id ∧ p.app.nextRef ≤ p'.app.nextRef ∧
      (p.tracked m.info = some ref ∧ p'.externalGames = p.externalGames ∨
        p.tracked m.info = none ∧ p'.externalGames = p.externalGames ++ [ref]) ∧
      (p.app.live.lookup ref = some g ∨ ref = p.app.nextRef ∧ g.peers = []) ∧
      ∀ other, other ≠ ref → p'.app.live.lookup other = p.app.live.lookup other := by
    rcases hfound with ⟨ref, htracked, rfl, rfl⟩ |
      ⟨ref, g, htracked, rfl, hgames, hid, hg, hnext, hlive⟩
    · obtain ⟨-, g, hg, hid⟩ := lookup_of_tracked htracked
      exact ⟨ref, g, false, rfl, hg, hid, le_rfl, Or.inl ⟨htracked, rfl⟩, Or.inl hg,
        fun _ _ => rfl⟩
    · refine ⟨ref, g, true, rfl, by rw [hlive, if_pos rfl], hid, hnext,
        Or.inr ⟨htracked, hgames⟩, hg, fun other hne => ?_⟩
      rw [hlive, if_neg hne]
  obtain ⟨ref, g, isNew, rfl, hg, hid, hnext, hgames, hbefore, hothers⟩ := hroom
  have hinfo := info_receiveUpdate p'.app.settings isNew m g
  simp only [updateGame, hg, List.filterMap_append, heffects, List.nil_append]
  refine ⟨fun message hmessage => ?_, hnext, Or.inr ⟨ref,
    (g.receiveUpdate p'.app.settings isNew m).1, ?_, ?_, hgames, ?_, fun other => ?_⟩⟩
  · rw [Game.info_of_mem_receiveUpdate hmessage, hid]
  · rw [tracked_insert hg hinfo]
    exact hspec _ rfl
  · rw [hinfo, hid]
  · rw [Game.peers_receiveUpdate]
    exact hbefore.imp_left fun hg => ⟨g, hg, hid, rfl⟩
  · rw [AList.lookup_insert_eq]
    split
    · rfl
    · next hne => exact hothers other hne

end Process

/-- What is true of a message between two processes of the star: an update is on its way from the
process that its room belongs to. -/
def Parcel.Travels (sender receiver : Node) (parcel : Parcel) : Prop :=
  starLinked sender receiver = true ∧ ∀ m, parcel.message = .gameUpdate m →
    parcel.owner ≠ receiver ∧ (sender ≠ none → parcel.owner = sender)

namespace Site

/-- A room with this id is `owner`'s, or mirrors one of `owner`. -/
def Owns (id : String) (owner : Node) (site : Site) : Prop :=
  ∃ ref g, site.app.live.lookup ref = some g ∧ g.info.id = id ∧ site.owner ref = some owner

/-- The links of a process in a star. -/
def Linked (node : Node) (sm : ServerManager) : Prop :=
  (node = none → sm.parentIpc = false) ∧ (node ≠ none → sm.subprocesses = ∅)

/-- What holds of a process by itself: it tracks rooms of other processes only, and the rooms that
its own clients are in are its own. -/
structure Sound (node : Node) (site : Site) : Prop where
  named : site.app.Named
  links : Linked node site.manager
  external : ∀ ref ∈ site.manager.process.externalGames,
    ∃ owner, site.owner ref = some owner ∧ owner ≠ node
  played : ∀ ref g, site.app.live.lookup ref = some g → g.peers ≠ [] →
    site.owner ref = some node
  bound : ∀ peer ref, site.bound.lookup peer = some ref → site.owner ref = some node
  fresh : ∀ ref, site.app.nextRef ≤ ref → site.owner ref = none

variable {node : Node} {site site' : Site}

/-- A change that gives no room to anyone. -/
theorem Sound.of_rooms (hs : site.Sound node) (hnamed : site'.app.Named)
    (hlinks : Linked node site'.manager)
    (hgames : ∀ ref ∈ site'.manager.process.externalGames,
      ref ∈ site.manager.process.externalGames)
    (howner : site'.owner = site.owner)
    (hbound : ∀ peer ref, site'.bound.lookup peer = some ref → site.bound.lookup peer = some ref)
    (hnext : site.app.nextRef ≤ site'.app.nextRef)
    (hrooms : ∀ ref g', site'.app.live.lookup ref = some g' →
      (∃ g, site.app.live.lookup ref = some g ∧ g'.info.id = g.info.id ∧
        (g'.peers ≠ [] → g.peers ≠ [] ∨ site.owner ref = some node)) ∨
      ref = site.app.nextRef ∧ g'.peers = []) :
    site'.Sound node ∧ ∀ id owner, site'.Owns id owner → site.Owns id owner := by
  refine ⟨⟨hnamed, hlinks, ?_, ?_, ?_, ?_⟩, ?_⟩
  · intro ref href
    rw [howner]
    exact hs.external ref (hgames ref href)
  · intro ref g' hg' hpeers
    rw [howner]
    rcases hrooms ref g' hg' with ⟨g, hg, -, hplayed⟩ | ⟨-, hempty⟩
    · rcases hplayed hpeers with hold | hown
      · exact hs.played ref g hg hold
      · exact hown
    · exact absurd hempty hpeers
  · intro peer ref href
    rw [howner]
    exact hs.bound peer ref (hbound peer ref href)
  · intro ref href
    rw [howner]
    exact hs.fresh ref (hnext.trans href)
  · rintro id owner ⟨ref, g', hg', hid, hown⟩
    rw [howner] at hown
    rcases hrooms ref g' hg' with ⟨g, hg, hsame, -⟩ | ⟨rfl, -⟩
    · exact ⟨ref, g, hg, by rw [← hsame, hid], hown⟩
    · rw [hs.fresh _ le_rfl] at hown
      cases hown

theorem Sound.skip (hs : site.Sound node) (skip : Option IpcLink) :
    Sound node { site with manager := { site.manager with ipcBroadcastSkip := skip } } :=
  ⟨hs.named, hs.links, hs.external, hs.played, hs.bound, hs.fresh⟩

/-- A process changes, and sends; whatever it comes to say about rooms it could say before, or
`Claim` is about. -/
structure Change (node : Node) (Claim : String → Node → Prop) (site : Site)
    (after : Site × List (Node × Parcel)) : Prop where
  sound : after.1.Sound node
  owns : ∀ id owner, after.1.Owns id owner → site.Owns id owner ∨ Claim id owner
  travels : ∀ receiver parcel, (receiver, parcel) ∈ after.2 → parcel.Travels node receiver
  sent : ∀ receiver parcel id, (receiver, parcel) ∈ after.2 → parcel.message.roomId = some id →
    site.Owns id parcel.owner ∨ Claim id parcel.owner

/-- A change of the rooms of a process that sends nothing. -/
theorem Change.of_silent {Claim : String → Node → Prop}
    (h : site'.Sound node ∧ ∀ id owner, site'.Owns id owner → site.Owns id owner) :
    Change node Claim site (site', []) where
  sound := h.1
  owns id owner hown := Or.inl (h.2 id owner hown)
  travels _ _ hsent := by cases hsent
  sent _ _ _ hsent := by cases hsent

/-- A broadcast goes to processes of the star, and to all but the one that is skipped. -/
theorem linked_of_mem_ipcBroadcast {sm : ServerManager} (hlinks : Linked node sm)
    {message : IpcMessage} {entry : IpcLink × IpcMessage}
    (hentry : entry ∈ sm.ipcBroadcast message) :
    entry.2 = message ∧ starLinked node entry.1.target = true ∧
      some entry.1 ≠ sm.ipcBroadcastSkip ∧ (node = none → entry.1 ≠ .parent) := by
  obtain ⟨link, hlink, rfl⟩ := List.mem_map.mp hentry
  obtain ⟨hmem, hopen⟩ := List.mem_filter.mp hlink
  simp only [decide_eq_true_eq] at hopen
  refine ⟨rfl, ?_⟩
  rcases List.mem_cons.mp hmem with rfl | hchild
  · cases node with
    | none => cases (hlinks.1 rfl).symm.trans hopen.2
    | some port => exact ⟨rfl, hopen.1, fun h => by cases h⟩
  · obtain ⟨child, hchild, rfl⟩ := List.mem_map.mp hchild
    cases node with
    | none => exact ⟨rfl, hopen.1, fun _ h => by cases h⟩
    | some port =>
      rw [hlinks.2 (by simp)] at hchild
      cases hchild

/-- Whether the process comes to speak for a room with this id: a client is bound to it that was not
the process's before, or it goes and nobody has ever been in it. -/
def Claims (node : Node) (site : Site) (op : SiteOp) (id : String) : Prop :=
  match op with
  | .authenticate _ invitation =>
    id = invitation.id ∧ ∃ ref, (Host.getGame (some invitation) site.app).1 = some ref ∧
      ref ∉ site.manager.process.externalGames ∧ site.owner ref ≠ some node
  | .dropGame ref => ∃ g, site.app.live.lookup ref = some g ∧ g.info.id = id ∧
      site.owner ref = none
  | _ => False

section Performing

theorem sound_connection (hs : site.Sound node) (peer : PeerRef) (slot : PeerSlot) :
    let site' := { site with manager := site.manager.step (.connection peer slot) }
    site'.Sound node ∧ ∀ id owner, site'.Owns id owner → site.Owns id owner :=
  hs.of_rooms hs.named hs.links (fun _ href => href) rfl (fun _ _ href => href) le_rfl
    fun _ g' hg' => Or.inl ⟨g', hg', rfl, Or.inl⟩

theorem sound_disconnect (hs : site.Sound node) (peer : PeerRef) :
    let site' := { site with bound := site.bound.erase peer }
    site'.Sound node ∧ ∀ id owner, site'.Owns id owner → site.Owns id owner := by
  refine hs.of_rooms hs.named hs.links (fun _ href => href) rfl (fun other ref href => ?_) le_rfl
    fun _ g' hg' => Or.inl ⟨g', hg', rfl, Or.inl⟩
  simp only [AList.lookup_erase_eq] at href
  split at href
  · cases href
  · exact href

theorem sound_createGame (hs : site.Sound node) (lobby : LobbyId) (id address : String)
    (orGet : Bool) :
    let app := ((site.app.getLobby lobby).createGame lobby id address orGet).2.1.releaseLobby lobby
    let site' := { site with manager := site.manager.setApp app }
    site'.Sound node ∧ ∀ id owner, site'.Owns id owner → site.Owns id owner := by
  obtain ⟨hnamed, -, hmade⟩ := App.made_cases hs.named lobby id address orGet
  refine hs.of_rooms hnamed hs.links (fun _ href => href) rfl (fun _ _ href => href) ?_ ?_
  · rcases hmade with ⟨-, hnext, -⟩ | ⟨-, hnext, -⟩
    · exact hnext.ge
    · exact (Nat.le_succ _).trans hnext.ge
  · intro ref g' hg'
    rcases hmade with ⟨hlive, -, -⟩ | ⟨-, -, info, -, hlive⟩
    · exact Or.inl ⟨g', (hlive ref).symm.trans hg', rfl, Or.inl⟩
    · have hlookup := (hlive ref).symm.trans hg'
      split at hlookup
      · next href =>
        cases hlookup
        exact Or.inr ⟨href, rfl⟩
      · exact Or.inl ⟨g', hlookup, rfl, Or.inl⟩

/-- An operation on a room of the process itself, or one that lets no one in. -/
theorem sound_room (hs : site.Sound node) (ref : GameRef) (op : RoomOp)
    (hplayed : ∀ g, site.app.live.lookup ref = some g →
      (Room.step site.app.settings ⟨site.manager.heap, g, site.manager.handedOut ref⟩
        op).game.peers ≠ [] → g.peers ≠ [] ∨ site.owner ref = some node) :
    let site' := { site with manager := site.manager.step (.room ref op) }
    site'.Sound node ∧ ∀ id owner, site'.Owns id owner → site.Owns id owner := by
  have hnamed := ServerManager.named_perform { site.manager with ipcBroadcastSkip := none } hs.named
    (.room ref op)
  cases hg : site.app.live.lookup ref with
  | none =>
    have hstep : site.manager.step (.room ref op) =
        { site.manager with ipcBroadcastSkip := none } := by
      have hnone : site.manager.process.app.live.lookup ref = none := hg
      simp only [ServerManager.step, ServerManager.perform, hnone]
    simp only [hstep]
    exact hs.of_rooms hs.named hs.links (fun _ href => href) rfl (fun _ _ href => href) le_rfl
      fun _ g' hg' => Or.inl ⟨g', hg', rfl, Or.inl⟩
  | some g =>
    have hsome : site.manager.process.app.live.lookup ref = some g := hg
    simp only [ServerManager.step]
    simp only [ServerManager.perform, hsome] at hnamed ⊢
    refine hs.of_rooms hnamed hs.links (fun _ href => href) rfl (fun _ _ href => href) le_rfl ?_
    intro other g' hg'
    have hlookup : (site.app.live.insert ref _).lookup other = some g' := hg'
    rw [AList.lookup_insert_eq] at hlookup
    split at hlookup
    · next hother =>
      cases hlookup
      exact Or.inl ⟨g, hother ▸ hg, congrArg GameInfo.id (Room.info_step _ _ _),
        hother ▸ hplayed g hg⟩
    · exact Or.inl ⟨g', hlookup, rfl, Or.inl⟩

/-- Reservations bring no one into the room. -/
theorem peers_step_of_isReservation {op : RoomOp} (hop : op.isReservation = true)
    (settings : AppSettings) (s : Room) : (s.step settings op).game.peers = s.game.peers := by
  unfold Room.step
  split
  · have hseats : Game.SeatsOnly s.game (s.perform settings op).game := by
      cases op with
      | reserveExpectedUser userId ttlMs => exact Game.seatsOnly_reserve userId ttlMs s.game
      | removeExpectedUser userId => exact Game.seatsOnly_remove userId s.game
      | removeExpectedUserIfGeneration userId generation =>
        exact Game.seatsOnly_removeIfGeneration userId generation s.game
      | runScheduledTask task => exact Game.seatsOnly_runScheduledTask task s.game
      | _ => cases hop
    obtain ⟨_, _, _, _, _, _, heq⟩ := hseats
    rw [heq]
  · rfl

theorem ne_of_starLinked {a b : Node} (hlinked : starLinked a b = true) : a ≠ b := by
  rintro rfl
  cases a <;> cases hlinked

/-- A client of the room's own process changes it, and the process sends the room as it is. -/
theorem change_play (hs : site.Sound node) (Claim : String → Node → Prop) (peer : PeerRef)
    (op : RoomOp × Bool) : Change node Claim site (site.play node peer op) := by
  unfold play
  split
  · exact .of_silent ⟨hs, fun _ _ hown => hown⟩
  · next ref g hroom =>
    obtain ⟨ref', href, hmap⟩ := Option.bind_eq_some_iff.mp hroom
    obtain ⟨g', hg, heq⟩ := Option.map_eq_some_iff.mp hmap
    cases heq
    have hown := hs.bound peer ref href
    obtain ⟨hsound, howns⟩ := sound_room hs ref op.1 fun _ _ _ => Or.inr hown
    have hlinks : Linked node { site.manager with ipcBroadcastSkip := none } := hs.links
    refine ⟨hsound, fun id owner h => Or.inl (howns id owner h), ?_, ?_⟩
    · intro receiver parcel hsent
      obtain ⟨entry, hentry, heq⟩ := List.mem_map.mp hsent
      cases heq
      obtain ⟨m, -, hentry⟩ := List.mem_flatMap.mp hentry
      obtain ⟨-, hlinked, -⟩ := linked_of_mem_ipcBroadcast hlinks hentry
      exact ⟨hlinked, fun _ _ => ⟨ne_of_starLinked hlinked, fun _ => rfl⟩⟩
    · intro receiver parcel id hsent hid
      obtain ⟨entry, hentry, heq⟩ := List.mem_map.mp hsent
      cases heq
      obtain ⟨m, hm, hentry⟩ := List.mem_flatMap.mp hentry
      obtain ⟨hmessage, -⟩ := linked_of_mem_ipcBroadcast hlinks hentry
      have hinfo : m.info = g.info := by
        rw [Room.eq_of_mem_messages hm]
        exact Room.info_step _ _ _
      rw [hmessage] at hid
      cases hid
      exact Or.inl ⟨ref, g, hg, congrArg GameInfo.id hinfo.symm, hown⟩

/-- A client is bound to a room that its process does not track. -/
theorem Sound.bind (hs : site.Sound node) {ref : GameRef} {g : Game}
    (hg : site.app.live.lookup ref = some g)
    (hout : ref ∉ site.manager.process.externalGames) (peer : PeerRef) :
    let site' := { site with
      bound := site.bound.insert peer ref
      owner := Function.update site.owner ref (some node) }
    site'.Sound node ∧ ∀ id owner, site'.Owns id owner →
      site.Owns id owner ∨ g.info.id = id ∧ owner = node := by
  have hlt := hs.named.indexed.sound.fresh ref (AList.mem_iff_lookup.mpr ⟨g, hg⟩)
  refine ⟨⟨hs.named, hs.links, ?_, ?_, ?_, ?_⟩, ?_⟩
  · intro other hother
    have hne : other ≠ ref := fun heq => hout (heq ▸ hother)
    simp only [Function.update_of_ne hne]
    exact hs.external other hother
  · intro other g' hg' hpeers
    by_cases heq : other = ref
    · simp only [heq, Function.update_self]
    · simp only [Function.update_of_ne heq]
      exact hs.played other g' hg' hpeers
  · intro client other hother
    by_cases heq : other = ref
    · simp only [heq, Function.update_self]
    · simp only [AList.lookup_insert_eq] at hother
      split at hother
      · exact absurd (Option.some.inj hother).symm heq
      · simp only [Function.update_of_ne heq]
        exact hs.bound client other hother
  · intro other hother
    have hne : other ≠ ref := fun heq => absurd hlt (Nat.not_lt_of_le (heq ▸ hother))
    simp only [Function.update_of_ne hne]
    exact hs.fresh other hother
  · rintro id owner ⟨other, g', hg', hgid, hown⟩
    by_cases heq : other = ref
    · simp only [heq, Function.update_self, Option.some.injEq] at hown
      obtain rfl := Option.some.inj (hg'.symm.trans (heq ▸ hg))
      exact Or.inr ⟨hgid, hown.symm⟩
    · simp only [Function.update_of_ne heq] at hown
      exact Or.inl ⟨other, g', hg', hgid, hown⟩

/-- The process begins to track a room that none of its clients is in. -/
theorem Sound.track (hs : site.Sound node) {ref : GameRef} {g : Game}
    (hg : site.app.live.lookup ref = some g) {other : Node} (hother : other ≠ node)
    (hunused : site.owner ref ≠ some node) (manager : ServerManager)
    (happ : manager.process.app = site.app) (hlinks : Linked node manager)
    (hgames : ∀ ref' ∈ manager.process.externalGames,
      ref' ∈ site.manager.process.externalGames ∨ ref' = ref) :
    let site' := { site with manager, owner := Function.update site.owner ref (some other) }
    site'.Sound node ∧ ∀ id owner, site'.Owns id owner →
      site.Owns id owner ∨ g.info.id = id ∧ owner = other := by
  have hlt := hs.named.indexed.sound.fresh ref (AList.mem_iff_lookup.mpr ⟨g, hg⟩)
  have hne : ∀ ref', site.owner ref' = some node → ref' ≠ ref :=
    fun ref' hown heq => hunused (heq ▸ hown)
  intro site'
  have hsame : site'.app = site.app := happ
  refine ⟨⟨hsame ▸ hs.named, hlinks, ?_, ?_, ?_, ?_⟩, ?_⟩
  · intro ref' href'
    by_cases heq : ref' = ref
    · exact ⟨other, by simp only [site', heq, Function.update_self], hother⟩
    · simp only [site', Function.update_of_ne heq]
      exact hs.external ref' ((hgames ref' href').resolve_right heq)
  · intro ref' g' hg' hpeers
    have hown := hs.played ref' g' (hsame ▸ hg') hpeers
    simp only [site', Function.update_of_ne (hne ref' hown)]
    exact hown
  · intro peer ref' href'
    have hown := hs.bound peer ref' href'
    simp only [site', Function.update_of_ne (hne ref' hown)]
    exact hown
  · intro ref' href'
    rw [hsame] at href'
    have hlater : ref' ≠ ref := fun heq => absurd hlt (Nat.not_lt_of_le (heq ▸ href'))
    simp only [site', Function.update_of_ne hlater]
    exact hs.fresh ref' href'
  · rintro id owner ⟨ref', g', hg', hgid, hown⟩
    rw [hsame] at hg'
    by_cases heq : ref' = ref
    · simp only [site', heq, Function.update_self, Option.some.injEq] at hown
      obtain rfl := Option.some.inj (hg'.symm.trans (heq ▸ hg))
      exact Or.inr ⟨hgid, hown.symm⟩
    · simp only [site', Function.update_of_ne heq] at hown
      exact Or.inl ⟨ref', g', hg', hgid, hown⟩

/-- A client is bound to a room that becomes, or is, a room of its process. -/
theorem change_authenticate (hs : site.Sound node) {Claim : String → Node → Prop} (peer : PeerRef)
    (invitation : GameInfo)
    (hclaim : ∀ ref, (Host.getGame (some invitation) site.app).1 = some ref →
      ref ∉ site.manager.process.externalGames → site.owner ref ≠ some node →
      Claim invitation.id node) :
    Change node Claim site (site.authenticate node peer invitation, []) := by
  let lobby : LobbyId := (invitation.lobbyName, invitation.lobbyType)
  have hmade := (App.made_cases hs.named lobby invitation.id invitation.serverAddress true).2.2
  obtain ⟨hsound, howns⟩ := sound_createGame hs lobby invitation.id invitation.serverAddress true
  obtain ⟨made, heq⟩ : ∃ made, made = (site.app.getLobby lobby).createGame lobby invitation.id
    invitation.serverAddress true := ⟨_, rfl⟩
  have hget : Host.getGame (some invitation) site.app =
      (made.1.toOption.join, made.2.1.releaseLobby lobby) := by
    rw [heq]
    rfl
  rw [← heq] at hmade hsound howns
  unfold authenticate
  rw [hget] at hclaim ⊢
  cases hresult : made.1.toOption.join with
  | none => exact .of_silent ⟨hsound, howns⟩
  | some ref =>
    simp only
    split
    · exact .of_silent ⟨hsound, howns⟩
    · next hout =>
      have hok : made.1 = .ok (some ref) := by
        cases hmade1 : made.1 with
        | error e => rw [hmade1] at hresult; cases hresult
        | ok result =>
          rw [hmade1] at hresult
          exact congrArg Except.ok hresult
      have hroom : ∃ g, (made.2.1.releaseLobby lobby).live.lookup ref = some g ∧
          g.info.id = invitation.id := by
        rcases hmade with ⟨hlive, -, hfound⟩ | ⟨hnew, -, info, hid, hlive⟩
        · obtain ⟨g, hg, hid⟩ := hfound ref hok
          exact ⟨g, (hlive ref).trans hg, hid⟩
        · obtain rfl := Option.some.inj (Except.ok.inj (hok.symm.trans hnew))
          exact ⟨{ info }, (hlive _).trans (if_pos rfl), hid⟩
      obtain ⟨g, hg, hid⟩ := hroom
      obtain ⟨hbound, hmore⟩ := hsound.bind hg hout peer
      refine ⟨hbound, fun id owner hown => ?_, fun _ _ hsent => (by cases hsent),
        fun _ _ _ hsent => (by cases hsent)⟩
      rcases hmore id owner hown with hbefore | ⟨rfl, rfl⟩
      · exact Or.inl (howns id owner hbefore)
      · by_cases howner : site.owner ref = some owner
        · exact Or.inl (howns _ _ ⟨ref, g, hg, rfl, howner⟩)
        · rw [hid]
          exact Or.inr (hclaim ref hresult hout howner)

/-- The last pointer to a room is dropped, and the others are told of it. -/
theorem sound_dropGame (hs : site.Sound node) (ref : GameRef) :
    let site' := { site with manager := (site.manager.dropGame ref).1 }
    (site'.Sound node ∧ ∀ id owner, site'.Owns id owner → site.Owns id owner) ∧
      ∀ entry ∈ (site.manager.dropGame ref).2.sent, ∃ g, site.app.live.lookup ref = some g ∧
        entry.2 = .gameDelete g.info ∧ starLinked node entry.1.target = true := by
  have hnamed := ServerManager.named_dropGame hs.named ref
  unfold ServerManager.dropGame at hnamed ⊢
  split
  · exact ⟨⟨hs, fun _ _ hown => hown⟩, fun _ hentry => by cases hentry⟩
  · next hout =>
    rw [if_neg hout] at hnamed
    cases hg : site.manager.process.app.live.lookup ref with
    | none => exact ⟨⟨hs, fun _ _ hown => hown⟩, fun _ hentry => by cases hentry⟩
    | some g =>
      simp only [hg] at hnamed ⊢
      obtain ⟨⟨_, hframe⟩, -, -⟩ := App.dropGame_spec hg
      refine ⟨hs.of_rooms hnamed hs.links (fun _ href => href) rfl (fun _ _ href => href) ?_ ?_, ?_⟩
      · show site.manager.process.app.nextRef ≤ (site.manager.process.app.dropGame ref).1.nextRef
        rw [hframe]
      · intro other g' hg'
        have hlookup : (site.manager.process.app.dropGame ref).1.live.lookup other = some g' := hg'
        rw [hframe, AList.lookup_erase_eq] at hlookup
        split at hlookup
        · cases hlookup
        · exact Or.inl ⟨g', hlookup, rfl, Or.inl⟩
      · intro entry hentry
        obtain ⟨hmessage, hlinked, -⟩ := linked_of_mem_ipcBroadcast hs.links hentry
        exact ⟨g, hg, hmessage, hlinked⟩

theorem change_dropGame (hs : site.Sound node) {Claim : String → Node → Prop} (ref : GameRef)
    (hclaim : ∀ g, site.app.live.lookup ref = some g → site.owner ref = none →
      Claim g.info.id node) : Change node Claim site (site.perform node (.dropGame ref)) := by
  simp only [perform]
  split
  · exact .of_silent ⟨hs, fun _ _ hown => hown⟩
  · obtain ⟨⟨hsound, howns⟩, hsent⟩ := sound_dropGame (hs.skip none) ref
    refine ⟨hsound, fun id owner hown => Or.inl (howns id owner hown), ?_, ?_⟩
    · intro receiver parcel hparcel
      obtain ⟨entry, hentry, heq⟩ := List.mem_map.mp hparcel
      cases heq
      obtain ⟨g, hg, hmessage, hlinked⟩ := hsent entry hentry
      refine ⟨hlinked, fun m hm => ?_⟩
      rw [hmessage] at hm
      cases hm
    · intro receiver parcel id hparcel hid
      obtain ⟨entry, hentry, heq⟩ := List.mem_map.mp hparcel
      cases heq
      obtain ⟨g, hg, hmessage, hlinked⟩ := hsent entry hentry
      rw [hmessage] at hid
      cases hid
      cases howner : site.owner ref with
      | none => exact Or.inr (hclaim g hg howner)
      | some owner => exact Or.inl ⟨ref, g, hg, rfl, howner⟩

theorem change_perform (hs : site.Sound node) (op : SiteOp) :
    Change node (fun id owner => site.Claims node op id ∧ owner = node) site
      (site.perform node op) := by
  cases op with
  | connection peer slot => exact .of_silent (sound_connection hs peer slot)
  | createGame lobby id address orGet =>
    exact .of_silent (sound_createGame (hs.skip none) lobby id address orGet)
  | reserve ref op =>
    simp only [perform]
    split
    · next hop =>
      exact .of_silent (sound_room hs ref op fun g _ hpeers =>
        Or.inl (by rwa [peers_step_of_isReservation hop] at hpeers))
    · exact .of_silent ⟨hs, fun _ _ hown => hown⟩
  | authenticate peer invitation =>
    exact change_authenticate hs peer invitation fun ref href hout howner =>
      ⟨⟨rfl, ref, href, hout, howner⟩, rfl⟩
  | play peer op trigger =>
    simp only [perform]
    split
    · exact change_play hs _ peer (op, trigger)
    · exact .of_silent ⟨hs, fun _ _ hown => hown⟩
  | disconnect peer => exact .of_silent (sound_disconnect hs peer)
  | dropGame ref =>
    exact change_dropGame hs ref fun g hg howner => ⟨⟨g, hg, rfl, howner⟩, rfl⟩

end Performing

section Receiving

variable {sender : Node} {parcel : Parcel}

theorem toward_target (link : IpcLink) : IpcLink.toward link.target = link := by
  cases link <;> rfl

/-- What a process passes on of an update is on its way from the room's process too. -/
theorem travels_of_publish (hlinks : Linked node site.manager)
    (htravels : parcel.Travels sender node) {m : GameUpdate} (hm : parcel.message = .gameUpdate m)
    {effects : List Effect} {entry : IpcLink × IpcMessage}
    (hentry : entry ∈ (({ site.manager with
      ipcBroadcastSkip := some (.toward sender) } : ServerManager).publish effects).sent) :
    (∃ message ∈ effects.filterMap Effect.message?, entry.2 = .gameUpdate message) ∧
      Parcel.Travels node entry.1.target ⟨parcel.owner, entry.2⟩ := by
  obtain ⟨effect, heffect, hentry⟩ := List.mem_flatMap.mp hentry
  cases effect with
  | ipcBroadcast message =>
    have hlinks' : Linked node
        { site.manager with ipcBroadcastSkip := some (.toward sender) } := hlinks
    obtain ⟨hmessage, hlinked, hskip, -⟩ := linked_of_mem_ipcBroadcast hlinks' hentry
    refine ⟨⟨message, List.mem_filterMap.mpr ⟨_, heffect, rfl⟩, hmessage⟩, hlinked, fun _ _ => ?_⟩
    have hne : entry.1.target ≠ sender := by
      rintro rfl
      exact hskip (by rw [toward_target])
    obtain ⟨hfrom, hdirection⟩ := htravels
    cases node with
    | none =>
      have hsender : sender ≠ none := ne_of_starLinked hfrom
      refine ⟨?_, fun h => absurd rfl h⟩
      show parcel.owner ≠ entry.1.target
      rw [(hdirection m hm).2 hsender]
      exact hne.symm
    | some port =>
      -- a subprocess has no one but the sender to pass it on to
      cases sender with
      | none =>
        cases htarget : entry.1.target with
        | none => exact absurd htarget hne
        | some other =>
          rw [htarget] at hlinked
          cases hlinked
      | some other => cases hfrom
  | _ => cases hentry

/-- An update may make the process track a room, and never one that a client of the process is
in. -/
theorem sound_gameUpdate (hs : site.Sound node) (htravels : parcel.Travels sender node)
    {m : GameUpdate} (hm : parcel.message = .gameUpdate m)
    (hsingle : ∀ owner, site.Owns m.info.id owner → owner = parcel.owner) (released : Bool) :
    let site' := (site.receive sender parcel released).1
    site'.Sound node ∧ ∀ id owner, site'.Owns id owner →
      site.Owns id owner ∨ m.info.id = id ∧ owner = parcel.owner := by
  obtain ⟨-, hnext, hrooms⟩ := Process.processGameUpdate_cases hs.named m
  have hnamed := Process.named_processGameUpdate hs.named m
  simp only [receive, hm, ServerManager.processIpcMessage, ServerManager.processIpcEvent]
  generalize (site.manager.process.processGameUpdate m).1 = process at hnext hrooms hnamed ⊢
  obtain ⟨app, games⟩ := process
  -- the process with its rooms as they are afterwards, before it tracks another
  let site₁ : Site := { site with
    manager := { site.manager with
      process := { site.manager.process with app }
      ipcBroadcastSkip := some (.toward sender) } }
  have hchanged : ∀ ref g', app.live.lookup ref = some g' →
      (∃ g, site.app.live.lookup ref = some g ∧ g'.info.id = g.info.id ∧
        (g'.peers ≠ [] → g.peers ≠ [] ∨ site.owner ref = some node)) ∨
      ref = site.app.nextRef ∧ g'.peers = [] := by
    intro other g'' hg''
    rcases hrooms with ⟨-, -, hlive⟩ | ⟨ref, g', -, hid, -, hbefore, hlive⟩
    · exact Or.inl ⟨g'', (hlive other).symm.trans hg'', rfl, Or.inl⟩
    · have hlookup := (hlive other).symm.trans hg''
      split at hlookup
      · next heq =>
        obtain rfl := Option.some.inj hlookup
        rw [heq]
        refine hbefore.imp_left fun ⟨g, hg, hgid, hpeers⟩ => ⟨g, hg, hid.trans hgid.symm, ?_⟩
        rw [hpeers]
        exact Or.inl
      · exact Or.inl ⟨g'', hlookup, rfl, Or.inl⟩
  obtain ⟨hsound, howns⟩ : site₁.Sound node ∧ ∀ id owner, site₁.Owns id owner →
      site.Owns id owner :=
    hs.of_rooms hnamed hs.links (fun _ href => href) rfl (fun _ _ href => href) hnext hchanged
  rcases hrooms with ⟨hnone, hgames, -⟩ | ⟨ref, g', htracked, hid, hgames, hbefore, hlive⟩
  · obtain rfl : games = site.manager.process.externalGames := hgames
    cases hfound : site.manager.process.tracked m.info <;> simp only [hnone] <;>
      exact ⟨hsound, fun id owner hown => Or.inl (howns id owner hown)⟩
  · rcases hgames with ⟨hfound, hgames⟩ | ⟨hfound, hgames⟩
    · obtain rfl : games = site.manager.process.externalGames := hgames
      simp only [hfound]
      exact ⟨hsound, fun id owner hown => Or.inl (howns id owner hown)⟩
    · simp only [hfound, htracked]
      have hlookup : site₁.app.live.lookup ref = some g' := (hlive ref).trans (if_pos rfl)
      have hother : parcel.owner ≠ node := (htravels.2 m hm).1
      have hunused : site.owner ref ≠ some node := by
        intro hown
        rcases hbefore with ⟨g, hg, hgid, -⟩ | ⟨hnew, -⟩
        · exact hother (hsingle node ⟨ref, g, hg, hgid, hown⟩).symm
        · rw [hs.fresh ref (hnew.symm ▸ le_rfl)] at hown
          cases hown
      obtain ⟨htrack, hmore⟩ := hsound.track hlookup hother hunused
        { site₁.manager with process := ⟨app, games⟩ } rfl hs.links
        fun ref' href' => by simpa [show games = _ from hgames] using href'
      refine ⟨htrack, fun id owner hown => ?_⟩
      rcases hmore id owner hown with hold | ⟨hgid, howner⟩
      · exact Or.inl (howns id owner hold)
      · exact Or.inr ⟨hid.symm.trans hgid, howner⟩

theorem change_gameUpdate (hs : site.Sound node) (htravels : parcel.Travels sender node)
    {m : GameUpdate} (hm : parcel.message = .gameUpdate m)
    (hsingle : ∀ owner, site.Owns m.info.id owner → owner = parcel.owner) (released : Bool) :
    Change node (fun id owner => m.info.id = id ∧ owner = parcel.owner) site
      (site.receive sender parcel released) := by
  obtain ⟨hmessages, -, -⟩ := Process.processGameUpdate_cases hs.named m
  obtain ⟨hsound, howns⟩ := sound_gameUpdate hs htravels hm hsingle released
  have hentry : ∀ receiver parcel', (receiver, parcel') ∈ (site.receive sender parcel released).2 →
      parcel'.Travels node receiver ∧ ∀ id, parcel'.message.roomId = some id →
        m.info.id = id ∧ parcel'.owner = parcel.owner := by
    intro receiver parcel' hparcel
    simp only [receive, hm] at hparcel
    obtain ⟨entry, hentry, heq⟩ := List.mem_map.mp hparcel
    cases heq
    obtain ⟨⟨message, hmessage, heq⟩, htravels'⟩ := travels_of_publish hs.links htravels hm hentry
    refine ⟨htravels', fun id hid => ⟨?_, rfl⟩⟩
    rw [heq] at hid
    cases hid
    exact (hmessages message hmessage).symm
  exact ⟨hsound, howns, fun receiver parcel' hparcel => (hentry receiver parcel' hparcel).1,
    fun receiver parcel' id hparcel hid => Or.inr ((hentry receiver parcel' hparcel).2 id hid)⟩

/-- A replica goes out of `external_games_`, and lives on for as long as it has pointers. -/
theorem sound_untrackGame (hs : site.Sound node) (info : GameInfo) :
    let site' := { site with manager := site.manager.untrackGame info }
    (site'.Sound node ∧ ∀ id owner, site'.Owns id owner → site.Owns id owner) ∧
      ∀ ref g', site'.app.live.lookup ref = some g' →
        ∃ g, site.app.live.lookup ref = some g ∧ g'.info = g.info := by
  have hnamed := ServerManager.named_untrackGame hs.named info
  unfold ServerManager.untrackGame at hnamed ⊢
  split
  · exact ⟨⟨hs, fun _ _ hown => hown⟩, fun _ g' hg' => ⟨g', hg', rfl⟩⟩
  · next ref href =>
    simp only [href] at hnamed
    split
    · exact ⟨⟨hs, fun _ _ hown => hown⟩, fun _ g' hg' => ⟨g', hg', rfl⟩⟩
    · next g hg =>
      simp only [hg] at hnamed
      have hrooms : ∀ other g', (site.app.live.insert ref { g with emptyGameTtl := 0 }).lookup
          other = some g' → ∃ g₀, site.app.live.lookup other = some g₀ ∧ g'.info = g₀.info ∧
            g'.peers = g₀.peers := by
        intro other g' hg'
        rw [AList.lookup_insert_eq] at hg'
        split at hg'
        · next heq =>
          cases hg'
          exact ⟨g, heq ▸ hg, rfl, rfl⟩
        · exact ⟨g', hg', rfl, rfl⟩
      refine ⟨hs.of_rooms hnamed hs.links (fun _ href' => List.mem_of_mem_erase href') rfl
        (fun _ _ href' => href') le_rfl fun other g' hg' => ?_, fun other g' hg' => ?_⟩
      · obtain ⟨g₀, hg₀, hinfo, hpeers⟩ := hrooms other g' hg'
        exact Or.inl ⟨g₀, hg₀, congrArg GameInfo.id hinfo, fun h => Or.inl (hpeers ▸ h)⟩
      · obtain ⟨g₀, hg₀, hinfo, -⟩ := hrooms other g' hg'
        exact ⟨g₀, hg₀, hinfo⟩

/-- A `GameDelete` may let a replica go, of which the process says whose room it was. -/
theorem change_gameDelete (hs : site.Sound node) {info : GameInfo}
    (hm : parcel.message = .gameDelete info) (Claim : String → Node → Prop) (released : Bool) :
    Change node Claim site (site.receive sender parcel released) := by
  obtain ⟨⟨hsound, howns⟩, hrooms⟩ := sound_untrackGame (hs.skip (some (.toward sender))) info
  simp only [receive, hm, ServerManager.processIpcMessage, ServerManager.processIpcEvent]
  cases htracked : site.manager.process.tracked info with
  | none =>
    simp only [Option.toList_none, ite_self]
    exact .of_silent ⟨hsound, howns⟩
  | some ref =>
    cases released with
    | false => exact .of_silent ⟨hsound, howns⟩
    | true =>
      obtain ⟨⟨hdropped, hkeeps⟩, hsent⟩ := sound_dropGame hsound ref
      obtain ⟨hmem, -⟩ := Process.lookup_of_tracked htracked
      obtain ⟨owner, howner, -⟩ := hs.external ref hmem
      have hentry : ∀ receiver parcel', (receiver, parcel') ∈ parcels ((some ref).bind site.owner
          |>.getD parcel.owner) (((({ site.manager with
            ipcBroadcastSkip := some (.toward sender) } : ServerManager).untrackGame
              info).dropGame ref).2.sent ++ []) → ∃ g, site.app.live.lookup ref = some g ∧
          parcel' = ⟨owner, .gameDelete g.info⟩ ∧ starLinked node receiver = true := by
        intro receiver parcel' hparcel
        rw [List.append_nil] at hparcel
        obtain ⟨entry, hentry, heq⟩ := List.mem_map.mp hparcel
        cases heq
        obtain ⟨g', hg', hmessage, hlinked⟩ := hsent entry hentry
        obtain ⟨g, hg, hinfo⟩ := hrooms ref g' hg'
        refine ⟨g, hg, ?_, hlinked⟩
        rw [hmessage, hinfo, Option.bind_some, howner]
        rfl
      refine ⟨hdropped, fun id owner hown => Or.inl (howns id owner (hkeeps id owner hown)), ?_, ?_⟩
      · intro receiver parcel' hparcel
        obtain ⟨g, -, rfl, hlinked⟩ := hentry receiver parcel' hparcel
        exact ⟨hlinked, fun m hm => by cases hm⟩
      · intro receiver parcel' id hparcel hid
        obtain ⟨g, hg, rfl, -⟩ := hentry receiver parcel' hparcel
        cases hid
        exact Or.inl ⟨ref, g, hg, rfl, howner⟩

theorem change_receive (hs : site.Sound node) (htravels : parcel.Travels sender node)
    (hsingle : ∀ id owner, parcel.message.roomId = some id → site.Owns id owner →
      owner = parcel.owner) (released : Bool) :
    Change node (fun id owner => parcel.message.roomId = some id ∧ owner = parcel.owner) site
      (site.receive sender parcel released) := by
  cases hm : parcel.message with
  | gameUpdate m =>
    have hchange := change_gameUpdate hs htravels hm
      (fun owner => hsingle m.info.id owner (by rw [hm]; rfl)) released
    simpa only [IpcMessage.roomId, Option.some.injEq] using hchange
  | gameDelete info => exact change_gameDelete hs hm _ released
  | token message =>
    simp only [receive, hm]
    exact .of_silent (hs.of_rooms hs.named hs.links (fun _ href => href) rfl (fun _ _ href => href)
      le_rfl fun _ g' hg' => Or.inl ⟨g', hg', rfl, Or.inl⟩)

end Receiving

end Site

namespace Star

open Site

/-- Some process has a room with this id that is `owner`'s or mirrors one of `owner`, or a message
about one is on its way. -/
def Owns (id : String) (owner : Node) (s : Star) : Prop :=
  (∃ node, (s.node node).Owns id owner) ∨
    ∃ sender receiver, ∃ parcel ∈ s.queue sender receiver,
      parcel.message.roomId = some id ∧ parcel.owner = owner

/-- A process comes to speak for a room only while no room of another process with the same id has
left a trace. -/
def Allows (s : Star) : StarOp → Prop
  | .deliver _ _ _ => True
  | .act node op => ∀ id, (s.node node).Claims node op id → ∀ owner, s.Owns id owner → owner = node

/-- What the processes are to make of the rooms: none in which clients of the process are is taken
for a room of another process, and a `GameDelete` takes out the replica of the room that was
destroyed. -/
structure Separate (s : Star) : Prop where
  own : ∀ node ref g, (s.node node).app.live.lookup ref = some g → g.activePeerCount ≠ 0 →
    ref ∉ (s.node node).manager.process.externalGames
  delete : ∀ sender receiver parcel rest info, s.queue sender receiver = parcel :: rest →
    parcel.message = .gameDelete info → ∀ ref,
      (s.node receiver).manager.process.tracked info = some ref →
        (s.node receiver).owner ref = some parcel.owner

/-- All that is said of a room is said of the room of one process. -/
structure Sound (s : Star) : Prop where
  sites : ∀ node, (s.node node).Sound node
  travels : ∀ sender receiver, ∀ parcel ∈ s.queue sender receiver,
    parcel.Travels sender receiver
  single : ∀ id owner owner', s.Owns id owner → s.Owns id owner' → owner = owner'

variable {s : Star}

theorem not_owns_of_isFresh (hnew : s.IsFresh) (id : String) (owner : Node) :
    ¬s.Owns id owner := by
  rintro (⟨node, ref, g, hg, -⟩ | ⟨sender, receiver, parcel, hparcel, -⟩)
  · have hlive : (s.node node).app.live = ∅ := (hnew.fresh node).1.2.2
    rw [hlive] at hg
    cases hg
  · rw [hnew.quiet] at hparcel
    cases hparcel

theorem sound_of_isFresh (hnew : s.IsFresh) : s.Sound := by
  have hlive : ∀ node, (s.node node).app.live = ∅ := fun node => (hnew.fresh node).1.2.2
  refine ⟨fun node => ⟨App.Named.of_isEmpty (hnew.fresh node).1, ⟨?_, ?_⟩, ?_, ?_, ?_, ?_⟩, ?_,
    fun id owner _ hown => absurd hown (not_owns_of_isFresh hnew id owner)⟩
  · rintro rfl
    exact hnew.parent
  · intro hne
    obtain ⟨port, rfl⟩ := Option.ne_none_iff_exists'.mp hne
    exact hnew.children port
  · intro ref href
    rw [(hnew.fresh node).2] at href
    cases href
  · intro ref g hg
    rw [hlive] at hg
    cases hg
  · intro peer ref href
    rw [hnew.bound] at href
    cases href
  · intro ref _
    rw [hnew.owner]
  · intro sender receiver parcel hparcel
    rw [hnew.quiet] at hparcel
    cases hparcel

theorem owns_advance {sender receiver : Node} {id : String} {owner : Node}
    (hown : Owns id owner (s.advance sender receiver)) : s.Owns id owner :=
  hown.imp_right fun ⟨a, b, parcel, hparcel, hid⟩ =>
    ⟨a, b, parcel, Network.mem_of_mem_queue_advance hparcel, hid⟩

theorem Sound.advance (hs : s.Sound) (sender receiver : Node) :
    Sound (s.advance sender receiver) where
  sites := hs.sites
  travels a b parcel hparcel :=
    hs.travels a b parcel (Network.mem_of_mem_queue_advance hparcel)
  single id owner owner' hown hown' :=
    hs.single id owner owner' (owns_advance hown) (owns_advance hown')

/-- A process changes and sends: what holds of all processes is kept if it comes to speak for a room
only where no one else does. -/
theorem Sound.act (hs : s.Sound) {node : Node} {Claim : String → Node → Prop}
    {change : Site → Site × List (Node × Parcel)}
    (hchange : Change node Claim (s.node node) (change (s.node node)))
    (hclaim : ∀ id owner owner', Claim id owner → s.Owns id owner' ∨ Claim id owner' →
      owner = owner') : (s.act node change).Sound := by
  have hnode : ∀ other, (s.act node change).node other =
      if other = node then (change (s.node node)).1 else s.node other :=
    Network.node_modify fun site => (change site).1
  have hqueue : ∀ sender receiver parcel, parcel ∈ (s.act node change).queue sender receiver →
      parcel ∈ s.queue sender receiver ∨
        sender = node ∧ (receiver, parcel) ∈ (change (s.node node)).2 :=
    fun sender receiver parcel hparcel => Network.mem_queue_post.mp hparcel
  have howns : ∀ id owner, (s.act node change).Owns id owner →
      s.Owns id owner ∨ Claim id owner := by
    rintro id owner (⟨other, hown⟩ | ⟨sender, receiver, parcel, hparcel, hid, rfl⟩)
    · rw [hnode] at hown
      split at hown
      · exact (hchange.owns id owner hown).imp_left fun h => Or.inl ⟨node, h⟩
      · exact Or.inl (Or.inl ⟨other, hown⟩)
    · rcases hqueue sender receiver parcel hparcel with hold | ⟨-, hsent⟩
      · exact Or.inl (Or.inr ⟨sender, receiver, parcel, hold, hid, rfl⟩)
      · exact (hchange.sent receiver parcel id hsent hid).imp_left fun h => Or.inl ⟨node, h⟩
  refine ⟨fun other => ?_, fun sender receiver parcel hparcel => ?_,
    fun id owner owner' hown hown' => ?_⟩
  · rw [hnode]
    split
    · next heq => exact heq ▸ hchange.sound
    · exact hs.sites other
  · rcases hqueue sender receiver parcel hparcel with hold | ⟨rfl, hsent⟩
    · exact hs.travels sender receiver parcel hold
    · exact hchange.travels receiver parcel hsent
  · rcases howns id owner hown, howns id owner' hown' with ⟨hold | hnew, hold' | hnew'⟩
    · exact hs.single id owner owner' hold hold'
    · exact (hclaim id owner' owner hnew' (Or.inl hold)).symm
    · exact hclaim id owner owner' hnew (Or.inl hold')
    · exact hclaim id owner owner' hnew (Or.inr hnew')

theorem sound_keeps : Transition.Keeps step Allows Sound := by
  intro s op hs hallowed
  cases op with
  | deliver sender receiver released =>
    simp only [step]
    cases hqueue : s.queue sender receiver with
    | nil => exact hs
    | cons parcel rest =>
      have hparcel : parcel ∈ s.queue sender receiver := by
        rw [hqueue]
        exact List.mem_cons_self
      have hsingle : ∀ id owner, parcel.message.roomId = some id → s.Owns id owner →
          owner = parcel.owner := fun id owner hid hown =>
        hs.single id owner parcel.owner hown
          (Or.inr ⟨sender, receiver, parcel, hparcel, hid, rfl⟩)
      have hchange := change_receive (hs.sites receiver) (hs.travels sender receiver parcel hparcel)
        (fun id owner hid hown => hsingle id owner hid (Or.inl ⟨receiver, hown⟩)) released
      refine (hs.advance sender receiver).act hchange ?_
      rintro id owner owner' ⟨hid, rfl⟩ (hown | ⟨-, rfl⟩)
      · exact (hsingle id owner' hid (owns_advance hown)).symm
      · rfl
  | act node op =>
    refine hs.act (change_perform (hs.sites node) op) ?_
    rintro id owner owner' ⟨hid, rfl⟩ (hown | ⟨-, rfl⟩)
    · exact (hallowed id hid owner' hown).symm
    · rfl

theorem Sound.separate (hs : s.Sound) : s.Separate where
  own node ref g hg hpeers href := by
    obtain ⟨owner, howner, hne⟩ := (hs.sites node).external ref href
    have hplayed := (hs.sites node).played ref g hg fun hnil => hpeers (congrArg List.length hnil)
    rw [howner] at hplayed
    exact hne (Option.some.inj hplayed)
  delete sender receiver parcel rest info hqueue hm ref htracked := by
    obtain ⟨hmem, g, hg, hid⟩ := Process.lookup_of_tracked htracked
    obtain ⟨owner, howner, -⟩ := (hs.sites receiver).external ref hmem
    have hroom : s.Owns info.id owner := Or.inl ⟨receiver, ref, g, hg, hid, howner⟩
    have hmessage : s.Owns info.id parcel.owner := Or.inr ⟨sender, receiver, parcel,
      hqueue ▸ List.mem_cons_self, by rw [hm]; rfl, rfl⟩
    rw [howner, hs.single _ _ _ hroom hmessage]

/-- In every run in which a process comes to speak for a room only while no room of another process
with the same id has left a trace, the rooms of the processes are kept apart. -/
theorem separate_run (hnew : s.IsFresh) {ops : List StarOp}
    (hops : Transition.EachStep step Allows s ops) : Transition.Always step Separate s ops :=
  (sound_keeps.always (sound_of_isFresh hnew) hops).imp fun _ => Sound.separate

/-- A parent with two subprocesses. -/
def twoServers : Star where
  node n :=
    { manager :=
        { process := { app := { id := "app", version := "1.0", endpoints := ["host"] } }
          parentIpc := n.isSome
          subprocesses :=
            if n = none then AList.insert 5056 true (AList.singleton 5057 true) else ∅ } }
  queue _ _ := []

/-- A client creates the room `room` on the GameServer of a subprocess. -/
def enters (port : UInt16) (user : String) : List StarOp :=
  [.authenticate 0 ⟨"app", "1.0", "lobby", 0, "room", "host"⟩,
    .connection 0 (.live { persistent := some { userId := user, token := user } }),
    .play 0 (.tryBeginCreation (some 0)) false, .play 0 (.setConfigState 0 true true 4 1) false,
    .play 0 (.createPeer (some 0)) false, .play 0 (.addPeerForCreation 0 (some 0) 1) false,
    .play 0 (.commitCreation (some 0) 1) true].map (.act (some port))

theorem isFresh_twoServers : twoServers.IsFresh where
  fresh _ := ⟨⟨rfl, rfl, rfl⟩, rfl⟩
  app _ := ⟨rfl, rfl⟩
  bound _ := rfl
  owner _ := rfl
  parent := rfl
  children _ := rfl
  quiet _ _ := rfl

/-- Ada's room is the only one with its id, and the other processes come to track it. -/
theorem separate_run_entered :
    Transition.Always step Separate twoServers (enters 5056 "ada" ++
      [.deliver (some 5056) none false, .deliver none (some 5057) false]) := by
  refine separate_run isFresh_twoServers ⟨fun id _ owner hown => ?_, ?_⟩
  · exact absurd hown (not_owns_of_isFresh isFresh_twoServers id owner)
  · exact Transition.eachStep_of_forall (by simp [Allows, Site.Claims])

/-- Bob's room with the same id is put into `external_games_` when Ada's update arrives.  And when
the MasterServer of another process has made a room for a client who has not come, the end of that
room is to take out the replica of Ada's. -/
theorem not_separate_rivals :
    let rivals := Transition.run step twoServers (enters 5056 "ada" ++ enters 5057 "bob" ++
      [.deliver (some 5056) none false, .deliver none (some 5057) false])
    let abandoned := Transition.run step twoServers (enters 5056 "ada" ++
      [.act (some 5057) (.createGame ("lobby", 0) "room" "host" false),
        .deliver (some 5056) none false, .act (some 5057) (.dropGame 0)])
    twoServers.IsFresh ∧ ¬rivals.Separate ∧ ¬abandoned.Separate := by
  intro rivals abandoned
  refine ⟨isFresh_twoServers, fun hrivals => ?_, fun habandoned => ?_⟩
  · have hroom : ((rivals.node (some 5057)).app.live.lookup 0).map Game.activePeerCount =
        some 1 := by
      decide +kernel
    obtain ⟨g, hg, hone⟩ := Option.map_eq_some_iff.mp hroom
    exact hrivals.own (some 5057) 0 g hg (by rw [hone]; decide) (by decide +kernel)
  · have hqueue : abandoned.queue (some 5057) none =
        [⟨some 5057, .gameDelete ⟨"app", "1.0", "lobby", 0, "room", "host"⟩⟩] := rfl
    have hmirrored := habandoned.delete (some 5057) none _ _ _ hqueue rfl 0 (by decide +kernel)
    have howner : (abandoned.node none).owner 0 = some (some 5056) := by decide +kernel
    rw [howner] at hmirrored
    cases hmirrored

end Star

end LuxonServer
