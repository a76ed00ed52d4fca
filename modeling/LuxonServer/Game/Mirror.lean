import LuxonServer.Game.Replica
import LuxonServer.Game.Insertion

/-! What a `GameUpdate` of the owner leaves of a replica: which fields it carries over, when the
replica's own property insertion bumps the revision again, and when it publishes. -/

namespace LuxonServer.Game

/-- A replica that has had nothing but updates: it has no peers of its own, and no lobby
properties, since these do not travel. -/
structure Bare (k : Game) : Prop where
  peers : k.peers = []
  lobbyProps : k.lobbyProps = []

/-- The replica agrees with a snapshot of the owner. -/
structure Mirrors (o k : Game) : Prop where
  isCreated : k.isCreated = o.isCreated
  isCreating : k.isCreating = o.isCreating
  isVisible : k.isVisible = o.isVisible
  playerCount : k.playerCount = o.playerCount
  isOpen : k.isOpen = o.isOpen
  maxPeers : k.maxPeers = o.maxPeers
  expectedUsers : k.expectedUsers.toFinset = o.expectedUsers.toFinset

instance (o k : Game) : Decidable (Mirrors o k) :=
  decidable_of_iff
    (k.isCreated = o.isCreated ∧ k.isCreating = o.isCreating ∧ k.isVisible = o.isVisible ∧
      k.playerCount = o.playerCount ∧ k.isOpen = o.isOpen ∧ k.maxPeers = o.maxPeers ∧
      k.expectedUsers.toFinset = o.expectedUsers.toFinset)
    ⟨fun ⟨h₁, h₂, h₃, h₄, h₅, h₆, h₇⟩ => ⟨h₁, h₂, h₃, h₄, h₅, h₆, h₇⟩,
      fun ⟨h₁, h₂, h₃, h₄, h₅, h₆, h₇⟩ => ⟨h₁, h₂, h₃, h₄, h₅, h₆, h₇⟩⟩

end Game

/-- What a replica knows of the lobby tables that it has been sent. -/
structure Announced where
  maxPeers : UInt8 := 0
  isOpen : Bool := true
  custom : String → Option Value := fun _ => none

namespace Announced

/-- The snapshot's lobby table says something new. -/
def News (a : Announced) (o : Game) : Prop :=
  a.maxPeers ≠ o.maxPeers ∨ a.isOpen ≠ o.isOpen ∨
    ∃ name ∈ o.lobbyProps, ∃ value ∈ o.shown name, a.custom name ≠ some value

instance (a : Announced) (o : Game) : Decidable (a.News o) :=
  inferInstanceAs (Decidable (_ ∨ _ ∨ ∃ _ ∈ _, ∃ _ ∈ _, _))

/-- What is known after a snapshot; a custom property that is no longer shown is not forgotten. -/
def learn (a : Announced) (o : Game) : Announced where
  maxPeers := o.maxPeers
  isOpen := o.isOpen
  custom name := (o.shown name).or (a.custom name)

end Announced

namespace Game

/-- What the replica knows. -/
def announced (k : Game) : Announced where
  maxPeers := k.maxPeers
  isOpen := k.isOpen
  custom name := k.customProps.lookup (.string name)

/-- What the snapshot's message makes of a replica `k`. -/
structure Updated (o k k' : Game) : Prop where
  info : k'.info = k.info
  peers : k'.peers = k.peers
  lobbyProps : k'.lobbyProps = k.lobbyProps
  isCreated : k'.isCreated = o.isCreated
  isCreating : k'.isCreating = o.isCreating
  isVisible : k'.isVisible = o.isVisible
  dummyPeerCount : k'.dummyPeerCount = o.playerCount
  isOpen : k'.isOpen = o.isOpen
  maxPeers : k'.maxPeers = o.maxPeers
  expectedUsers : ∀ userId, userId ∈ k'.expectedUsers ↔ userId ≠ "" ∧ userId ∈ o.expectedUsers
  shown : ∀ name value, o.shown name = some value →
    k'.customProps.lookup (.string name) = some value
  unshown : ∀ name, o.shown name = none →
    k'.customProps.lookup (.string name) = k.customProps.lookup (.string name)

section Table

variable {o g : Game}

theorem has_builtin (p : GameProp) (value : Value) :
    g.Has ⟨.byte p.code, value⟩ ↔ p.read g = value := by
  simp [Has]

theorem has_playerCount (value : Value) : g.Has ⟨playerCountKey, value⟩ := by
  have hnone : GameProp.ofCode 252 = none := by decide
  simp [Has, playerCountKey, hnone]

/-- What of a lobby table a room does not have yet. -/
theorem not_has_table_iff :
    (∃ entry ∈ o.getLobbyGameProps.entries, ¬g.Has entry) ↔ g.announced.News o := by
  simp only [mem_getLobbyGameProps_iff, or_and_right, exists_or, exists_eq_left, has_builtin,
    has_playerCount, not_true_eq_false, false_or, GameProp.read, Value.byte.injEq,
    Value.bool.injEq, Announced.News, announced]
  refine or_congr_right (or_congr_right ⟨?_, ?_⟩)
  · rintro ⟨_, ⟨name, value, hshown, rfl⟩, hnot⟩
    refine ⟨name, ?_, value, hshown, hnot⟩
    by_contra hname
    rw [shown, if_neg hname] at hshown
    cases hshown
  · rintro ⟨name, -, value, hshown, hnot⟩
    exact ⟨_, ⟨name, value, hshown, rfl⟩, hnot⟩

theorem not_has_published_iff :
    (∃ entry ∈ o.getLobbyGameProps.entries, ¬g.Has entry ∧ publishes entry.1 = true) ↔
      g.maxPeers ≠ o.maxPeers ∨ g.isOpen ≠ o.isOpen := by
  simp only [mem_getLobbyGameProps_iff, or_and_right, exists_or, exists_eq_left, has_builtin,
    has_playerCount, not_true_eq_false, false_and, false_or, GameProp.read, Value.byte.injEq,
    Value.bool.injEq]
  have hcustom : ¬∃ entry : Σ _ : Value, Value,
      (∃ name value, o.shown name = some value ∧ entry = ⟨.string name, value⟩) ∧
        ¬g.Has entry ∧ publishes entry.1 = true := by
    rintro ⟨_, ⟨name, value, -, rfl⟩, -, hpublished⟩
    cases hpublished
  rw [or_iff_left hcustom]
  simp [publishes, GameProp.updatesLobby]

end Table

section Bare

variable {o k : Game}

theorem Bare.playerCount (hk : k.Bare) : k.playerCount = k.dummyPeerCount := by
  rw [Game.playerCount, hk.peers, List.length_nil, Nat.zero_add, UInt8.ofNat_toNat]

theorem Bare.shown (hk : k.Bare) (name : String) : k.shown name = none := by
  rw [Game.shown, hk.lobbyProps, if_neg List.not_mem_nil]

theorem applyUpdate_message (settings : AppSettings) (o k : Game) :
    k.applyUpdate settings o.gameUpdateMessage =
      ((k.applyUpdateState o.gameUpdateMessage).applyPlayerCount
        o.getLobbyGameProps).insertGameProps settings o.getLobbyGameProps := rfl

theorem remoteRevision_message (o : Game) :
    remoteRevision o.gameUpdateMessage = some o.stateRevision := by
  simp [remoteRevision, gameUpdateMessage]

theorem acceptsUpdate_message (isNew : Bool) (o k : Game) :
    k.acceptsUpdate isNew o.gameUpdateMessage = true ↔
      isNew = true ∨ k.stateRevision ≤ o.stateRevision := by
  simp [acceptsUpdate, remoteRevision_message]

/-- What the single fields, the expected users and the player count leave. -/
theorem before_insertion (o k : Game) :
    let k' := (k.applyUpdateState o.gameUpdateMessage).applyPlayerCount o.getLobbyGameProps
    SeatsOnly
        { k with
          isCreated := o.isCreated
          isCreating := o.isCreating
          isVisible := o.isVisible
          stateRevision := o.stateRevision
          dummyPeerCount := o.playerCount } k' ∧
      ∀ userId, userId ∈ k'.expectedUsers ↔ userId ≠ "" ∧ userId ∈ o.expectedUsers := by
  have hcount : o.getLobbyGameProps.lookup playerCountKey = some (.byte o.playerCount) := by
    rw [lookup_getLobbyGameProps_of_ne o (by simp [playerCountKey]), lookup_builtinLobbyProps]
    simp [playerCountKey, GameProp.code]
  have hflags : k.applyUpdateFlags o.gameUpdateMessage =
      { k with
        isCreated := o.isCreated
        isCreating := o.isCreating
        isVisible := o.isVisible
        stateRevision := o.stateRevision } := by
    rw [applyUpdateFlags, remoteRevision_message]
    rfl
  have hstate : k.applyUpdateState o.gameUpdateMessage =
      (k.applyUpdateFlags o.gameUpdateMessage).replaceExpectedUsers o.expectedUsers.toList := rfl
  rw [hflags] at hstate
  intro k'
  have hk' : k' = { k.applyUpdateState o.gameUpdateMessage with dummyPeerCount := o.playerCount } := by
    simp only [k', applyPlayerCount, hcount]
    rfl
  rw [hk', hstate]
  constructor
  · obtain ⟨_, _, _, _, _, _, hseats⟩ := seatsOnly_replaceExpectedUsers o.expectedUsers.toList
      { k with
        isCreated := o.isCreated
        isCreating := o.isCreating
        isVisible := o.isVisible
        stateRevision := o.stateRevision }
    rw [hseats]
    exact ⟨_, _, _, _, _, _, rfl⟩
  · intro userId
    exact mem_replaceExpectedUsers

/-- What the lobby table of a snapshot leaves: the player limit and the openness, and each custom
property that the snapshot shows. -/
theorem insertGameProps_table (settings : AppSettings) (o k : Game) :
    let k' := (k.insertGameProps settings o.getLobbyGameProps).1
    (∃ playerTtl emptyGameTtl masterActor customProps stateRevision,
        k' = { k with
          isOpen := o.isOpen
          maxPeers := o.maxPeers
          playerTtl, emptyGameTtl, masterActor, customProps, stateRevision }) ∧
      (∀ name value, o.shown name = some value →
        k'.customProps.lookup (.string name) = some value) ∧
      ∀ name, o.shown name = none →
        k'.customProps.lookup (.string name) = k.customProps.lookup (.string name) := by
  have hvisible := notMem_getLobbyGameProps (o := o) (p := .isVisible) nofun nofun
  have hlobby := notMem_getLobbyGameProps (o := o) (p := .lobbyProperties) nofun nofun
  obtain ⟨hall, hother, -, -⟩ := insertGameProps_news settings
    (fun _ => fits_getLobbyGameProps settings (o := o)) hvisible k
  have hentries := fun entry hentry => hall entry (mem_getLobbyGameProps_iff.mpr hentry)
  have hmax := (has_builtin _ _).mp (hentries _ (Or.inl rfl))
  have hopen := (has_builtin _ _).mp (hentries _ (Or.inr (Or.inl rfl)))
  have hreadVisible := read_insertGameProps settings hvisible k
  have hreadLobby := read_insertGameProps settings hlobby k
  simp only [GameProp.read, Value.byte.injEq, Value.bool.injEq, Value.stringArray.injEq] at *
  refine ⟨?_, fun name value hshown => ?_, fun name hshown => ?_⟩
  · obtain ⟨_, _, _, _, _, _, _, _, _, hafter⟩ := propsOnly_insertGameProps settings
      o.getLobbyGameProps k
    rw [hafter] at hmax hopen hreadVisible hreadLobby ⊢
    simp only at hmax hopen hreadVisible hreadLobby
    subst hmax hopen hreadVisible hreadLobby
    exact ⟨_, _, _, _, _, rfl⟩
  · exact hentries ⟨.string name, value⟩ (Or.inr (Or.inr (Or.inr ⟨name, value, hshown, rfl⟩)))
  · have hnot : Value.string name ∉ o.getLobbyGameProps := by
      rw [← AList.lookup_eq_none, lookup_getLobbyGameProps_string, hshown]
    apply Option.ext
    intro value
    exact hother ⟨.string name, value⟩ hnot

theorem updated_applyUpdate (settings : AppSettings) (o k : Game) :
    Updated o k (k.applyUpdate settings o.gameUpdateMessage).1 := by
  rw [applyUpdate_message]
  obtain ⟨⟨_, _, _, _, _, _, hbefore⟩, hexpected⟩ := before_insertion o k
  rw [hbefore] at hexpected ⊢
  obtain ⟨⟨_, _, _, _, _, hafter⟩, hshown, hunshown⟩ := insertGameProps_table settings o _
  rw [hafter] at hshown hunshown ⊢
  exact ⟨rfl, rfl, rfl, rfl, rfl, rfl, rfl, rfl, rfl, hexpected, hshown, hunshown⟩

/-- What is new in the snapshot is counted a second time on the replica, beyond the revision of the
snapshot, and it is published when it concerns the player limit or the openness. -/
theorem applyUpdate_news (settings : AppSettings) (o k : Game) :
    let after := k.applyUpdate settings o.gameUpdateMessage
    let published := k.maxPeers ≠ o.maxPeers ∨ k.isOpen ≠ o.isOpen
    (k.announced.News o → after.1.stateRevision = o.stateRevision + 1) ∧
      (¬k.announced.News o → after.1.stateRevision = o.stateRevision) ∧
      (published → after.2 = after.1.triggerLobbyUpdate) ∧ (¬published → after.2 = []) := by
  let k' := (k.applyUpdateState o.gameUpdateMessage).applyPlayerCount o.getLobbyGameProps
  have hsame : k'.maxPeers = k.maxPeers ∧ k'.isOpen = k.isOpen ∧ k'.customProps = k.customProps ∧
      k'.stateRevision = o.stateRevision := by
    obtain ⟨⟨_, _, _, _, _, _, hbefore⟩, -⟩ := before_insertion o k
    simp only [k', hbefore, and_self]
  obtain ⟨hmax, hopen, hcustom, hrevision⟩ := hsame
  obtain ⟨-, -, hnews⟩ := insertGameProps_news settings
    (fun _ => fits_getLobbyGameProps settings (o := o))
    (notMem_getLobbyGameProps (o := o) (p := .isVisible) nofun nofun) k'
  simp only [not_has_table_iff, not_has_published_iff, announced, hmax, hopen, hcustom, hrevision]
    at hnews
  exact hnews

theorem Updated.bare {k' : Game} (hu : Updated o k k') (hk : k.Bare) : k'.Bare :=
  ⟨hu.peers.trans hk.peers, hu.lobbyProps.trans hk.lobbyProps⟩

theorem Updated.announced {k' : Game} (hu : Updated o k k') :
    k'.announced = k.announced.learn o := by
  simp only [Game.announced, Announced.learn, hu.maxPeers, hu.isOpen, Announced.mk.injEq, true_and]
  funext name
  cases hshown : o.shown name with
  | none => exact hu.unshown name hshown
  | some value => exact hu.shown name value hshown

/-- A replica agrees with the snapshot that it was updated with, if no user is nameless. -/
theorem Updated.mirrors {k' : Game} (hu : Updated o k k') (hk : k.Bare)
    (hnamed : "" ∉ o.expectedUsers) : Mirrors o k' where
  isCreated := hu.isCreated
  isCreating := hu.isCreating
  isVisible := hu.isVisible
  playerCount := by rw [(hu.bare hk).playerCount, hu.dummyPeerCount]
  isOpen := hu.isOpen
  maxPeers := hu.maxPeers
  expectedUsers := by
    rw [ListSet.toFinset_eq_iff]
    intro userId
    rw [hu.expectedUsers, and_iff_right_iff_imp]
    rintro hmem rfl
    exact hnamed hmem

end Bare

end LuxonServer.Game
