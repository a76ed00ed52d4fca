import LuxonServer.Process
import LuxonServer.Game.Revision

/-! The lobby entry of a replica under the updates of the owner: when it is the owner's entry, and
when the lobby hears of its changes. -/

namespace LuxonServer

/-- What the lobby lists of a room: whether it is listed at all, and its properties. -/
def Game.lobbyEntry (g : Game) : Bool × Finmap fun _ : Value => Value :=
  (g.isCreated && g.isVisible, g.getLobbyGameProps.toFinmap)

namespace Process

/-- The message of a snapshot of the owner arrives. -/
def deliver (p : Process) (o : Game) : Process := (p.processGameUpdate o.gameUpdateMessage).1

/-- The delivery calls handlers of the lobby. -/
def Notifies (p : Process) (o : Game) : Prop :=
  (p.processGameUpdate o.gameUpdateMessage).2.any Effect.isNotice = true

/-- An update that is applied leaves the properties of the owner's entry, and the lobby hears of a
change of the replica's entry. -/
def Replicates (p : Process) (o : Game) : Prop :=
  p.Applies o.gameUpdateMessage → ∃ k ∈ (p.deliver o).replica o.info,
    k.getLobbyGameProps.toFinmap = o.getLobbyGameProps.toFinmap ∧
      ((p.replica o.info).map Game.lobbyEntry ≠ some k.lobbyEntry → p.Notifies o)

instance (p : Process) (o : Game) : Decidable (p.Replicates o) :=
  inferInstanceAs (Decidable (_ → ∃ _ ∈ _, _ ∧ (_ → _ = true)))

/-- When it does: the owner selects no custom property that the room has, since the selection does
not travel, and a change of the status or of the player count comes with one of the player limit or
of the openness, which alone are published. -/
def EntryTravels (p : Process) (o : Game) : Prop :=
  p.Applies o.gameUpdateMessage →
    (∀ name ∈ o.lobbyProps, Value.string name ∉ o.customProps) ∧ ∀ k ∈ p.replica o.info,
      ((k.isCreated && k.isVisible) ≠ (o.isCreated && o.isVisible) ∨ k.playerCount ≠ o.playerCount) →
        k.maxPeers ≠ o.maxPeers ∨ k.isOpen ≠ o.isOpen

instance (p : Process) (o : Game) : Decidable (p.EntryTravels o) :=
  inferInstanceAs (Decidable (_ → (∀ _ ∈ _, _ ∉ _) ∧ ∀ _ ∈ _, _ ∨ _ → _ ∨ _))

/-- The process has no room of the name, or a bare replica. -/
def Follows (info : GameInfo) (p : Process) : Prop :=
  p.Absent info ∨ ∃ k, p.replica info = some k ∧ k.Bare

section Delivery

variable {p : Process} {o k : Game}

theorem deliver_of_accepts (hk : p.replica o.info = some k)
    (haccepts : k.acceptsUpdate false o.gameUpdateMessage = true) :
    (p.deliver o).replica o.info = some (k.applyUpdate p.app.settings o.gameUpdateMessage).1 ∧
      (p.processGameUpdate o.gameUpdateMessage).2 =
        (k.applyUpdate p.app.settings o.gameUpdateMessage).2 := by
  obtain ⟨hreplica, heffects, -⟩ := processGameUpdate_of_replica (m := o.gameUpdateMessage) hk
  rw [Game.receiveUpdate, if_pos haccepts] at hreplica heffects
  exact ⟨hreplica, heffects⟩

theorem deliver_of_discards (hk : p.replica o.info = some k)
    (haccepts : ¬k.acceptsUpdate false o.gameUpdateMessage = true) :
    (p.deliver o).replica o.info = some k := by
  obtain ⟨hreplica, -, -⟩ := processGameUpdate_of_replica (m := o.gameUpdateMessage) hk
  rwa [Game.receiveUpdate, if_neg haccepts] at hreplica

theorem deliver_of_canTrack (habsent : p.Absent o.info) (hcan : p.CanTrack o.gameUpdateMessage) :
    (p.deliver o).replica o.info =
        some ((p.newReplica o.gameUpdateMessage).applyUpdate p.app.settings o.gameUpdateMessage).1 ∧
      p.Notifies o := by
  obtain ⟨-, -, hmade⟩ := processGameUpdate_of_absent (m := o.gameUpdateMessage) habsent
  obtain ⟨hreplica, heffects⟩ := hmade hcan
  rw [Game.receiveUpdate, if_pos (acceptsUpdate_new _ _)] at hreplica heffects
  refine ⟨hreplica, ?_⟩
  rw [Notifies, heffects]
  rfl

theorem Follows.deliver {info : GameInfo} (hp : p.Follows info) (hinfo : o.info = info) :
    (p.deliver o).Follows info := by
  subst hinfo
  rcases hp with habsent | ⟨k, hk, hbare⟩
  · by_cases hcan : p.CanTrack o.gameUpdateMessage
    · exact Or.inr ⟨_, (deliver_of_canTrack habsent hcan).1,
        (Game.updated_applyUpdate _ _ _).bare (bare_newReplica _ _)⟩
    · exact Or.inl ((processGameUpdate_of_absent (m := o.gameUpdateMessage) habsent).2.1 hcan).1
  · by_cases haccepts : k.acceptsUpdate false o.gameUpdateMessage = true
    · exact Or.inr ⟨_, (deliver_of_accepts hk haccepts).1,
        (Game.updated_applyUpdate _ _ _).bare hbare⟩
    · exact Or.inr ⟨k, deliver_of_discards hk haccepts, hbare⟩

theorem lobbyTable_updated_iff {k' : Game} (hu : Game.Updated o k k') (hk : k.Bare) :
    k'.getLobbyGameProps.toFinmap = o.getLobbyGameProps.toFinmap ↔
      ∀ name ∈ o.lobbyProps, Value.string name ∉ o.customProps := by
  rw [Game.lobbyTable_eq_iff]
  have hcount : k'.playerCount = o.playerCount := by
    rw [(hu.bare hk).playerCount, hu.dummyPeerCount]
  simp only [hu.maxPeers, hu.isOpen, hcount, (hu.bare hk).shown, true_and]
  apply forall_congr'
  intro name
  rw [eq_comm, Game.shown, ite_eq_right_iff, AList.lookup_eq_none]

theorem lobbyEntry_updated_iff {k' : Game} (hu : Game.Updated o k k') (hk : k.Bare) :
    k.lobbyEntry = k'.lobbyEntry ↔
      (k.isCreated && k.isVisible) = (o.isCreated && o.isVisible) ∧ k.maxPeers = o.maxPeers ∧
        k.isOpen = o.isOpen ∧ k.playerCount = o.playerCount := by
  have hcount : k'.playerCount = o.playerCount := by
    rw [(hu.bare hk).playerCount, hu.dummyPeerCount]
  simp only [Game.lobbyEntry, Prod.mk.injEq, Game.lobbyTable_eq_iff, hu.isCreated, hu.isVisible,
    hu.maxPeers, hu.isOpen, hcount, hk.shown, (hu.bare hk).shown, implies_true, and_true]

/-- Handlers are called when the player limit or the openness changes. -/
theorem notifies_iff (hk : p.replica o.info = some k)
    (haccepts : k.acceptsUpdate false o.gameUpdateMessage = true) :
    p.Notifies o ↔ k.maxPeers ≠ o.maxPeers ∨ k.isOpen ≠ o.isOpen := by
  obtain ⟨-, -, hpublished, hquiet⟩ := Game.applyUpdate_news p.app.settings o k
  rw [Notifies, (deliver_of_accepts hk haccepts).2]
  by_cases hnews : k.maxPeers ≠ o.maxPeers ∨ k.isOpen ≠ o.isOpen
  · rw [hpublished hnews]
    exact iff_of_true rfl hnews
  · rw [hquiet hnews]
    exact iff_of_false Bool.false_ne_true hnews

theorem replicates_iff (hp : p.Follows o.info) : p.Replicates o ↔ p.EntryTravels o := by
  rcases hp with habsent | ⟨k, hk, hbare⟩
  · have hnone : p.replica o.info = none := by rw [replica, habsent.tracked, Option.bind_none]
    apply imp_congr_right
    intro happlies
    have hcan := (applies_of_absent (m := o.gameUpdateMessage) habsent).mp happlies
    obtain ⟨hreplica, hnotifies⟩ := deliver_of_canTrack habsent hcan
    have htable := lobbyTable_updated_iff (Game.updated_applyUpdate p.app.settings o _)
      (bare_newReplica o.gameUpdateMessage p)
    simp only [hreplica, Option.mem_def, Option.some.injEq, exists_eq_left', htable, hnotifies,
      implies_true, and_true, hnone, reduceCtorEq, false_implies]
  · apply imp_congr_right
    intro happlies
    have haccepts := (applies_of_replica (m := o.gameUpdateMessage) hk).mp happlies
    obtain ⟨hreplica, -⟩ := deliver_of_accepts hk haccepts
    have hu := Game.updated_applyUpdate p.app.settings o k
    simp only [hreplica, Option.mem_def, Option.some.injEq, exists_eq_left',
      lobbyTable_updated_iff hu hbare, hk, Option.map_some, ne_eq, forall_eq',
      lobbyEntry_updated_iff hu hbare, notifies_iff hk haccepts]
    apply and_congr_right
    intro _
    tauto

end Delivery

/-- Over any snapshots of an owner, on a process where the room was absent: each update that is
applied carries the entry over, and the lobby hears of it, exactly if each update meets the
condition. -/
theorem entry_replicated_iff {p : Process} {info : GameInfo} (habsent : p.Absent info)
    {os : List Game} (hinfo : ∀ o ∈ os, o.info = info) :
    Transition.EachStep deliver Replicates p os ↔ Transition.EachStep deliver EntryTravels p os := by
  refine Transition.eachStep_congr (I := Follows info) (B := fun _ o => o.info = info)
    (fun p o hp hinfo => hp.deliver hinfo) (Or.inl habsent)
    (Transition.eachStep_of_forall fun o ho _ => hinfo o ho) fun p o hp hinfo => ?_
  exact replicates_iff (hinfo ▸ hp)

/-- A process that no room is known in. -/
def idle : Process := { app := { id := "app", version := "1.0", endpoints := ["host"] } }

/-- A room that a client is creating. -/
def begun : List RoomOp :=
  [.connect 1, .setPersistent 1 (some { userId := "ada", token := "a" }),
    .tryBeginCreation (some 1), .createPeer (some 1), .addPeerForCreation 0 (some 1) 1]

/-- The room of its owner after some operations. -/
def ownerAfter (ops : List RoomOp) : Game :=
  (Transition.run (Room.step {}) (Room.create ⟨"app", "1.0", "lobby", 0, "room", "host"⟩) ops).game

/-- A room that is closed while it is being created is replicated. -/
theorem entry_replicated_closing :
    Transition.EachStep deliver Replicates idle
      [ownerAfter begun, ownerAfter (begun ++ [.insertGameProps
        (AList.insert (.byte GameProp.isOpen.code) (.bool false) ∅)])] := by
  have habsent : idle.Absent ⟨"app", "1.0", "lobby", 0, "room", "host"⟩ := ⟨rfl, rfl⟩
  refine (entry_replicated_iff habsent fun o ho => ?_).mpr (by decide)
  rcases List.mem_pair.mp ho with rfl | rfl <;> rfl

/-- The creator selects the custom property `map` for the lobby, which the replica never lists; and
the replica's lobby does not hear that the room has been created. -/
theorem entry_not_replicated :
    let info : GameInfo := ⟨"app", "1.0", "lobby", 0, "room", "host"⟩
    let selected := AList.insert (.byte GameProp.lobbyProperties.code) (.stringArray ["map"])
      (AList.insert (.string "map") (.string "desert") ∅)
    idle.Absent info ∧
      ¬Transition.EachStep deliver Replicates idle
        [ownerAfter (begun ++ [.insertGameProps selected])] ∧
      ¬Transition.EachStep deliver Replicates idle
        [ownerAfter begun, ownerAfter (begun ++ [.commitCreation (some 1) 1])] := by
  exact ⟨⟨rfl, rfl⟩, by decide, by decide⟩

end Process

end LuxonServer
