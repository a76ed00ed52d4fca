import LuxonServer.Game.Reservations
import LuxonServer.Game.Props

/-! What a process does to its replica of a room when a `GameUpdate` of the owning process
arrives. -/

namespace LuxonServer.Game

/-- The revision of a message; a negative one counts as absent. -/
def remoteRevision (m : GameUpdate) : Option Nat :=
  m.revision.bind fun r => if r ≥ 0 then some r.toNat else none

/-- The revision check: a known room does not go back to an earlier revision. -/
def acceptsUpdate (isNew : Bool) (m : GameUpdate) (g : Game) : Bool :=
  match remoteRevision m with
  | none => true
  | some revision => isNew || g.stateRevision ≤ revision

/-- The expected users of the message take the place of the room's own. -/
def replaceExpectedUsers (users : List String) (g : Game) : Game :=
  let g := g.expectedUsers.toList.foldl (fun g user => g.removeExpectedUser user) g
  users.foldl (fun g user => (g.reserveExpectedUser user 30000).2) g

/-- The fields of the update that are single values. -/
def applyUpdateFlags (m : GameUpdate) (g : Game) : Game :=
  { g with
    isCreated := m.created.getD g.isCreated
    isCreating := m.creating.getD g.isCreating
    isVisible := m.visible.getD g.isVisible
    stateRevision := (remoteRevision m).getD g.stateRevision }

/-- The part of the update that is applied under the admission lock. -/
def applyUpdateState (m : GameUpdate) (g : Game) : Game :=
  match m.expectedUsers with
  | none => g.applyUpdateFlags m
  | some users => (g.applyUpdateFlags m).replaceExpectedUsers users

/-- The player count of the update becomes the dummy count. -/
def applyPlayerCount (props : Hashtable) (g : Game) : Game :=
  { g with
    dummyPeerCount := ((props.lookup playerCountKey).bind Value.byte?).getD g.dummyPeerCount }

def applyUpdateProps (settings : AppSettings) (m : GameUpdate) (g : Game) : Game × List Effect :=
  match m.gameProperties with
  | none => (g, [])
  | some props => (g.applyPlayerCount props).insertGameProps settings props

/-- An update that the revision check lets through. -/
def applyUpdate (settings : AppSettings) (m : GameUpdate) (g : Game) : Game × List Effect :=
  (g.applyUpdateState m).applyUpdateProps settings m

/-- A `GameUpdate` for this room. -/
def receiveUpdate (settings : AppSettings) (isNew : Bool) (m : GameUpdate) (g : Game) :
    Game × List Effect :=
  if g.acceptsUpdate isNew m then g.applyUpdate settings m else (g, [])

theorem mem_foldl_removeExpectedUser (users : List String) (g : Game) (userId : String) :
    userId ∈ (users.foldl (fun g user => g.removeExpectedUser user) g).expectedUsers ↔
      userId ∈ g.expectedUsers ∧ userId ∉ users := by
  induction users generalizing g with
  | nil => simp
  | cons user users ih =>
    rw [List.foldl_cons, ih, removeExpectedUser_eq, ListSet.mem_erase, List.mem_cons, not_or]
    tauto

theorem mem_foldl_reserveExpectedUser (users : List String) (g : Game) (userId : String) :
    userId ∈ (users.foldl (fun g user => (g.reserveExpectedUser user 30000).2) g).expectedUsers ↔
      userId ∈ g.expectedUsers ∨ userId ≠ "" ∧ userId ∈ users := by
  induction users generalizing g with
  | nil => simp
  | cons user users ih =>
    rw [List.foldl_cons, ih, reserveExpectedUser_snd, List.mem_cons]
    rcases reserve_cases user 30000 g with ⟨heq, hwhy⟩ | ⟨hne, -, heq⟩
    · rw [heq]
      by_cases huser : userId = user
      · subst huser
        rcases hwhy with hempty | hmem <;> simp [*]
      · simp [huser]
    · rw [heq]
      simp only [withReservation, ListSet.mem_insert]
      by_cases huser : userId = user
      · subst huser
        simp [hne]
      · simp [huser]

/-- Afterwards the room expects the users of the message, the empty one apart. -/
theorem mem_replaceExpectedUsers {users : List String} {g : Game} {userId : String} :
    userId ∈ (g.replaceExpectedUsers users).expectedUsers ↔ userId ≠ "" ∧ userId ∈ users := by
  unfold replaceExpectedUsers
  rw [mem_foldl_reserveExpectedUser, mem_foldl_removeExpectedUser, ListSet.mem_toList]
  simp

theorem seatsOnly_replaceExpectedUsers (users : List String) (g : Game) :
    SeatsOnly g (g.replaceExpectedUsers users) :=
  List.foldlRecOn users _
    (List.foldlRecOn g.expectedUsers.toList _ (SeatsOnly.refl g) fun _ hg user _ =>
      hg.trans (seatsOnly_remove user _))
    fun _ hg user _ => hg.trans (seatsOnly_reserve user 30000 _)

/-- A property of rooms that each part of an update keeps is kept by an update. -/
theorem receiveUpdate_induction {P : Game → Prop} {g : Game} {m : GameUpdate} (hg : P g)
    (hflags : ∀ g, P g → P (g.applyUpdateFlags m))
    (husers : ∀ g users, P g → P (g.replaceExpectedUsers users))
    (hcount : ∀ g props, P g → P (g.applyPlayerCount props))
    (hprops : ∀ g g', P g → PropsOnly g g' → P g') (settings : AppSettings) (isNew : Bool) :
    P (g.receiveUpdate settings isNew m).1 := by
  have hstate : P (g.applyUpdateState m) := by
    unfold applyUpdateState
    cases m.expectedUsers with
    | none => exact hflags g hg
    | some users => exact husers _ users (hflags g hg)
  unfold receiveUpdate
  split
  · unfold applyUpdate applyUpdateProps
    split
    · exact hstate
    · next props _ =>
      exact hprops _ _ (hcount _ props hstate) (propsOnly_insertGameProps settings _ _)
  · exact hg

end LuxonServer.Game
