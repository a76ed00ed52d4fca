import LuxonServer.Value

/-! Connections and the objects behind them.  A `PeerRef` names one `Peer` object for good: a
reference whose object is gone never names another, so a weak pointer that has expired stays
expired. -/

namespace LuxonServer

/-- The identity of a `Peer` object. -/
abbrev PeerRef := Nat

/-- The identity of a `Game` object. -/
abbrev GameRef := Nat

/-- `PeerPersistent`: the part of a client that outlives its connection.  `app` is the id and the
version of its app. -/
structure PeerPersistent where
  userId : String
  token : String
  reconnectTtlMs : Int := 30000
  storeGeneration : Nat := 0
  app : Option (String × String) := none
  invitation : Option GameInfo := none
  ownedGame : Option GameRef := none
  deriving DecidableEq, Repr, Inhabited

/-- `Peer`, a connection; it is authenticated when it has its persistent part. -/
structure Peer where
  persistent : Option PeerPersistent := none
  deriving DecidableEq, Repr, Inhabited

/-- What has become of a `PeerRef`. -/
inductive PeerSlot where
  | unused
  | live (peer : Peer)
  | dead
  deriving DecidableEq, Repr

/-- The `Peer` objects of the process. -/
abbrev PeerHeap := PeerRef → PeerSlot

namespace PeerHeap

/-- The object that a reference names, while it is alive. -/
def get (h : PeerHeap) (r : PeerRef) : Option Peer :=
  match h r with
  | .live peer => some peer
  | _ => none

/-- `weak_ptr::lock`; `none` is the null pointer. -/
def lock (h : PeerHeap) (weak : Option PeerRef) : Option PeerRef :=
  weak.filter fun r => (h.get r).isSome

/-- `peer->persistent->user_id` of a peer that is alive and authenticated. -/
def userId (h : PeerHeap) (peer : Option PeerRef) : Option String :=
  (h.lock peer).bind fun r => (h.get r).bind fun p => p.persistent.map (·.userId)

theorem lock_eq_some {h : PeerHeap} {weak : Option PeerRef} {r : PeerRef} :
    h.lock weak = some r ↔ weak = some r ∧ (h.get r).isSome := by
  simp [lock, Option.filter_eq_some_iff]

/-- A pointer that locks locks to what it points to. -/
theorem lock_eq_self_or_none (h : PeerHeap) (weak : Option PeerRef) :
    h.lock weak = weak ∨ h.lock weak = none := by
  cases hl : h.lock weak with
  | none => exact Or.inr rfl
  | some r => exact Or.inl (lock_eq_some.mp hl).1.symm

theorem userId_some (h : PeerHeap) (r : PeerRef) :
    h.userId (some r) = (h.get r).bind fun p => p.persistent.map (·.userId) := by
  unfold userId lock
  cases hget : h.get r <;> simp [hget, Option.filter]

theorem userId_update_of_ne {h : PeerHeap} {r : PeerRef} {c : Option PeerRef} {slot : PeerSlot}
    (hne : c ≠ some r) : userId (Function.update h r slot) c = h.userId c := by
  cases c with
  | none => rfl
  | some other =>
    have hother : other ≠ r := fun heq => hne (congrArg some heq)
    rw [userId_some, userId_some]
    unfold get
    rw [Function.update_of_ne hother]

theorem ne_unused_of_get {h : PeerHeap} {r : PeerRef} (hlive : (h.get r).isSome) :
    h r ≠ .unused := by
  intro hunused
  simp [get, hunused] at hlive

end PeerHeap

end LuxonServer
