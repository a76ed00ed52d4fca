import LuxonServer.Lib.Slots
import Mathlib.Data.BitVec
import Mathlib.Data.Set.Card

/-! `offset_map`, a map with unsigned keys that keeps its values in a vector of slots from a base
on. The keys have `w` bits, at most the 64 of `size_type`. -/

namespace LuxonServer

/-- `class offset_map`. -/
structure OffsetMap (w : Nat) (α : Type) where
  slots : List (Option α) := []
  base : BitVec w := 0
  size : Nat := 0
  deriving DecidableEq, Repr

namespace OffsetMap

variable {w : Nat} {α : Type}

/-- `empty`. -/
def empty (m : OffsetMap w α) : Bool := m.size == 0

/-- `min_key`. -/
def minKey (m : OffsetMap w α) : Option (BitVec w) := if m.empty then none else some m.base

/-- `max_key`; the sum is a `size_type`, which the cast cuts to the key. -/
def maxKey (m : OffsetMap w α) : Option (BitVec w) :=
  if m.empty then none else some (BitVec.ofNat w (m.base.toNat + m.slots.length - 1))

/-- `clear`. -/
def clear (_ : OffsetMap w α) : OffsetMap w α := {}

/-- `in_span`. -/
def inSpan (key : BitVec w) (m : OffsetMap w α) : Bool :=
  !m.slots.isEmpty && decide (m.base ≤ key) && decide ((key - m.base).toNat < m.slots.length)

/-- `index_of`. -/
def indexOf (key : BitVec w) (m : OffsetMap w α) : Nat := (key - m.base).toNat

/-- `slots_.resize(n)`. -/
def resize (n : Nat) (slots : List (Option α)) : List (Option α) :=
  slots.take n ++ List.replicate (n - slots.length) none

/-- `ensure_slot`. -/
def ensureSlot (key : BitVec w) (m : OffsetMap w α) : OffsetMap w α :=
  if m.slots.isEmpty then { m with base := key, slots := resize 1 m.slots }
  else if key < m.base then
    { m with slots := List.replicate (m.base - key).toNat none ++ m.slots, base := key }
  else if m.indexOf key ≥ m.slots.length then
    { m with slots := resize ((m.indexOf key + 1) % 2 ^ 64) m.slots }
  else m

/-- `trim`; its loops count the empty slots at the front, and then those at the back. -/
def trim (m : OffsetMap w α) : OffsetMap w α :=
  if m.slots.isEmpty then m
  else if m.size = 0 then m.clear
  else
    let first := Slots.leading m.slots
    let last := m.slots.length - Slots.leading (m.slots.drop first).reverse
    let slots := if last < m.slots.length then resize last m.slots else m.slots
    if first > 0 then
      { m with slots := slots.drop first, base := BitVec.ofNat w (m.base.toNat + first) }
    else { m with slots }

/-- The slot at an index of the span. -/
def slotAt (index : Nat) (m : OffsetMap w α) : Option α := (m.slots[index]?).join

/-- `slot = value`, or `slot.reset()`. -/
def setSlot (index : Nat) (slot : Option α) (m : OffsetMap w α) : OffsetMap w α :=
  { m with slots := m.slots.set index slot }

/-- `get`, and what `at` does not throw for. -/
def get (key : BitVec w) (m : OffsetMap w α) : Option α :=
  if m.inSpan key then m.slotAt (m.indexOf key) else none

section Iterators

/-- `skip_empty`. -/
def skipEmpty (index : Nat) (m : OffsetMap w α) : Nat :=
  index + Slots.leading (m.slots.drop index)

/-- `begin`. -/
def beginIt (m : OffsetMap w α) : Nat := m.skipEmpty 0

/-- `end`. -/
def endIt (m : OffsetMap w α) : Nat := m.skipEmpty m.slots.length

/-- `operator*`; at the end there is nothing to read. -/
def deref (it : Nat) (m : OffsetMap w α) : Option (BitVec w × α) :=
  (m.slotAt it).map fun v => (BitVec.ofNat w (m.base.toNat + it), v)

/-- `operator++`. -/
def next (it : Nat) (m : OffsetMap w α) : Nat := m.skipEmpty (it + 1)

/-- `find`. -/
def find (key : BitVec w) (m : OffsetMap w α) : Nat :=
  if !m.inSpan key then m.endIt
  else if (m.slotAt (m.indexOf key)).isSome then m.skipEmpty (m.indexOf key)
  else m.endIt

/-- `contains`. -/
def contains (key : BitVec w) (m : OffsetMap w α) : Bool := m.find key != m.endIt

/-- What a loop from `it` to the end visits, if it ends after at most `steps` increments. -/
def visit (m : OffsetMap w α) : Nat → Nat → Option (List (BitVec w × α))
  | 0, it => if it = m.endIt then some [] else none
  | steps + 1, it =>
    if it = m.endIt then some []
    else (m.deref it).bind fun entry => (m.visit steps (m.next it)).map (entry :: ·)

end Iterators

section Modifiers

/-- `operator[]`, with what is written through the reference that it returns. -/
def subscript [Inhabited α] (key : BitVec w) (write : α → α) (m : OffsetMap w α) :
    α × OffsetMap w α :=
  let m := m.ensureSlot key
  match m.slotAt (m.indexOf key) with
  | none =>
    (default, { m.setSlot (m.indexOf key) (some (write default)) with size := m.size + 1 })
  | some v => (v, m.setSlot (m.indexOf key) (some (write v)))

/-- The body of `insert` and `try_emplace`, which leave a value that is there. -/
def emplace (key : BitVec w) (value : α) (m : OffsetMap w α) : (Nat × Bool) × OffsetMap w α :=
  let m := m.ensureSlot key
  match m.slotAt (m.indexOf key) with
  | some _ => ((m.skipEmpty (m.indexOf key), false), m)
  | none =>
    let m := { m.setSlot (m.indexOf key) (some value) with size := m.size + 1 }
    ((m.skipEmpty (m.indexOf key), true), m)

/-- `insert`. -/
def insert (key : BitVec w) (value : α) (m : OffsetMap w α) : (Nat × Bool) × OffsetMap w α :=
  m.emplace key value

/-- `try_emplace`; `value` is what the arguments construct. -/
def tryEmplace (key : BitVec w) (value : α) (m : OffsetMap w α) :
    (Nat × Bool) × OffsetMap w α := m.emplace key value

/-- `insert_or_assign`. -/
def insertOrAssign (key : BitVec w) (value : α) (m : OffsetMap w α) :
    (Nat × Bool) × OffsetMap w α :=
  let m := m.ensureSlot key
  let inserted := (m.slotAt (m.indexOf key)).isNone
  let m := m.setSlot (m.indexOf key) (some value)
  let m := if inserted then { m with size := m.size + 1 } else m
  ((m.skipEmpty (m.indexOf key), inserted), m)

/-- `erase`. -/
def erase (key : BitVec w) (m : OffsetMap w α) : Nat × OffsetMap w α :=
  if !m.inSpan key then (0, m)
  else if (m.slotAt (m.indexOf key)).isNone then (0, m)
  else
    let m := m.setSlot (m.indexOf key) none
    (1, { m with size := m.size - 1 }.trim)

end Modifiers

end OffsetMap

/-- A call that may change the map. -/
inductive MapOp (w : Nat) (α : Type) where
  | subscript (key : BitVec w) (write : α → α)
  | insert (key : BitVec w) (value : α)
  | tryEmplace (key : BitVec w) (value : α)
  | insertOrAssign (key : BitVec w) (value : α)
  | erase (key : BitVec w)
  | clear

/-- What a call returns: the value behind the reference, the entry at the iterator with whether it
is new, or how many entries are erased. -/
inductive MapAnswer (w : Nat) (α : Type) where
  | value (v : α)
  | entry (entry : Option (BitVec w × α)) (inserted : Bool)
  | count (n : Nat)
  | nothing
  deriving DecidableEq, Repr

namespace OffsetMap

variable {w : Nat} {α : Type}

/-- What a returned iterator with its flag says. -/
def answerOf (result : (Nat × Bool) × OffsetMap w α) : MapAnswer w α × OffsetMap w α :=
  (.entry (result.2.deref result.1.1) result.1.2, result.2)

/-- A call. -/
def apply [Inhabited α] (m : OffsetMap w α) : MapOp w α → MapAnswer w α × OffsetMap w α
  | .subscript key write =>
    let (v, m) := m.subscript key write
    (.value v, m)
  | .insert key value => answerOf (m.insert key value)
  | .tryEmplace key value => answerOf (m.tryEmplace key value)
  | .insertOrAssign key value => answerOf (m.insertOrAssign key value)
  | .erase key =>
    let (n, m) := m.erase key
    (.count n, m)
  | .clear => (.nothing, m.clear)

end OffsetMap

/-- A map of the keys, of which there are finitely many. -/
abbrev KeyMap (w : Nat) (α : Type) := BitVec w → Option α

namespace KeyMap

variable {w : Nat} {α : Type}

/-- The keys that are present. -/
def keys (f : KeyMap w α) : Set (BitVec w) := {key | (f key).isSome}

/-- `insert` and `try_emplace` on a map. -/
def emplace (key : BitVec w) (value : α) (f : KeyMap w α) : MapAnswer w α × KeyMap w α :=
  match f key with
  | some v => (.entry (some (key, v)) false, f)
  | none => (.entry (some (key, value)) true, Function.update f key (some value))

/-- A call on a map. -/
def apply [Inhabited α] (f : KeyMap w α) : MapOp w α → MapAnswer w α × KeyMap w α
  | .subscript key write =>
    let v := (f key).getD default
    (.value v, Function.update f key (some (write v)))
  | .insert key value => f.emplace key value
  | .tryEmplace key value => f.emplace key value
  | .insertOrAssign key value =>
    (.entry (some (key, value)) (f key).isNone, Function.update f key (some value))
  | .erase key => (.count (f key).isSome.toNat, Function.update f key none)
  | .clear => (.nothing, fun _ => none)

/-- The keys that are present, together with one more, span fewer slots than `size_type` can
count. -/
def SpanFits (key : BitVec w) (f : KeyMap w α) : Prop :=
  ∀ other ∈ f.keys, other.toNat < key.toNat + (2 ^ 64 - 1) ∧ key.toNat < other.toNat + (2 ^ 64 - 1)

/-- A call that the map has room for. -/
def Allows (f : KeyMap w α) : MapOp w α → Prop
  | .subscript key _ | .insert key _ | .tryEmplace key _ | .insertOrAssign key _ => f.SpanFits key
  | .erase _ | .clear => True

end KeyMap

end LuxonServer
