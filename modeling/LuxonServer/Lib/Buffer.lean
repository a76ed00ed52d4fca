import Mathlib.Data.List.Infix

/-! A buffer that moves to another storage when it outgrows its capacity, and views, which name a
storage, an offset and a size.  A storage that the buffer has left is dead, whatever a later
allocation returns: a view into it reads nothing. -/

namespace Growing

/-- How a buffer chooses its next capacity. -/
structure Growth where
  reserve : Nat → Nat → Nat
  append : Nat → Nat → Nat
  le_reserve : ∀ capacity needed, needed ≤ reserve capacity needed
  le_append : ∀ capacity needed, needed ≤ append capacity needed

/-- A storage: the static one of empty views, one that is not the buffer's, or the one that the
buffer has after that many moves. -/
inductive Storage where
  | static
  | other (n : Nat)
  | buffer (moves : Nat)
  deriving DecidableEq, Repr

structure Buffer (β : Type) where
  text : List β
  capacity : Nat
  moves : Nat := 0
  le_capacity : text.length ≤ capacity

structure View where
  storage : Storage
  offset : Nat
  size : Nat
  deriving DecidableEq, Repr

variable {β : Type} {growth : Growth} {others : Nat → Option (List β)} {b b' : Buffer β} {v : View}

namespace Buffer

/-- An empty buffer with room for `capacity`. -/
def new (capacity : Nat) : Buffer β := { text := [], capacity, le_capacity := Nat.zero_le _ }

/-- The text goes, the storage stays. -/
def clear (b : Buffer β) : Buffer β := { b with text := [], le_capacity := Nat.zero_le _ }

/-- The capacity that `reserve` leaves. -/
def reserved (growth : Growth) (n : Nat) (b : Buffer β) : Nat :=
  if n ≤ b.capacity then b.capacity else growth.reserve b.capacity n

theorem capacity_le_reserved (n : Nat) (b : Buffer β) : b.capacity ≤ b.reserved growth n := by
  unfold reserved
  split
  · exact le_refl _
  · next hn => exact (Nat.le_of_not_le hn).trans (growth.le_reserve _ _)

/-- Room for `n` in all, whatever is there already. -/
def reserve (growth : Growth) (n : Nat) (b : Buffer β) : Buffer β :=
  { text := b.text
    capacity := b.reserved growth n
    moves := if n ≤ b.capacity then b.moves else b.moves + 1
    le_capacity := b.le_capacity.trans (b.capacity_le_reserved n) }

/-- The capacity after `n` more. -/
def grown (growth : Growth) (n : Nat) (b : Buffer β) : Nat :=
  if b.text.length + n ≤ b.capacity then b.capacity
  else growth.append b.capacity (b.text.length + n)

theorem length_le_grown (n : Nat) (b : Buffer β) : b.text.length + n ≤ b.grown growth n := by
  unfold grown
  split
  · next hn => exact hn
  · exact growth.le_append _ _

/-- More text at the end. -/
def append (growth : Growth) (more : List β) (b : Buffer β) : Buffer β :=
  { text := b.text ++ more
    capacity := b.grown growth more.length
    moves := if b.text.length + more.length ≤ b.capacity then b.moves else b.moves + 1
    le_capacity := by
      rw [List.length_append]
      exact b.length_le_grown _ }

/-- What is in a storage, if it is alive. -/
def read (others : Nat → Option (List β)) (b : Buffer β) : Storage → Option (List β)
  | .static => some []
  | .other n => others n
  | .buffer moves => if moves = b.moves then some b.text else none

/-- `b'` is `b` with more text in the same storage. -/
structure Extends (b b' : Buffer β) : Prop where
  moves : b'.moves = b.moves
  text : b.text <+: b'.text

theorem Extends.refl (b : Buffer β) : b.Extends b := ⟨rfl, List.prefix_refl _⟩

theorem Extends.trans {b₁ b₂ b₃ : Buffer β} (h : b₁.Extends b₂) (h' : b₂.Extends b₃) :
    b₁.Extends b₃ := ⟨h'.moves.trans h.moves, h.text.trans h'.text⟩

theorem extends_append {more : List β} (hfits : b.text.length + more.length ≤ b.capacity) :
    b.Extends (b.append growth more) := ⟨if_pos hfits, List.prefix_append _ _⟩

theorem moves_le_append (growth : Growth) (more : List β) (b : Buffer β) :
    b.moves ≤ (b.append growth more).moves := by
  simp only [append]
  split <;> omega

theorem moves_lt_append {more : List β} (hout : b.capacity < b.text.length + more.length) :
    b.moves < (b.append growth more).moves := by
  simp only [append]
  rw [if_neg (Nat.not_le.mpr hout)]
  exact Nat.lt_succ_self _

theorem length_append (growth : Growth) (more : List β) (b : Buffer β) :
    (b.append growth more).text.length = b.text.length + more.length := List.length_append

theorem capacity_append {more : List β} (hfits : b.text.length + more.length ≤ b.capacity) :
    (b.append growth more).capacity = b.capacity := if_pos hfits

end Buffer

namespace View

/-- The view of no text. -/
def nothing : View := { storage := .static, offset := 0, size := 0 }

/-- What a view shows; nothing is read for an empty one. -/
def text (others : Nat → Option (List β)) (b : Buffer β) (v : View) : Option (List β) :=
  if v.size = 0 then some []
  else (b.read others v.storage).bind fun text =>
    if v.offset + v.size ≤ text.length then some ((text.drop v.offset).take v.size) else none

/-- The view is in the storage that the buffer has. -/
def Inside (b : Buffer β) (v : View) : Prop :=
  v.storage = .buffer b.moves ∧ v.offset + v.size ≤ b.text.length

/-- The view is in none of the buffer's storages. -/
def Outside (v : View) : Prop := ∀ moves, v.storage ≠ .buffer moves

theorem text_of_empty (hv : v.size = 0) : v.text others b = some [] := if_pos hv

/-- What a view shows elsewhere does not depend on the buffer. -/
theorem Outside.text_eq (hv : v.Outside) (b b' : Buffer β) :
    v.text others b' = v.text others b := by
  unfold text
  cases hstorage : v.storage with
  | buffer moves => exact absurd hstorage (hv moves)
  | _ => rfl

theorem length_of_text {shown : List β} (hv : v.text others b = some shown) :
    shown.length = v.size := by
  unfold text at hv
  split at hv
  · next hempty =>
    cases hv
    exact hempty.symm
  · obtain ⟨text, -, hslice⟩ := Option.bind_eq_some_iff.mp hv
    split at hslice
    · next hbound =>
      cases hslice
      rw [List.length_take, List.length_drop]
      omega
    · cases hslice

/-- More text behind a view leaves it as it is. -/
theorem Inside.extend (hv : v.Inside b) (hb : b.Extends b') : v.Inside b' :=
  ⟨by rw [hv.1, hb.moves], hv.2.trans hb.text.length_le⟩

theorem Inside.text_eq (hv : v.Inside b) (hb : b.Extends b') :
    v.text others b' = v.text others b := by
  obtain ⟨more, hmore⟩ := hb.text
  have hbound := hv.2
  by_cases hempty : v.size = 0
  · rw [text_of_empty hempty, text_of_empty hempty]
  have hread : b'.read others v.storage = some (b.text ++ more) ∧
      b.read others v.storage = some b.text := by
    rw [hv.1, hmore]
    exact ⟨if_pos hb.moves.symm, if_pos rfl⟩
  have hslice : ((b.text ++ more).drop v.offset).take v.size =
      (b.text.drop v.offset).take v.size := by
    rw [List.drop_append_of_le_length (by omega),
      List.take_append_of_le_length (by rw [List.length_drop]; omega)]
  rw [text, text, if_neg hempty, if_neg hempty, hread.1, hread.2, Option.bind_some,
    Option.bind_some, if_pos hbound, if_pos (by rw [List.length_append]; omega), hslice]

/-- The view of what has just been appended. -/
theorem inside_append (growth : Growth) (more : List β) (b : Buffer β) :
    Inside (b.append growth more)
      ⟨.buffer (b.append growth more).moves, b.text.length, more.length⟩ :=
  ⟨rfl, (b.length_append growth more).ge⟩

theorem text_append (growth : Growth) (more : List β) (b : Buffer β) :
    text others (b.append growth more)
      ⟨.buffer (b.append growth more).moves, b.text.length, more.length⟩ = some more := by
  unfold text
  split
  · next hempty => rw [List.eq_nil_of_length_eq_zero hempty]
  · simp [Buffer.read, Buffer.append]

end View

end Growing
