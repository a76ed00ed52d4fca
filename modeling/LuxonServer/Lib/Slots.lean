import Mathlib.Data.List.TakeWhile
import Mathlib.Logic.Function.Basic
import Mathlib.Order.Basic
import Mathlib.Tactic.Conv

/-! A list of slots, some of them empty, as a partial map of the natural numbers: the slots stand
for the numbers from a base on. -/

namespace Slots

variable {α : Type*} {base : Nat} {slots : List (Option α)}

/-- What is in the slot of `n`. -/
def lookup (base : Nat) (slots : List (Option α)) (n : Nat) : Option α :=
  if base ≤ n then (slots[n - base]?).join else none

/-- How many slots are filled. -/
def filled (slots : List (Option α)) : Nat := slots.countP Option.isSome

/-- The filled slots with their numbers, in the order of the list. -/
def entries (base : Nat) : List (Option α) → List (Nat × α)
  | [] => []
  | none :: slots => entries (base + 1) slots
  | some v :: slots => (base, v) :: entries (base + 1) slots

theorem lookup_of_lt {n : Nat} (hn : n < base) : lookup base slots n = none :=
  if_neg (Nat.not_le.mpr hn)

theorem lookup_of_le {n : Nat} (hn : base ≤ n) :
    lookup base slots n = (slots[n - base]?).join := if_pos hn

@[simp] theorem lookup_nil {n : Nat} : lookup base ([] : List (Option α)) n = none := by
  unfold lookup
  split <;> rfl

theorem lookup_cons (slot : Option α) (slots : List (Option α)) (n : Nat) :
    lookup base (slot :: slots) n = if n = base then slot else lookup (base + 1) slots n := by
  rcases Nat.lt_trichotomy n base with hlt | rfl | hgt
  · rw [lookup_of_lt hlt, if_neg (by omega), lookup_of_lt (by omega)]
  · rw [lookup_of_le (le_refl _), if_pos rfl, Nat.sub_self]
    rfl
  · have hindex : n - base = n - (base + 1) + 1 := by omega
    rw [lookup_of_le (by omega), if_neg (by omega), lookup_of_le (by omega), hindex,
      List.getElem?_cons_succ]

theorem bounds_of_lookup {n : Nat} (h : (lookup base slots n).isSome) :
    base ≤ n ∧ n < base + slots.length := by
  unfold lookup at h
  split at h
  · next hle =>
    refine ⟨hle, ?_⟩
    by_contra hout
    rw [List.getElem?_eq_none (by omega)] at h
    cases h
  · cases h

theorem lookup_append (slots slots' : List (Option α)) (n : Nat) :
    lookup base (slots ++ slots') n =
      if n < base + slots.length then lookup base slots n
      else lookup (base + slots.length) slots' n := by
  induction slots generalizing base with
  | nil =>
    split
    · next hlt => rw [lookup_of_lt (by simpa using hlt), lookup_of_lt (by simpa using hlt)]
    · rfl
  | cons slot slots ih =>
    have hlength : base + 1 + slots.length = base + (slot :: slots).length := by
      simp only [List.length_cons]
      omega
    rw [List.cons_append, lookup_cons, lookup_cons, ih, hlength]
    split
    · next heq => rw [if_pos (by simp only [List.length_cons]; omega)]
    · rfl

theorem lookup_replicate (k n : Nat) :
    lookup base (List.replicate k (none : Option α)) n = none := by
  induction k generalizing base with
  | zero => exact lookup_nil
  | succ k ih => rw [List.replicate_succ, lookup_cons, ih, ite_self]

/-- Empty slots at the front, for the numbers below the base. -/
theorem lookup_prepend {k : Nat} (hk : k ≤ base) (n : Nat) :
    lookup (base - k) (List.replicate k none ++ slots) n = lookup base slots n := by
  have hbase : base - k + (List.replicate k (none : Option α)).length = base := by
    rw [List.length_replicate]
    omega
  rw [lookup_append, hbase]
  split
  · next hlt => rw [lookup_replicate, lookup_of_lt hlt]
  · rfl

/-- Empty slots at the back. -/
theorem lookup_extend (k n : Nat) :
    lookup base (slots ++ List.replicate k none) n = lookup base slots n := by
  rw [lookup_append]
  split
  · rfl
  · next hout =>
    rw [lookup_replicate, eq_comm, ← Option.not_isSome_iff_eq_none]
    intro hsome
    exact hout (bounds_of_lookup hsome).2

theorem lookup_set {i : Nat} (hi : i < slots.length) (slot : Option α) :
    lookup base (slots.set i slot) = Function.update (lookup base slots) (base + i) slot := by
  funext n
  by_cases hn : n = base + i
  · rw [hn, Function.update_self, lookup_of_le (by omega), Nat.add_sub_cancel_left,
      List.getElem?_set_self hi]
    rfl
  · rw [Function.update_of_ne hn]
    unfold lookup
    split
    · rw [List.getElem?_set_ne (by omega)]
    · rfl

theorem filled_append (slots slots' : List (Option α)) :
    filled (slots ++ slots') = filled slots + filled slots' := List.countP_append

theorem filled_replicate (k : Nat) : filled (List.replicate k (none : Option α)) = 0 := by
  simp [filled, List.countP_replicate]

theorem filled_pos {i : Nat} {slot : Option α} (hslot : slots[i]? = some slot)
    (hsome : slot.isSome) : 0 < filled slots :=
  List.countP_pos_iff.mpr ⟨slot, List.mem_of_getElem? hslot, hsome⟩

/-- A slot that is filled or emptied. -/
theorem filled_set {i : Nat} (hi : i < slots.length) (slot : Option α) :
    filled (slots.set i slot) + slots[i].isSome.toNat = filled slots + slot.isSome.toNat := by
  induction slots generalizing i with
  | nil => cases hi
  | cons first slots ih =>
    cases i with
    | zero => cases first <;> cases slot <;> simp [filled]
    | succ i =>
      have hrest := ih (Nat.lt_of_succ_lt_succ hi)
      cases first <;> simp [filled] at hrest ⊢ <;> omega

theorem filled_eq_zero : filled slots = 0 ↔ slots = List.replicate slots.length none := by
  rw [filled, List.countP_eq_zero, List.eq_replicate_iff]
  simp

theorem mem_entries {n : Nat} {v : α} :
    (n, v) ∈ entries base slots ↔ lookup base slots n = some v := by
  induction slots generalizing base with
  | nil => simp [entries]
  | cons slot slots ih =>
    have hlater : lookup (base + 1) slots base = none := lookup_of_lt (Nat.lt_succ_self _)
    rw [lookup_cons]
    by_cases hn : n = base
    · subst hn
      cases slot <;> simp [entries, ih, hlater, eq_comm]
    · cases slot <;> simp [entries, ih, hn]

theorem length_entries (base : Nat) (slots : List (Option α)) :
    (entries base slots).length = filled slots := by
  induction slots generalizing base with
  | nil => rfl
  | cons slot slots ih => cases slot <;> simp [entries, filled, ih]

theorem bounds_of_mem_entries {n : Nat} {v : α} (hentry : (n, v) ∈ entries base slots) :
    base ≤ n ∧ n < base + slots.length := by
  refine bounds_of_lookup ?_
  rw [mem_entries.mp hentry]
  rfl

/-- The numbers come in increasing order. -/
theorem entries_increasing (base : Nat) (slots : List (Option α)) :
    (entries base slots).Pairwise fun a b => a.1 < b.1 := by
  induction slots generalizing base with
  | nil => exact List.Pairwise.nil
  | cons slot slots ih =>
    cases slot with
    | none => exact ih (base + 1)
    | some v =>
      refine List.pairwise_cons.mpr ⟨fun entry hentry => ?_, ih (base + 1)⟩
      exact (bounds_of_mem_entries hentry).1

section Ends

/-- The number of empty slots before the first filled one. -/
def leading : List (Option α) → Nat
  | none :: slots => leading slots + 1
  | _ => 0

theorem replicate_leading_append (slots : List (Option α)) :
    List.replicate (leading slots) none ++ slots.drop (leading slots) = slots := by
  induction slots with
  | nil => rfl
  | cons slot slots ih =>
    cases slot with
    | none => exact congrArg (none :: ·) ih
    | some v => rfl

/-- The slots from the first filled one on. -/
theorem isSome_head_drop_leading {slot : Option α}
    (hhead : (slots.drop (leading slots)).head? = some slot) : slot.isSome := by
  induction slots with
  | nil => cases hhead
  | cons first slots ih =>
    cases first with
    | none => exact ih hhead
    | some v =>
      cases hhead
      rfl

/-- The slots from the first filled one to the last. -/
def trimmed (slots : List (Option α)) : List (Option α) :=
  (slots.take (slots.length - leading (slots.drop (leading slots)).reverse)).drop (leading slots)

theorem trimmed_eq (slots : List (Option α)) : trimmed slots =
    (slots.drop (leading slots)).take ((slots.drop (leading slots)).length -
      leading (slots.drop (leading slots)).reverse) := by
  rw [trimmed, List.drop_take, List.length_drop]
  congr 1
  omega

theorem reverse_trimmed (slots : List (Option α)) : (trimmed slots).reverse =
    (slots.drop (leading slots)).reverse.drop (leading (slots.drop (leading slots)).reverse) := by
  rw [trimmed_eq, List.drop_reverse]

/-- What `trimmed` leaves out are the empty slots at both ends. -/
theorem trimmed_spec (slots : List (Option α)) :
    List.replicate (leading slots) none ++ (trimmed slots ++
      List.replicate (leading (slots.drop (leading slots)).reverse) none) = slots := by
  have hback := replicate_leading_append (slots.drop (leading slots)).reverse
  rw [← reverse_trimmed] at hback
  have hrest := congrArg List.reverse hback
  rw [List.reverse_append, List.reverse_reverse, List.reverse_reverse, List.reverse_replicate]
    at hrest
  rw [hrest]
  exact replicate_leading_append slots

theorem isSome_getLast_trimmed {slot : Option α} (hlast : (trimmed slots).getLast? = some slot) :
    slot.isSome := by
  rw [← List.head?_reverse, reverse_trimmed] at hlast
  exact isSome_head_drop_leading hlast

theorem isSome_head_trimmed {slot : Option α} (hhead : (trimmed slots).head? = some slot) :
    slot.isSome := by
  rw [trimmed_eq, List.head?_take] at hhead
  split at hhead
  · cases hhead
  · exact isSome_head_drop_leading hhead

theorem lookup_trimmed (base : Nat) (slots : List (Option α)) :
    lookup (base + leading slots) (trimmed slots) = lookup base slots := by
  funext n
  conv_rhs => rw [← trimmed_spec slots]
  have hbase : base + leading slots - leading slots = base :=
    Nat.add_sub_cancel _ _
  conv_rhs => rw [← hbase, lookup_prepend (Nat.le_add_left _ _), lookup_extend]

theorem filled_trimmed (slots : List (Option α)) : filled (trimmed slots) = filled slots := by
  conv_rhs => rw [← trimmed_spec slots]
  rw [filled_append, filled_append, filled_replicate, filled_replicate, Nat.zero_add, Nat.add_zero]

theorem length_trimmed (slots : List (Option α)) :
    leading slots + (trimmed slots).length ≤ slots.length := by
  conv_rhs => rw [← trimmed_spec slots]
  simp only [List.length_append, List.length_replicate]
  omega

end Ends

end Slots
