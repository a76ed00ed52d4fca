import Mathlib.Data.List.Basic

/-! A queue that a reader empties from time to time, and that takes no more of some elements while
it is long: `counted` says which ones are refused when `cap` elements are waiting. -/

namespace BoundedQueue

variable {α β : Type*} (cap : Nat) (counted : α → Bool)

/-- An element arrives. -/
def push (queue : List α) (a : α) : List α :=
  if counted a = true ∧ cap ≤ queue.length then queue else queue ++ [a]

/-- Some elements arrive one after another. -/
def pushAll (queue : List α) (as : List α) : List α := as.foldl (push cap counted) queue

variable {cap counted} {queue as : List α} {a : α}

@[simp] theorem pushAll_nil : pushAll cap counted queue [] = queue := rfl

@[simp] theorem pushAll_cons : pushAll cap counted queue (a :: as) =
    pushAll cap counted (push cap counted queue a) as := rfl

theorem pushAll_append (bs : List α) : pushAll cap counted queue (as ++ bs) =
    pushAll cap counted (pushAll cap counted queue as) bs := List.foldl_append

theorem push_of_uncounted (ha : counted a = false) : push cap counted queue a = queue ++ [a] := by
  simp [push, ha]

theorem push_of_lt (hlt : queue.length < cap) : push cap counted queue a = queue ++ [a] :=
  if_neg fun hfull => absurd hfull.2 (Nat.not_le.mpr hlt)

theorem push_cases (cap : Nat) (counted : α → Bool) (queue : List α) (a : α) :
    (push cap counted queue a = queue ∧ counted a = true ∧ cap ≤ queue.length) ∨
      push cap counted queue a = queue ++ [a] := by
  unfold push
  split
  · next hfull => exact Or.inl ⟨rfl, hfull⟩
  · exact Or.inr rfl

/-- What waits stays in front, and what comes behind it keeps its order. -/
theorem pushAll_eq_append (cap : Nat) (counted : α → Bool) (queue as : List α) :
    ∃ kept, pushAll cap counted queue as = queue ++ kept ∧ kept.Sublist as := by
  induction as generalizing queue with
  | nil => exact ⟨[], (List.append_nil queue).symm, List.Sublist.refl []⟩
  | cons a as ih =>
    obtain ⟨kept, hkept, hsub⟩ := ih (push cap counted queue a)
    rw [pushAll_cons, hkept]
    rcases push_cases cap counted queue a with ⟨heq, -⟩ | heq
    · rw [heq]
      exact ⟨kept, rfl, hsub.cons a⟩
    · rw [heq, List.append_assoc]
      exact ⟨a :: kept, rfl, hsub.cons_cons a⟩

theorem length_le_pushAll : queue.length ≤ (pushAll cap counted queue as).length := by
  obtain ⟨kept, heq, -⟩ := pushAll_eq_append cap counted queue as
  rw [heq, List.length_append]
  exact Nat.le_add_right _ _

/-- A queue that is short at the end has taken everything. -/
theorem pushAll_of_lt (hlt : (pushAll cap counted queue as).length < cap) :
    pushAll cap counted queue as = queue ++ as := by
  induction as generalizing queue with
  | nil => exact (List.append_nil queue).symm
  | cons a as ih =>
    have hlen : queue.length < cap := Nat.lt_of_le_of_lt length_le_pushAll hlt
    rw [pushAll_cons] at hlt ⊢
    rw [push_of_lt hlen] at hlt ⊢
    rw [ih hlt, List.append_assoc]
    rfl

/-- An element is taken if it is not counted, or if there is room when it arrives. -/
theorem pushAll_split (bs : List α)
    (ha : counted a = false ∨ (pushAll cap counted queue as).length < cap) :
    ∃ kept, pushAll cap counted queue (as ++ a :: bs) =
      pushAll cap counted queue as ++ a :: kept ∧ kept.Sublist bs := by
  have hpush : push cap counted (pushAll cap counted queue as) a =
      pushAll cap counted queue as ++ [a] := by
    rcases ha with huncounted | hroom
    · exact push_of_uncounted huncounted
    · exact push_of_lt hroom
  obtain ⟨kept, hkept, hsub⟩ :=
    pushAll_eq_append cap counted (pushAll cap counted queue as ++ [a]) bs
  refine ⟨kept, ?_, hsub⟩
  rw [pushAll_append, pushAll_cons, hpush, hkept, List.append_assoc]
  rfl

theorem mem_of_mem_pushAll (ha : a ∈ pushAll cap counted queue as) : a ∈ queue ∨ a ∈ as := by
  obtain ⟨kept, heq, hsub⟩ := pushAll_eq_append cap counted queue as
  rw [heq, List.mem_append] at ha
  exact ha.imp_right fun hkept => hsub.subset hkept

theorem mem_pushAll_of_uncounted (huncounted : counted a = false) (ha : a ∈ as) :
    a ∈ pushAll cap counted queue as := by
  obtain ⟨before, after, rfl⟩ := List.append_of_mem ha
  obtain ⟨kept, heq, -⟩ :=
    @pushAll_split α cap counted queue before a after (Or.inl huncounted)
  rw [heq]
  exact List.mem_append_right _ List.mem_cons_self

/-- The elements may be translated before or after they arrive. -/
theorem map_pushAll {counted' : β → Bool} {f : α → β} (hf : ∀ a, counted' (f a) = counted a)
    (queue as : List α) :
    (pushAll cap counted queue as).map f = pushAll cap counted' (queue.map f) (as.map f) := by
  induction as generalizing queue with
  | nil => rfl
  | cons a as ih =>
    rw [pushAll_cons, ih, List.map_cons, pushAll_cons]
    congr 1
    unfold push
    rw [hf, List.length_map]
    split
    · rfl
    · exact List.map_append

end BoundedQueue
