import Mathlib.Data.List.Basic
import Mathlib.Data.List.Flatten

/-! Splitting a list at a separator: the parts, their number, and the splitting of a list that is
written out from symbols. -/

namespace Split

variable {α σ : Type*} [BEq α] [LawfulBEq α] {x : α}

/-- No part contains the separator. -/
theorem not_mem_of_mem_splitOn {xs part : List α} (hpart : part ∈ xs.splitOn x) : x ∉ part := by
  induction xs generalizing part with
  | nil =>
    rw [List.splitOn_nil, List.mem_singleton] at hpart
    rw [hpart]
    exact List.not_mem_nil
  | cons y xs ih =>
    rw [List.splitOn_cons_eq_if_modifyHead] at hpart
    split at hpart
    · rcases List.mem_cons.mp hpart with rfl | hpart
      · exact List.not_mem_nil
      · exact ih hpart
    · next hne =>
      cases hrest : xs.splitOn x with
      | nil => exact absurd hrest (List.splitOn_ne_nil x xs)
      | cons first parts =>
        rw [hrest] at hpart ih
        rcases List.mem_cons.mp hpart with rfl | hpart
        · rw [List.mem_cons, not_or]
          exact ⟨fun heq => hne (by simp [heq]), ih List.mem_cons_self⟩
        · exact ih (List.mem_cons_of_mem _ hpart)

theorem length_splitOn (x : α) (xs : List α) : (xs.splitOn x).length = xs.count x + 1 := by
  induction xs with
  | nil => rfl
  | cons y xs ih =>
    rw [List.splitOn_cons_eq_if_modifyHead]
    split
    · next heq => rw [List.length_cons, ih, beq_iff_eq.mp heq, List.count_cons_self]
    · next hne => rw [List.length_modifyHead, ih, List.count_cons_of_ne (by simpa using hne)]

/-- What stands before the first separator goes to the first part. -/
theorem splitOn_append_of_not_mem {xs : List α} (hx : x ∉ xs) (ys : List α) :
    (xs ++ ys).splitOn x = (ys.splitOn x).modifyHead (xs ++ ·) := by
  induction xs with
  | nil =>
    rw [List.nil_append]
    cases ys.splitOn x <;> rfl
  | cons y xs ih =>
    rw [List.mem_cons, not_or] at hx
    have hne : ¬(y == x) = true := by simpa using Ne.symm hx.1
    rw [List.cons_append, List.splitOn_cons_eq_if_modifyHead, if_neg hne, ih hx.2]
    cases ys.splitOn x <;> rfl

section Symbols

variable [BEq σ] [LawfulBEq σ] {f : σ → List α} {s : σ}

theorem count_le_count_flatMap (hs : f s = [x]) (symbols : List σ) :
    symbols.count s ≤ (symbols.flatMap f).count x := by
  induction symbols with
  | nil => exact Nat.le_refl _
  | cons y symbols ih =>
    rw [List.flatMap_cons, List.count_append]
    by_cases hy : y = s
    · rw [hy, hs, List.count_cons_self, List.count_singleton_self]
      omega
    · rw [List.count_cons_of_ne hy]
      omega

theorem not_mem_of_count_flatMap (hs : f s = [x]) {symbols : List σ}
    (hcount : (symbols.flatMap f).count x = symbols.count s) :
    ∀ y ∈ symbols, y ≠ s → x ∉ f y := by
  induction symbols with
  | nil => exact nofun
  | cons first symbols ih =>
    rw [List.flatMap_cons, List.count_append] at hcount
    have hle := count_le_count_flatMap hs symbols
    by_cases hfirst : first = s
    · rw [hfirst, hs, List.count_singleton_self, List.count_cons_self] at hcount
      intro y hy hne
      rcases List.mem_cons.mp hy with rfl | hy
      · exact absurd hfirst hne
      · exact ih (by omega) y hy hne
    · rw [List.count_cons_of_ne hfirst] at hcount
      intro y hy hne
      rcases List.mem_cons.mp hy with rfl | hy
      · exact List.count_eq_zero.mp (by omega)
      · exact ih (by omega) y hy hne

theorem splitOn_flatMap_of_not_mem (hs : f s = [x]) {symbols : List σ}
    (hsymbols : ∀ y ∈ symbols, y ≠ s → x ∉ f y) :
    (symbols.flatMap f).splitOn x = (symbols.splitOn s).map (·.flatMap f) := by
  induction symbols with
  | nil => rfl
  | cons y symbols ih =>
    have hrest := ih fun z hz => hsymbols z (List.mem_cons_of_mem _ hz)
    rw [List.flatMap_cons, List.splitOn_cons_eq_if_modifyHead (a := s)]
    by_cases hy : y = s
    · rw [if_pos (by simpa using hy), hy, hs, List.singleton_append,
        List.splitOn_cons_eq_if_modifyHead, if_pos (by simp), hrest]
      rfl
    · rw [if_neg (by simpa using hy),
        splitOn_append_of_not_mem (hsymbols y List.mem_cons_self hy), hrest]
      cases symbols.splitOn s <;> rfl

/-- A text that is written out from symbols splits where they do exactly if no other symbol brings
in a separator. -/
theorem splitOn_flatMap_iff (hs : f s = [x]) (symbols : List σ) :
    (symbols.flatMap f).splitOn x = (symbols.splitOn s).map (·.flatMap f) ↔
      ∀ y ∈ symbols, y ≠ s → x ∉ f y := by
  refine ⟨fun heq => not_mem_of_count_flatMap hs ?_, splitOn_flatMap_of_not_mem hs⟩
  have hlength := congrArg List.length heq
  rw [List.length_map, length_splitOn, length_splitOn] at hlength
  omega

omit [BEq α] [LawfulBEq α] in
/-- The parts, joined again. -/
theorem intercalate_map_flatMap (hs : f s = [x]) (symbols : List σ) :
    [x].intercalate ((symbols.splitOn s).map (·.flatMap f)) = symbols.flatMap f := by
  induction symbols with
  | nil => rfl
  | cons y symbols ih =>
    rw [List.flatMap_cons, List.splitOn_cons_eq_if_modifyHead]
    cases hrest : symbols.splitOn s with
    | nil => exact absurd hrest (List.splitOn_ne_nil s symbols)
    | cons first parts =>
      rw [hrest] at ih
      split
      · next hy =>
        rw [beq_iff_eq.mp hy, hs, ← ih]
        rfl
      · rw [← ih]
        cases parts <;> simp [List.intercalate]

end Symbols

end Split
