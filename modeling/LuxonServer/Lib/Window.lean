import Mathlib.Data.List.Basic

/-! Histories in the order of their times: the entries that are recent at a time form the back, so
stopping on the way back at the first that is not loses none. -/

namespace Window

variable {α : Type*} {recent : α → Bool} {history : List α}

/-- Stopping at the first entry without `recent` loses none that has it. -/
theorem takeWhile_eq_filter (hordered : history.Pairwise fun a b => recent b → recent a) :
    history.takeWhile recent = history.filter recent := by
  induction history with
  | nil => rfl
  | cons a history ih =>
    obtain ⟨ha, hrest⟩ := List.pairwise_cons.mp hordered
    rw [List.takeWhile_cons, List.filter_cons]
    split
    · rw [ih hrest]
    · next hold =>
      exact (List.filter_eq_nil_iff.mpr fun b hb hrecent => hold (ha b hb hrecent)).symm

/-- From the back of the history the entries that are recent come first. -/
theorem takeWhile_reverse_eq_filter
    (hordered : history.Pairwise fun a b => recent a → recent b) :
    history.reverse.takeWhile recent = (history.filter recent).reverse := by
  rw [takeWhile_eq_filter (List.pairwise_reverse.mpr hordered), List.filter_reverse]

end Window
