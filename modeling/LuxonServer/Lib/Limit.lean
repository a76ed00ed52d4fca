import Mathlib.Data.List.Basic

/-! A query whose rows come in any order and are cut at a limit, and a reader that takes the first
of them with a property of its own. -/

namespace Limit

variable {α β : Type*} {p : α → Bool} {order rows : List α} {n : Nat}

/-- With fewer than `n` other elements, one with the property is among the first `n`. -/
theorem filter_take_ne_nil (hperm : order.Perm rows) (hsome : rows.filter p ≠ [])
    (hfew : (rows.filter fun row => !p row).length < n) : (order.take n).filter p ≠ [] := by
  intro hnone
  have hall : ∀ row ∈ order.take n, (!p row) = true := by
    simpa using List.filter_eq_nil_iff.mp hnone
  have hlength : (order.take n).length ≤ (rows.filter fun row => !p row).length := by
    rw [← (hperm.filter _).length_eq, ← List.filter_eq_self.mpr hall]
    exact ((List.take_sublist n order).filter _).length_le
  rw [List.length_take] at hlength
  have hwhole : order.take n = order := List.take_of_length_le (by omega)
  rw [hwhole] at hnone
  have hperm' := hperm.filter p
  rw [hnone] at hperm'
  exact hsome (List.nil_perm.mp hperm')

/-- In every order of the rows, the first of the first `n` that has the property is taken to a
member of `goals`. -/
theorem forall_perm_picks_iff {found : α → Option β} {goals : List β}
    (hfound : ∀ row, p row = true → (found row).isSome) (hpos : 0 < n) :
    (∀ order : List α, order.Perm rows →
      ∃ goal ∈ goals, ((order.take n).filter p).head?.bind found = some goal) ↔
      (rows.filter fun row => !p row).length < n ∧ rows.filter p ≠ [] ∧
        ∀ row ∈ rows.filter p, ∀ goal, found row = some goal → goal ∈ goals := by
  constructor
  · intro hall
    have hsome : ∀ order : List α, order.Perm rows → ∃ row ∈ order.take n, p row = true := by
      intro order hperm
      obtain ⟨goal, -, hhead⟩ := hall order hperm
      obtain ⟨row, hrow, -⟩ := Option.bind_eq_some_iff.mp hhead
      exact ⟨row, List.mem_filter.mp (List.mem_of_mem_head? hrow)⟩
    refine ⟨Nat.lt_of_not_le fun hmany => ?_, ?_, fun row hrow goal hgoal => ?_⟩
    · -- the worst order: all without the property come first
      obtain ⟨row, hrow, hp⟩ := hsome (rows.filter (fun row => !p row) ++ rows.filter p)
        (List.perm_append_comm.trans (List.filter_append_perm p rows))
      rw [List.take_append_of_le_length hmany] at hrow
      have hnot := (List.mem_filter.mp (List.mem_of_mem_take hrow)).2
      rw [hp] at hnot
      cases hnot
    · obtain ⟨row, hrow, hp⟩ := hsome rows (List.Perm.refl rows)
      exact List.ne_nil_of_mem (List.mem_filter.mpr ⟨List.mem_of_mem_take hrow, hp⟩)
    · obtain ⟨hmem, hp⟩ := List.mem_filter.mp hrow
      obtain ⟨before, after, hrows⟩ := List.append_of_mem hmem
      have hfirst : (row :: (before ++ after)).Perm rows := by
        rw [hrows]
        exact List.perm_middle.symm
      obtain ⟨goal', hgoal', hhead⟩ := hall _ hfirst
      obtain ⟨m, rfl⟩ := Nat.exists_eq_succ_of_ne_zero (Nat.ne_of_gt hpos)
      rw [List.take_succ_cons, List.filter_cons_of_pos hp, List.head?_cons, Option.bind_some,
        hgoal] at hhead
      cases hhead
      exact hgoal'
  · rintro ⟨hfew, hsome, hgoals⟩ order hperm
    obtain ⟨row, rest, hcons⟩ :=
      List.exists_cons_of_ne_nil (filter_take_ne_nil hperm hsome hfew)
    have hrow : row ∈ (order.take n).filter p := by
      rw [hcons]
      exact List.mem_cons_self
    obtain ⟨htake, hp⟩ := List.mem_filter.mp hrow
    obtain ⟨goal, hgoal⟩ := Option.isSome_iff_exists.mp (hfound row hp)
    refine ⟨goal, hgoals row ?_ goal hgoal, by rw [hcons]; exact hgoal⟩
    exact List.mem_filter.mpr ⟨hperm.subset (List.mem_of_mem_take htake), hp⟩

end Limit
