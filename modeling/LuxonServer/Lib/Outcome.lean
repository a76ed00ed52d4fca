import Mathlib.Logic.Basic

/-! What a computation that may fail comes to: it succeeds exactly under a condition, and then its
result has a property.  The rules follow the computation step by step. -/

universe u v

/-- The computation succeeds if `good` holds, with a result that has `post`, and fails if not. -/
def Outcome {ε : Type u} {α : Type v} (r : Except ε α) (good : Prop) (post : α → Prop) : Prop :=
  (good → ∃ a, r = .ok a ∧ post a) ∧ (¬good → ∃ e, r = .error e)

namespace Outcome

variable {ε : Type u} {α β : Type v} {r : Except ε α} {good good' : Prop} {post post' : α → Prop}

theorem ok {a : α} (hgood : good) (ha : post a) : Outcome (.ok a : Except ε α) good post :=
  ⟨fun _ => ⟨a, rfl, ha⟩, fun hnot => absurd hgood hnot⟩

theorem error (e : ε) (hgood : ¬good) : Outcome (.error e : Except ε α) good post :=
  ⟨fun h => absurd h hgood, fun _ => ⟨e, rfl⟩⟩

theorem congr (h : Outcome r good post) (hgood : good' ↔ good) : Outcome r good' post :=
  ⟨fun hnew => h.1 (hgood.mp hnew), fun hnot => h.2 fun hold => hnot (hgood.mpr hold)⟩

theorem imp (h : Outcome r good post) (hpost : ∀ a, post a → post' a) : Outcome r good post' := by
  refine ⟨fun hgood => ?_, h.2⟩
  obtain ⟨a, hr, ha⟩ := h.1 hgood
  exact ⟨a, hr, hpost a ha⟩

theorem bind {f : α → Except ε β} {good₂ : Prop} {post₂ : β → Prop} (h : Outcome r good post)
    (hf : ∀ a, post a → Outcome (f a) good₂ post₂) : Outcome (r >>= f) (good ∧ good₂) post₂ := by
  by_cases hgood : good
  · obtain ⟨a, rfl, ha⟩ := h.1 hgood
    have hnext : Outcome (f a) good₂ post₂ := hf a ha
    exact hnext.congr (and_iff_right hgood)
  · obtain ⟨e, rfl⟩ := h.2 hgood
    exact error e fun hboth => hgood hboth.1

/-- The next step succeeds whenever it is taken. -/
theorem bind_ok {f : α → Except ε β} {post₂ : β → Prop} (h : Outcome r good post)
    (hf : ∀ a, post a → ∃ b, f a = .ok b ∧ post₂ b) : Outcome (r >>= f) good post₂ := by
  have hboth : Outcome (r >>= f) (good ∧ True) post₂ := h.bind fun a ha => by
    obtain ⟨b, heq, hb⟩ := hf a ha
    rw [heq]
    exact ok trivial hb
  exact hboth.congr (and_true good).symm.to_iff

theorem map {f : α → β} {post₂ : β → Prop} (h : Outcome r good post)
    (hf : ∀ a, post a → post₂ (f a)) : Outcome (f <$> r) good post₂ := by
  by_cases hgood : good
  · obtain ⟨a, rfl, ha⟩ := h.1 hgood
    exact ok hgood (hf a ha)
  · obtain ⟨e, rfl⟩ := h.2 hgood
    exact error e hgood

/-- A computation that has a result, whose condition holds. -/
theorem of_ok {a : α} (h : Outcome r good post) (hr : r = .ok a) : good ∧ post a := by
  by_cases hgood : good
  · obtain ⟨b, hb, hpost⟩ := h.1 hgood
    rw [hr] at hb
    cases hb
    exact ⟨hgood, hpost⟩
  · obtain ⟨e, he⟩ := h.2 hgood
    rw [hr] at he
    cases he

end Outcome
