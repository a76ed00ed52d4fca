import Mathlib.Data.List.Basic

/-! Computations over a state that record the accesses they make.  `Each P x s` says that every
access that `x` makes from `s` has `P`, and `Confined covers x` that `x` sees and changes a state of
indexed values only where its accesses are.  The rules follow the computation step by step; `rounds`
is the loop whose rounds may leave it or the whole computation. -/

/-- What a computation comes to, with the accesses that it made, the first one first. -/
structure Recorded (ρ σ α : Type) where
  value : α
  state : σ
  accesses : List ρ

/-- A computation over states `σ` that records accesses `ρ`. -/
def Traced (ρ σ α : Type) : Type := σ → Recorded ρ σ α

namespace Traced

variable {ρ σ α β γ ε ι κ : Type}

/-- The computation from a state. -/
def run (x : Traced ρ σ α) (s : σ) : Recorded ρ σ α := x s

instance : Monad (Traced ρ σ) where
  pure a := fun s => ⟨a, s, []⟩
  bind x f := fun s =>
    let first := run x s
    let next := run (f first.value) first.state
    ⟨next.value, next.state, first.accesses ++ next.accesses⟩

def record (r : ρ) : Traced ρ σ Unit := fun s => ⟨(), s, [r]⟩

def look (f : σ → α) : Traced ρ σ α := fun s => ⟨f s, s, []⟩

def change (f : σ → σ) : Traced ρ σ Unit := fun s => ⟨(), f s, []⟩

/-- How a round of a loop ends: the next one follows, the loop ends, or the computation does. -/
inductive Turn (ε γ : Type) where
  | next (acc : γ)
  | stop (acc : γ)
  | quit (e : ε)

def Turn.elim (next stop : γ → α) (quit : ε → α) : Turn ε γ → α
  | .next acc => next acc
  | .stop acc => stop acc
  | .quit e => quit e

theorem Turn.elim_iff_of_quit {next stop : γ → Prop} {quit : ε → Prop} (hquit : ∀ e, quit e)
    (turn : Turn ε γ) : turn.elim next stop quit ↔ turn.elim next stop fun _ => True := by
  cases turn with
  | quit e => exact iff_of_true (hquit e) trivial
  | _ => exact Iff.rfl

/-- At most `n` rounds of `body`, from round `i` on. -/
def rounds (body : Nat → γ → Traced ρ σ (Turn ε γ)) : Nat → Nat → γ → Traced ρ σ (Except ε γ)
  | 0, _, acc => pure (.ok acc)
  | n + 1, i, acc => do
    match ← body i acc with
    | .next acc => rounds body n (i + 1) acc
    | .stop acc => pure (.ok acc)
    | .quit e => pure (.error e)

section Run

variable (s : σ)

@[simp] theorem run_pure (a : α) : (pure a : Traced ρ σ α).run s = ⟨a, s, []⟩ := rfl

@[simp] theorem run_record (r : ρ) : (record r : Traced ρ σ Unit).run s = ⟨(), s, [r]⟩ := rfl

@[simp] theorem run_look (f : σ → α) : (look f : Traced ρ σ α).run s = ⟨f s, s, []⟩ := rfl

@[simp] theorem run_change (f : σ → σ) : (change f : Traced ρ σ Unit).run s = ⟨(), f s, []⟩ := rfl

variable (x : Traced ρ σ α) (f : α → Traced ρ σ β)

@[simp] theorem bind_value :
    ((x >>= f).run s).value = ((f (x.run s).value).run (x.run s).state).value := rfl

@[simp] theorem bind_state :
    ((x >>= f).run s).state = ((f (x.run s).value).run (x.run s).state).state := rfl

@[simp] theorem bind_accesses : ((x >>= f).run s).accesses =
    (x.run s).accesses ++ ((f (x.run s).value).run (x.run s).state).accesses := rfl

end Run

/-- Every access that the computation makes from `s` has `P`. -/
def Each (P : ρ → Prop) (x : Traced ρ σ α) (s : σ) : Prop := ∀ r ∈ (x.run s).accesses, P r

instance (P : ρ → Prop) [DecidablePred P] (x : Traced ρ σ α) (s : σ) : Decidable (Each P x s) :=
  inferInstanceAs (Decidable (∀ r ∈ (x.run s).accesses, P r))

section Each

variable {P : ρ → Prop} {s : σ}

@[simp] theorem each_pure (a : α) : Each P (pure a : Traced ρ σ α) s :=
  fun _ hr => absurd hr List.not_mem_nil

@[simp] theorem each_look (f : σ → α) : Each P (look f) s :=
  fun _ hr => absurd hr List.not_mem_nil

@[simp] theorem each_change (f : σ → σ) : Each P (change f) s :=
  fun _ hr => absurd hr List.not_mem_nil

@[simp] theorem each_record (r : ρ) : Each P (record r) s ↔ P r := List.forall_mem_singleton

@[simp] theorem each_bind (x : Traced ρ σ α) (f : α → Traced ρ σ β) :
    Each P (x >>= f) s ↔ Each P x s ∧ Each P (f (x.run s).value) (x.run s).state :=
  List.forall_mem_append

/-- A condition on the rounds to come that follows the loop round by round is exact for the loop
and what comes after it. -/
theorem each_rounds_bind {body : Nat → γ → Traced ρ σ (Turn ε γ)}
    {rest : Except ε γ → Traced ρ σ β} {C : Nat → Nat → γ → σ → Prop}
    (hend : ∀ i acc s, Each P (rest (.ok acc)) s ↔ C 0 i acc s)
    (hround : ∀ n i acc s, (Each P (body i acc) s ∧ ((body i acc).run s).value.elim
        (fun next => C n (i + 1) next ((body i acc).run s).state)
        (fun last => Each P (rest (.ok last)) ((body i acc).run s).state)
        (fun e => Each P (rest (.error e)) ((body i acc).run s).state)) ↔ C (n + 1) i acc s)
    (n : Nat) : ∀ i acc s, Each P (rounds body n i acc >>= rest) s ↔ C n i acc s := by
  induction n with
  | zero =>
    intro i acc s
    rw [← hend i acc s]
    simp [rounds]
  | succ n ih =>
    intro i acc s
    rw [← hround n i acc s, rounds, each_bind, each_bind, and_assoc]
    refine and_congr_right fun _ => ?_
    rw [bind_value, bind_state]
    cases ((body i acc).run s).value with
    | next next => exact (each_bind _ _).symm.trans (ih (i + 1) next _)
    | stop last => simp [Turn.elim]
    | quit e => simp [Turn.elim]

end Each

/-- The computation changes a state of indexed values only at the indices that its accesses cover,
and what it does depends on the values at these alone. -/
structure Confined (covers : ρ → ι → Prop) (x : Traced ρ (ι → κ) α) : Prop where
  changes : ∀ s i, (∀ r ∈ (x.run s).accesses, ¬covers r i) → (x.run s).state i = s i
  depends : ∀ s s', (∀ r ∈ (x.run s).accesses, ∀ i, covers r i → s i = s' i) →
    (x.run s').value = (x.run s).value ∧ (x.run s').accesses = (x.run s).accesses ∧
      ∀ i, s i = s' i → (x.run s).state i = (x.run s').state i

section Confined

variable {covers : ρ → ι → Prop} {x : Traced ρ (ι → κ) α}

theorem confined_pure (a : α) : Confined covers (pure a : Traced ρ (ι → κ) α) where
  changes _ _ _ := rfl
  depends _ _ _ := ⟨rfl, rfl, fun _ hi => hi⟩

/-- A look at what the access recorded for it covers. -/
theorem confined_record_look {r : ρ} {f : (ι → κ) → α}
    (hf : ∀ s s', (∀ i, covers r i → s i = s' i) → f s' = f s) :
    Confined covers (do record r; look f) where
  changes _ _ _ := rfl
  depends s s' hagree :=
    ⟨hf s s' (hagree r (List.mem_append_left _ (List.mem_singleton_self r))), rfl, fun _ hi => hi⟩

/-- A change, index by index, that stays inside the access recorded for it. -/
theorem confined_record_change {r : ρ} {f : (ι → κ) → ι → κ}
    (hchanges : ∀ s i, ¬covers r i → f s i = s i)
    (hdepends : ∀ s s' i, s i = s' i → f s i = f s' i) :
    Confined covers (do record r; change f) where
  changes s i hout := hchanges s i (hout r (List.mem_append_left _ (List.mem_singleton_self r)))
  depends s s' _ := ⟨rfl, rfl, hdepends s s'⟩

theorem Confined.bind {f : α → Traced ρ (ι → κ) β} (hx : Confined covers x)
    (hf : ∀ a, Confined covers (f a)) : Confined covers (x >>= f) where
  changes s i hout := by
    obtain ⟨hfirst, hnext⟩ := List.forall_mem_append.mp hout
    exact ((hf _).changes _ i hnext).trans (hx.changes s i hfirst)
  depends s s' hagree := by
    obtain ⟨hfirst, hnext⟩ := List.forall_mem_append.mp hagree
    obtain ⟨hvalue, haccesses, hstate⟩ := hx.depends s s' hfirst
    obtain ⟨hvalue', haccesses', hstate'⟩ := (hf (x.run s).value).depends (x.run s).state
      (x.run s').state fun r hr i hi => hstate i (hnext r hr i hi)
    rw [bind_value, bind_value, bind_accesses, bind_accesses, bind_state, bind_state, hvalue,
      haccesses, haccesses']
    exact ⟨hvalue', rfl, fun i hi => hstate' i (hstate i hi)⟩

theorem Confined.ite {c : Prop} [Decidable c] {y : Traced ρ (ι → κ) α} (hx : Confined covers x)
    (hy : Confined covers y) : Confined covers (if c then x else y) := by
  split
  · exact hx
  · exact hy

theorem confined_rounds {body : Nat → γ → Traced ρ (ι → κ) (Turn ε γ)}
    (hbody : ∀ i acc, Confined covers (body i acc)) (n : Nat) :
    ∀ i acc, Confined covers (rounds body n i acc) := by
  induction n with
  | zero => exact fun _ acc => confined_pure _
  | succ n ih =>
    intro i acc
    refine (hbody i acc).bind fun turn => ?_
    cases turn with
    | next acc => exact ih (i + 1) acc
    | stop acc => exact confined_pure _
    | quit e => exact confined_pure _

variable {P : ρ → Prop} {inside : ι → Prop} {s s' : ι → κ}

/-- If every access is inside, the outside keeps its values. -/
theorem Confined.state_eq (hx : Confined covers x) (heach : Each P x s)
    (hinside : ∀ r, P r → ∀ i, covers r i → inside i) {i : ι} (hout : ¬inside i) :
    (x.run s).state i = s i :=
  hx.changes s i fun r hr hcovers => hout (hinside r (heach r hr) i hcovers)

/-- If every access is inside, the outside is not seen. -/
theorem Confined.value_eq (hx : Confined covers x) (heach : Each P x s)
    (hinside : ∀ r, P r → ∀ i, covers r i → inside i) (hagree : ∀ i, inside i → s i = s' i) :
    (x.run s').value = (x.run s).value :=
  (hx.depends s s' fun r hr i hi => hagree i (hinside r (heach r hr) i hi)).1

end Confined

end Traced
