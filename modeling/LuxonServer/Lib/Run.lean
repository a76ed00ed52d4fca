import Mathlib.Logic.Basic

/-! Runs of a system that takes one action after another.  `step s a` is the state that action `a`
leads to from `s`; an action that is not possible in `s` leaves `s` as it is.  `Always P s as` says
that `P` holds in every state of the run of `as` from `s`, and `EachStep C s as` that every action
of the run meets `C` in the state that it is taken in. -/

namespace Transition

variable {σ α : Type*} (step : σ → α → σ)

/-- The state that the run of `as` from `s` ends in. -/
def run : σ → List α → σ
  | s, [] => s
  | s, a :: as => run (step s a) as

/-- `P` holds in every state of the run, the first and the last included. -/
def Always (P : σ → Prop) : σ → List α → Prop
  | s, [] => P s
  | s, a :: as => P s ∧ Always P (step s a) as

/-- Every action of the run meets `C` in the state that it is taken in. -/
def EachStep (C : σ → α → Prop) : σ → List α → Prop
  | _, [] => True
  | s, a :: as => C s a ∧ EachStep C (step s a) as

/-- Every step that meets `C` keeps `I`. -/
def Keeps (C : σ → α → Prop) (I : σ → Prop) : Prop :=
  ∀ s a, I s → C s a → I (step s a)

/-- How many actions of the run have `p` in the state that they are taken in. -/
def occurrences (p : σ → α → Bool) : σ → List α → Nat
  | _, [] => 0
  | s, a :: as => occurrences p (step s a) as + if p s a then 1 else 0

instance Always.decidable (P : σ → Prop) [DecidablePred P] :
    ∀ s as, Decidable (Always step P s as)
  | s, [] => inferInstanceAs (Decidable (P s))
  | s, a :: as =>
    have := Always.decidable P (step s a) as
    inferInstanceAs (Decidable (P s ∧ Always step P (step s a) as))

instance EachStep.decidable (C : σ → α → Prop) [∀ s a, Decidable (C s a)] :
    ∀ s as, Decidable (EachStep step C s as)
  | _, [] => .isTrue trivial
  | s, a :: as =>
    have := EachStep.decidable C (step s a) as
    inferInstanceAs (Decidable (C s a ∧ EachStep step C (step s a) as))

variable {step} {s : σ} {a : α} {as : List α}

@[simp] theorem run_nil : run step s [] = s := rfl

@[simp] theorem run_cons : run step s (a :: as) = run step (step s a) as := rfl

theorem run_append (bs : List α) : run step s (as ++ bs) = run step (run step s as) bs := by
  induction as generalizing s with
  | nil => rfl
  | cons a as ih => exact ih

@[simp] theorem always_nil {P : σ → Prop} : Always step P s [] ↔ P s := Iff.rfl

@[simp] theorem always_cons {P : σ → Prop} :
    Always step P s (a :: as) ↔ P s ∧ Always step P (step s a) as := Iff.rfl

@[simp] theorem eachStep_nil {C : σ → α → Prop} : EachStep step C s [] := trivial

@[simp] theorem eachStep_cons {C : σ → α → Prop} :
    EachStep step C s (a :: as) ↔ C s a ∧ EachStep step C (step s a) as := Iff.rfl

theorem eachStep_append {C : σ → α → Prop} (bs : List α) :
    EachStep step C s (as ++ bs) ↔ EachStep step C s as ∧ EachStep step C (run step s as) bs := by
  induction as generalizing s with
  | nil => simp
  | cons a as ih => rw [List.cons_append, eachStep_cons, eachStep_cons, ih, and_assoc, run_cons]

theorem occurrences_cons_of {p : σ → α → Bool} (hp : p s a = true) :
    occurrences step p s (a :: as) = occurrences step p (step s a) as + 1 := by
  rw [occurrences, if_pos hp]

theorem occurrences_cons_of_not {p : σ → α → Bool} (hp : p s a = false) :
    occurrences step p s (a :: as) = occurrences step p (step s a) as := by
  rw [occurrences, hp]
  rfl

theorem Always.head {P : σ → Prop} (h : Always step P s as) : P s := by
  cases as with
  | nil => exact h
  | cons _ _ => exact h.1

theorem Always.last {P : σ → Prop} (h : Always step P s as) : P (run step s as) := by
  induction as generalizing s with
  | nil => exact h
  | cons _ _ ih => exact ih h.2

theorem Always.eachStep {P : σ → Prop} (h : Always step P s as) :
    EachStep step (fun s _ => P s) s as := by
  induction as generalizing s with
  | nil => trivial
  | cons _ _ ih => exact ⟨h.1, ih h.2⟩

theorem Always.eachStep_after {P : σ → Prop} (h : Always step P s as) :
    EachStep step (fun s a => P (step s a)) s as := by
  induction as generalizing s with
  | nil => trivial
  | cons _ _ ih => exact ⟨h.2.head, ih h.2⟩

theorem EachStep.and {C D : σ → α → Prop} (hC : EachStep step C s as)
    (hD : EachStep step D s as) : EachStep step (fun s a => C s a ∧ D s a) s as := by
  induction as generalizing s with
  | nil => trivial
  | cons _ _ ih => exact ⟨⟨hC.1, hD.1⟩, ih hC.2 hD.2⟩

theorem EachStep.imp {C D : σ → α → Prop} (hC : EachStep step C s as)
    (hCD : ∀ s a, C s a → D s a) : EachStep step D s as := by
  induction as generalizing s with
  | nil => trivial
  | cons _ _ ih => exact ⟨hCD _ _ hC.1, ih hC.2⟩

theorem eachStep_of_forall {C : σ → α → Prop} (h : ∀ a ∈ as, ∀ s, C s a) :
    EachStep step C s as := by
  induction as generalizing s with
  | nil => trivial
  | cons a as ih =>
    exact ⟨h a List.mem_cons_self s, ih fun b hb => h b (List.mem_cons_of_mem a hb)⟩

section Map

variable {β : Type*} {f : β → α} {bs : List β}

theorem run_map : run step s (bs.map f) = run (fun s b => step s (f b)) s bs := by
  induction bs generalizing s with
  | nil => rfl
  | cons b bs ih => exact ih

theorem eachStep_map {C : σ → α → Prop} :
    EachStep step C s (bs.map f) ↔
      EachStep (fun s b => step s (f b)) (fun s b => C s (f b)) s bs := by
  induction bs generalizing s with
  | nil => exact Iff.rfl
  | cons b bs ih => exact and_congr_right fun _ => ih

end Map

/-- An invariant of the steps that meet `C` holds throughout every run of such steps. -/
theorem Keeps.always {C : σ → α → Prop} {I : σ → Prop} (hKeeps : Keeps step C I) (hI : I s)
    (hC : EachStep step C s as) : Always step I s as := by
  induction as generalizing s with
  | nil => exact hI
  | cons a as ih => exact ⟨hI, ih (hKeeps _ _ hI hC.1) hC.2⟩

theorem Keeps.run {C : σ → α → Prop} {I : σ → Prop} (hKeeps : Keeps step C I) (hI : I s)
    (hC : EachStep step C s as) : I (run step s as) :=
  (hKeeps.always hI hC).last

/-- What the invariant says of a step holds of every step of such a run. -/
theorem Keeps.eachStep {C D : σ → α → Prop} {I : σ → Prop} (hKeeps : Keeps step C I) (hI : I s)
    (hC : EachStep step C s as) (hD : ∀ s a, I s → C s a → D s a) : EachStep step D s as := by
  induction as generalizing s with
  | nil => trivial
  | cons a as ih => exact ⟨hD _ _ hI hC.1, ih (hKeeps _ _ hI hC.1) hC.2⟩

theorem Always.imp {P Q : σ → Prop} (h : Always step P s as) (hPQ : ∀ s, P s → Q s) :
    Always step Q s as := by
  induction as generalizing s with
  | nil => exact hPQ _ h
  | cons a as ih => exact ⟨hPQ _ h.1, ih h.2⟩

/-- Two step conditions that agree wherever the invariant `I` holds agree on every run. -/
theorem eachStep_congr {I : σ → Prop} {B C D : σ → α → Prop} (hKeeps : Keeps step B I) (hI : I s)
    (hB : EachStep step B s as) (hCD : ∀ s a, I s → B s a → (C s a ↔ D s a)) :
    EachStep step C s as ↔ EachStep step D s as := by
  induction as generalizing s with
  | nil => simp
  | cons a as ih =>
    rw [eachStep_cons, eachStep_cons, hCD _ _ hI hB.1, ih (hKeeps _ _ hI hB.1) hB.2]

/-- The same where `I` is kept by the steps that meet `C`: a run whose steps all meet `C` goes on as
long as one whose steps all meet `D`. -/
theorem eachStep_iff_of_keeps {I : σ → Prop} {C D : σ → α → Prop} (hKeeps : Keeps step C I)
    (hCD : ∀ s a, I s → (C s a ↔ D s a)) (hI : I s) :
    EachStep step C s as ↔ EachStep step D s as := by
  induction as generalizing s with
  | nil => simp
  | cons a as ih =>
    rw [eachStep_cons, eachStep_cons, ← hCD _ _ hI]
    exact and_congr_right fun hC => ih (hKeeps _ _ hI hC)

/-- When a step from a state with `P` keeps `P` exactly if it meets `C`, a run has `P` throughout
exactly if each of its steps meets `C`.  `I` is what is known of every state on the way, and `B`
what is known of every step. -/
theorem always_iff_eachStep {I P : σ → Prop} {B C : σ → α → Prop} (hKeeps : Keeps step B I)
    (hPC : ∀ s a, I s → B s a → P s → (P (step s a) ↔ C s a)) (hI : I s) (hP : P s)
    (hB : EachStep step B s as) : Always step P s as ↔ EachStep step C s as := by
  induction as generalizing s with
  | nil => exact iff_of_true hP trivial
  | cons a as ih =>
    have hI' := hKeeps _ _ hI hB.1
    rw [always_cons, eachStep_cons]
    constructor
    · rintro ⟨-, hrest⟩
      have hP' := hrest.head
      exact ⟨(hPC _ _ hI hB.1 hP).mp hP', (ih hI' hP' hB.2).mp hrest⟩
    · rintro ⟨hC, hrest⟩
      have hP' := (hPC _ _ hI hB.1 hP).mpr hC
      exact ⟨hP, (ih hI' hP' hB.2).mpr hrest⟩

/-- The same with an invariant `I` that is stronger than `P`, where a step from a state with `I`
keeps `I` if it meets `C`, and does not even keep `P` otherwise. -/
theorem always_iff_eachStep_of_invariant {I P : σ → Prop} {B C : σ → α → Prop}
    (hP : ∀ s, I s → P s) (hKeeps : ∀ s a, I s → B s a → C s a → I (step s a))
    (hC : ∀ s a, I s → B s a → P (step s a) → C s a) (hI : I s) (hB : EachStep step B s as) :
    Always step P s as ↔ EachStep step C s as := by
  induction as generalizing s with
  | nil => exact iff_of_true (hP _ hI) trivial
  | cons a as ih =>
    rw [always_cons, eachStep_cons]
    constructor
    · rintro ⟨-, hrest⟩
      have hstep := hC _ _ hI hB.1 hrest.head
      exact ⟨hstep, (ih (hKeeps _ _ hI hB.1 hstep) hB.2).mp hrest⟩
    · rintro ⟨hstep, hrest⟩
      exact ⟨hP _ hI, (ih (hKeeps _ _ hI hB.1 hstep) hB.2).mpr hrest⟩

/-- The states that runs of steps with `B` lead to from the states with `init`. -/
inductive Reachable (step : σ → α → σ) (init : σ → Prop) (B : σ → α → Prop) : σ → Prop
  | init {s : σ} : init s → Reachable step init B s
  | step {s : σ} {a : α} : Reachable step init B s → B s a → Reachable step init B (step s a)

theorem Reachable.invariant {init I : σ → Prop} {B : σ → α → Prop} (h : Reachable step init B s)
    (hinit : ∀ s, init s → I s) (hKeeps : Keeps step B I) : I s := by
  induction h with
  | init h0 => exact hinit _ h0
  | step _ hB ih => exact hKeeps _ _ ih hB

theorem Reachable.run {init : σ → Prop} {B : σ → α → Prop} (h : Reachable step init B s)
    (hB : EachStep step B s as) : Reachable step init B (run step s as) := by
  induction as generalizing s with
  | nil => exact h
  | cons a as ih => exact ih (h.step hB.1) hB.2

end Transition
