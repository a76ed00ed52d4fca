import LuxonServer.Lib.Network
import LuxonServer.Lib.Run

/-! Simulation between two systems that take the same actions, and between networks that differ in
how a message is written down. -/

/-- Two systems whose states correspond in each step still correspond after a run. -/
theorem Transition.run_related {σ τ α : Type*} {step : σ → α → σ} {step' : τ → α → τ}
    {R : σ → τ → Prop} {C : τ → α → Prop}
    (hstep : ∀ s t a, R s t → C t a → R (step s a) (step' t a)) {s : σ} {t : τ} (hR : R s t)
    {as : List α} (hC : EachStep step' C t as) : R (run step s as) (run step' t as) := by
  induction as generalizing s t with
  | nil => exact hR
  | cons a as ih => exact ih (hstep s t a hR hC.1) hC.2

namespace Network

variable {ν σ μ μ' : Type*} [DecidableEq ν] {net : Network ν σ μ}

theorem forall₂_tail {R : μ → μ' → Prop} {ms : List μ} {ms' : List μ'} (h : List.Forall₂ R ms ms') :
    List.Forall₂ R ms.tail ms'.tail := by
  cases h with
  | nil => exact .nil
  | cons _ hrest => exact hrest

/-- Networks in the same states, whose messages on the way correspond one by one. -/
structure Related (R : μ → μ' → Prop) (net : Network ν σ μ) (net' : Network ν σ μ') : Prop where
  node : net.node = net'.node
  queue : ∀ a b, List.Forall₂ R (net.queue a b) (net'.queue a b)

namespace Related

variable {R : μ → μ' → Prop} {net' : Network ν σ μ'} {m : μ} {m' : μ'}

theorem modify (h : Related R net net') (n : ν) {change change' : σ → σ}
    (hchange : change (net.node n) = change' (net.node n)) :
    Related R (net.modify n change) (net'.modify n change') where
  node := by
    unfold Network.modify
    simp only
    rw [hchange, h.node]
  queue := h.queue

theorem broadcast (h : Related R net net') (linked : ν → ν → Bool) (n : ν) (hm : R m m') :
    Related R (net.broadcast linked n m) (net'.broadcast linked n m') where
  node := h.node
  queue a b := by
    simp only [Network.broadcast]
    split
    · exact List.rel_append (h.queue a b) (.cons hm .nil)
    · exact h.queue a b

theorem broadcasts (h : Related R net net') (linked : ν → ν → Bool) (n : ν) {ms : List μ}
    {ms' : List μ'} (hms : List.Forall₂ R ms ms') :
    Related R (ms.foldl (fun net m => net.broadcast linked n m) net)
      (ms'.foldl (fun net m => net.broadcast linked n m) net') := by
  induction hms generalizing net net' with
  | nil => exact h
  | cons hm _ ih => exact ih (h.broadcast linked n hm)

theorem post (h : Related R net net') (n : ν) {sent : List (ν × μ)} {sent' : List (ν × μ')}
    (hsent : List.Forall₂ (fun entry entry' => entry.1 = entry'.1 ∧ R entry.2 entry'.2) sent sent') :
    Related R (net.post n sent) (net'.post n sent') where
  node := h.node
  queue a b := by
    simp only [Network.post]
    split
    · refine List.rel_append (h.queue a b) ?_
      induction hsent with
      | nil => exact .nil
      | @cons entry entry' _ _ hentry _ ih =>
        by_cases htarget : entry.1 = b
        · rw [List.filter_cons_of_pos (by simpa using htarget),
            List.filter_cons_of_pos (by simpa [← hentry.1] using htarget)]
          exact .cons hentry.2 ih
        · rw [List.filter_cons_of_neg (by simpa using htarget),
            List.filter_cons_of_neg (by simpa [← hentry.1] using htarget)]
          exact ih
    · exact h.queue a b

theorem advance (h : Related R net net') (a b : ν) :
    Related R (net.advance a b) (net'.advance a b) where
  node := h.node
  queue a' b' := by
    simp only [Network.advance]
    split
    · exact forall₂_tail (h.queue a b)
    · exact h.queue a' b'

/-- Messages that correspond arrive where they are read alike. -/
theorem deliver (h : Related R net net') {receive : μ → σ → σ} {receive' : μ' → σ → σ}
    (hreceive : ∀ m m' s, R m m' → receive m s = receive' m' s) (a b : ν) :
    Related R (net.deliver receive a b) (net'.deliver receive' a b) := by
  unfold Network.deliver
  have hqueue := h.queue a b
  cases hnet : net.queue a b with
  | nil =>
    rw [hnet, List.forall₂_nil_left_iff] at hqueue
    rw [hqueue]
    exact h
  | cons m rest =>
    rw [hnet] at hqueue
    obtain ⟨m', rest', hm, -, hnet'⟩ := List.forall₂_cons_left_iff.mp hqueue
    rw [hnet']
    exact (h.advance a b).modify b (hreceive m m' _ hm)

end Related

end Network
