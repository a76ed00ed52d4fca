import Mathlib.Data.Fintype.Defs

/-! Nodes that exchange messages over first-in, first-out links.  `linked a b` says that there is a
link from `a` to `b`; a node sends to all the nodes that it is linked to at once. -/

/-- The states of the nodes, and what is on its way from one to another. -/
structure Network (ν σ μ : Type*) where
  node : ν → σ
  queue : ν → ν → List μ

namespace Network

variable {ν σ μ μ' : Type*} [DecidableEq ν]

def modify (n : ν) (change : σ → σ) (net : Network ν σ μ) : Network ν σ μ :=
  { net with node := Function.update net.node n (change (net.node n)) }

/-- `n` sends `m` over all its links. -/
def broadcast (linked : ν → ν → Bool) (n : ν) (m : μ) (net : Network ν σ μ) : Network ν σ μ :=
  { net with
    queue := fun a b => if a = n ∧ linked n b = true then net.queue a b ++ [m] else net.queue a b }

/-- `n` sends some messages, each to the node that stands before it. -/
def post (n : ν) (sent : List (ν × μ)) (net : Network ν σ μ) : Network ν σ μ :=
  { net with
    queue := fun a b =>
      if a = n then net.queue a b ++ (sent.filter fun message => message.1 = b).map Prod.snd
      else net.queue a b }

/-- The first message on the link from `a` to `b` is taken off. -/
def advance (a b : ν) (net : Network ν σ μ) : Network ν σ μ :=
  { net with
    queue := fun a' b' => if a' = a ∧ b' = b then (net.queue a b).tail else net.queue a' b' }

/-- The first message on the link from `a` to `b` arrives. -/
def deliver (receive : μ → σ → σ) (a b : ν) (net : Network ν σ μ) : Network ν σ μ :=
  match net.queue a b with
  | [] => net
  | m :: _ => (net.advance a b).modify b (receive m)

/-- No message is on its way. -/
def Quiet (net : Network ν σ μ) : Prop := ∀ a b, net.queue a b = []

instance [Fintype ν] [DecidableEq μ] (net : Network ν σ μ) : Decidable net.Quiet :=
  inferInstanceAs (Decidable (∀ a b, net.queue a b = []))

/-- The network with other messages. -/
def map (f : μ → μ') (net : Network ν σ μ) : Network ν σ μ' where
  node := net.node
  queue a b := (net.queue a b).map f

variable {linked : ν → ν → Bool} {net : Network ν σ μ} {n a b : ν} {m m' : μ}

theorem node_modify (change : σ → σ) (b : ν) :
    (net.modify n change).node b = if b = n then change (net.node n) else net.node b :=
  Function.update_apply _ _ _ _

theorem modify_congr {change change' : σ → σ}
    (hsame : change (net.node n) = change' (net.node n)) :
    net.modify n change = net.modify n change' := by
  unfold modify
  rw [hsame]

theorem modify_of_eq {change : σ → σ} (hsame : change (net.node n) = net.node n) :
    net.modify n change = net := by
  unfold modify
  rw [hsame, Function.update_eq_self]

theorem mem_queue_broadcast :
    m' ∈ (net.broadcast linked n m).queue a b ↔
      m' ∈ net.queue a b ∨ a = n ∧ linked n b = true ∧ m' = m := by
  unfold broadcast
  simp only
  split
  · next h => simp [h]
  · next h =>
    rw [iff_self_or]
    rintro ⟨ha, hb, -⟩
    exact absurd ⟨ha, hb⟩ h

theorem mem_queue_post {sent : List (ν × μ)} :
    m ∈ (net.post n sent).queue a b ↔ m ∈ net.queue a b ∨ a = n ∧ (b, m) ∈ sent := by
  unfold post
  simp only
  split
  · next h => simp [h]
  · next h => simp [h]

theorem mem_of_mem_queue_advance {a' b' : ν} (hm : m ∈ (net.advance a b).queue a' b') :
    m ∈ net.queue a' b' := by
  unfold advance at hm
  simp only at hm
  split at hm
  · next h =>
    obtain ⟨rfl, rfl⟩ := h
    exact List.mem_of_mem_tail hm
  · exact hm

/-- Only the first message of the link leaves. -/
theorem mem_queue_advance_or {rest : List μ} (hqueue : net.queue a b = m :: rest) {a' b' : ν}
    (hm' : m' ∈ net.queue a' b') : m' ∈ (net.advance a b).queue a' b' ∨ m' = m ∧ b' = b := by
  unfold advance
  simp only
  split
  · next h =>
    obtain ⟨rfl, rfl⟩ := h
    rw [hqueue] at hm' ⊢
    rcases List.mem_cons.mp hm' with rfl | hrest
    · exact Or.inr ⟨rfl, rfl⟩
    · exact Or.inl hrest
  · exact Or.inl hm'

section Map

variable {f : μ → μ'}

@[simp] theorem map_broadcast :
    (net.broadcast linked n m).map f = (net.map f).broadcast linked n (f m) := by
  simp only [map, broadcast, Network.mk.injEq, true_and]
  funext a b
  split
  · exact List.map_append
  · rfl

/-- Messages may be translated before or after they arrive. -/
theorem map_deliver {receive : μ' → σ → σ} :
    (net.deliver (fun m => receive (f m)) a b).map f = (net.map f).deliver receive a b := by
  unfold deliver
  cases hqueue : net.queue a b with
  | nil => simp [map, hqueue]
  | cons m rest =>
    simp only [map, hqueue, List.map_cons, modify, advance, Network.mk.injEq, true_and]
    funext a' b'
    split <;> simp [*]

end Map

end Network

/-- The links of a star: its center `none` and each of the others, both ways. -/
def starLinked {ι : Type*} : Option ι → Option ι → Bool
  | none, some _ | some _, none => true
  | _, _ => false
