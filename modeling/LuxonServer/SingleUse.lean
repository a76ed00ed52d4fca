import Mathlib.Data.Fintype.Option
import LuxonServer.Tokens

/-! Single use of tokens over the star of processes: what has been stored under a token before its
last load is gone once no message is on its way, and what has been stored since then is not taken
by the consume of that load. -/

namespace LuxonServer

/-- A message with the era of its token when it was sent. -/
structure Sent where
  message : TokenMessage
  era : Nat
  deriving DecidableEq

/-- A network with the history of its tokens.  The era of a token is how often it has been loaded;
`eras` has the era in which the record that a process holds under a token was stored, or sent by
another process. -/
structure TokenHistory (ν : Type*) where
  net : Network ν TokenStore Sent
  loads : String → Nat
  eras : ν → String → Nat

namespace TokenHistory

variable {ν : Type*} [DecidableEq ν]

/-- The network without its history. -/
def forget (w : TokenHistory ν) : Network ν TokenStore TokenMessage := w.net.map Sent.message

/-- The record of a process under a token is of an era. -/
def setEra (n : ν) (token : String) (era : Nat) (w : TokenHistory ν) : TokenHistory ν :=
  { w with eras := Function.update w.eras n (Function.update (w.eras n) token era) }

/-- A step of the network, with its history. -/
def step (linked : ν → ν → Bool) (w : TokenHistory ν) : TokenOp ν → TokenHistory ν
  | .store n pp =>
    let w' := { w with net := w.net.modify n fun ts => ts.storePersistentPeer pp }
    if pp.app = none then w' else w'.setEra n pp.token (w.loads pp.token)
  | .sync n pp =>
    { w with net := w.net.broadcast linked n ⟨syncPersistentPeer pp, w.loads pp.token⟩ }
  | .load n token fresh =>
    let (pp, ts, messages) := (w.net.node n).loadPersistentPeer token fresh
    { w with
      net := messages.foldl (fun net m => net.broadcast linked n ⟨m, w.loads token⟩)
        (w.net.modify n fun _ => ts)
      loads :=
        if pp.isSome then Function.update w.loads token (w.loads token + 1) else w.loads }
  | .deliver a b =>
    let w' := { w with net := w.net.deliver (fun m => TokenStore.receive m.message) a b }
    match w.net.queue a b with
    | [] => w'
    | m :: _ =>
      if (w.net.node b).accepts m.message then w'.setEra b m.message.token m.era else w'
  | .expire n task => { w with net := w.net.modify n fun ts => ts.expire task }

/-- The history watches the network and does not interfere. -/
theorem forget_step (linked : ν → ν → Bool) (w : TokenHistory ν) (op : TokenOp ν) :
    (w.step linked op).forget = op.step linked w.forget := by
  cases op with
  | store n pp =>
    unfold step
    simp only
    split <;> rfl
  | sync n pp => exact Network.map_broadcast
  | load n token fresh =>
    have hfold : ∀ (messages : List TokenMessage) (net : Network ν TokenStore Sent),
        (messages.foldl (fun net m => net.broadcast linked n ⟨m, w.loads token⟩) net).map
            Sent.message =
          messages.foldl (fun net m => net.broadcast linked n m) (net.map Sent.message) := by
      intro messages
      induction messages with
      | nil => exact fun _ => rfl
      | cons m messages ih =>
        intro net
        rw [List.foldl_cons, List.foldl_cons, ih, Network.map_broadcast]
    exact hfold _ _
  | deliver a b =>
    have hdeliver : (w.net.deliver (fun m => TokenStore.receive m.message) a b).map Sent.message =
        w.forget.deliver TokenStore.receive a b := Network.map_deliver
    rw [TokenOp.step, ← hdeliver]
    unfold step
    simp only
    split
    · rfl
    · split <;> rfl
  | expire n task => rfl

/-- No token has a record of an earlier era when every message has arrived. -/
def SingleUse (w : TokenHistory ν) : Prop :=
  w.net.Quiet → ∀ n, ∀ pp ∈ (w.net.node n).stored, w.eras n pp.token = w.loads pp.token

/-- A consume takes no record of a later era than its own. -/
def KeepsLater (w : TokenHistory ν) : TokenOp ν → Prop
  | .deliver a b => ∀ m ∈ (w.net.queue a b).head?, ∀ pp ∈ (w.net.node b).stored,
    m.message.takes pp.token pp.storeGeneration = true → w.eras b pp.token ≤ m.era
  | _ => True

/-- The next record of a process under a token is not taken by a consume of an era before `era` that
is on its way. -/
def Spared (net : Network ν TokenStore Sent) (n : ν) (token : String) (era : Nat) : Prop :=
  ∀ a, ∀ m ∈ net.queue a n, m.era < era →
    m.message.takes token ((net.node n).nextStoreGeneration + 1) = false

/-- The next record of a process under a token is taken by a consume that is on its way. -/
def Doomed (net : Network ν TokenStore Sent) (n : ν) (token : String) : Prop :=
  ∃ a, ∃ m ∈ net.queue a n,
    m.message.takes token ((net.node n).nextStoreGeneration + 1) = true

/-- When the generations of the processes fit together: a load is made where every other record of
the token's era is in reach of the consume and not of a later generation; a record that is stored
is later than the consumes of earlier loads that are on their way; and a store message that arrives
after its token was loaded has a consume behind it that takes the record. -/
def Orderly (linked : ν → ν → Bool) (w : TokenHistory ν) : TokenOp ν → Prop
  | .store n pp => pp.app ≠ none → Spared w.net n pp.token (w.loads pp.token)
  | .load n token _ => ∀ pp ∈ (w.net.node n).stored, pp.token = token →
    ∀ other, other ≠ n → ∀ copy ∈ (w.net.node other).stored, copy.token = token →
      w.eras other token = w.loads token →
        linked n other = true ∧ copy.storeGeneration ≤ pp.storeGeneration
  | .deliver a b => ∀ m ∈ (w.net.queue a b).head?, (w.net.node b).accepts m.message = true →
    Spared (w.net.advance a b) b m.message.token m.era ∧
      (m.era < w.loads m.message.token → Doomed (w.net.advance a b) b m.message.token)
  | _ => True

section Decidable

variable [Fintype ν]

instance (w : TokenHistory ν) : Decidable w.SingleUse :=
  inferInstanceAs (Decidable (w.net.Quiet → ∀ _, ∀ _ ∈ _, _ = _))

instance (net : Network ν TokenStore Sent) (n : ν) (token : String) (era : Nat) :
    Decidable (Spared net n token era) :=
  inferInstanceAs (Decidable (∀ _, ∀ _ ∈ _, _ < _ → _ = false))

instance (net : Network ν TokenStore Sent) (n : ν) (token : String) :
    Decidable (Doomed net n token) :=
  inferInstanceAs (Decidable (∃ _, ∃ _ ∈ _, _ = true))

instance Orderly.decidable (linked : ν → ν → Bool) (w : TokenHistory ν) :
    ∀ op, Decidable (w.Orderly linked op)
  | .store _ _ => inferInstanceAs (Decidable (_ ≠ _ → Spared _ _ _ _))
  | .load _ _ _ => inferInstanceAs
    (Decidable (∀ _ ∈ _, _ = _ → ∀ _, _ ≠ _ → ∀ _ ∈ _, _ = _ → _ = _ → _ = true ∧ _ ≤ _))
  | .deliver _ _ => inferInstanceAs
    (Decidable (∀ _ ∈ _, _ = true → Spared _ _ _ _ ∧ (_ < _ → Doomed _ _ _)))
  | .sync _ _ | .expire _ _ => .isTrue trivial

end Decidable

/-- What holds of the history of every run of such steps. -/
structure Sound (w : TokenHistory ν) : Prop where
  distinct : ∀ n, (w.net.node n).Distinct
  sent : ∀ a b, ∀ m ∈ w.net.queue a b, m.era ≤ w.loads m.message.token
  stored : ∀ n, ∀ pp ∈ (w.net.node n).stored, w.eras n pp.token ≤ w.loads pp.token
  spared : ∀ n, ∀ pp ∈ (w.net.node n).stored, ∀ a, ∀ m ∈ w.net.queue a n,
    m.era < w.eras n pp.token → m.message.takes pp.token pp.storeGeneration = false
  doomed : ∀ n, ∀ pp ∈ (w.net.node n).stored, w.eras n pp.token < w.loads pp.token →
    ∃ a, ∃ m ∈ w.net.queue a n, m.message.takes pp.token pp.storeGeneration = true

namespace Sound

variable {w : TokenHistory ν}

omit [DecidableEq ν] in
theorem singleUse (hw : w.Sound) : w.SingleUse := by
  intro hquiet n pp hpp
  refine Nat.le_antisymm (hw.stored n pp hpp) (Nat.le_of_not_lt fun hearlier => ?_)
  obtain ⟨a, m, hm, -⟩ := hw.doomed n pp hpp hearlier
  rw [hquiet a n] at hm
  exact List.not_mem_nil hm

omit [DecidableEq ν] in
theorem keepsLater (hw : w.Sound) (op : TokenOp ν) : w.KeepsLater op := by
  cases op with
  | deliver a b =>
    intro m hm pp hpp htakes
    apply Nat.le_of_not_lt
    intro hlater
    rw [hw.spared b pp hpp a m (List.mem_of_mem_head? hm) hlater] at htakes
    cases htakes
  | _ => trivial

theorem shrink (hw : w.Sound) {n : ν} {ts : TokenStore} (hts : ts.Distinct)
    (hsub : ∀ pp ∈ ts.stored, pp ∈ (w.net.node n).stored) :
    Sound { w with net := w.net.modify n fun _ => ts } := by
  have hmem : ∀ b, ∀ pp ∈ ((w.net.modify n fun _ => ts).node b).stored,
      pp ∈ (w.net.node b).stored := by
    intro b pp hpp
    rw [Network.node_modify] at hpp
    split at hpp
    · next hb => exact hb ▸ hsub pp hpp
    · exact hpp
  constructor
  · intro b
    rw [Network.node_modify]
    split
    · exact hts
    · exact hw.distinct b
  · exact hw.sent
  · exact fun b pp hpp => hw.stored b pp (hmem b pp hpp)
  · exact fun b pp hpp => hw.spared b pp (hmem b pp hpp)
  · exact fun b pp hpp => hw.doomed b pp (hmem b pp hpp)

/-- A message arrives, and the records that it takes go. -/
theorem arrive (hw : w.Sound) {a b : ν} {m : Sent} {rest : List Sent} {ts : TokenStore}
    (hqueue : w.net.queue a b = m :: rest) (hts : ts.Distinct)
    (hmem : ∀ pp ∈ ts.stored, pp ∈ (w.net.node b).stored ∧
      m.message.takes pp.token pp.storeGeneration = false) :
    Sound { w with net := (w.net.advance a b).modify b fun _ => ts } := by
  have hold : ∀ n, ∀ pp ∈ (((w.net.advance a b).modify b fun _ => ts).node n).stored,
      pp ∈ (w.net.node n).stored ∧
        (n = b → m.message.takes pp.token pp.storeGeneration = false) := by
    intro n pp hpp
    rw [Network.node_modify] at hpp
    split at hpp
    · next hn =>
      subst hn
      exact ⟨(hmem pp hpp).1, fun _ => (hmem pp hpp).2⟩
    · next hn => exact ⟨hpp, fun heq => absurd heq hn⟩
  constructor
  · intro n
    rw [Network.node_modify]
    split
    · exact hts
    · exact hw.distinct n
  · exact fun a' b' m' hm' => hw.sent a' b' m' (Network.mem_of_mem_queue_advance hm')
  · exact fun n pp hpp => hw.stored n pp (hold n pp hpp).1
  · exact fun n pp hpp a' m' hm' =>
      hw.spared n pp (hold n pp hpp).1 a' m' (Network.mem_of_mem_queue_advance hm')
  · intro n pp hpp hearlier
    obtain ⟨hpp', hsafe⟩ := hold n pp hpp
    obtain ⟨a', m', hm', htakes⟩ := hw.doomed n pp hpp' hearlier
    rcases Network.mem_queue_advance_or hqueue hm' with hstays | ⟨rfl, hn⟩
    · exact ⟨a', m', hstays, htakes⟩
    · rw [hsafe hn] at htakes
      cases htakes

theorem eras_setEra (n b : ν) (token other : String) (era : Nat) (w : TokenHistory ν) :
    (w.setEra n token era).eras b other =
      if b = n ∧ other = token then era else w.eras b other := by
  unfold setEra
  by_cases hb : b = n
  · subst hb
    by_cases hother : other = token
    · simp [hother]
    · simp [hother]
  · simp [hb]

/-- A record is stored that is spared by the consumes of earlier eras, and doomed if its era is
over. -/
theorem storing (hw : w.Sound) {n : ν} {pp : PeerPersistent} {era : Nat} (happ : pp.app ≠ none)
    (hera : era ≤ w.loads pp.token) (hspared : Spared w.net n pp.token era)
    (hdoomed : era < w.loads pp.token → Doomed w.net n pp.token) :
    Sound ({ w with
      net := w.net.modify n fun ts => ts.storePersistentPeer pp }.setEra n pp.token era) := by
  let w' := { w with net := w.net.modify n fun ts => ts.storePersistentPeer pp }
  have hrecords : ∀ b, ∀ value ∈ (w'.net.node b).stored,
      value ∈ (w.net.node b).stored ∧
          (w'.setEra n pp.token era).eras b value.token = w.eras b value.token ∨
        b = n ∧ value.token = pp.token ∧
          value.storeGeneration = (w.net.node n).nextStoreGeneration + 1 ∧
          (w'.setEra n pp.token era).eras b value.token = era := by
    intro b value hvalue
    simp only [w', Network.node_modify] at hvalue
    rw [eras_setEra]
    split at hvalue
    · next hb =>
      subst hb
      rcases (TokenStore.mem_storePersistentPeer happ).mp hvalue with ⟨hold, hne⟩ | rfl
      · exact Or.inl ⟨hold, if_neg fun hboth => hne hboth.2⟩
      · exact Or.inr ⟨rfl, rfl, rfl, if_pos ⟨rfl, rfl⟩⟩
    · next hb => exact Or.inl ⟨hvalue, if_neg fun hboth => hb hboth.1⟩
  constructor
  · intro b
    simp only [setEra, Network.node_modify]
    split
    · exact (hw.distinct n).storePersistentPeer pp
    · exact hw.distinct b
  · exact hw.sent
  · intro b value hvalue
    rcases hrecords b value hvalue with ⟨hold, heras⟩ | ⟨rfl, htoken, -, heras⟩
    · rw [heras]
      exact hw.stored b value hold
    · rw [heras, htoken]
      exact hera
  · intro b value hvalue a m hm hearlier
    rcases hrecords b value hvalue with ⟨hold, heras⟩ | ⟨rfl, htoken, hgeneration, heras⟩
    · rw [heras] at hearlier
      exact hw.spared b value hold a m hm hearlier
    · rw [heras] at hearlier
      rw [htoken, hgeneration]
      exact hspared a m hm hearlier
  · intro b value hvalue hearlier
    rcases hrecords b value hvalue with ⟨hold, heras⟩ | ⟨rfl, htoken, hgeneration, heras⟩
    · rw [heras] at hearlier
      exact hw.doomed b value hold hearlier
    · rw [heras, htoken] at hearlier
      rw [htoken, hgeneration]
      exact hdoomed hearlier

theorem takes_consume {token other : String} {generation revision : Nat} :
    (TokenMessage.consume token (some (revision : Int))).takes other generation = true ↔
      other = token ∧ generation ≤ revision := by
  simp [TokenMessage.takes, storedRevision]

theorem loading (hw : w.Sound) {linked : ν → ν → Bool} {n : ν} {token : String}
    {pp : PeerPersistent} {ts : TokenStore} (hts : ts.Distinct)
    (hmem : ∀ value ∈ ts.stored, value ∈ (w.net.node n).stored ∧ value.token ≠ token)
    (horder : ∀ other, other ≠ n → ∀ copy ∈ (w.net.node other).stored, copy.token = token →
      w.eras other token = w.loads token →
        linked n other = true ∧ copy.storeGeneration ≤ pp.storeGeneration) :
    Sound { w with
      net := (w.net.modify n fun _ => ts).broadcast linked n
        ⟨.consume token (some pp.storeGeneration), w.loads token⟩
      loads := Function.update w.loads token (w.loads token + 1) } := by
  have hloads : ∀ other, w.loads other ≤
      Function.update w.loads token (w.loads token + 1) other := by
    intro other
    by_cases hother : other = token
    · rw [hother, Function.update_self]
      exact Nat.le_succ _
    · rw [Function.update_of_ne hother]
  have hrecords : ∀ b, ∀ value ∈ ((w.net.modify n fun _ => ts).node b).stored,
      value ∈ (w.net.node b).stored ∧ (b = n → value.token ≠ token) := by
    intro b value hvalue
    rw [Network.node_modify] at hvalue
    split at hvalue
    · next hb =>
      subst hb
      exact ⟨(hmem value hvalue).1, fun _ => (hmem value hvalue).2⟩
    · next hb => exact ⟨hvalue, fun heq => absurd heq hb⟩
  constructor
  · exact (hw.shrink hts fun value hvalue => (hmem value hvalue).1).distinct
  · intro a b m hm
    rcases Network.mem_queue_broadcast.mp hm with hold | ⟨-, -, rfl⟩
    · exact (hw.sent a b m hold).trans (hloads _)
    · exact hloads token
  · exact fun b value hvalue => (hw.stored b value (hrecords b value hvalue).1).trans (hloads _)
  · intro b value hvalue a m hm hearlier
    have hold := (hrecords b value hvalue).1
    rcases Network.mem_queue_broadcast.mp hm with hsent | ⟨-, -, rfl⟩
    · exact hw.spared b value hold a m hsent hearlier
    · by_contra htakes
      have htoken := (takes_consume.mp (Bool.eq_true_of_not_eq_false htakes)).1
      have hle := hw.stored b value hold
      rw [htoken] at hle hearlier
      exact absurd hearlier (Nat.not_lt.mpr hle)
  · intro b value hvalue hearlier
    obtain ⟨hold, hnot⟩ := hrecords b value hvalue
    by_cases hdoomed : w.eras b value.token < w.loads value.token
    · obtain ⟨a, m, hm, htakes⟩ := hw.doomed b value hold hdoomed
      exact ⟨a, m, Network.mem_queue_broadcast.mpr (Or.inl hm), htakes⟩
    · -- only a load of its own token can have ended the era of the record
      have hcurrent := Nat.le_antisymm (hw.stored b value hold) (Nat.le_of_not_lt hdoomed)
      have htoken : value.token = token := by
        by_contra hne
        simp only [Function.update_of_ne hne, hcurrent, lt_self_iff_false] at hearlier
      have hother : b ≠ n := fun heq => hnot heq htoken
      rw [htoken] at hcurrent
      obtain ⟨hlinked, hgeneration⟩ := horder b hother value hold htoken hcurrent
      exact ⟨n, _, Network.mem_queue_broadcast.mpr (Or.inr ⟨rfl, hlinked, rfl⟩),
        takes_consume.mpr ⟨htoken, hgeneration⟩⟩

theorem step (hw : w.Sound) {linked : ν → ν → Bool} {op : TokenOp ν}
    (horderly : w.Orderly linked op) : (w.step linked op).Sound := by
  cases op with
  | store n pp =>
    by_cases happ : pp.app = none
    · have hsame : w.net.modify n (fun ts => ts.storePersistentPeer pp) = w.net :=
        Network.modify_of_eq (if_pos happ)
      simp only [TokenHistory.step, if_pos happ, hsame]
      exact hw
    · simp only [TokenHistory.step, if_neg happ]
      exact hw.storing happ le_rfl (horderly happ) fun hlt => absurd hlt (Nat.lt_irrefl _)
  | sync n pp =>
    constructor
    · exact hw.distinct
    · intro a b m hm
      rcases Network.mem_queue_broadcast.mp hm with hold | ⟨-, -, rfl⟩
      · exact hw.sent a b m hold
      · exact le_rfl
    · exact hw.stored
    · intro b value hvalue a m hm hearlier
      rcases Network.mem_queue_broadcast.mp hm with hold | ⟨-, -, rfl⟩
      · exact hw.spared b value hvalue a m hold hearlier
      · rfl
    · intro b value hvalue hearlier
      obtain ⟨a, m, hm, htakes⟩ := hw.doomed b value hvalue hearlier
      exact ⟨a, m, Network.mem_queue_broadcast.mpr (Or.inl hm), htakes⟩
  | load n token fresh =>
    rcases TokenStore.loadPersistentPeer_cases (hw.distinct n) token fresh with
      ⟨-, heq⟩ | ⟨pp, ts, hpp, htoken, hmem, hts, -, heq⟩
    · simp only [TokenHistory.step, heq, List.foldl_nil]
      exact hw.shrink (hw.distinct n) fun _ hvalue => hvalue
    · simp only [TokenHistory.step, heq, List.foldl_cons, List.foldl_nil, Option.isSome_some,
        if_true]
      exact hw.loading hts (fun value hvalue => (hmem value).mp hvalue) (horderly pp hpp htoken)
  | deliver a b =>
    simp only [TokenHistory.step, Network.deliver]
    cases hqueue : w.net.queue a b with
    | nil => exact hw
    | cons m rest =>
      simp only
      rcases TokenStore.receive_cases m.message (w.net.node b) with
        ⟨hrefused, hmem, -⟩ | ⟨haccepted, pp, htoken, happ, heq⟩
      · simp only [hrefused, Bool.false_eq_true, if_false]
        exact hw.arrive hqueue ((hw.distinct b).receive m.message)
          fun value hvalue => (hmem value).mp hvalue
      · obtain ⟨hspared, hdoomed⟩ := horderly m (by rw [hqueue]; rfl) haccepted
        have harrived : Sound { w with net := w.net.advance a b } := by
          have hkept := hw.arrive hqueue (hw.distinct b) fun value hvalue =>
            ⟨hvalue, TokenStore.not_takes_of_accepts haccepted value.token value.storeGeneration⟩
          rwa [Network.modify_of_eq (by rfl)] at hkept
        have hera : m.era ≤ w.loads pp.token := by
          rw [htoken]
          exact hw.sent a b m (by rw [hqueue]; exact List.mem_cons_self)
        rw [← htoken] at hspared hdoomed
        have hstored := harrived.storing happ hera hspared hdoomed
        have hsame : (w.net.advance a b).modify b (TokenStore.receive m.message) =
            (w.net.advance a b).modify b fun ts => ts.storePersistentPeer pp :=
          Network.modify_congr heq
        simp only [haccepted, if_true, hsame, ← htoken]
        exact hstored
  | expire n task =>
    exact hw.shrink ((hw.distinct n).sublist ((TokenStore.expire_sublist task _).map _))
      fun _ hvalue => (TokenStore.expire_sublist task _).subset hvalue

end Sound

/-- Processes that hold no token yet, with nothing on its way. -/
structure IsNew (w : TokenHistory ν) : Prop where
  stored : ∀ n, (w.net.node n).stored = []
  quiet : w.net.Quiet

omit [DecidableEq ν] in
theorem IsNew.sound {w : TokenHistory ν} (hw : w.IsNew) : w.Sound := by
  have hnone : ∀ n, ∀ pp ∈ (w.net.node n).stored, False := fun n pp hpp => by
    rw [hw.stored n] at hpp
    exact List.not_mem_nil hpp
  constructor
  · intro n
    rw [TokenStore.Distinct, hw.stored n]
    exact List.nodup_nil
  · intro a b m hm
    rw [hw.quiet a b] at hm
    exact absurd hm List.not_mem_nil
  · exact fun n pp hpp => absurd (hnone n pp hpp) id
  · exact fun n pp hpp => absurd (hnone n pp hpp) id
  · exact fun n pp hpp => absurd (hnone n pp hpp) id

/-- Over the star of a parent and any children, in every run of stores, syncs, loads, expiries and
deliveries in which the generations fit together: whenever no message is on its way every record is
of its token's present era, and no consume takes a record of a later era than its own. -/
theorem single_use_of_orderly {ι : Type*} [DecidableEq ι] {w : TokenHistory (Option ι)}
    (hw : w.IsNew) {ops : List (TokenOp (Option ι))}
    (horderly : Transition.EachStep (step starLinked) (Orderly starLinked) w ops) :
    Transition.Always (step starLinked) SingleUse w ops ∧
      Transition.EachStep (step starLinked) KeepsLater w ops := by
  have hKeeps : Transition.Keeps (step starLinked) (Orderly starLinked)
      (Sound : TokenHistory (Option ι) → Prop) := fun _ _ hs hop => hs.step hop
  exact ⟨(hKeeps.always hw.sound horderly).imp fun _ hs => hs.singleUse,
    hKeeps.eachStep hw.sound horderly fun _ op hs _ => hs.keepsLater op⟩

/-- Two processes without tokens, the parent `none` and its child. -/
def parentAndChild : TokenHistory (Option Unit) where
  net := { node := fun _ => {}, queue := fun _ _ => [] }
  loads := fun _ => 0
  eras := fun _ _ => 0

def client (token : String) : PeerPersistent :=
  { userId := "ada", token, app := some ("app", "1.0") }

/-- The parent syncs and stores a token, and loads it when the child has its copy. -/
def handOver : List (TokenOp (Option Unit)) :=
  [.sync none (client "t"), .store none (client "t"), .deliver none (some ()),
    .load none "t" none, .deliver none (some ())]

/-- The consume of the parent takes the child's copy as well. -/
theorem single_use_handOver :
    Transition.Always (step starLinked) SingleUse parentAndChild handOver ∧
      Transition.EachStep (step starLinked) KeepsLater parentAndChild handOver :=
  single_use_of_orderly ⟨fun _ => rfl, fun _ _ => rfl⟩ (by decide)

/-- If the child has stored another token before, its copy has a later generation than the one that
the parent consumes: the copy stays, and the token can be loaded again. -/
theorem single_use_fails :
    let ops : List (TokenOp (Option Unit)) := .store (some ()) (client "x") :: handOver
    let w := Transition.run (step starLinked) parentAndChild ops
    parentAndChild.IsNew ∧ ¬Transition.Always (step starLinked) SingleUse parentAndChild ops ∧
      w.net.Quiet ∧ ((w.net.node (some ())).loadPersistentPeer "t" none).1.isSome = true :=
  ⟨⟨fun _ => rfl, fun _ _ => rfl⟩, by decide, by decide, by decide⟩

end TokenHistory

end LuxonServer
