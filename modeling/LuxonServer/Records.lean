import LuxonServer.Lib.Run
import LuxonServer.Tokens

/-! The records of one process: a token has at most one, a record is handed out at most once, and
the expiry of a record that is gone leaves its successor alone. -/

namespace LuxonServer

/-- What happens to the records of a process. -/
inductive RecordOp where
  | store (pp : PeerPersistent)
  | load (token : String) (fresh : Option String)
  | expire (task : RecordExpiry)
  deriving DecidableEq, Repr

/-- The records of a process, and the generations of those that loads have handed out. -/
structure RecordLog where
  store : TokenStore
  handedOut : List Nat := []

namespace RecordLog

/-- A step of the process. -/
def step (l : RecordLog) : RecordOp → RecordLog
  | .store pp => { l with store := l.store.storePersistentPeer pp }
  | .load token fresh =>
    let (pp, store, _) := l.store.loadPersistentPeer token fresh
    { store, handedOut := l.handedOut ++ (pp.map (·.storeGeneration)).toList }
  | .expire task => { l with store := l.store.expire task }

/-- What holds of the records: a generation is that of one record at most, which is stored or has
been handed out. -/
structure Sound (l : RecordLog) : Prop where
  distinct : l.store.Distinct
  issued : ∀ pp ∈ l.store.stored, pp.storeGeneration ≤ l.store.nextStoreGeneration
  past : ∀ n ∈ l.handedOut, n ≤ l.store.nextStoreGeneration
  single : ∀ pp ∈ l.store.stored, ∀ other ∈ l.store.stored,
    pp.storeGeneration = other.storeGeneration → pp = other
  once : l.handedOut.Nodup
  gone : ∀ pp ∈ l.store.stored, pp.storeGeneration ∉ l.handedOut

variable {l : RecordLog}

/-- Records may go. -/
theorem Sound.shrink (hl : l.Sound) {store : TokenStore} (hdistinct : store.Distinct)
    (hsub : ∀ pp ∈ store.stored, pp ∈ l.store.stored)
    (hnext : store.nextStoreGeneration = l.store.nextStoreGeneration) :
    Sound { l with store } where
  distinct := hdistinct
  issued pp hpp := hnext ▸ hl.issued pp (hsub pp hpp)
  past n hn := hnext ▸ hl.past n hn
  single pp hpp other hother := hl.single pp (hsub pp hpp) other (hsub other hother)
  once := hl.once
  gone pp hpp := hl.gone pp (hsub pp hpp)

theorem nextStoreGeneration_store {ts : TokenStore} {pp : PeerPersistent} (happ : pp.app ≠ none) :
    (ts.storePersistentPeer pp).nextStoreGeneration = ts.nextStoreGeneration + 1 := by
  rw [TokenStore.storePersistentPeer, if_neg happ]

theorem Sound.store (hl : l.Sound) (pp : PeerPersistent) : (l.step (.store pp)).Sound := by
  by_cases happ : pp.app = none
  · have hsame : l.step (.store pp) = l := by
      simp only [step, TokenStore.storePersistentPeer, if_pos happ]
    rwa [hsame]
  have hmem : ∀ value ∈ (l.store.storePersistentPeer pp).stored, value ∈ l.store.stored ∨
      value = { pp with storeGeneration := l.store.nextStoreGeneration + 1 } := by
    intro value hvalue
    exact ((TokenStore.mem_storePersistentPeer happ).mp hvalue).imp_left And.left
  have hnext : (l.store.storePersistentPeer pp).nextStoreGeneration =
      l.store.nextStoreGeneration + 1 := nextStoreGeneration_store happ
  refine ⟨hl.distinct.storePersistentPeer pp, ?_, ?_, ?_, hl.once, ?_⟩
  · intro value hvalue
    show value.storeGeneration ≤ (l.store.storePersistentPeer pp).nextStoreGeneration
    rw [hnext]
    rcases hmem value hvalue with hold | rfl
    · exact Nat.le_succ_of_le (hl.issued value hold)
    · exact le_refl _
  · intro n hn
    show n ≤ (l.store.storePersistentPeer pp).nextStoreGeneration
    rw [hnext]
    exact Nat.le_succ_of_le (hl.past n hn)
  · intro value hvalue other hother heq
    rcases hmem value hvalue with hold | rfl <;> rcases hmem other hother with hold' | rfl
    · exact hl.single value hold other hold' heq
    · have hle := hl.issued value hold
      simp only at heq
      omega
    · have hle := hl.issued other hold'
      simp only at heq
      omega
    · rfl
  · intro value hvalue hhanded
    rcases hmem value hvalue with hold | rfl
    · exact hl.gone value hold hhanded
    · have hle := hl.past _ hhanded
      simp only at hle
      omega

theorem Sound.load (hl : l.Sound) (token : String) (fresh : Option String) :
    (l.step (.load token fresh)).Sound := by
  rcases TokenStore.loadPersistentPeer_cases hl.distinct token fresh with
    ⟨-, hload⟩ | ⟨pp, store, hpp, htoken, hmem, hdistinct, hnext, hload⟩
  · have hsame : l.step (.load token fresh) = l := by
      simp [step, hload]
    rwa [hsame]
  have hstep : l.step (.load token fresh) =
      { store, handedOut := l.handedOut ++ [pp.storeGeneration] } := by
    simp [step, hload]
  have hrest := hl.shrink hdistinct (fun value hvalue => ((hmem value).mp hvalue).1) hnext
  rw [hstep]
  refine ⟨hdistinct, hrest.issued, ?_, hrest.single, ?_, ?_⟩
  · intro n hn
    rcases List.mem_append.mp hn with hold | hnew
    · exact hrest.past n hold
    · rw [List.mem_singleton.mp hnew, hnext]
      exact hl.issued pp hpp
  · rw [List.nodup_append]
    refine ⟨hl.once, List.nodup_singleton _, ?_⟩
    rintro n hold m hnew rfl
    exact hl.gone pp hpp (List.mem_singleton.mp hnew ▸ hold)
  · intro value hvalue hhanded
    obtain ⟨hstored, hother⟩ := (hmem value).mp hvalue
    rcases List.mem_append.mp hhanded with hold | hnew
    · exact hl.gone value hstored hold
    · have hsame := hl.single value hstored pp hpp (List.mem_singleton.mp hnew)
      exact hother (hsame ▸ htoken)

theorem Sound.expire (hl : l.Sound) (task : RecordExpiry) : (l.step (.expire task)).Sound := by
  have hsub := TokenStore.expire_sublist task l.store
  refine hl.shrink (hl.distinct.sublist (hsub.map _)) (fun pp hpp => hsub.subset hpp) ?_
  unfold TokenStore.expire
  split <;> rfl

theorem sound_keeps : Transition.Keeps step (fun _ _ => True) Sound := by
  intro l op hl _
  cases op with
  | store pp => exact hl.store pp
  | load token fresh => exact hl.load token fresh
  | expire task => exact hl.expire task

/-- The counter of stores does not go back. -/
theorem nextStoreGeneration_run (l : RecordLog) (ops : List RecordOp) :
    l.store.nextStoreGeneration ≤ (Transition.run step l ops).store.nextStoreGeneration := by
  induction ops generalizing l with
  | nil => exact le_refl _
  | cons op ops ih =>
    refine le_trans ?_ (ih (l.step op))
    cases op with
    | store pp =>
      simp only [step, TokenStore.storePersistentPeer]
      split
      · exact le_refl _
      · exact Nat.le_succ _
    | load token fresh =>
      simp only [step, TokenStore.loadPersistentPeer]
      split <;> exact le_refl _
    | expire task =>
      simp only [step, TokenStore.expire]
      split <;> exact le_refl _

/-- An expiry takes the record of its own generation. -/
theorem mem_expire_of_ne {ts : TokenStore} {pp : PeerPersistent} {task : RecordExpiry}
    (hne : pp.storeGeneration ≠ task.storeGeneration) (hpp : pp ∈ ts.stored) :
    pp ∈ (ts.expire task).stored := by
  unfold TokenStore.expire
  split
  · exact List.mem_filter.mpr ⟨hpp, by simp [hne]⟩
  · exact hpp

/-- In every run of stores, loads and expiries a token has at most one record and a record is
handed out at most once; and the task that a store schedules leaves a record alone that is stored
under the token later. -/
theorem records_sound (hasApp : String × String → Bool) (ops : List RecordOp) :
    let l := Transition.run step { store := { hasApp } } ops
    l.store.Distinct ∧ l.handedOut.Nodup ∧
      ∀ pp later between after, pp.app ≠ none → later.app ≠ none → later.token = pp.token →
        let task : RecordExpiry :=
          ⟨max 30000 pp.reconnectTtlMs, pp.token, l.store.nextStoreGeneration + 1⟩
        let l₁ := Transition.run step (l.step (.store pp)) between
        let record := { later with storeGeneration := l₁.store.nextStoreGeneration + 1 }
        let l₂ := Transition.run step (l₁.step (.store later)) after
        record ∈ l₂.store.stored → record ∈ (l₂.step (.expire task)).store.stored := by
  intro l
  have hnew : Sound { store := { hasApp } } :=
    ⟨List.nodup_nil, nofun, nofun, nofun, List.nodup_nil, nofun⟩
  have hl : l.Sound := sound_keeps.run hnew (Transition.eachStep_of_forall fun _ _ _ => trivial)
  refine ⟨hl.distinct, hl.once, ?_⟩
  intro pp later between after happ _ _ task l₁ record l₂ hrecord
  have hbetween : (l.step (.store pp)).store.nextStoreGeneration ≤ l₁.store.nextStoreGeneration :=
    nextStoreGeneration_run (l.step (.store pp)) between
  have hfirst : (l.step (.store pp)).store.nextStoreGeneration = l.store.nextStoreGeneration + 1 :=
    nextStoreGeneration_store happ
  refine mem_expire_of_ne ?_ hrecord
  show l₁.store.nextStoreGeneration + 1 ≠ l.store.nextStoreGeneration + 1
  omega

/-- Ada's record is taken by a login and stored again, and then the time of her first one ends. -/
theorem records_sound_second_store :
    let ada : PeerPersistent := { userId := "ada", token := "a", app := some ("app", "1.0") }
    let l := Transition.run step { store := {} }
      [.store ada, .load "a" none, .store ada, .expire ⟨30000, "a", 1⟩]
    { ada with storeGeneration := 2 } ∈ l.store.stored ∧ l.handedOut = [1] := by
  intro ada l
  exact ⟨(records_sound _ []).2.2 ada ada [.load "a" none] [] nofun nofun rfl (by decide),
    by decide⟩

end RecordLog

end LuxonServer
