import Mathlib.Data.List.InsertIdx
import Mathlib.Data.List.Nodup
import LuxonServer.Plugin.Chain

/-! Chains of plugins that take turns on a thread come to what each of them would come to alone. -/

namespace LuxonServer

open Transition

namespace Plugin

variable {Req : Type}

/-- One more answer to a chain that waits for it. -/
theorem evaluate_concat (answer : Answer Req) (plugins : List Nat) :
    ∀ {answers : List (Answer Req)} {initial req : Req},
      evaluate plugins answers initial = (none, req) →
      answers.length < plugins.length ∧ evaluate plugins (answers ++ [answer]) initial =
        (if answer.1 ≠ resultContinue then some answer.1
          else if answers.length + 1 = plugins.length then some resultContinue else none,
          answer.2.getD req) := by
  induction plugins with
  | nil => exact fun h => nomatch h
  | cons plugin plugins ih =>
    intro answers initial req hvalue
    cases answers with
    | nil =>
      obtain rfl : initial = req := congrArg Prod.snd hvalue
      refine ⟨Nat.succ_pos _, ?_⟩
      by_cases hresult : answer.1 ≠ resultContinue
      · simp [evaluate, hresult]
      · cases plugins <;> simp [evaluate, hresult]
    | cons first answers =>
      by_cases hresult : first.1 ≠ resultContinue
      · simp [evaluate, hresult] at hvalue
      · rw [evaluate, if_neg hresult] at hvalue
        obtain ⟨hlength, hconcat⟩ := ih hvalue
        refine ⟨Nat.succ_lt_succ hlength, ?_⟩
        rw [List.cons_append, evaluate, if_neg hresult, hconcat]
        simp

namespace Thread

/-- A context whose callback or coroutine is one of the chain's. -/
def OpenFor (t : Thread Req) (c ctx : Nat) : Prop := t.Open ctx ∧ t.owner ctx = c

/-- The plugins that the chain has called, the last one first. -/
def called (t : Thread Req) (c : Nat) : List Nat :=
  (t.calls.filter fun call => call.1 = c).map Prod.snd

/-- A chain has called its plugins in order, has come to what `evaluate` says, and waits for exactly
one callback until then. -/
structure ChainOk (t : Thread Req) (c : Nat) (chain : Chain Req) : Prop where
  value : evaluate chain.plugins chain.answers chain.initial = (chain.outcome, chain.req)
  called : t.called c = (chain.plugins.take chain.pos).reverse
  pos_le : chain.pos ≤ chain.plugins.length
  waiting : chain.outcome = none → chain.pos = chain.answers.length + 1 ∧
    ∃ ctx, t.OpenFor c ctx ∧ ∀ ctx', t.OpenFor c ctx' → ctx' = ctx
  ended : chain.outcome ≠ none → ∀ ctx, ¬t.OpenFor c ctx

/-- The contexts and the stack. -/
structure Contexts (t : Thread Req) : Prop where
  stack : t.stack = t.running
  nodup : t.running.Nodup
  mem_running : ∀ ctx, ctx ∈ t.running ↔ t.phase ctx = .running
  fresh : ∀ ctx, t.nextCtx ≤ ctx → t.phase ctx = .fresh
  scheduled_nodup : (t.scheduled.map Prod.fst).Nodup
  scheduled : ∀ ctx ∈ t.scheduled.map Prod.fst, t.phase ctx = .suspended
  owner_lt : ∀ ctx, t.Open ctx → t.owner ctx < t.chains.length
  calls_lt : ∀ call ∈ t.calls, call.1 < t.chains.length
  faults : t.faults = []

structure Sound (t : Thread Req) : Prop extends Contexts t where
  chains : ∀ c chain, t.chains[c]? = some chain → t.ChainOk c chain

variable {t t' : Thread Req} {c : Nat} {chain : Chain Req}

theorem ChainOk.congr (hok : t.ChainOk c chain) (hcalled : t'.called c = t.called c)
    (hopen : ∀ ctx, t'.OpenFor c ctx ↔ t.OpenFor c ctx) : t'.ChainOk c chain where
  value := hok.value
  called := hcalled.trans hok.called
  pos_le := hok.pos_le
  waiting hnone := by
    obtain ⟨hpos, ctx, hctx, honly⟩ := hok.waiting hnone
    exact ⟨hpos, ctx, (hopen ctx).mpr hctx, fun ctx' hctx' => honly ctx' ((hopen ctx').mp hctx')⟩
  ended hsome ctx hctx := hok.ended hsome ctx ((hopen ctx).mp hctx)

/-- A chain that has no callback, and is to call its next plugin. -/
structure Idle (t : Thread Req) (c : Nat) (chain : Chain Req) : Prop where
  get : t.chains[c]? = some chain
  outcome : chain.outcome = none
  value : evaluate chain.plugins chain.answers chain.initial =
    (if chain.pos = chain.plugins.length then some resultContinue else none, chain.req)
  called : t.called c = (chain.plugins.take chain.pos).reverse
  pos_eq : chain.pos = chain.answers.length
  pos_le : chain.pos ≤ chain.plugins.length
  none_open : ∀ ctx, ¬t.OpenFor c ctx

/-- The contexts when one more callback begins. -/
theorem Contexts.call (hcontexts : t.Contexts) {chains : List (Chain Req)}
    {calls : List (Nat × Nat)} (hlength : chains.length = t.chains.length)
    (hc : c < t.chains.length)
    (hcalls : ∀ call ∈ calls, call.1 < t.chains.length) :
    Contexts { t with
      chains
      phase := Function.update t.phase t.nextCtx .running
      owner := Function.update t.owner t.nextCtx c
      nextCtx := t.nextCtx + 1
      stack := t.nextCtx :: t.stack
      running := t.nextCtx :: t.running
      calls } := by
  have hnew : t.phase t.nextCtx = .fresh := hcontexts.fresh _ (Nat.le_refl _)
  have hne : ∀ ctx, t.phase ctx ≠ .fresh → ctx ≠ t.nextCtx := by
    rintro ctx hctx rfl
    exact hctx hnew
  constructor
  · exact congrArg (t.nextCtx :: ·) hcontexts.stack
  · refine List.nodup_cons.mpr ⟨fun hmem => ?_, hcontexts.nodup⟩
    rw [hcontexts.mem_running, hnew] at hmem
    cases hmem
  · intro ctx
    by_cases hctx : ctx = t.nextCtx
    · subst hctx
      simp
    · simp [hctx, hcontexts.mem_running]
  · intro ctx hctx
    have hctx : t.nextCtx + 1 ≤ ctx := hctx
    exact (Function.update_of_ne (by omega) _ _).trans (hcontexts.fresh ctx (by omega))
  · exact hcontexts.scheduled_nodup
  · intro ctx hmem
    have hphase := hcontexts.scheduled ctx hmem
    exact (Function.update_of_ne (hne ctx (by rw [hphase]; decide)) _ _).trans hphase
  · intro ctx hopen
    by_cases hctx : ctx = t.nextCtx
    · subst hctx
      simpa [hlength] using hc
    · have hopen : t.Open ctx := by simpa [Open, hctx] using hopen
      simpa [hctx, hlength] using hcontexts.owner_lt ctx hopen
  · exact fun call hcall => hlength.symm ▸ hcalls call hcall
  · exact hcontexts.faults

/-- The other chains do not notice when a chain changes. -/
theorem Contexts.setChain (hcontexts : t.Contexts) (chain : Chain Req) :
    Contexts { t with chains := t.chains.set c chain } := { hcontexts with
  owner_lt := fun ctx hctx => by simpa using hcontexts.owner_lt ctx hctx
  calls_lt := fun call hcall => by simpa using hcontexts.calls_lt call hcall }

theorem Contexts.end_sound (hcontexts : t.Contexts) (hc : c < t.chains.length)
    (hothers : ∀ c' ≠ c, ∀ chain', t.chains[c']? = some chain' → t.ChainOk c' chain')
    (hok : t.ChainOk c chain) : Sound { t with chains := t.chains.set c chain } := by
  refine { hcontexts.setChain chain with chains := fun c' chain' hget => ?_ }
  by_cases hother : c' = c
  · subst hother
    obtain rfl : chain = chain' := by simpa [hc] using hget
    exact hok.congr rfl fun _ => Iff.rfl
  · rw [List.getElem?_set_ne (Ne.symm hother)] at hget
    exact (hothers c' hother chain' hget).congr rfl fun _ => Iff.rfl

theorem callNext_sound (hcontexts : t.Contexts) (hidle : t.Idle c chain)
    (hothers : ∀ c' ≠ c, ∀ chain', t.chains[c']? = some chain' → t.ChainOk c' chain') :
    (t.callNext c).Sound := by
  have hc : c < t.chains.length := (List.getElem?_eq_some_iff.mp hidle.get).1
  unfold callNext
  rw [hidle.get]
  dsimp only
  split
  · next hend =>
    have hpos : chain.pos = chain.plugins.length :=
      Nat.le_antisymm hidle.pos_le (List.getElem?_eq_none_iff.mp hend)
    exact hcontexts.end_sound hc hothers {
      value := by rw [hidle.value, if_pos hpos]
      called := hidle.called
      pos_le := hidle.pos_le
      waiting := fun hnone => nomatch hnone
      ended := fun _ => hidle.none_open }
  · next plugin hplugin =>
    obtain ⟨hlt, hplugin⟩ := List.getElem?_eq_some_iff.mp hplugin
    have hnew : ¬t.Open t.nextCtx := by
      simp [Open, hcontexts.fresh _ (Nat.le_refl _)]
    have hcalls : ∀ call ∈ (c, plugin) :: t.calls, call.1 < t.chains.length := by
      rintro call hcall
      rcases List.mem_cons.mp hcall with rfl | hcall
      · exact hc
      · exact hcontexts.calls_lt call hcall
    refine { hcontexts.call (List.length_set ..) hc hcalls with chains := fun c' chain' hget => ?_ }
    by_cases hother : c' = c
    · subst hother
      obtain rfl : { chain with pos := chain.pos + 1 } = chain' := by simpa [hc] using hget
      exact {
        value := by rw [hidle.value, if_neg (Nat.ne_of_lt hlt), hidle.outcome]
        called := by
          have hcalled := hidle.called
          simp only [called] at hcalled ⊢
          rw [List.filter_cons_of_pos (by simp), List.map_cons, hcalled,
            List.take_succ_eq_append_getElem hlt, List.reverse_append, hplugin]
          rfl
        pos_le := hlt
        waiting := fun _ => by
          refine ⟨congrArg (· + 1) hidle.pos_eq, t.nextCtx, by simp [OpenFor, Open], ?_⟩
          rintro ctx ⟨hopen, howner⟩
          by_contra hctx
          refine hidle.none_open ctx ⟨?_, ?_⟩
          · simpa [Open, hctx] using hopen
          · simpa [hctx] using howner
        ended := fun hsome => absurd hidle.outcome hsome }
    · rw [List.getElem?_set_ne (Ne.symm hother)] at hget
      refine (hothers c' hother chain' hget).congr ?_ fun ctx => ?_
      · simp [called, Ne.symm hother]
      · by_cases hctx : ctx = t.nextCtx
        · subst hctx
          simp [OpenFor, hnew, Ne.symm hother]
        · simp [OpenFor, Open, hctx]

/-- An answer to the chain that waited for it. -/
theorem deliver_sound {answer : Answer Req} (hcontexts : t.Contexts)
    (hget : t.chains[c]? = some chain) (houtcome : chain.outcome = none)
    (hvalue : evaluate chain.plugins chain.answers chain.initial = (none, chain.req))
    (hcalled : t.called c = (chain.plugins.take chain.pos).reverse)
    (hpos : chain.pos = chain.answers.length + 1) (hle : chain.pos ≤ chain.plugins.length)
    (hnone : ∀ ctx, ¬t.OpenFor c ctx)
    (hothers : ∀ c' ≠ c, ∀ chain', t.chains[c']? = some chain' → t.ChainOk c' chain') :
    (t.deliver c answer).Sound := by
  have hc : c < t.chains.length := (List.getElem?_eq_some_iff.mp hget).1
  obtain ⟨-, hconcat⟩ := evaluate_concat answer chain.plugins hvalue
  unfold deliver
  rw [hget]
  dsimp only
  by_cases hresult : answer.1 ≠ resultContinue
  · rw [if_pos hresult]
    exact hcontexts.end_sound hc hothers {
      value := by rw [hconcat, if_pos hresult]
      called := hcalled
      pos_le := hle
      waiting := fun hnone => nomatch hnone
      ended := fun _ => hnone }
  · rw [if_neg hresult]
    let next : Chain Req :=
      { chain with req := answer.2.getD chain.req, answers := chain.answers ++ [answer] }
    have hidle : Idle { t with chains := t.chains.set c next } c next :=
      { get := by simp [hc]
        outcome := houtcome
        value := by rw [hconcat, if_neg hresult, hpos]
        called := hcalled
        pos_eq := by simp [next, hpos]
        pos_le := hle
        none_open := hnone }
    refine callNext_sound (hcontexts.setChain _) hidle fun c' hother chain' hget' => ?_
    rw [List.getElem?_set_ne (Ne.symm hother)] at hget'
    exact (hothers c' hother chain' hget').congr rfl fun _ => Iff.rfl

variable {ctx : Nat} {running : List Nat}

/-- The contexts when the innermost callback has returned. -/
theorem Contexts.leave (hcontexts : t.Contexts) (hrunning : t.running = ctx :: running)
    {phase : Phase} (hphase : phase = .suspended ∨ phase = .finished) :
    Contexts { t with
      stack := running
      running
      phase := Function.update t.phase ctx phase } := by
  have hctx : t.phase ctx = .running :=
    (hcontexts.mem_running ctx).mp (hrunning ▸ List.mem_cons_self)
  have hnodup := hcontexts.nodup
  rw [hrunning, List.nodup_cons] at hnodup
  have hother : ∀ ctx', t.phase ctx' ≠ .running →
      Function.update t.phase ctx phase ctx' = t.phase ctx' := by
    rintro ctx' hctx'
    refine Function.update_of_ne ?_ _ _
    rintro rfl
    exact hctx' hctx
  refine { hcontexts with
    stack := rfl
    nodup := hnodup.2
    mem_running := fun ctx' => ?_
    fresh := fun ctx' hctx' => ?_
    scheduled := fun ctx' hmem => ?_
    owner_lt := fun ctx' hopen => hcontexts.owner_lt ctx' ?_ }
  · have hmem := hcontexts.mem_running ctx'
    rw [hrunning, List.mem_cons] at hmem
    by_cases heq : ctx' = ctx
    · subst heq
      simp only [Function.update_self]
      refine iff_of_false hnodup.1 ?_
      rcases hphase with rfl | rfl <;> decide
    · simpa [heq] using hmem
  · have hfresh := hcontexts.fresh ctx' hctx'
    exact (hother ctx' (by rw [hfresh]; decide)).trans hfresh
  · have hsuspended := hcontexts.scheduled ctx' hmem
    exact (hother ctx' (by rw [hsuspended]; decide)).trans hsuspended
  · by_cases heq : ctx' = ctx
    · subst heq
      exact .inl hctx
    · simpa [Open, heq] using hopen

/-- The contexts when a coroutine that no task is to resume has gone on. -/
theorem Contexts.resume (hcontexts : t.Contexts) (hctx : t.phase ctx = .suspended)
    (hscheduled : ctx ∉ t.scheduled.map Prod.fst) :
    Contexts { t with phase := Function.update t.phase ctx .finished } := by
  refine { hcontexts with
    mem_running := fun ctx' => ?_
    fresh := fun ctx' hctx' => ?_
    scheduled := fun ctx' hmem => ?_
    owner_lt := fun ctx' hopen => hcontexts.owner_lt ctx' ?_ }
  all_goals by_cases heq : ctx' = ctx
  · subst heq
    simp [hcontexts.mem_running, hctx]
  · simp [heq, hcontexts.mem_running]
  · subst heq
    have hfresh := hcontexts.fresh ctx' hctx'
    rw [hctx] at hfresh
    cases hfresh
  · simpa [heq] using hcontexts.fresh ctx' hctx'
  · exact absurd (heq ▸ hmem) hscheduled
  · simpa [heq] using hcontexts.scheduled ctx' hmem
  · subst heq
    exact .inr hctx
  · simpa [Open, heq] using hopen

/-- Only the context of the innermost callback pops itself. -/
theorem Contexts.pop_eq (hcontexts : t.Contexts) (hctx : t.phase ctx ≠ .running) :
    t.pop ctx = t := by
  refine if_neg fun htop => hctx ?_
  rw [← hcontexts.mem_running, ← hcontexts.stack]
  exact List.mem_of_mem_head? htop

/-- The end of a callback or of its coroutine, where the rest of the thread may have moved on. -/
theorem Sound.finish (hsound : t.Sound) (hopen : t.Open ctx) (hphase : t'.phase = t.phase)
    (howner : t'.owner = t.owner) (hchains : t'.chains = t.chains) (hcalls : t'.calls = t.calls)
    (hcontexts : Contexts { t' with phase := Function.update t'.phase ctx .finished })
    (answer : Answer Req) : (t'.finish ctx answer).Sound := by
  have hc := hsound.owner_lt ctx hopen
  obtain ⟨chain, hget⟩ : ∃ chain, t.chains[t.owner ctx]? = some chain :=
    ⟨_, List.getElem?_eq_getElem hc⟩
  have hok := hsound.chains _ chain hget
  have hsame : ∀ c', Thread.called { t' with phase := Function.update t'.phase ctx .finished } c' =
      t.called c' := fun c' => by rw [called, called, hcalls]
  have houtcome : chain.outcome = none := by
    by_contra hsome
    exact hok.ended hsome ctx ⟨hopen, rfl⟩
  obtain ⟨hpos, only, honly⟩ := hok.waiting houtcome
  obtain rfl : ctx = only := honly.2 ctx ⟨hopen, rfl⟩
  have hstill : ∀ ctx', ctx' ≠ ctx →
      ∀ c', Thread.OpenFor { t' with phase := Function.update t'.phase ctx .finished } c' ctx' ↔
        t.OpenFor c' ctx' := by
    intro ctx' hne c'
    simp [OpenFor, Open, hne, hphase, howner]
  have hpop : Thread.pop ctx { t' with phase := Function.update t'.phase ctx .finished } =
      { t' with phase := Function.update t'.phase ctx .finished } :=
    hcontexts.pop_eq (by simp)
  have hown : t'.owner ctx = t.owner ctx := by rw [howner]
  unfold Thread.finish
  rw [hpop, hown]
  refine deliver_sound hcontexts (hchains ▸ hget) houtcome (houtcome ▸ hok.value)
    ((hsame _).trans hok.called) hpos hok.pos_le (fun ctx' hctx' => ?_)
    fun c' hother chain' hget' => ?_
  · by_cases heq : ctx' = ctx
    · subst heq
      simp [OpenFor, Open] at hctx'
    · exact heq (honly.2 ctx' ((hstill ctx' heq _).mp hctx'))
  · refine (hsound.chains c' chain' (hchains ▸ hget')).congr (hsame c') fun ctx' => ?_
    by_cases heq : ctx' = ctx
    · subst heq
      refine iff_of_false ?_ fun hctx' => hother hctx'.2.symm
      simp [OpenFor, Open]
    · exact hstill ctx' heq c'

theorem Sound.resumeCoroutine (hsound : t.Sound) (answer : Answer Req)
    (hphase : t.phase ctx ≠ .finished) (hscheduled : ctx ∉ t.scheduled.map Prod.fst) :
    (t.resumeCoroutine ctx answer).Sound := by
  unfold Thread.resumeCoroutine
  split
  · exact hsound
  · exact hsound
  · next hctx =>
    exact hsound.finish (.inr hctx) rfl rfl rfl rfl (hsound.resume hctx hscheduled) answer
  · next hctx => exact absurd hctx hphase

theorem Sound.invoke (hsound : t.Sound) (plugins : List Nat) (req : Req) :
    (t.step (.invoke plugins req)).Sound := by
  have hcalled : t.called t.chains.length = [] := by
    refine List.map_eq_nil_iff.mpr (List.filter_eq_nil_iff.mpr fun call hcall => ?_)
    simpa using Nat.ne_of_lt (hsound.calls_lt call hcall)
  have hcontexts : Contexts { t with chains := t.chains ++ [({ plugins, req } : Chain Req)] } :=
    { hsound.toContexts with
      owner_lt := fun ctx hctx => by
        simpa using Nat.lt_succ_of_lt (hsound.owner_lt ctx hctx)
      calls_lt := fun call hcall => by
        simpa using Nat.lt_succ_of_lt (hsound.calls_lt call hcall) }
  have hidle : Idle { t with chains := t.chains ++ [({ plugins, req } : Chain Req)] }
      t.chains.length { plugins, req } :=
    { get := by simp
      outcome := rfl
      value := by cases plugins <;> rfl
      called := hcalled
      pos_eq := rfl
      pos_le := Nat.zero_le _
      none_open := fun ctx hctx => Nat.ne_of_lt (hsound.owner_lt ctx hctx.1) hctx.2 }
  refine callNext_sound hcontexts hidle fun c' hother chain' hget => ?_
  have hlt : c' < t.chains.length := by
    have hlt := (List.getElem?_eq_some_iff.mp hget).1
    rw [List.length_append, List.length_singleton] at hlt
    omega
  rw [List.getElem?_append_left hlt] at hget
  exact (hsound.chains c' chain' hget).congr rfl fun _ => Iff.rfl

theorem Sound.ret (hsound : t.Sound) (answer : Answer Req) : (t.ret answer).Sound := by
  unfold Thread.ret
  split
  · exact hsound
  · next ctx running hrunning =>
    have hctx : t.phase ctx = .running :=
      (hsound.mem_running ctx).mp (hrunning ▸ List.mem_cons_self)
    have hpop : t.pop ctx = { t with stack := running } := by
      simp [Thread.pop, hsound.stack, hrunning]
    dsimp only
    rw [hpop]
    split
    · -- The callback becomes a coroutine that waits, and the chain with it.
      refine { hsound.leave hrunning (.inl rfl) with chains := fun c chain hget => ?_ }
      refine (hsound.chains c chain hget).congr rfl fun ctx' => ?_
      by_cases heq : ctx' = ctx
      · subst heq
        simp [OpenFor, Open, hctx]
      · simp [OpenFor, Open, heq]
    · apply hsound.finish (.inl hctx)
      · rfl
      · rfl
      · rfl
      · rfl
      · exact hsound.leave hrunning (.inr rfl)

theorem Sound.resumeCoroutineLater (hsound : t.Sound) (result : UInt8)
    (hphase : t.phase ctx ≠ .finished) (hscheduled : ctx ∉ t.scheduled.map Prod.fst) :
    (t.resumeCoroutineLater ctx result).Sound := by
  unfold Thread.resumeCoroutineLater
  split
  · exact hsound
  · exact hsound
  · next hctx =>
    refine { hsound with
      scheduled_nodup := ?_
      scheduled := fun ctx' hmem => ?_
      chains := fun c chain hget => (hsound.chains c chain hget).congr rfl fun _ => Iff.rfl }
    · rw [List.map_append, List.map_singleton, List.nodup_append]
      refine ⟨hsound.scheduled_nodup, List.nodup_singleton _, ?_⟩
      rintro ctx' hmem _ hsingle rfl
      obtain rfl : ctx' = ctx := List.mem_singleton.mp hsingle
      exact hscheduled hmem
    · rw [List.map_append, List.map_singleton, List.mem_append, List.mem_singleton] at hmem
      rcases hmem with hmem | rfl
      · exact hsound.scheduled ctx' hmem
      · exact hctx
  · next hctx => exact absurd hctx hphase

theorem Sound.fire (hsound : t.Sound) (k : Nat) (update : Option Req) :
    (t.fire k update).Sound := by
  unfold Thread.fire
  split
  · exact hsound
  · next ctx result hget =>
    obtain ⟨hk, hget⟩ := List.getElem?_eq_some_iff.mp hget
    have herase : (t.scheduled.eraseIdx k).map Prod.fst = (t.scheduled.map Prod.fst).eraseIdx k :=
      (List.eraseIdx_map ..).symm
    have hsub := (List.eraseIdx_sublist (t.scheduled.map Prod.fst) k).subset
    have hctx : ctx ∈ t.scheduled.map Prod.fst :=
      List.mem_map.mpr ⟨(ctx, result), hget ▸ List.getElem_mem hk, rfl⟩
    have hgone : ctx ∉ (t.scheduled.eraseIdx k).map Prod.fst := by
      rw [herase, List.mem_eraseIdx_iff_getElem?]
      rintro ⟨i, hne, hi⟩
      have hi' := (List.getElem?_eq_some_iff.mp hi).1
      refine hne ((List.getElem?_inj hi' hsound.scheduled_nodup).mp ?_)
      rw [hi, List.getElem?_map, List.getElem?_eq_getElem hk, hget]
      rfl
    refine Sound.resumeCoroutine (t := { t with scheduled := t.scheduled.eraseIdx k }) ?_ _ ?_ hgone
    · exact { hsound with
        scheduled_nodup := herase ▸ hsound.scheduled_nodup.eraseIdx k
        scheduled := fun ctx' hmem => hsound.scheduled ctx' (hsub (herase ▸ hmem))
        chains := fun c chain hget => (hsound.chains c chain hget).congr rfl fun _ => Iff.rfl }
    · rw [show t.phase ctx = .suspended from hsound.scheduled ctx hctx]
      decide

/-- Whatever happens next, as long as it is orderly. -/
theorem step_sound (hsound : t.Sound) {event : CallEvent Req} (horderly : Orderly t event) :
    (t.step event).Sound := by
  cases event with
  | invoke plugins req => exact hsound.invoke plugins req
  | ret answer => exact hsound.ret answer
  | resume ctx answer => exact hsound.resumeCoroutine answer horderly.1 horderly.2
  | resumeLater ctx result => exact hsound.resumeCoroutineLater result horderly.1 horderly.2
  | fire k update => exact hsound.fire k update
  | destroy ctx =>
    show (t.destroyCoroutine ctx).Sound
    unfold Thread.destroyCoroutine
    split
    · exact hsound
    · exact hsound
    · next hctx => exact absurd (.inr hctx) horderly
    · next hctx => exact absurd (.inl hctx) horderly

theorem Sound.empty : Sound ({} : Thread Req) where
  stack := rfl
  nodup := List.nodup_nil
  mem_running ctx := by simp
  fresh _ _ := rfl
  scheduled_nodup := List.nodup_nil
  scheduled ctx hmem := nomatch hmem
  owner_lt ctx hctx := by
    rcases hctx with hctx | hctx <;> cases hctx
  calls_lt call hcall := nomatch hcall
  faults := rfl
  chains c chain hget := nomatch hget

theorem sound_always {events : List (CallEvent Req)}
    (horderly : EachStep step Orderly ({} : Thread Req) events) :
    Always step Sound ({} : Thread Req) events :=
  Keeps.always (fun _ _ hsound horderly => step_sound hsound horderly) Sound.empty horderly

/-- Chains that run at once do not get in each other's way, if each coroutine is resumed once and
not destroyed: each calls its plugins in their order, one at a time, comes to what their answers
come to, and goes on until they do; and a callback that asks for its coroutine is given its own. -/
theorem chains_evaluate {events : List (CallEvent Req)}
    (horderly : EachStep step Orderly ({} : Thread Req) events) :
    Always step (fun t => t.faults = [] ∧ t.getActiveCoroutine = t.running.head? ∧
      ∀ c chain, t.chains[c]? = some chain →
        evaluate chain.plugins chain.answers chain.initial = (chain.outcome, chain.req) ∧
        t.called c = (chain.plugins.take chain.pos).reverse ∧
        (chain.outcome = none ↔ ∃ ctx, t.OpenFor c ctx) ∧
        ∀ ctx ctx', t.OpenFor c ctx → t.OpenFor c ctx' → ctx = ctx')
      ({} : Thread Req) events := by
  refine (sound_always horderly).imp fun t hsound => ⟨hsound.faults, ?_, ?_⟩
  · rw [getActiveCoroutine, hsound.stack]
  · intro c chain hget
    have hok := hsound.chains c chain hget
    have hnone : ∀ ctx, t.OpenFor c ctx → chain.outcome = none := by
      intro ctx hctx
      by_contra hsome
      exact hok.ended hsome ctx hctx
    refine ⟨hok.value, hok.called, ⟨fun hwaiting => ?_, ?_⟩, fun ctx ctx' hctx hctx' => ?_⟩
    · obtain ⟨-, ctx, hctx, -⟩ := hok.waiting hwaiting
      exact ⟨ctx, hctx⟩
    · rintro ⟨ctx, hctx⟩
      exact hnone ctx hctx
    · obtain ⟨-, only, -, honly⟩ := hok.waiting (hnone ctx hctx)
      rw [honly ctx hctx, honly ctx' hctx']

/-- Two chains at once: the second starts in the first one's callback, both wait, and the first one
goes on last and is turned down. -/
def interleaved : List (CallEvent Nat) :=
  [.invoke [7, 8] 10, .invoke [9] 20, .ret (resultAsync, none), .ret (resultContinue, none),
    .ret (resultAsync, none), .resumeLater 1 resultContinue, .fire 0 (some 21),
    .resume 2 (5, some 11)]

theorem chains_evaluate_interleaved :
    (run step ({} : Thread Nat) interleaved).chains.map (fun chain => (chain.outcome, chain.req)) =
        [(some 5, 11), (some 0, 21)] ∧
      Always step (fun t => t.faults = [] ∧ t.getActiveCoroutine = t.running.head? ∧
        ∀ c chain, t.chains[c]? = some chain →
          evaluate chain.plugins chain.answers chain.initial = (chain.outcome, chain.req) ∧
          t.called c = (chain.plugins.take chain.pos).reverse ∧
          (chain.outcome = none ↔ ∃ ctx, t.OpenFor c ctx) ∧
          ∀ ctx ctx', t.OpenFor c ctx → t.OpenFor c ctx' → ctx = ctx')
        ({} : Thread Nat) interleaved :=
  ⟨by decide, chains_evaluate (by decide)⟩

end Thread

end Plugin

end LuxonServer
