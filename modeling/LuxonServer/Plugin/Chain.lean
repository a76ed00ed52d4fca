import Mathlib.Logic.Function.Basic
import LuxonServer.Lib.Run

/-! Chains of plugins on one thread: each callback of a plugin has a context, and answers at once or
returns `LUXON_PLUGIN_RESULT_ASYNC` and lets its coroutine be resumed later.  While a callback or a
resumed chain runs, other chains go on. -/

namespace LuxonServer

namespace Plugin

variable {Req : Type}

/-- What a callback comes to: its result, and the request that it puts in place of the one it was
given. -/
abbrev Answer (Req : Type) := UInt8 × Option Req

/-- `LUXON_PLUGIN_RESULT_CONTINUE`. -/
def resultContinue : UInt8 := 0

/-- `LUXON_PLUGIN_RESULT_ASYNC`. -/
def resultAsync : UInt8 := 3

/-- A coroutine of `execute_plugin_chain`: the plugins of its room, how many of them it has called,
the request, and what it has come to. -/
structure Chain (Req : Type) where
  plugins : List Nat
  pos : Nat := 0
  req : Req
  outcome : Option UInt8 := none
  /-- Ghost: the request at the start. -/
  initial : Req := req
  /-- Ghost: the answers of the plugins, in order. -/
  answers : List (Answer Req) := []

/-- A `FfiCoroContext`: before it is made, in the callback, with `awaiter_handle` set, and after its
coroutine has ended. -/
inductive Phase where
  | fresh
  | running
  | suspended
  | finished
  deriving DecidableEq, Repr

/-- The use of a context, or of an awaiter, that is gone, and the cancellation of a context. -/
inductive CallFault where
  | dangling (ctx : Nat)
  | notAnAwaiter (ctx : Nat)
  deriving DecidableEq, Repr

/-- The thread. -/
structure Thread (Req : Type) where
  chains : List (Chain Req) := []
  phase : Nat → Phase := fun _ => .fresh
  owner : Nat → Nat := fun _ => 0
  nextCtx : Nat := 0
  /-- `t_coro_stack`, the top first. -/
  stack : List Nat := []
  /-- Ghost: the callbacks that have not returned, the innermost first. -/
  running : List Nat := []
  /-- What `luxonResumeCoroutineLater` has scheduled. -/
  scheduled : List (Nat × UInt8) := []
  /-- Ghost: the calls, by chain and plugin, the last one first. -/
  calls : List (Nat × Nat) := []
  faults : List CallFault := []

/-- What happens on the thread.  `ret` is the return of the innermost callback; the calls of the
interface are made by it, or by the server's own loop. -/
inductive CallEvent (Req : Type) where
  | invoke (plugins : List Nat) (req : Req)
  | ret (answer : Answer Req)
  | resume (ctx : Nat) (answer : Answer Req)
  | resumeLater (ctx : Nat) (result : UInt8)
  | fire (k : Nat) (update : Option Req)
  | destroy (ctx : Nat)

namespace Thread

/-- The chain that comes next: the callback of its next plugin, in a context of its own. -/
def callNext (c : Nat) (t : Thread Req) : Thread Req :=
  match t.chains[c]? with
  | none => t
  | some chain =>
    match chain.plugins[chain.pos]? with
    | none => { t with chains := t.chains.set c { chain with outcome := some resultContinue } }
    | some plugin =>
      { t with
        chains := t.chains.set c { chain with pos := chain.pos + 1 }
        phase := Function.update t.phase t.nextCtx .running
        owner := Function.update t.owner t.nextCtx c
        nextCtx := t.nextCtx + 1
        stack := t.nextCtx :: t.stack
        running := t.nextCtx :: t.running
        calls := (c, plugin) :: t.calls }

/-- The chain goes on with an answer. -/
def deliver (c : Nat) (answer : Answer Req) (t : Thread Req) : Thread Req :=
  match t.chains[c]? with
  | none => t
  | some chain =>
    let chain :=
      { chain with req := answer.2.getD chain.req, answers := chain.answers ++ [answer] }
    if answer.1 ≠ resultContinue then
      { t with chains := t.chains.set c { chain with outcome := some answer.1 } }
    else callNext c { t with chains := t.chains.set c chain }

/-- `FfiCoroContext::pop`. -/
def pop (ctx : Nat) (t : Thread Req) : Thread Req :=
  if t.stack.head? = some ctx then { t with stack := t.stack.tail } else t

/-- The coroutine of a callback ends, and its context pops itself once more. -/
def finish (ctx : Nat) (answer : Answer Req) (t : Thread Req) : Thread Req :=
  deliver (t.owner ctx) answer
    (pop ctx { t with phase := Function.update t.phase ctx .finished })

def fail (fault : CallFault) (t : Thread Req) : Thread Req :=
  { t with faults := fault :: t.faults }

/-- `luxonGetActiveCoroutine`. -/
def getActiveCoroutine (t : Thread Req) : Option Nat := t.stack.head?

/-- `luxonResumeCoroutine`. -/
def resumeCoroutine (ctx : Nat) (answer : Answer Req) (t : Thread Req) : Thread Req :=
  match t.phase ctx with
  | .fresh | .running => t
  | .suspended => t.finish ctx answer
  | .finished => t.fail (.dangling ctx)

/-- `luxonResumeCoroutineLater`. -/
def resumeCoroutineLater (ctx : Nat) (result : UInt8) (t : Thread Req) : Thread Req :=
  match t.phase ctx with
  | .fresh | .running => t
  | .suspended => { t with scheduled := t.scheduled ++ [(ctx, result)] }
  | .finished => t.fail (.dangling ctx)

/-- `luxonDestroyCoroutine`, which passes the context where an awaiter is expected. -/
def destroyCoroutine (ctx : Nat) (t : Thread Req) : Thread Req :=
  match t.phase ctx with
  | .fresh | .running => t
  | .suspended => t.fail (.notAnAwaiter ctx)
  | .finished => t.fail (.dangling ctx)

/-- The innermost callback returns. -/
def ret (answer : Answer Req) (t : Thread Req) : Thread Req :=
  match t.running with
  | [] => t
  | ctx :: running =>
    let t := { t.pop ctx with running }
    if answer.1 = resultAsync then { t with phase := Function.update t.phase ctx .suspended }
    else t.finish ctx answer

/-- A scheduled task of `luxonResumeCoroutineLater`. -/
def fire (k : Nat) (update : Option Req) (t : Thread Req) : Thread Req :=
  match t.scheduled[k]? with
  | none => t
  | some (ctx, result) =>
    resumeCoroutine ctx (result, update) { t with scheduled := t.scheduled.eraseIdx k }

def step (t : Thread Req) : CallEvent Req → Thread Req
  | .invoke plugins req =>
    callNext t.chains.length { t with chains := t.chains ++ [{ plugins, req }] }
  | .ret answer => t.ret answer
  | .resume ctx answer => t.resumeCoroutine ctx answer
  | .resumeLater ctx result => t.resumeCoroutineLater ctx result
  | .fire k update => t.fire k update
  | .destroy ctx => t.destroyCoroutine ctx

/-- The callback or the coroutine of the context has not come to its end. -/
def Open (t : Thread Req) (ctx : Nat) : Prop := t.phase ctx = .running ∨ t.phase ctx = .suspended

end Thread

/-- A coroutine is resumed once, now or later, and is not destroyed. -/
def Orderly (t : Thread Req) : CallEvent Req → Prop
  | .resume ctx _ | .resumeLater ctx _ =>
    t.phase ctx ≠ .finished ∧ ctx ∉ t.scheduled.map Prod.fst
  | .destroy ctx => ¬(t.phase ctx = .finished ∨ t.phase ctx = .suspended)
  | _ => True

instance (t : Thread Req) : ∀ event, Decidable (Orderly t event)
  | .invoke .. | .ret _ | .fire .. => .isTrue trivial
  | .resume .. | .resumeLater .. => inferInstanceAs (Decidable (_ ∧ _))
  | .destroy _ => inferInstanceAs (Decidable ¬(_ ∨ _))

/-- What a chain comes to by itself, with the answers that there are: the first that is not
`Continue`, with the request as the plugins have left it. -/
def evaluate : List Nat → List (Answer Req) → Req → Option UInt8 × Req
  | [], _, req => (some resultContinue, req)
  | _ :: _, [], req => (none, req)
  | _ :: plugins, answer :: answers, req =>
    if answer.1 ≠ resultContinue then (some answer.1, answer.2.getD req)
    else evaluate plugins answers (answer.2.getD req)

end Plugin

end LuxonServer
