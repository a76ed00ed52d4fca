import LuxonServer.Lib.Run

/-! The frame of a coroutine, its atomic state word, and the one who holds it: a `Task` that is
awaited, detached or dropped.  The body and the owner take their steps in any order, and each
access to the word is one step. -/

namespace LuxonServer

namespace Coro

variable {Handle Val Exc : Type}

/-- `TaskPromise::state_`. -/
inductive Word (Handle : Type) where
  | null
  | waiting (handle : Handle)
  | completed
  | detached

/-- `TaskPromise::DetachResult`. -/
inductive DetachResult where
  | detached | completed | alreadyDetached | alreadyWaiting

/-- What is left of the final suspension once the word is exchanged. -/
inductive Ending (Handle : Type) where
  | nothing
  | destroy
  | transfer (handle : Handle)

namespace Word

/-- `TaskPromise::storeWaiting`. -/
def storeWaiting (handle : Option Handle) (word : Word Handle) :
    Except String Bool × Word Handle :=
  match handle with
  | none => (.error "TaskPromise::storeWaiting(): null handle", word)
  | some handle =>
    match word with
    | null => (.ok true, waiting handle)
    | completed => (.ok false, completed)
    | detached => (.error "TaskPromise::storeWaiting(): task is detached", detached)
    | waiting other => (.error "TaskPromise::storeWaiting(): already waiting", waiting other)

/-- `TaskPromise::detach`. -/
def detach : Word Handle → DetachResult × Word Handle
  | null => (.detached, detached)
  | completed => (.completed, completed)
  | detached => (.alreadyDetached, detached)
  | waiting handle => (.alreadyWaiting, waiting handle)

/-- What `final_suspend` does after it has exchanged this word for `completed`. -/
def ending : Word Handle → Ending Handle
  | null | completed => .nothing
  | detached => .destroy
  | waiting handle => .transfer handle

end Word

/-- Where the coroutine is: it executes, waits for something of its own, has its result and is
about to suspend for the last time, or has done so. -/
inductive Body (Handle : Type) where
  | running
  | parked
  | returning
  | final (ending : Ending Handle)

/-- Who holds the frame: a `Task`, the awaiter of a `co_await` by its progress, a `detach` that has
found the task completed, or nobody. -/
inductive Owner (Handle : Type) where
  | task
  | ready
  | suspending
  | suspended (handle : Handle)
  | resuming
  | leaving
  | cleanup
  | gone

/-- What must not happen. -/
inductive Fault where
  | afterDestroy
  | destroyExecuting
  | resumeOther
  | thrown (message : String)

structure Frame (Handle Val Exc : Type) where
  word : Word Handle := .null
  body : Body Handle := .running
  val : Option Val := none
  exception : Option Exc := none
  owner : Owner Handle := .task
  /-- How often the frame was destroyed. -/
  destroys : Nat := 0
  /-- How often the awaiting coroutine went on, and what it was given. -/
  resumes : Nat := 0
  delivered : Option (Except Exc Val) := none
  /-- Ghost: what the body came to. -/
  outcome : Option (Except Exc Val) := none
  /-- `std::terminate` was called. -/
  terminated : Bool := false
  faults : List Fault := []

namespace Frame

/-- An access to the frame. -/
def touch (s : Frame Handle Val Exc) : Frame Handle Val Exc :=
  if s.destroys = 0 then s else { s with faults := .afterDestroy :: s.faults }

def fail (fault : Fault) (s : Frame Handle Val Exc) : Frame Handle Val Exc :=
  { s with faults := fault :: s.faults }

/-- `handle.destroy()`, which only a coroutine that is suspended survives. -/
def destroy (s : Frame Handle Val Exc) : Frame Handle Val Exc :=
  let s := s.touch
  match s.body with
  | .running | .returning => { s.fail .destroyExecuting with destroys := s.destroys + 1 }
  | .parked | .final _ => { s with destroys := s.destroys + 1 }

/-- The awaiting coroutine goes on. -/
def wake (s : Frame Handle Val Exc) : Frame Handle Val Exc :=
  { s with owner := .resuming, resumes := s.resumes + 1 }

/-- `return_value` or `unhandled_exception`. -/
def store (result : Except Exc Val) (s : Frame Handle Val Exc) : Frame Handle Val Exc :=
  match result with
  | .ok val => { s with val := some val, outcome := some result, body := .returning }
  | .error exception =>
    { s with exception := some exception, outcome := some result, body := .returning }

end Frame

/-- A step of the body, or of the owner. -/
inductive Step (Handle Val Exc : Type) where
  | park
  | unpark
  | finish (result : Except Exc Val)
  | finalSuspend
  | finalEnd
  | coAwait
  | awaitReady
  | awaitSuspend (handle : Handle)
  | awaitResume
  | dropAwaiter
  | dropTask
  | detach
  | detachEnd

namespace Frame

/-- `final_suspend`: the exchange. -/
def finalSuspend (s : Frame Handle Val Exc) : Frame Handle Val Exc :=
  { s.touch with word := .completed, body := .final s.word.ending }

/-- `Task::awaiter::await_ready`. -/
def awaitReady (s : Frame Handle Val Exc) : Frame Handle Val Exc :=
  match s.word with
  | .completed => s.touch.wake
  | _ => { s.touch with owner := .suspending }

/-- `Task::awaiter::await_suspend`. -/
def awaitSuspend (handle : Handle) (s : Frame Handle Val Exc) : Frame Handle Val Exc :=
  match s.word.storeWaiting (some handle) with
  | (.ok true, word) => { s.touch with word, owner := .suspended handle }
  | (.ok false, word) => { s.touch.wake with word }
  | (.error message, word) => { s.touch.fail (.thrown message) with word, owner := .leaving }

/-- `Task::awaiter::await_resume`. -/
def awaitResume (s : Frame Handle Val Exc) : Frame Handle Val Exc :=
  match s.exception, s.val with
  | some exception, _ => { s.touch with delivered := some (.error exception), owner := .leaving }
  | none, some val =>
    { s.touch with delivered := some (.ok val), val := none, owner := .leaving }
  | none, none =>
    { s.touch.fail (.thrown "Task::awaiter::await_resume(): no value") with owner := .leaving }

/-- `Task::detachImpl` up to the `switch`. -/
def detach (s : Frame Handle Val Exc) : Frame Handle Val Exc :=
  match s.word.detach with
  | (.detached, word) => { s.touch with word, owner := .gone }
  | (.completed, word) => { s.touch with word, owner := .cleanup }
  | (.alreadyDetached, word) =>
    { s.touch.fail (.thrown "Task::detach(): already detached") with word, owner := .gone }
  | (.alreadyWaiting, word) =>
    { s.touch.fail (.thrown "Task::detach(): already being awaited") with word, owner := .gone }

/-- `Task::detachImpl`, the case of a task that is completed. -/
def detachEnd (s : Frame Handle Val Exc) : Frame Handle Val Exc :=
  if s.exception.isSome then { s.touch with terminated := true, owner := .gone }
  else { s.destroy with owner := .gone }

variable [DecidableEq Handle]

/-- `FinalAwaiter::await_suspend` after the exchange. -/
def finalEnd (ending : Ending Handle) (s : Frame Handle Val Exc) : Frame Handle Val Exc :=
  match ending with
  | .nothing => s
  | .destroy =>
    if s.exception.isSome then { s.touch with terminated := true, body := .final .nothing }
    else { s.destroy with body := .final .nothing }
  | .transfer handle =>
    match s.owner with
    | .suspended waiting =>
      if waiting = handle then { s.wake with body := .final .nothing }
      else s.fail .resumeOther
    | _ => s.fail .resumeOther

/-- A step, where the body or the owner is at the point for it; nothing happens after
`std::terminate`. -/
def step (s : Frame Handle Val Exc) (a : Step Handle Val Exc) : Frame Handle Val Exc :=
  if s.terminated then s else
  match a with
  | .park => match s.body with
    | .running => { s.touch with body := .parked }
    | _ => s
  | .unpark => match s.body with
    | .parked => { s.touch with body := .running }
    | _ => s
  | .finish result => match s.body with
    | .running => s.touch.store result
    | _ => s
  | .finalSuspend => match s.body with
    | .returning => s.finalSuspend
    | _ => s
  | .finalEnd => match s.body with
    | .final ending => s.finalEnd ending
    | _ => s
  | .coAwait => match s.owner with
    | .task => { s with owner := .ready }
    | _ => s
  | .awaitReady => match s.owner with
    | .ready => s.awaitReady
    | _ => s
  | .awaitSuspend handle => match s.owner with
    | .suspending => s.awaitSuspend handle
    | _ => s
  | .awaitResume => match s.owner with
    | .resuming => s.awaitResume
    | _ => s
  | .dropAwaiter => match s.owner with
    | .leaving | .suspended _ => { s.destroy with owner := .gone }
    | _ => s
  | .dropTask => match s.owner with
    | .task => { s.destroy with owner := .gone }
    | _ => s
  | .detach => match s.owner with
    | .task => s.detach
    | _ => s
  | .detachEnd => match s.owner with
    | .cleanup => s.detachEnd
    | _ => s

end Frame

end Coro

end LuxonServer
