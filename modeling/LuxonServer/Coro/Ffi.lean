import LuxonServer.Lib.Run

/-! A coroutine that waits for an answer from outside: the awaiter, and any number of calls of
`ffi_resume` and `ffi_cancel` on other threads.  What is under the mutex is one step, and so is
each access to the count of references. -/

namespace LuxonServer

namespace Coro

variable {Handle Val Exc : Type}

/-- A call from outside: `ffi_resume`, whose value may fail to be stored, or `ffi_cancel`. -/
inductive Reply (Val Exc : Type) where
  | resume (value : Except Exc Val)
  | cancel

/-- What `await_resume` comes to: a value, the exception of the store, or
`FfiCancelledException`. -/
inductive Answer (Val Exc : Type) where
  | value (val : Val)
  | raised (exception : Exc)
  | cancelled

def Reply.answer : Reply Val Exc → Answer Val Exc
  | resume (.ok val) => .value val
  | resume (.error exception) => .raised exception
  | cancel => .cancelled

/-- `FfiState`. -/
structure FfiState (Handle Val Exc : Type) where
  refs : Nat := 1
  coro : Option Handle := none
  exception : Option Exc := none
  completed : Bool := false
  cancelled : Bool := false
  suspended : Bool := false
  ffiArmed : Bool := false
  result : Option Val := none

namespace FfiState

/-- What the first call stores. -/
def complete (st : FfiState Handle Val Exc) : Reply Val Exc → FfiState Handle Val Exc
  | .resume (.ok val) =>
    { st with ffiArmed := false, cancelled := false, completed := true, result := some val }
  | .resume (.error exception) =>
    { st with ffiArmed := false, cancelled := false, completed := true,
              exception := some exception }
  | .cancel => { st with ffiArmed := false, cancelled := true, completed := true }

/-- The coroutine that the first call is to resume. -/
def claimed (st : FfiState Handle Val Exc) : Option Handle :=
  if st.suspended then st.coro else none

def forget (st : FfiState Handle Val Exc) : FfiState Handle Val Exc :=
  { st with coro := none, suspended := false }

end FfiState

/-- How far the awaiter has come: it arms the state, counts the reference of the call to come, runs
the initiator, suspends or goes on, unpacks the answer, and is destroyed in two steps. -/
inductive Awaiter (Handle : Type) where
  | constructed
  | armed (handle : Handle)
  | initiating (handle : Handle)
  | initiated (handle : Handle)
  | threw
  | suspended (handle : Handle)
  | resuming
  | leaving
  | released
  | gone

/-- What must not happen. -/
inductive FfiFault where
  | afterFree
  | resumeOther
  | thrown (message : String)

structure Session (Handle Val Exc : Type) where
  state : FfiState Handle Val Exc := {}
  freed : Bool := false
  awaiter : Awaiter Handle := .constructed
  /-- The calls that have not locked the mutex yet. -/
  entered : List (Reply Val Exc) := []
  /-- What the calls that found the state armed have yet to resume, before each of them releases
  its reference. -/
  claims : List (Option Handle) := []
  resumes : Nat := 0
  delivered : Option (Answer Val Exc) := none
  /-- Ghost: the call that found the state armed. -/
  reply : Option (Reply Val Exc) := none
  faults : List FfiFault := []

/-- A step of the awaiter, or of a call by its place. -/
inductive FfiStep (Handle Val Exc : Type) where
  | arm (handle : Handle)
  | addRef
  | initReturn
  | initThrow
  | afterThrow
  | afterInit
  | awaitResume
  | reset
  | release
  | abandon
  | call (reply : Reply Val Exc)
  | callLock (i : Nat)
  | callResume (i : Nat)
  | callRelease (i : Nat)

namespace Session

def fail (fault : FfiFault) (s : Session Handle Val Exc) : Session Handle Val Exc :=
  { s with faults := fault :: s.faults }

/-- An access to the state. -/
def touch (s : Session Handle Val Exc) : Session Handle Val Exc :=
  if s.freed then s.fail .afterFree else s

/-- `releaseRef`. -/
def releaseRef (s : Session Handle Val Exc) : Session Handle Val Exc :=
  { s.touch with state := { s.state with refs := s.state.refs - 1 },
                 freed := s.freed || s.state.refs == 1 }

/-- The last block of `await_suspend`. -/
def afterInit (handle : Handle) (s : Session Handle Val Exc) : Session Handle Val Exc :=
  if s.state.completed then
    { s.touch with state := s.state.forget, awaiter := .resuming, resumes := s.resumes + 1 }
  else { s.touch with state := { s.state with suspended := true }, awaiter := .suspended handle }

/-- `await_resume`. -/
def awaitResume (s : Session Handle Val Exc) : Session Handle Val Exc :=
  if ¬s.state.completed then
    { s.touch.fail (.thrown "FfiAwaiter: await_resume() before completion") with
      awaiter := .leaving }
  else
    match s.state.exception, s.state.cancelled, s.state.result with
    | some exception, _, _ =>
      { s.touch with state := s.state.forget, awaiter := .leaving,
                     delivered := some (.raised exception) }
    | none, true, _ =>
      { s.touch with state := s.state.forget, awaiter := .leaving, delivered := some .cancelled }
    | none, false, some val =>
      { s.touch with state := { s.state.forget with result := none }, awaiter := .leaving,
                     delivered := some (.value val) }
    | none, false, none =>
      { s.touch.fail (.thrown "FfiAwaiter: no value in result_") with
        state := s.state.forget, awaiter := .leaving }

/-- The locked block of `ffi_resume_impl` and `ffi_cancel_impl`; a call that finds the state not
armed returns. -/
def callLock (reply : Reply Val Exc) (i : Nat) (s : Session Handle Val Exc) :
    Session Handle Val Exc :=
  let s := { s.touch with entered := s.entered.eraseIdx i }
  if s.state.ffiArmed then
    { s with state := s.state.complete reply, claims := s.claims ++ [s.state.claimed],
             reply := some reply }
  else s

variable [DecidableEq Handle]

/-- `coro.resume()`. -/
def callResume (handle : Handle) (i : Nat) (s : Session Handle Val Exc) :
    Session Handle Val Exc :=
  let s := { s with claims := s.claims.set i none }
  match s.awaiter with
  | .suspended waiting =>
    if waiting = handle then { s with awaiter := .resuming, resumes := s.resumes + 1 }
    else s.fail .resumeOther
  | _ => s.fail .resumeOther

/-- A step, where the awaiter or the call is at the point for it.  `abandon` destroys the frame of
the coroutine while it is suspended, up to the locked block of `reset`. -/
def step (s : Session Handle Val Exc) (a : FfiStep Handle Val Exc) : Session Handle Val Exc :=
  match a with
  | .arm handle => match s.awaiter with
    | .constructed =>
      { s.touch with state := { s.state with coro := some handle, suspended := false,
                                             ffiArmed := true },
                     awaiter := .armed handle }
    | _ => s
  | .addRef => match s.awaiter with
    | .armed handle =>
      { s.touch with state := { s.state with refs := s.state.refs + 1 },
                     awaiter := .initiating handle }
    | _ => s
  | .initReturn => match s.awaiter with
    | .initiating handle => { s with awaiter := .initiated handle }
    | _ => s
  | .initThrow => match s.awaiter with
    | .initiating _ => { s with awaiter := .threw }
    | _ => s
  | .afterThrow => match s.awaiter with
    | .threw => { s.touch with state := s.state.forget, awaiter := .leaving }
    | _ => s
  | .afterInit => match s.awaiter with
    | .initiated handle => s.afterInit handle
    | _ => s
  | .awaitResume => match s.awaiter with
    | .resuming => s.awaitResume
    | _ => s
  | .reset => match s.awaiter with
    | .leaving => { s.touch with state := s.state.forget, awaiter := .released }
    | _ => s
  | .release => match s.awaiter with
    | .released => { s.releaseRef with awaiter := .gone }
    | _ => s
  | .abandon => match s.awaiter with
    | .suspended _ => { s.touch with state := s.state.forget, awaiter := .released }
    | _ => s
  | .call reply => match s.awaiter with
    | .constructed | .armed _ => s
    | _ => { s with entered := s.entered ++ [reply] }
  | .callLock i => match s.entered[i]? with
    | some reply => s.callLock reply i
    | none => s
  | .callResume i => match s.claims[i]? with
    | some (some handle) => s.callResume handle i
    | _ => s
  | .callRelease i => match s.claims[i]? with
    | some none => { s.releaseRef with claims := s.claims.eraseIdx i }
    | _ => s

end Session

end Coro

end LuxonServer
