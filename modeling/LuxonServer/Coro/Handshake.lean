import LuxonServer.Coro.Ffi

/-! The handshake of an awaiter with the calls from outside: the state is shared by the awaiter and
the one call that is to complete it, it is freed by the last of the two, and the coroutine goes on
once, whichever comes first. -/

namespace LuxonServer

namespace Coro

variable {Handle Val Exc : Type}

/-- How far the call that completes the state has come: it is awaited, has yet to release its
reference, or is done. -/
inductive Completion : Bool → Bool → List (Option Handle) → Prop
  | awaited : Completion true false []
  | claimed : Completion false true [none]
  | done : Completion false true []

/-- The awaiter counts a reference for the call, and has not suspended. -/
inductive Awaiter.Starting (handle : Handle) : Awaiter Handle → Prop
  | initiating : Starting handle (.initiating handle)
  | initiated : Starting handle (.initiated handle)
  | threw : Starting handle .threw

inductive Awaiter.Ended : Awaiter Handle → Prop
  | leaving : Ended .leaving
  | released : Ended .released
  | gone : Ended .gone

/-- What the awaiter, the flags `ffi_armed`, `completed` and `suspended`, the coroutine and the
claims can be together. -/
inductive Meeting :
    Awaiter Handle → Bool → Bool → Bool → Option Handle → List (Option Handle) → Prop
  | constructed : Meeting .constructed false false false none []
  | armed (handle) : Meeting (.armed handle) true false false (some handle) []
  | starting {awaiter armed completed claims} (handle) (hAwaiter : awaiter.Starting handle)
      (hCompletion : Completion armed completed claims) :
      Meeting awaiter armed completed false (some handle) claims
  | waiting (handle) : Meeting (.suspended handle) true false true (some handle) []
  | waking (handle) : Meeting (.suspended handle) false true true (some handle) [some handle]
  | resuming {suspended coro claims} (hCompletion : Completion false true claims) :
      Meeting .resuming false true suspended coro claims
  | ended {awaiter armed completed claims} (hAwaiter : awaiter.Ended)
      (hCompletion : Completion armed completed claims) :
      Meeting awaiter armed completed false none claims

/-- The references that the awaiter holds, and those it has counted for the call. -/
def Awaiter.shares : Awaiter Handle → Nat × Bool
  | constructed | armed _ => (1, false)
  | gone => (0, true)
  | _ => (1, true)

inductive Awaiter.Fresh : Awaiter Handle → Prop
  | constructed : Fresh .constructed
  | armed (handle) : Fresh (.armed handle)
  | starting {awaiter} (handle) (h : awaiter.Starting handle) : Fresh awaiter
  | suspended (handle) : Fresh (.suspended handle)

/-- How often the coroutine went on, and whether it was given an answer. -/
inductive Awaiter.Progress : Awaiter Handle → Nat → Bool → Prop
  | fresh {awaiter} (h : awaiter.Fresh) : Progress awaiter 0 false
  | resuming : Progress .resuming 1 false
  | failed {awaiter} (h : awaiter.Ended) : Progress awaiter 0 false
  | ended {awaiter} (h : awaiter.Ended) : Progress awaiter 1 true

theorem Awaiter.Fresh.progress {awaiter : Awaiter Handle} {resumes : Nat} {given : Bool}
    (hFresh : awaiter.Fresh) (hProgress : awaiter.Progress resumes given) :
    resumes = 0 ∧ given = false := by
  cases hProgress with
  | fresh _ | failed _ => exact ⟨rfl, rfl⟩
  | resuming => cases hFresh with | starting _ h => cases h
  | ended h => cases h <;> cases hFresh with | starting _ h => cases h

theorem Awaiter.Ended.progress {awaiter awaiter' : Awaiter Handle} {resumes : Nat} {given : Bool}
    (hProgress : awaiter.Progress resumes given) (hEnded : awaiter.Ended)
    (hEnded' : awaiter'.Ended) : awaiter'.Progress resumes given := by
  cases hProgress with
  | fresh _ | failed _ => exact .failed hEnded'
  | resuming => cases hEnded
  | ended _ => exact .ended hEnded'

/-- The call completes the state, and is to resume the coroutine if that is suspended. -/
theorem Meeting.complete {awaiter : Awaiter Handle} {completed suspended : Bool}
    {coro : Option Handle} {claims : List (Option Handle)}
    (hMeeting : Meeting awaiter true completed suspended coro claims)
    (hCounted : awaiter.shares.2 = true) : completed = false ∧ claims = [] ∧
      Meeting awaiter false true suspended coro [if suspended then coro else none] := by
  cases hMeeting with
  | armed _ => cases hCounted
  | starting handle h hCompletion =>
    cases hCompletion
    exact ⟨rfl, rfl, .starting handle h .claimed⟩
  | waiting handle => exact ⟨rfl, rfl, .waking handle⟩
  | ended h hCompletion =>
    cases hCompletion
    refine ⟨rfl, rfl, ?_⟩
    rw [ite_self]
    exact .ended h .claimed

/-- The call is done. -/
theorem Meeting.release {awaiter : Awaiter Handle} {armed completed suspended : Bool}
    {coro : Option Handle} (hMeeting : Meeting awaiter armed completed suspended coro [none]) :
    armed = false ∧ Meeting awaiter armed completed suspended coro [] := by
  cases hMeeting with
  | starting handle h hCompletion =>
    cases hCompletion
    exact ⟨rfl, .starting handle h .done⟩
  | resuming hCompletion =>
    cases hCompletion
    exact ⟨rfl, .resuming .done⟩
  | ended h hCompletion =>
    cases hCompletion
    exact ⟨rfl, .ended h .done⟩

/-- A claim is the only one. -/
theorem Meeting.claim_eq {awaiter : Awaiter Handle} {armed completed suspended : Bool}
    {coro : Option Handle} {claims : List (Option Handle)} {i : Nat} {claim : Option Handle}
    (hMeeting : Meeting awaiter armed completed suspended coro claims)
    (hClaim : claims[i]? = some claim) : i = 0 ∧ claims = [claim] := by
  have hLength : claims.length ≤ 1 := by
    cases hMeeting with
    | starting _ _ h | resuming h | ended _ h => cases h <;> simp
    | _ => simp
  obtain ⟨hi, rfl⟩ := List.getElem?_eq_some_iff.mp hClaim
  match claims with
  | [only] =>
    obtain rfl : i = 0 := Nat.lt_one_iff.mp hi
    exact ⟨rfl, rfl⟩

namespace Session

/-- The references that are counted for the call: for the one that is to come, or the one that
came. -/
def callShare (counted armed : Bool) (claims : List (Option Handle)) : Nat :=
  if counted then armed.toNat + claims.length else 0

/-- Nothing has happened that must not, the references are those of the parties, and the answer in
the state is that of the call that completed it. -/
structure Sound (s : Session Handle Val Exc) : Prop where
  meeting : Meeting s.awaiter s.state.ffiArmed s.state.completed s.state.suspended s.state.coro
    s.claims
  faults : s.faults = []
  refs : s.state.refs =
    s.awaiter.shares.1 + callShare s.awaiter.shares.2 s.state.ffiArmed s.claims
  freed : s.freed = true ↔ s.state.refs = 0
  early : s.awaiter.shares.2 = false → s.entered = []
  progress : s.awaiter.Progress s.resumes s.delivered.isSome
  replied : s.reply.isSome = s.state.completed
  raised : ∀ exception, s.state.exception = some exception ↔
    s.reply = some (.resume (.error exception))
  cancelled : s.state.cancelled = true ↔ s.reply = some .cancel
  returned : s.delivered = none → ∀ val, s.state.result = some val ↔
    s.reply = some (.resume (.ok val))
  given : ∀ answer, s.delivered = some answer → s.reply.map Reply.answer = some answer

/-- A call locks the mutex of a state that is there, and the frame of the coroutine is destroyed
only while nobody is about to resume it. -/
def allows (s : Session Handle Val Exc) : FfiStep Handle Val Exc → Bool
  | .callLock i => s.entered[i]?.isNone || !s.freed
  | .abandon => s.claims.all Option.isNone
  | _ => true

variable {s : Session Handle Val Exc}

theorem Sound.start : ({} : Session Handle Val Exc).Sound where
  meeting := .constructed
  faults := rfl
  refs := rfl
  freed := ⟨nofun, nofun⟩
  early _ := rfl
  progress := .fresh .constructed
  replied := rfl
  raised _ := ⟨nofun, nofun⟩
  cancelled := ⟨nofun, nofun⟩
  returned _ _ := ⟨nofun, nofun⟩
  given _ h := nomatch h

/-- The state is there as long as somebody has a share in it. -/
theorem Sound.alive (hs : s.Sound) (hShare : s.awaiter.shares.1 ≠ 0 ∨ s.claims ≠ [])
    (hCounted : s.claims ≠ [] → s.awaiter.shares.2 = true) : s.freed = false := by
  refine eq_false_of_ne_true fun hFreed => ?_
  have hRefs := hs.refs
  rw [hs.freed.mp hFreed] at hRefs
  obtain hShare | hClaims := hShare
  · omega
  · rw [callShare, if_pos (hCounted hClaims)] at hRefs
    have := List.length_pos_iff.mpr hClaims
    omega

theorem Sound.counted (hs : s.Sound) (hClaims : s.claims ≠ []) : s.awaiter.shares.2 = true := by
  have hMeeting := hs.meeting
  generalize s.awaiter = awaiter, s.claims = claims, s.state.ffiArmed = armed,
    s.state.completed = completed, s.state.suspended = suspended, s.state.coro = coro
    at hMeeting hClaims ⊢
  cases hMeeting with
  | constructed | armed _ | waiting _ => exact absurd rfl hClaims
  | starting _ h _ => cases h <;> rfl
  | waking _ | resuming _ => rfl
  | ended h _ => cases h <;> rfl

theorem Sound.unanswered (hs : s.Sound) (hAwaiter : s.awaiter = .resuming) :
    s.resumes = 1 ∧ s.delivered = none := by
  have hProgress := hs.progress
  rw [hAwaiter] at hProgress
  rw [← Option.not_isSome_iff_eq_none]
  generalize s.resumes = resumes, s.delivered.isSome = given at hProgress ⊢
  cases hProgress with
  | resuming => exact ⟨rfl, nofun⟩
  | fresh h => cases h with | starting _ h => cases h
  | failed h | ended h => cases h

theorem Sound.fresh (hs : s.Sound) (hFresh : s.awaiter.Fresh) :
    s.resumes = 0 ∧ s.delivered = none := by
  obtain ⟨hResumes, hDelivered⟩ := hFresh.progress hs.progress
  exact ⟨hResumes, Option.not_isSome_iff_eq_none.mp (by rw [hDelivered]; exact nofun)⟩

theorem Sound.exception_eq (hs : s.Sound)
    (hReply : ∀ exception, s.reply ≠ some (.resume (.error exception))) :
    s.state.exception = none :=
  Option.eq_none_iff_forall_ne_some.mpr fun exception h =>
    hReply exception ((hs.raised exception).mp h)

/-- The parties go on, and the answer in the state is what it was. -/
theorem Sound.hand {awaiter : Awaiter Handle} {entered : List (Reply Val Exc)}
    {claims : List (Option Handle)} {resumes refs : Nat} {coro : Option Handle}
    {suspended freed : Bool} (hs : s.Sound)
    (hMeeting : Meeting awaiter s.state.ffiArmed s.state.completed suspended coro claims)
    (hRefs : refs = awaiter.shares.1 + callShare awaiter.shares.2 s.state.ffiArmed claims)
    (hFreed : freed = true ↔ refs = 0) (hEarly : awaiter.shares.2 = false → entered = [])
    (hProgress : awaiter.Progress resumes s.delivered.isSome) :
    ({ s with awaiter, entered, claims, resumes, freed,
              state := { s.state with refs, coro, suspended } } :
      Session Handle Val Exc).Sound where
  meeting := hMeeting
  faults := hs.faults
  refs := hRefs
  freed := hFreed
  early := hEarly
  progress := hProgress
  replied := hs.replied
  raised := hs.raised
  cancelled := hs.cancelled
  returned := hs.returned
  given := hs.given

theorem Sound.resumes_le (hs : s.Sound) : s.resumes ≤ 1 := by
  have hProgress := hs.progress
  generalize s.awaiter = awaiter, s.resumes = resumes, s.delivered.isSome = given at hProgress ⊢
  cases hProgress with
  | fresh _ | failed _ => exact Nat.zero_le 1
  | resuming | ended _ => exact Nat.le_refl 1

/-- A coroutine that is suspended on a completed state is about to be resumed. -/
theorem Sound.woken {handle : Handle} (hs : s.Sound) (hAwaiter : s.awaiter = .suspended handle)
    (hCompleted : s.state.completed = true) : s.claims = [some handle] := by
  have hMeeting := hs.meeting
  rw [hAwaiter, hCompleted] at hMeeting
  generalize s.claims = claims, s.state.ffiArmed = armed, s.state.suspended = suspended,
    s.state.coro = coro at hMeeting ⊢
  cases hMeeting with
  | waking _ => rfl
  | starting _ h _ | ended h _ => cases h

/-- The state is freed when the awaiter is gone and the call that completed it has released its
reference; if no such call comes, it stays. -/
theorem Sound.freed_iff (hs : s.Sound) :
    s.freed = true ↔ s.awaiter = .gone ∧ s.state.completed = true ∧ s.claims = [] := by
  rw [hs.freed, hs.refs]
  have hMeeting := hs.meeting
  generalize s.awaiter = awaiter, s.claims = claims, s.state.ffiArmed = armed,
    s.state.completed = completed, s.state.suspended = suspended, s.state.coro = coro at hMeeting ⊢
  cases hMeeting with
  | constructed | armed _ | waiting _ | waking _ | resuming _ => simp [Awaiter.shares]
  | starting _ h _ => cases h <;> simp [Awaiter.shares]
  | ended h hCompletion =>
    cases h with
    | leaving | released => simp [Awaiter.shares]
    | gone => cases hCompletion <;> simp [Awaiter.shares, callShare]

/-- The calls that have entered, and the one that completed the state. -/
def load (s : Session Handle Val Exc) : Nat := s.entered.length + s.state.completed.toNat

def isCall : FfiStep Handle Val Exc → Bool
  | .call _ => true
  | _ => false

/-- The condition on the frame alone. -/
def keepsFrame (s : Session Handle Val Exc) : FfiStep Handle Val Exc → Bool
  | .abandon => s.claims.all Option.isNone
  | _ => true

theorem touch_keeps (s : Session Handle Val Exc) :
    s.touch.entered = s.entered ∧ s.touch.state = s.state := by
  unfold touch
  split <;> exact ⟨rfl, rfl⟩

theorem load_afterInit (handle : Handle) : (s.afterInit handle).load = s.load := by
  obtain ⟨hEntered, -⟩ := s.touch_keeps
  unfold Session.afterInit load
  split <;> dsimp only [FfiState.forget] <;> rw [hEntered]

theorem load_awaitResume : s.awaitResume.load = s.load := by
  obtain ⟨hEntered, hState⟩ := s.touch_keeps
  unfold Session.awaitResume load
  split
  · dsimp only [fail]
    rw [hEntered, hState]
  · split <;> dsimp only [FfiState.forget, fail] <;> rw [hEntered]

theorem load_callLock {call : Reply Val Exc} {i : Nat} (hCall : s.entered[i]? = some call) :
    (s.callLock call i).load ≤ s.load := by
  obtain ⟨hi, -⟩ := List.getElem?_eq_some_iff.mp hCall
  have hLength : (s.entered.eraseIdx i).length + 1 = s.entered.length := by
    rw [List.length_eraseIdx_of_lt hi]
    omega
  obtain ⟨-, hState⟩ := s.touch_keeps
  unfold Session.callLock load
  dsimp only
  split
  · have hCompleted := Bool.toNat_le (s.touch.state.complete call).completed
    show (s.entered.eraseIdx i).length + (s.touch.state.complete call).completed.toNat ≤ _
    omega
  · rw [hState]
    show (s.entered.eraseIdx i).length + _ ≤ _
    omega

/-- A call that locks the mutex of a state that no other call has completed finds it there. -/
theorem Sound.allows_of_load {a : FfiStep Handle Val Exc} (hs : s.Sound) (hLoad : s.load ≤ 1)
    (hFrame : s.keepsFrame a = true) : s.allows a = true := by
  cases a with
  | abandon => exact hFrame
  | callLock i =>
    cases hCall : s.entered[i]? with
    | none => simp [allows, hCall]
    | some call =>
      obtain ⟨hi, -⟩ := List.getElem?_eq_some_iff.mp hCall
      have hFreed : s.freed = false := by
        refine eq_false_of_ne_true fun hFreed => ?_
        have hCompleted := (hs.freed_iff.mp hFreed).2.1
        unfold load at hLoad
        rw [hCompleted] at hLoad
        have : Bool.toNat true = 1 := rfl
        omega
      simp [allows, hFreed]
  | _ => rfl

variable [DecidableEq Handle]

theorem Sound.arm (hs : s.Sound) (handle : Handle) : (s.step (.arm handle)).Sound := by
  dsimp only [step]
  split
  · next hAwaiter =>
    obtain ⟨⟨refs, coro, exception, completed, cancelled, suspended, armed, result⟩, freed, awaiter,
      entered, claims, resumes, delivered, reply, faults⟩ := s
    obtain rfl : awaiter = .constructed := hAwaiter
    obtain rfl : freed = false := hs.alive (.inl nofun) hs.counted
    obtain ⟨rfl, rfl⟩ : resumes = 0 ∧ delivered = none := hs.fresh .constructed
    have hMeeting := hs.meeting
    cases hMeeting with
    | starting _ h _ | ended h _ => cases h
    | constructed =>
      exact ⟨.armed handle, hs.faults, hs.refs, hs.freed, hs.early, .fresh (.armed handle),
        hs.replied, hs.raised, hs.cancelled, hs.returned, hs.given⟩
  · exact hs

theorem Sound.addRef (hs : s.Sound) : (s.step .addRef).Sound := by
  dsimp only [step]
  split
  · next handle hAwaiter =>
    obtain ⟨⟨refs, coro, exception, completed, cancelled, suspended, armed, result⟩, freed, awaiter,
      entered, claims, resumes, delivered, reply, faults⟩ := s
    obtain rfl : awaiter = .armed handle := hAwaiter
    obtain rfl : freed = false := hs.alive (.inl nofun) hs.counted
    obtain ⟨rfl, rfl⟩ : resumes = 0 ∧ delivered = none := hs.fresh (.armed handle)
    have hMeeting := hs.meeting
    cases hMeeting with
    | starting _ h _ | ended h _ => cases h
    | armed =>
      obtain rfl : refs = 1 := hs.refs
      exact hs.hand (.starting handle .initiating .awaited) rfl ⟨nofun, nofun⟩ nofun
        (.fresh (.starting handle .initiating))
  · exact hs

theorem Sound.initReturn (hs : s.Sound) : (s.step .initReturn).Sound := by
  dsimp only [step]
  split
  · next handle hAwaiter =>
    obtain ⟨⟨refs, coro, exception, completed, cancelled, suspended, armed, result⟩, freed, awaiter,
      entered, claims, resumes, delivered, reply, faults⟩ := s
    obtain rfl : awaiter = .initiating handle := hAwaiter
    obtain rfl : freed = false := hs.alive (.inl nofun) hs.counted
    obtain ⟨rfl, rfl⟩ : resumes = 0 ∧ delivered = none := hs.fresh (.starting handle .initiating)
    have hMeeting := hs.meeting
    cases hMeeting with
    | ended h _ => cases h
    | starting _ h hCompletion =>
      cases h
      exact hs.hand (.starting handle .initiated hCompletion) hs.refs hs.freed nofun
        (.fresh (.starting handle .initiated))
  · exact hs

theorem Sound.initThrow (hs : s.Sound) : (s.step .initThrow).Sound := by
  dsimp only [step]
  split
  · next handle hAwaiter =>
    obtain ⟨⟨refs, coro, exception, completed, cancelled, suspended, armed, result⟩, freed, awaiter,
      entered, claims, resumes, delivered, reply, faults⟩ := s
    obtain rfl : awaiter = .initiating handle := hAwaiter
    obtain rfl : freed = false := hs.alive (.inl nofun) hs.counted
    obtain ⟨rfl, rfl⟩ : resumes = 0 ∧ delivered = none := hs.fresh (.starting handle .initiating)
    have hMeeting := hs.meeting
    cases hMeeting with
    | ended h _ => cases h
    | starting _ h hCompletion =>
      cases h
      exact hs.hand (.starting handle .threw hCompletion) hs.refs hs.freed nofun
        (.fresh (.starting handle .threw))
  · exact hs

theorem Sound.afterThrow (hs : s.Sound) : (s.step .afterThrow).Sound := by
  dsimp only [step]
  split
  · next hAwaiter =>
    obtain ⟨⟨refs, coro, exception, completed, cancelled, suspended, armed, result⟩, freed, awaiter,
      entered, claims, resumes, delivered, reply, faults⟩ := s
    obtain rfl : awaiter = .threw := hAwaiter
    obtain rfl : freed = false := hs.alive (.inl nofun) hs.counted
    have hMeeting := hs.meeting
    cases hMeeting with
    | ended h _ => cases h
    | starting handle _ hCompletion =>
      obtain ⟨rfl, rfl⟩ : resumes = 0 ∧ delivered = none := hs.fresh (.starting handle .threw)
      exact hs.hand (.ended .leaving hCompletion) hs.refs hs.freed nofun (.failed .leaving)
  · exact hs

theorem Sound.afterInit (hs : s.Sound) : (s.step .afterInit).Sound := by
  dsimp only [step]
  split
  · next handle hAwaiter =>
    obtain ⟨⟨refs, coro, exception, completed, cancelled, suspended, armed, result⟩, freed, awaiter,
      entered, claims, resumes, delivered, reply, faults⟩ := s
    obtain rfl : awaiter = .initiated handle := hAwaiter
    obtain rfl : freed = false := hs.alive (.inl nofun) hs.counted
    obtain ⟨rfl, rfl⟩ : resumes = 0 ∧ delivered = none := hs.fresh (.starting handle .initiated)
    have hMeeting := hs.meeting
    cases hMeeting with
    | ended h _ => cases h
    | starting _ h hCompletion =>
      cases h
      cases hCompletion with
      | awaited =>
        exact hs.hand (.waiting handle) hs.refs hs.freed nofun (.fresh (.suspended handle))
      | claimed => exact hs.hand (.resuming .claimed) hs.refs hs.freed nofun .resuming
      | done => exact hs.hand (.resuming .done) hs.refs hs.freed nofun .resuming
  · exact hs

theorem Sound.reset (hs : s.Sound) : (s.step .reset).Sound := by
  dsimp only [step]
  split
  · next hAwaiter =>
    obtain ⟨⟨refs, coro, exception, completed, cancelled, suspended, armed, result⟩, freed, awaiter,
      entered, claims, resumes, delivered, reply, faults⟩ := s
    obtain rfl : awaiter = .leaving := hAwaiter
    obtain rfl : freed = false := hs.alive (.inl nofun) hs.counted
    have hMeeting := hs.meeting
    cases hMeeting with
    | starting _ h _ => cases h
    | ended _ hCompletion =>
      exact hs.hand (.ended .released hCompletion) hs.refs hs.freed nofun
        (Awaiter.Ended.progress hs.progress .leaving .released)
  · exact hs

/-- `await_resume` finds the state completed, and gives what the call brought. -/
theorem Sound.awaitResume (hs : s.Sound) : (s.step .awaitResume).Sound := by
  dsimp only [step]
  split
  · next hAwaiter =>
    obtain ⟨⟨refs, coro, exception, completed, cancelled, suspended, armed, result⟩, freed, awaiter,
      entered, claims, resumes, delivered, reply, faults⟩ := s
    obtain rfl : awaiter = .resuming := hAwaiter
    obtain rfl : freed = false := hs.alive (.inl nofun) hs.counted
    have hMeeting := hs.meeting
    cases hMeeting with
    | starting _ h _ | ended h _ => cases h
    | resuming hCompletion =>
      obtain ⟨rfl, rfl⟩ : resumes = 1 ∧ delivered = none := hs.unanswered rfl
      obtain ⟨call, rfl⟩ : ∃ call, reply = some call := Option.isSome_iff_exists.mp hs.replied
      have hEnded := Meeting.ended .leaving hCompletion
      match call with
      | .resume (.error error) =>
        obtain rfl : exception = some error := (hs.raised error).mpr rfl
        exact ⟨hEnded, hs.faults, hs.refs, hs.freed, nofun, .ended .leaving, hs.replied, hs.raised,
          hs.cancelled, nofun, fun _ h => h⟩
      | .cancel =>
        obtain rfl : exception = none := hs.exception_eq nofun
        obtain rfl : cancelled = true := hs.cancelled.mpr rfl
        exact ⟨hEnded, hs.faults, hs.refs, hs.freed, nofun, .ended .leaving, hs.replied, hs.raised,
          hs.cancelled, nofun, fun _ h => h⟩
      | .resume (.ok value) =>
        obtain rfl : exception = none := hs.exception_eq nofun
        obtain rfl : cancelled = false := eq_false_of_ne_true fun h => nomatch hs.cancelled.mp h
        obtain rfl : result = some value := (hs.returned rfl value).mpr rfl
        exact ⟨hEnded, hs.faults, hs.refs, hs.freed, nofun, .ended .leaving, hs.replied, hs.raised,
          hs.cancelled, nofun, fun _ h => h⟩
  · exact hs

theorem Sound.release (hs : s.Sound) : (s.step .release).Sound := by
  dsimp only [step]
  split
  · next hAwaiter =>
    obtain ⟨⟨refs, coro, exception, completed, cancelled, suspended, armed, result⟩, freed, awaiter,
      entered, claims, resumes, delivered, reply, faults⟩ := s
    obtain rfl : awaiter = .released := hAwaiter
    obtain rfl : freed = false := hs.alive (.inl nofun) hs.counted
    have hMeeting := hs.meeting
    cases hMeeting with
    | starting _ h _ => cases h
    | ended _ hCompletion =>
      have hRefs : refs = 1 + callShare true armed claims := hs.refs
      refine hs.hand (.ended .gone hCompletion) ?_ ?_ nofun
        (Awaiter.Ended.progress hs.progress .released .gone)
      · show refs - 1 = 0 + callShare true armed claims
        omega
      · show (false || refs == 1) = true ↔ refs - 1 = 0
        rw [Bool.false_or, beq_iff_eq]
        omega
  · exact hs

/-- The frame of a coroutine that nobody is about to resume is destroyed. -/
theorem Sound.abandon (hs : s.Sound)
    (hAllows : s.allows (.abandon : FfiStep Handle Val Exc) = true) :
    (s.step .abandon).Sound := by
  dsimp only [step]
  split
  · next handle hAwaiter =>
    obtain ⟨⟨refs, coro, exception, completed, cancelled, suspended, armed, result⟩, freed, awaiter,
      entered, claims, resumes, delivered, reply, faults⟩ := s
    obtain rfl : awaiter = .suspended handle := hAwaiter
    obtain rfl : freed = false := hs.alive (.inl nofun) hs.counted
    obtain ⟨rfl, rfl⟩ : resumes = 0 ∧ delivered = none := hs.fresh (.suspended handle)
    have hMeeting := hs.meeting
    cases hMeeting with
    | starting _ h _ | ended h _ => cases h
    | waking => cases hAllows
    | waiting =>
      exact hs.hand (.ended .released .awaited) hs.refs hs.freed nofun (.failed .released)
  · exact hs

theorem Sound.call (hs : s.Sound) (reply : Reply Val Exc) : (s.step (.call reply)).Sound := by
  dsimp only [step]
  split
  · exact hs
  · exact hs
  · next hConstructed hArmed =>
    refine hs.hand hs.meeting hs.refs hs.freed (fun h => ?_) hs.progress
    generalize s.awaiter = awaiter at hConstructed hArmed h
    cases awaiter with
    | constructed => exact absurd rfl hConstructed
    | armed handle => exact absurd rfl (hArmed handle)
    | _ => cases h

/-- The call that finds the state armed completes it; to the others nothing is left to do. -/
theorem Sound.callLock (hs : s.Sound) (i : Nat)
    (hAllows : s.allows (.callLock i : FfiStep Handle Val Exc) = true) :
    (s.step (.callLock i)).Sound := by
  dsimp only [step]
  split
  · next call hCall =>
    obtain ⟨⟨refs, coro, exception, completed, cancelled, suspended, armed, result⟩, freed, awaiter,
      entered, claims, resumes, delivered, reply, faults⟩ := s
    have hEntered : entered ≠ [] := fun h => by
      rw [show entered = [] from h] at hCall
      cases hCall
    have hCounted : awaiter.shares.2 = true :=
      eq_true_of_ne_false fun h => hEntered (hs.early h)
    obtain rfl : freed = false := by
      rw [allows, show entered[i]? = some call from hCall] at hAllows
      simpa using hAllows
    cases armed with
    | false =>
      exact hs.hand hs.meeting hs.refs hs.freed (fun h => nomatch hCounted.symm.trans h) hs.progress
    | true =>
      obtain ⟨hCompleted, hClaims, hMeeting⟩ := hs.meeting.complete hCounted
      obtain rfl : completed = false := hCompleted
      obtain rfl : claims = [] := hClaims
      obtain rfl : reply = none :=
        Option.not_isSome_iff_eq_none.mp (by rw [hs.replied]; exact nofun)
      obtain rfl : delivered = none := Option.eq_none_iff_forall_ne_some.mpr fun answer h =>
        nomatch hs.given answer h
      obtain rfl : exception = none := hs.exception_eq nofun
      obtain rfl : cancelled = false := eq_false_of_ne_true fun h => nomatch hs.cancelled.mp h
      obtain rfl : result = none := Option.eq_none_iff_forall_ne_some.mpr fun val h =>
        nomatch (hs.returned rfl val).mp h
      have hRefs : refs = awaiter.shares.1 + callShare awaiter.shares.2 false
          [if suspended then coro else none] := by
        have := hs.refs
        dsimp only at this ⊢
        rw [hCounted] at this ⊢
        exact this
      have hEarly : awaiter.shares.2 = false → entered.eraseIdx i = [] :=
        fun h => nomatch hCounted.symm.trans h
      match call with
      | .resume (.ok val) =>
        exact ⟨hMeeting, hs.faults, hRefs, hs.freed, hEarly, hs.progress, rfl,
          fun _ => ⟨nofun, nofun⟩, ⟨nofun, nofun⟩,
          fun _ _ => ⟨fun h => by cases h; rfl, fun h => by cases h; rfl⟩, nofun⟩
      | .resume (.error error) =>
        exact ⟨hMeeting, hs.faults, hRefs, hs.freed, hEarly, hs.progress, rfl,
          fun _ => ⟨fun h => by cases h; rfl, fun h => by cases h; rfl⟩, ⟨nofun, nofun⟩,
          fun _ _ => ⟨nofun, nofun⟩, nofun⟩
      | .cancel =>
        exact ⟨hMeeting, hs.faults, hRefs, hs.freed, hEarly, hs.progress, rfl,
          fun _ => ⟨nofun, nofun⟩, ⟨fun _ => rfl, fun _ => rfl⟩,
          fun _ _ => ⟨nofun, nofun⟩, nofun⟩
  · exact hs

/-- `coro.resume()` finds the coroutine suspended where it is awaited. -/
theorem Sound.callResume (hs : s.Sound) (i : Nat) : (s.step (.callResume i)).Sound := by
  dsimp only [step]
  split
  · next handle hClaim =>
    obtain ⟨⟨refs, coro, exception, completed, cancelled, suspended, armed, result⟩, freed, awaiter,
      entered, claims, resumes, delivered, reply, faults⟩ := s
    obtain ⟨rfl, hClaims⟩ := Meeting.claim_eq hs.meeting hClaim
    obtain rfl : claims = [some handle] := hClaims
    have hMeeting := hs.meeting
    cases hMeeting with
    | starting _ _ h | resuming h | ended _ h => cases h
    | waking =>
      obtain ⟨rfl, rfl⟩ : resumes = 0 ∧ delivered = none := hs.fresh (.suspended handle)
      simpa [Session.callResume] using
        hs.hand (.resuming .claimed) hs.refs hs.freed nofun .resuming
  · exact hs

theorem Sound.callRelease (hs : s.Sound) (i : Nat) : (s.step (.callRelease i)).Sound := by
  dsimp only [step]
  split
  · next hClaim =>
    obtain ⟨⟨refs, coro, exception, completed, cancelled, suspended, armed, result⟩, freed, awaiter,
      entered, claims, resumes, delivered, reply, faults⟩ := s
    obtain ⟨rfl, hClaims⟩ := Meeting.claim_eq hs.meeting hClaim
    obtain rfl : claims = [none] := hClaims
    obtain rfl : freed = false := hs.alive (.inr nofun) hs.counted
    have hCounted : awaiter.shares.2 = true := hs.counted nofun
    obtain ⟨hArmed, hMeeting⟩ := hs.meeting.release
    obtain rfl : armed = false := hArmed
    have hRefs := hs.refs
    dsimp only at hRefs
    rw [hCounted] at hRefs
    have hRefs : refs = awaiter.shares.1 + 1 := hRefs
    refine hs.hand hMeeting ?_ ?_ hs.early hs.progress
    · show refs - 1 = awaiter.shares.1 + callShare awaiter.shares.2 false []
      rw [hCounted, hRefs]
      rfl
    · show (false || refs == 1) = true ↔ refs - 1 = 0
      rw [Bool.false_or, beq_iff_eq]
      omega
  · exact hs

/-- Every step that is allowed keeps a session sound. -/
theorem keeps_sound : Transition.Keeps (step : Session Handle Val Exc → FfiStep Handle Val Exc → _)
    (fun s a => s.allows a = true) Sound := by
  intro s a hs ha
  cases a with
  | arm handle => exact hs.arm handle
  | addRef => exact hs.addRef
  | initReturn => exact hs.initReturn
  | initThrow => exact hs.initThrow
  | afterThrow => exact hs.afterThrow
  | afterInit => exact hs.afterInit
  | awaitResume => exact hs.awaitResume
  | reset => exact hs.reset
  | release => exact hs.release
  | abandon => exact hs.abandon ha
  | call reply => exact hs.call reply
  | callLock i => exact hs.callLock i ha
  | callResume i => exact hs.callResume i
  | callRelease i => exact hs.callRelease i

/-- However an awaiter that is awaited and any number of calls from outside interleave, the
coroutine goes on at most once, with the answer of the call that completed the state, and is not
left suspended once there is one; a call is to find the state there, and the frame to be destroyed
only while nobody is about to resume it. -/
theorem coroutine_resumed_once {steps : List (FfiStep Handle Val Exc)}
    (hAllows : Transition.EachStep step (fun s a => s.allows a = true) {} steps) :
    Transition.Always step (fun s => s.faults = [] ∧ s.resumes ≤ 1 ∧
      (∀ answer, s.delivered = some answer → s.reply.map Reply.answer = some answer) ∧
      (∀ handle, s.awaiter = .suspended handle → s.state.completed = true →
        s.claims = [some handle]) ∧
      (s.freed = true ↔ s.awaiter = .gone ∧ s.state.completed = true ∧ s.claims = [])) {} steps :=
  (keeps_sound.always Sound.start hAllows).imp fun _ hs =>
    ⟨hs.faults, hs.resumes_le, hs.given, fun _ => hs.woken, hs.freed_iff⟩

theorem coroutine_resumed_once_two_calls :
    Transition.Always step (fun s : Session Nat Nat String => s.faults = [] ∧ s.resumes ≤ 1 ∧
      (∀ answer, s.delivered = some answer → s.reply.map Reply.answer = some answer) ∧
      (∀ handle, s.awaiter = .suspended handle → s.state.completed = true →
        s.claims = [some handle]) ∧
      (s.freed = true ↔ s.awaiter = .gone ∧ s.state.completed = true ∧ s.claims = [])) {}
      [.arm 7, .addRef, .initReturn, .call (.resume (.ok 1)), .call .cancel, .afterInit,
        .callLock 1, .callResume 0, .callLock 0, .awaitResume, .reset, .release, .callRelease 0] :=
  coroutine_resumed_once (by decide)

theorem load_callResume (handle : Handle) (i : Nat) : (s.callResume handle i).load = s.load := by
  unfold Session.callResume
  dsimp only
  split
  · split <;> rfl
  · rfl

theorem load_step (a : FfiStep Handle Val Exc) : (s.step a).load ≤ s.load + (isCall a).toNat := by
  obtain ⟨hEntered, hState⟩ := s.touch_keeps
  cases a with
  | call reply =>
    dsimp only [step]
    split
    · exact Nat.le_succ _
    · exact Nat.le_succ _
    · show (s.entered ++ [reply]).length + s.state.completed.toNat ≤
        s.entered.length + s.state.completed.toNat + 1
      rw [List.length_append, List.length_singleton]
      omega
  | callLock i =>
    dsimp only [step]
    split
    · next hCall => exact load_callLock hCall
    · exact Nat.le_refl _
  | afterInit =>
    dsimp only [step]
    split
    · exact Nat.le_of_eq (load_afterInit _)
    · exact Nat.le_refl _
  | awaitResume =>
    dsimp only [step]
    split
    · exact Nat.le_of_eq load_awaitResume
    · exact Nat.le_refl _
  | callResume i =>
    dsimp only [step]
    split
    · exact Nat.le_of_eq (load_callResume _ i)
    · exact Nat.le_refl _
  | _ =>
    refine Nat.le_of_eq ?_
    dsimp only [step]
    split <;> simp [load, isCall, releaseRef, hEntered, FfiState.forget]

theorem allows_of_single_call (steps : List (FfiStep Handle Val Exc)) :
    ∀ s : Session Handle Val Exc, s.Sound → s.load + steps.countP isCall ≤ 1 →
      Transition.EachStep step (fun s a => s.keepsFrame a = true) s steps →
      Transition.EachStep step (fun s a => s.allows a = true) s steps := by
  induction steps with
  | nil => exact fun _ _ _ _ => trivial
  | cons a steps ih =>
    intro s hs hCalls hFrame
    rw [List.countP_cons] at hCalls
    have hAllows := hs.allows_of_load (by omega) hFrame.1
    refine ⟨hAllows, ih _ (keeps_sound s a hs hAllows) ?_ hFrame.2⟩
    have hStep := s.load_step a
    cases h : isCall a <;> simp [h] at hCalls hStep <;> omega

/-- One call, whenever it comes and however it interleaves with the awaiter, finds the state there
if it is the only one and the suspended frame is destroyed only while nobody is about to resume
it. -/
theorem single_call_safe {steps : List (FfiStep Handle Val Exc)} (hCalls : steps.countP isCall ≤ 1)
    (hFrame : Transition.EachStep step (fun s a => s.keepsFrame a = true) {} steps) :
    Transition.Always step (fun s => s.faults = [] ∧ s.resumes ≤ 1 ∧
      ∀ handle, s.awaiter = .suspended handle → s.state.completed = true →
        s.claims = [some handle]) {} steps :=
  (keeps_sound.always Sound.start
    (allows_of_single_call steps {} Sound.start (by simpa [load] using hCalls) hFrame)).imp
    fun _ hs => ⟨hs.faults, hs.resumes_le, fun _ => hs.woken⟩

theorem single_call_safe_abandoned :
    Transition.Always step (fun s : Session Nat Nat String => s.faults = [] ∧ s.resumes ≤ 1 ∧
      ∀ handle, s.awaiter = .suspended handle → s.state.completed = true →
        s.claims = [some handle]) {}
      [.arm 7, .addRef, .initReturn, .afterInit, .call (.resume (.ok 1)), .abandon, .release,
        .callLock 0, .callRelease 0] :=
  single_call_safe (by decide) (by decide)

end Session

end Coro

end LuxonServer
