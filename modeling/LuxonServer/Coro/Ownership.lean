import LuxonServer.Coro.Task

/-! Whose the frame of a coroutine is.  At every moment of every interleaving exactly one of the
body, the owner and the final suspension is to destroy it, and one of them is to wake the awaiting
coroutine. -/

namespace LuxonServer

namespace Coro

variable {Handle Val Exc : Type}

/-- The body has not suspended for the last time. -/
inductive Body.Unfinished : Body Handle → Prop
  | running : Unfinished .running
  | parked : Unfinished .parked
  | returning : Unfinished .returning

/-- The owner may still decide what becomes of the task. -/
inductive Owner.Deciding : Owner Handle → Prop
  | task : Deciding .task
  | ready : Deciding .ready
  | suspending : Deciding .suspending

/-- The owner has seen that the task is completed. -/
inductive Owner.Informed : Owner Handle → Prop
  | resuming : Informed .resuming
  | leaving : Informed .leaving
  | cleanup : Informed .cleanup

/-- The frame is suspended and has nothing left to do for others. -/
inductive Body.Idle : Body Handle → Prop
  | parked : Idle .parked
  | final : Idle (.final .nothing)

/-- What the word, the body, the owner, the number of destructions and `std::terminate` can be
together. -/
inductive Stage : Word Handle → Body Handle → Owner Handle → Nat → Bool → Prop
  | held {body owner} (hBody : body.Unfinished) (hOwner : owner.Deciding) :
      Stage .null body owner 0 false
  | kept {owner} (hOwner : owner.Deciding) : Stage .completed (.final .nothing) owner 0 false
  | waiting {body} (handle) (hBody : body.Unfinished) :
      Stage (.waiting handle) body (.suspended handle) 0 false
  | waking (handle) : Stage .completed (.final (.transfer handle)) (.suspended handle) 0 false
  | informed {owner} (hOwner : owner.Informed) : Stage .completed (.final .nothing) owner 0 false
  | orphaned {body} (hBody : body.Unfinished) : Stage .detached body .gone 0 false
  | reaping : Stage .completed (.final .destroy) .gone 0 false
  | destroyed {word body} (hBody : body.Idle) : Stage word body .gone 1 false
  | terminated : Stage .completed (.final .nothing) .gone 0 true

namespace Stage

variable {word : Word Handle} {body body' : Body Handle} {owner : Owner Handle} {destroys : Nat}
  {terminated : Bool}

/-- Only an owner that is gone has destroyed the frame or stopped the process. -/
theorem alive (hStage : Stage word body owner destroys terminated) (hOwner : owner ≠ .gone) :
    destroys = 0 ∧ terminated = false := by
  cases hStage with
  | destroyed _ | terminated => exact absurd rfl hOwner
  | _ => exact ⟨rfl, rfl⟩

/-- A coroutine that is not suspended has not been destroyed. -/
theorem executing (hStage : Stage word body owner destroys terminated) (hBody : ¬body.Idle) :
    destroys = 0 ∧ terminated = false := by
  cases hStage with
  | destroyed hIdle => exact absurd hIdle hBody
  | terminated => exact absurd .final hBody
  | _ => exact ⟨rfl, rfl⟩

theorem deciding (hStage : Stage word body owner 0 false) (hOwner : owner.Deciding) :
    word = .null ∧ body.Unfinished ∨ word = .completed ∧ body = .final .nothing := by
  cases hStage with
  | held hBody _ => exact .inl ⟨rfl, hBody⟩
  | kept _ => exact .inr ⟨rfl, rfl⟩
  | informed h => exact absurd hOwner (by cases h <;> exact fun h => nomatch h)
  | waiting _ _ | waking _ | orphaned _ | reaping => cases hOwner

theorem awaited {handle : Handle} (hStage : Stage word body (.suspended handle) 0 false) :
    word = .waiting handle ∧ body.Unfinished ∨
      word = .completed ∧ body = .final (.transfer handle) := by
  cases hStage with
  | held _ h | kept h | informed h => cases h
  | waiting _ hBody => exact .inl ⟨rfl, hBody⟩
  | waking _ => exact .inr ⟨rfl, rfl⟩

theorem settled (hStage : Stage word body owner 0 false) (hOwner : owner.Informed) :
    word = .completed ∧ body = .final .nothing := by
  cases hStage with
  | held _ h | kept h => exact absurd hOwner (by cases h <;> exact fun h => nomatch h)
  | informed _ => exact ⟨rfl, rfl⟩
  | waiting _ _ | waking _ | orphaned _ | reaping => cases hOwner

/-- A body that goes on from an unfinished place to another leaves the stage as it is. -/
theorem move (hStage : Stage word body owner 0 false) (hBody : body.Unfinished)
    (hBody' : body'.Unfinished) : Stage word body' owner 0 false := by
  cases hStage with
  | held _ hOwner => exact .held hBody' hOwner
  | waiting handle _ => exact .waiting handle hBody'
  | orphaned _ => exact .orphaned hBody'
  | kept _ | waking _ | informed _ | reaping => cases hBody

/-- The exchange of the final suspension. -/
theorem exchange (hStage : Stage word body owner 0 false) (hBody : body.Unfinished) :
    Stage .completed (.final word.ending) owner 0 false := by
  cases hStage with
  | held _ hOwner => exact .kept hOwner
  | waiting handle _ => exact .waking handle
  | orphaned _ => exact .reaping
  | kept _ | waking _ | informed _ | reaping => cases hBody

end Stage

/-- The body has its result. -/
def Body.finished : Body Handle → Bool
  | running | parked => false
  | returning | final _ => true

/-- The owner has not gone on yet. -/
inductive Owner.Fresh : Owner Handle → Prop
  | deciding {owner} (h : owner.Deciding) : Fresh owner
  | suspended (handle) : Fresh (.suspended handle)
  | cleanup : Fresh .cleanup

/-- How often the awaiting coroutine went on, and whether it was given the result. -/
inductive Owner.Progress : Owner Handle → Nat → Bool → Prop
  | fresh {owner} (h : owner.Fresh) : Progress owner 0 false
  | resuming : Progress .resuming 1 false
  | leaving : Progress .leaving 1 true
  | dropped : Progress .gone 0 false
  | left : Progress .gone 1 true

theorem Owner.Fresh.progress {owner : Owner Handle} {resumes : Nat} {given : Bool}
    (hFresh : owner.Fresh) (hProgress : owner.Progress resumes given) :
    resumes = 0 ∧ given = false := by
  cases hProgress with
  | fresh _ => exact ⟨rfl, rfl⟩
  | resuming | leaving | dropped | left => cases hFresh with | deciding h => cases h

namespace Frame

/-- Nothing has happened that must not, and everything is where the stage says. -/
structure Sound (s : Frame Handle Val Exc) : Prop where
  stage : Stage s.word s.body s.owner s.destroys s.terminated
  faults : s.faults = []
  outcome : s.outcome.isSome = s.body.finished
  raised : ∀ exception, s.exception = some exception ↔ s.outcome = some (.error exception)
  returned : s.delivered = none → ∀ val, s.val = some val ↔ s.outcome = some (.ok val)
  given : ∀ result, s.delivered = some result → s.outcome = some result
  progress : s.owner.Progress s.resumes s.delivered.isSome
  unhandled : s.terminated = true → ∃ exception, s.outcome = some (.error exception)

/-- The owner drops the frame only while the coroutine is suspended and nobody is about to resume
the awaiting one, and nothing resumes a coroutine that is destroyed. -/
def allows (s : Frame Handle Val Exc) : Step Handle Val Exc → Bool
  | .unpark => s.destroys = 0
  | .dropTask =>
    match s.body, s.owner with
    | .running, .task | .returning, .task => false
    | _, _ => true
  | .dropAwaiter =>
    match s.body, s.owner with
    | .parked, _ => true
    | _, .suspended _ => false
    | _, _ => true
  | _ => true

variable {s : Frame Handle Val Exc}

theorem touch_eq (h : s.destroys = 0) : s.touch = s := if_pos h

theorem Sound.start : ({} : Frame Handle Val Exc).Sound where
  stage := .held .running .task
  faults := rfl
  outcome := rfl
  raised _ := ⟨nofun, nofun⟩
  returned _ _ := ⟨nofun, nofun⟩
  given _ h := nomatch h
  progress := .fresh (.deciding .task)
  unhandled h := nomatch h

theorem Sound.fresh (hs : s.Sound) (hFresh : s.owner.Fresh) :
    s.resumes = 0 ∧ s.delivered = none := by
  obtain ⟨hResumes, hDelivered⟩ := hFresh.progress hs.progress
  exact ⟨hResumes, Option.not_isSome_iff_eq_none.mp (by rw [hDelivered]; exact nofun)⟩

/-- A body without a result has stored and raised nothing, and nobody was given anything. -/
theorem Sound.blank (hs : s.Sound) (hOutcome : s.outcome = none) :
    s.delivered = none ∧ s.exception = none ∧ s.val = none := by
  have hDelivered : s.delivered = none := Option.eq_none_iff_forall_ne_some.mpr fun result h =>
    nomatch hOutcome.symm.trans (hs.given result h)
  refine ⟨hDelivered, Option.eq_none_iff_forall_ne_some.mpr fun exception h => ?_,
    Option.eq_none_iff_forall_ne_some.mpr fun val h => ?_⟩
  · exact nomatch hOutcome.symm.trans ((hs.raised exception).mp h)
  · exact nomatch hOutcome.symm.trans ((hs.returned hDelivered val).mp h)

/-- The frame changes hands, and holds what it held of the result. -/
theorem Sound.hand {word : Word Handle} {body : Body Handle} {owner : Owner Handle}
    {destroys resumes : Nat} {terminated : Bool} (hs : s.Sound)
    (hStage : Stage word body owner destroys terminated)
    (hFinished : body.finished = s.body.finished)
    (hProgress : owner.Progress resumes s.delivered.isSome)
    (hUnhandled : terminated = true → ∃ exception, s.outcome = some (.error exception)) :
    ({ s with word, body, owner, destroys, resumes, terminated } : Frame Handle Val Exc).Sound where
  stage := hStage
  faults := hs.faults
  outcome := hs.outcome.trans hFinished.symm
  raised := hs.raised
  returned := hs.returned
  given := hs.given
  progress := hProgress
  unhandled := hUnhandled

/-- The body goes on and has no result yet. -/
theorem Sound.move {body : Body Handle} (hs : s.Sound) (hLive : s.destroys = 0)
    (hTerminated : s.terminated = false) (hBody : s.body.Unfinished) (hBody' : body.Unfinished)
    (hFinished : body.finished = s.body.finished) :
    ({ s.touch with body } : Frame Handle Val Exc).Sound := by
  have hStage := hs.stage
  rw [hLive, hTerminated] at hStage
  rw [touch_eq hLive]
  refine hs.hand ?_ hFinished hs.progress hs.unhandled
  rw [hLive, hTerminated]
  exact hStage.move hBody hBody'

theorem Sound.store (hs : s.Sound) (hBody : s.body = .running) (result : Except Exc Val) :
    (s.touch.store result).Sound := by
  obtain ⟨word, body, val, exception, owner, destroys, resumes, delivered, outcome, terminated,
    faults⟩ := s
  obtain rfl : body = .running := hBody
  obtain ⟨rfl, rfl⟩ : destroys = 0 ∧ terminated = false := hs.stage.executing nofun
  obtain rfl : outcome = none := Option.not_isSome_iff_eq_none.mp (by rw [hs.outcome]; exact nofun)
  obtain ⟨rfl, rfl, rfl⟩ : delivered = none ∧ exception = none ∧ val = none := hs.blank rfl
  have hStage := hs.stage.move .running .returning
  cases result with
  | ok value =>
    exact ⟨hStage, hs.faults, rfl, fun _ => ⟨nofun, nofun⟩,
      fun _ _ => ⟨fun h => by cases h; rfl, fun h => by cases h; rfl⟩, nofun, hs.progress, nofun⟩
  | error error =>
    exact ⟨hStage, hs.faults, rfl, fun _ => ⟨fun h => by cases h; rfl, fun h => by cases h; rfl⟩,
      fun _ _ => ⟨nofun, nofun⟩, nofun, hs.progress, nofun⟩

theorem Sound.finalSuspend (hs : s.Sound) (hBody : s.body = .returning) :
    s.finalSuspend.Sound := by
  obtain ⟨word, body, val, exception, owner, destroys, resumes, delivered, outcome, terminated,
    faults⟩ := s
  obtain rfl : body = .returning := hBody
  obtain ⟨rfl, rfl⟩ : destroys = 0 ∧ terminated = false := hs.stage.executing nofun
  exact hs.hand (hs.stage.exchange .returning) rfl hs.progress nofun

/-- The last owner destroys a frame that is suspended. -/
theorem Sound.destroy (hs : s.Sound) (hLive : s.destroys = 0) (hTerminated : s.terminated = false)
    (hIdle : s.body.Idle)
    (hProgress : Owner.Progress (.gone : Owner Handle) s.resumes s.delivered.isSome) :
    ({ s.destroy with owner := .gone } : Frame Handle Val Exc).Sound := by
  obtain ⟨word, body, val, exception, owner, destroys, resumes, delivered, outcome, terminated,
    faults⟩ := s
  obtain rfl : destroys = 0 := hLive
  obtain rfl : terminated = false := hTerminated
  cases hIdle with
  | parked => exact hs.hand (.destroyed .parked) rfl hProgress nofun
  | final => exact hs.hand (.destroyed .final) rfl hProgress nofun

theorem Sound.coAwait (hs : s.Sound) (hOwner : s.owner = .task) :
    ({ s with owner := .ready } : Frame Handle Val Exc).Sound := by
  obtain ⟨word, body, val, exception, owner, destroys, resumes, delivered, outcome, terminated,
    faults⟩ := s
  obtain rfl : owner = .task := hOwner
  obtain ⟨rfl, rfl⟩ : destroys = 0 ∧ terminated = false := hs.stage.alive nofun
  obtain ⟨rfl, rfl⟩ : resumes = 0 ∧ delivered = none := hs.fresh (.deciding .task)
  obtain ⟨hWord, hBody⟩ | ⟨hWord, hBody⟩ := hs.stage.deciding .task
  · obtain rfl : word = .null := hWord
    exact hs.hand (.held hBody .ready) rfl (.fresh (.deciding .ready)) nofun
  · obtain rfl : word = .completed := hWord
    obtain rfl : body = .final .nothing := hBody
    exact hs.hand (.kept .ready) rfl (.fresh (.deciding .ready)) nofun

/-- A `Task` that is dropped while its coroutine is suspended. -/
theorem Sound.dropTask (hs : s.Sound) (hOwner : s.owner = .task)
    (hAllows : s.allows (.dropTask : Step Handle Val Exc) = true) :
    ({ s.destroy with owner := .gone } : Frame Handle Val Exc).Sound := by
  obtain ⟨hLive, hTerminated⟩ := hs.stage.alive (by rw [hOwner]; exact nofun)
  obtain ⟨hResumes, hDelivered⟩ := hs.fresh (by rw [hOwner]; exact .deciding .task)
  have hStage := hs.stage
  rw [hLive, hTerminated, hOwner] at hStage
  refine hs.destroy hLive hTerminated ?_ (by rw [hResumes, hDelivered]; exact .dropped)
  obtain ⟨-, hBody⟩ | ⟨-, hBody⟩ := hStage.deciding .task
  · generalize hEq : s.body = body at hBody ⊢
    cases hBody with
    | parked => exact .parked
    | running | returning => exact absurd hAllows (by simp [allows, hOwner, hEq])
  · rw [hBody]
    exact .final

/-- An awaiter that is dropped after `await_resume`. -/
theorem Sound.dropLeaving (hs : s.Sound) (hOwner : s.owner = .leaving) :
    ({ s.destroy with owner := .gone } : Frame Handle Val Exc).Sound := by
  obtain ⟨hLive, hTerminated⟩ := hs.stage.alive (by rw [hOwner]; exact nofun)
  have hStage := hs.stage
  have hProgress := hs.progress
  rw [hLive, hTerminated, hOwner] at hStage
  rw [hOwner] at hProgress
  refine hs.destroy hLive hTerminated ?_ ?_
  · rw [(hStage.settled .leaving).2]
    exact .final
  · generalize s.resumes = resumes at hProgress ⊢
    generalize s.delivered.isSome = given at hProgress ⊢
    cases hProgress with
    | fresh h => cases h with | deciding h => cases h
    | leaving => exact .left

/-- An awaiter that is dropped with the coroutine that waits, while the task waits itself. -/
theorem Sound.dropSuspended {handle : Handle} (hs : s.Sound) (hOwner : s.owner = .suspended handle)
    (hAllows : s.allows (.dropAwaiter : Step Handle Val Exc) = true) :
    ({ s.destroy with owner := .gone } : Frame Handle Val Exc).Sound := by
  obtain ⟨hLive, hTerminated⟩ := hs.stage.alive (by rw [hOwner]; exact nofun)
  obtain ⟨hResumes, hDelivered⟩ := hs.fresh (by rw [hOwner]; exact .suspended handle)
  refine hs.destroy hLive hTerminated ?_ (by rw [hResumes, hDelivered]; exact .dropped)
  generalize hEq : s.body = body
  cases body with
  | parked => exact .parked
  | running | returning | final _ => exact absurd hAllows (by simp [allows, hOwner, hEq])

theorem Sound.awaitReady (hs : s.Sound) (hOwner : s.owner = .ready) : s.awaitReady.Sound := by
  obtain ⟨word, body, val, exception, owner, destroys, resumes, delivered, outcome, terminated,
    faults⟩ := s
  obtain rfl : owner = .ready := hOwner
  obtain ⟨rfl, rfl⟩ : destroys = 0 ∧ terminated = false := hs.stage.alive nofun
  obtain ⟨rfl, rfl⟩ : resumes = 0 ∧ delivered = none := hs.fresh (.deciding .ready)
  obtain ⟨hWord, hBody⟩ | ⟨hWord, hBody⟩ := hs.stage.deciding .ready
  · obtain rfl : word = .null := hWord
    exact hs.hand (.held hBody .suspending) rfl (.fresh (.deciding .suspending)) nofun
  · obtain rfl : word = .completed := hWord
    obtain rfl : body = .final .nothing := hBody
    exact hs.hand (.informed .resuming) rfl .resuming nofun

theorem Sound.awaitSuspend (hs : s.Sound) (hOwner : s.owner = .suspending) (handle : Handle) :
    (s.awaitSuspend handle).Sound := by
  obtain ⟨word, body, val, exception, owner, destroys, resumes, delivered, outcome, terminated,
    faults⟩ := s
  obtain rfl : owner = .suspending := hOwner
  obtain ⟨rfl, rfl⟩ : destroys = 0 ∧ terminated = false := hs.stage.alive nofun
  obtain ⟨rfl, rfl⟩ : resumes = 0 ∧ delivered = none := hs.fresh (.deciding .suspending)
  obtain ⟨hWord, hBody⟩ | ⟨hWord, hBody⟩ := hs.stage.deciding .suspending
  · obtain rfl : word = .null := hWord
    exact hs.hand (.waiting handle hBody) rfl (.fresh (.suspended handle)) nofun
  · obtain rfl : word = .completed := hWord
    obtain rfl : body = .final .nothing := hBody
    exact hs.hand (.informed .resuming) rfl .resuming nofun

theorem Sound.detach (hs : s.Sound) (hOwner : s.owner = .task) : s.detach.Sound := by
  obtain ⟨word, body, val, exception, owner, destroys, resumes, delivered, outcome, terminated,
    faults⟩ := s
  obtain rfl : owner = .task := hOwner
  obtain ⟨rfl, rfl⟩ : destroys = 0 ∧ terminated = false := hs.stage.alive nofun
  obtain ⟨rfl, rfl⟩ : resumes = 0 ∧ delivered = none := hs.fresh (.deciding .task)
  obtain ⟨hWord, hBody⟩ | ⟨hWord, hBody⟩ := hs.stage.deciding .task
  · obtain rfl : word = .null := hWord
    exact hs.hand (.orphaned hBody) rfl .dropped nofun
  · obtain rfl : word = .completed := hWord
    obtain rfl : body = .final .nothing := hBody
    exact hs.hand (.informed .cleanup) rfl (.fresh .cleanup) nofun

theorem Sound.detachEnd (hs : s.Sound) (hOwner : s.owner = .cleanup) : s.detachEnd.Sound := by
  obtain ⟨word, body, val, exception, owner, destroys, resumes, delivered, outcome, terminated,
    faults⟩ := s
  obtain rfl : owner = .cleanup := hOwner
  obtain ⟨rfl, rfl⟩ : destroys = 0 ∧ terminated = false := hs.stage.alive nofun
  obtain ⟨rfl, rfl⟩ : resumes = 0 ∧ delivered = none := hs.fresh .cleanup
  obtain ⟨hWord, hBody⟩ := hs.stage.settled .cleanup
  obtain rfl : word = .completed := hWord
  obtain rfl : body = .final .nothing := hBody
  cases exception with
  | some exception => exact hs.hand .terminated rfl .dropped fun _ =>
      ⟨exception, (hs.raised exception).mp rfl⟩
  | none => exact hs.hand (.destroyed .final) rfl .dropped nofun

/-- `await_resume` finds the result, and gives what the body came to. -/
theorem Sound.awaitResume (hs : s.Sound) (hOwner : s.owner = .resuming) : s.awaitResume.Sound := by
  obtain ⟨word, body, val, exception, owner, destroys, resumes, delivered, outcome, terminated,
    faults⟩ := s
  obtain rfl : owner = .resuming := hOwner
  obtain ⟨rfl, rfl⟩ : destroys = 0 ∧ terminated = false := hs.stage.alive nofun
  obtain ⟨hWord, hBody⟩ := hs.stage.settled .resuming
  obtain rfl : word = .completed := hWord
  obtain rfl : body = .final .nothing := hBody
  obtain ⟨rfl, hDelivered⟩ : resumes = 1 ∧ delivered.isSome = false := by
    have hProgress := hs.progress
    dsimp only at hProgress
    generalize delivered.isSome = given at hProgress ⊢
    cases hProgress with
    | fresh h => cases h with | deciding h => cases h
    | resuming => exact ⟨rfl, rfl⟩
  obtain rfl : delivered = none :=
    Option.not_isSome_iff_eq_none.mp (by rw [hDelivered]; exact nofun)
  obtain ⟨result, rfl⟩ : ∃ result, outcome = some result := Option.isSome_iff_exists.mp hs.outcome
  cases result with
  | ok value =>
    obtain rfl : val = some value := (hs.returned rfl value).mpr rfl
    obtain rfl : exception = none := Option.eq_none_iff_forall_ne_some.mpr fun error h =>
      nomatch (hs.raised error).mp h
    exact ⟨.informed .leaving, hs.faults, rfl, hs.raised, nofun, fun _ h => h, .leaving, nofun⟩
  | error error =>
    obtain rfl : exception = some error := (hs.raised error).mpr rfl
    exact ⟨.informed .leaving, hs.faults, rfl, hs.raised, nofun, fun _ h => h, .leaving, nofun⟩

/-- A frame that nobody holds any more, whose coroutine has ended, is destroyed, unless an exception
that nobody awaits has stopped the process. -/
theorem Sound.released (hs : s.Sound) (hOwner : s.owner = .gone)
    (hBody : s.body = .final .nothing) : s.destroys = 1 ∨ s.terminated = true := by
  have hStage := hs.stage
  rw [hOwner, hBody] at hStage
  generalize s.word = word, s.destroys = destroys, s.terminated = terminated at hStage ⊢
  cases hStage with
  | destroyed _ => exact .inl rfl
  | terminated => exact .inr rfl
  | held h _ | orphaned h => cases h
  | kept h | informed h => cases h

theorem Sound.destroys_le (hs : s.Sound) : s.destroys ≤ 1 := by
  have hStage := hs.stage
  generalize s.word = word, s.body = body, s.owner = owner, s.destroys = destroys,
    s.terminated = terminated at hStage ⊢
  cases hStage with
  | destroyed _ => exact Nat.le_refl 1
  | _ => exact Nat.zero_le 1

theorem Sound.resumes_le (hs : s.Sound) : s.resumes ≤ 1 := by
  have hProgress := hs.progress
  generalize s.owner = owner, s.resumes = resumes, s.delivered.isSome = given at hProgress ⊢
  cases hProgress with
  | fresh _ | dropped => exact Nat.zero_le 1
  | resuming | leaving | left => exact Nat.le_refl 1

/-- The awaiting coroutine goes on only when the task has its result. -/
theorem Sound.answered (hs : s.Sound) (hResumes : s.resumes ≠ 0) : s.outcome.isSome = true := by
  by_cases hDelivered : s.delivered.isSome = true
  · obtain ⟨result, hResult⟩ := Option.isSome_iff_exists.mp hDelivered
    rw [hs.given result hResult]
    rfl
  · have hProgress := hs.progress
    rw [eq_false_of_ne_true hDelivered] at hProgress
    rw [hs.outcome]
    have hStage := hs.stage
    generalize s.owner = owner, s.resumes = resumes at hProgress hResumes hStage
    cases hProgress with
    | fresh _ | dropped => exact absurd rfl hResumes
    | resuming =>
      obtain ⟨hLive, hTerminated⟩ := hStage.alive nofun
      rw [hLive, hTerminated] at hStage
      rw [(hStage.settled .resuming).2]
      rfl

/-- While the awaiting coroutine is suspended and the task has ended, its resumption is ahead. -/
theorem Sound.woken {handle : Handle} {ending : Ending Handle} (hs : s.Sound)
    (hOwner : s.owner = .suspended handle) (hBody : s.body = .final ending) :
    ending = .transfer handle := by
  obtain ⟨hLive, hTerminated⟩ := hs.stage.alive (by rw [hOwner]; exact nofun)
  have hStage := hs.stage
  rw [hLive, hTerminated, hOwner, hBody] at hStage
  obtain ⟨-, h⟩ | ⟨-, h⟩ := hStage.awaited
  · cases h
  · exact Body.final.inj h

variable [DecidableEq Handle]

theorem Sound.finalEnd {ending : Ending Handle} (hs : s.Sound) (hBody : s.body = .final ending)
    (hTerminated : s.terminated = false) : (s.finalEnd ending).Sound := by
  obtain ⟨word, body, val, exception, owner, destroys, resumes, delivered, outcome, terminated,
    faults⟩ := s
  obtain rfl : body = .final ending := hBody
  obtain rfl : terminated = false := hTerminated
  have hStage := hs.stage
  cases hStage with
  | kept _ | informed _ => exact hs
  | destroyed hIdle => cases hIdle; exact hs
  | held h _ | waiting _ h | orphaned h => cases h
  | waking handle =>
    obtain ⟨rfl, rfl⟩ : resumes = 0 ∧ delivered = none := hs.fresh (.suspended handle)
    simpa [Frame.finalEnd, wake] using hs.hand (.informed .resuming) rfl .resuming nofun
  | reaping =>
    cases exception with
    | some exception => exact hs.hand .terminated rfl hs.progress fun _ =>
      ⟨exception, (hs.raised exception).mp rfl⟩
    | none => exact hs.hand (.destroyed .final) rfl hs.progress nofun

/-- Every step that is allowed keeps a frame sound. -/
theorem keeps_sound : Transition.Keeps (step : Frame Handle Val Exc → Step Handle Val Exc → _)
    (fun s a => s.allows a = true) Sound := by
  intro s a hs ha
  unfold step
  by_cases hTerminated : s.terminated = true
  · rwa [if_pos hTerminated]
  rw [if_neg hTerminated]
  have hTerminated : s.terminated = false := eq_false_of_ne_true hTerminated
  cases a with dsimp only
  | park =>
    split
    · next hBody =>
        obtain ⟨hLive, -⟩ := hs.stage.executing (by rw [hBody]; exact nofun)
        exact hs.move hLive hTerminated (by rw [hBody]; exact .running) .parked (by rw [hBody]; rfl)
    · exact hs
  | unpark =>
    split
    · next hBody =>
        exact hs.move (of_decide_eq_true ha) hTerminated (by rw [hBody]; exact .parked) .running
          (by rw [hBody]; rfl)
    · exact hs
  | finish result =>
    split
    · next hBody => exact hs.store hBody result
    · exact hs
  | finalSuspend =>
    split
    · next hBody => exact hs.finalSuspend hBody
    · exact hs
  | finalEnd =>
    split
    · next hBody => exact hs.finalEnd hBody hTerminated
    · exact hs
  | coAwait =>
    split
    · next hOwner => exact hs.coAwait hOwner
    · exact hs
  | awaitReady =>
    split
    · next hOwner => exact hs.awaitReady hOwner
    · exact hs
  | awaitSuspend handle =>
    split
    · next hOwner => exact hs.awaitSuspend hOwner handle
    · exact hs
  | awaitResume =>
    split
    · next hOwner => exact hs.awaitResume hOwner
    · exact hs
  | dropAwaiter =>
    split
    · next hOwner => exact hs.dropLeaving hOwner
    · next hOwner => exact hs.dropSuspended hOwner ha
    · exact hs
  | dropTask =>
    split
    · next hOwner => exact hs.dropTask hOwner ha
    · exact hs
  | detach =>
    split
    · next hOwner => exact hs.detach hOwner
    · exact hs
  | detachEnd =>
    split
    · next hOwner => exact hs.detachEnd hOwner
    · exact hs

/-- However the steps of a task and its owner interleave, its frame is not used once it is
destroyed, is destroyed at most once, and in the end is destroyed, unless an exception that nobody
awaits stops the process.  The owner drops it only when it may, and nothing resumes it later. -/
theorem frame_destroyed_once {steps : List (Step Handle Val Exc)}
    (hAllows : Transition.EachStep step (fun s a => s.allows a = true) {} steps) :
    Transition.Always step (fun s => s.faults = [] ∧ s.destroys ≤ 1 ∧
      (s.owner = .gone → s.body = .final .nothing → s.destroys = 1 ∨ s.terminated = true) ∧
      (s.terminated = true → ∃ exception, s.outcome = some (.error exception))) {} steps :=
  (keeps_sound.always Sound.start hAllows).imp fun _ hs =>
    ⟨hs.faults, hs.destroys_le, hs.released, hs.unhandled⟩

theorem frame_destroyed_once_detached :
    Transition.Always step (fun s : Frame Nat Nat String => s.faults = [] ∧ s.destroys ≤ 1 ∧
      (s.owner = .gone → s.body = .final .nothing → s.destroys = 1 ∨ s.terminated = true) ∧
      (s.terminated = true → ∃ exception, s.outcome = some (.error exception))) {}
      [.park, .detach, .unpark, .finish (.ok 3), .finalSuspend, .finalEnd] :=
  frame_destroyed_once (by decide)

/-- The awaiting coroutine goes on at most once, once the task has its result, which it is given,
and is not left waiting: when the task has ended, either it has gone on or the final suspension is
to resume it.  The frames are used as they may be, as before. -/
theorem awaiter_resumed_once {steps : List (Step Handle Val Exc)}
    (hAllows : Transition.EachStep step (fun s a => s.allows a = true) {} steps) :
    Transition.Always step (fun s => s.resumes ≤ 1 ∧ (s.resumes ≠ 0 → s.outcome.isSome = true) ∧
      (∀ result, s.delivered = some result → s.outcome = some result) ∧
      ∀ handle ending, s.owner = .suspended handle → s.body = .final ending →
        ending = .transfer handle) {} steps :=
  (keeps_sound.always Sound.start hAllows).imp fun _ hs =>
    ⟨hs.resumes_le, hs.answered, hs.given, fun _ _ => hs.woken⟩

theorem awaiter_resumed_once_suspended :
    Transition.Always step (fun s : Frame Nat Nat String => s.resumes ≤ 1 ∧
      (s.resumes ≠ 0 → s.outcome.isSome = true) ∧
      (∀ result, s.delivered = some result → s.outcome = some result) ∧
      ∀ handle ending, s.owner = .suspended handle → s.body = .final ending →
        ending = .transfer handle) {}
      [.coAwait, .awaitReady, .park, .awaitSuspend 7, .unpark, .finish (.ok 3), .finalSuspend,
        .finalEnd, .awaitResume, .dropAwaiter] :=
  awaiter_resumed_once (by decide)

end Frame

end Coro

end LuxonServer
