import LuxonServer.Lib.Run
import Mathlib.Data.List.Perm.Basic
import Mathlib.Data.UInt

/-! The tasks that the server manager runs from its main loop: `add_scheduled_task` and
`run_scheduled_tasks`.  Uptimes are in milliseconds and unbounded; a due time is stored in an
`unsigned`.  The `common::Timer` that measures the uptime is not part of the repository: it returns
the milliseconds in 32 bits, or in more. -/

namespace LuxonServer

/-- `ServerManager::ScheduledTask`, with what is known of the call that has scheduled it.
`callable` is whether the `std::function` holds something to call. -/
structure TimedTask where
  executionTime : UInt32
  callable : Bool := true
  number : Nat
  scheduledAt : Nat
  delayMs : UInt32
  deriving DecidableEq, Repr

/-- When the task is to run. -/
def TimedTask.due (task : TimedTask) : Nat := task.scheduledAt + task.delayMs.toNat

/-- A task that has run: when, and which tasks waited then. -/
structure TaskRun where
  task : TimedTask
  ranAt : Nat
  waiting : List TimedTask
  deriving DecidableEq, Repr

/-- `scheduled_tasks_`, in the order of the calls, and the tasks that have run. -/
structure TaskQueue where
  scheduledTasks : List TimedTask := []
  added : Nat := 0
  ran : List TaskRun := []
  deriving DecidableEq, Repr

/-- A call, with the uptime that it is made at.  Where several tasks are due first, the
`std::priority_queue` has one of them at its top: `top` says which. -/
inductive TaskOp where
  | add (now : Nat) (delayMs : UInt32) (callable : Bool)
  | run (now : Nat) (top : Nat)
  deriving DecidableEq, Repr

/-- The uptime of the call. -/
def TaskOp.now : TaskOp → Nat
  | add now _ _ | run now _ => now

namespace TaskQueue

/-- `startup_time_.get()`. -/
def getTime (wide : Bool) (now : Nat) : Nat := if wide then now else now % 2 ^ 32

/-- `add_scheduled_task`. -/
def addScheduledTask (wide : Bool) (now : Nat) (delayMs : UInt32) (callable : Bool)
    (q : TaskQueue) : TaskQueue :=
  { q with
    scheduledTasks := q.scheduledTasks ++
      [{ executionTime := UInt32.ofNat (getTime wide now + delayMs.toNat), callable,
         number := q.added, scheduledAt := now, delayMs }]
    added := q.added + 1 }

/-- Whether the queue may have the task at its top: `operator>` puts it behind no other. -/
def isTop (task : TimedTask) (tasks : List TimedTask) : Bool :=
  tasks.all fun other => !decide (task.executionTime > other.executionTime)

/-- `run_scheduled_tasks`: at most one task runs. -/
def runScheduledTasks (wide : Bool) (now top : Nat) (q : TaskQueue) : TaskQueue :=
  match q.scheduledTasks[top]? with
  | none => q
  | some task =>
    if isTop task q.scheduledTasks then
      if task.executionTime.toNat < getTime wide now then
        let waiting := q.scheduledTasks.eraseIdx top
        { q with
          scheduledTasks := waiting
          ran := if task.callable then q.ran ++ [⟨task, now, waiting⟩] else q.ran }
      else q
    else q

def step (wide : Bool) (q : TaskQueue) : TaskOp → TaskQueue
  | .add now delayMs callable => q.addScheduledTask wide now delayMs callable
  | .run now top => q.runScheduledTasks wide now top

/-- No task has run early or more than once, nor while another waited that was due before it. -/
structure FiresRight (q : TaskQueue) : Prop where
  notEarly : ∀ run ∈ q.ran, run.task.due ≤ run.ranAt
  once : (q.ran.map (·.task.number)).Nodup
  inOrder : ∀ run ∈ q.ran, ∀ other ∈ run.waiting, run.task.due ≤ other.due

/-- The due time fits into an `unsigned`. -/
def Fits : TaskOp → Prop
  | .add now delayMs _ => now + delayMs.toNat < 2 ^ 32
  | .run _ _ => True

instance : DecidablePred Fits
  | .add now delayMs _ => inferInstanceAs (Decidable (now + delayMs.toNat < 2 ^ 32))
  | .run _ _ => .isTrue trivial

/-- A clock that does not go back. -/
def Monotone (ops : List TaskOp) : Prop := ops.Pairwise fun a b => a.now ≤ b.now

instance (ops : List TaskOp) : Decidable (Monotone ops) :=
  inferInstanceAs (Decidable (ops.Pairwise fun a b => a.now ≤ b.now))

variable {wide : Bool} {q : TaskQueue}

theorem getTime_of_lt {now : Nat} (hnow : now < 2 ^ 32) : getTime wide now = now := by
  unfold getTime
  split
  · rfl
  · exact Nat.mod_eq_of_lt hnow

theorem getTime_le (wide : Bool) (now : Nat) : getTime wide now ≤ now := by
  unfold getTime
  split
  · exact le_refl _
  · exact Nat.mod_le _ _

/-- A call runs no task, or it takes one from the top of the queue that is due by the clock. -/
theorem runScheduledTasks_cases (wide : Bool) (now top : Nat) (q : TaskQueue) :
    q.runScheduledTasks wide now top = q ∨
      ∃ task, q.scheduledTasks[top]? = some task ∧ isTop task q.scheduledTasks = true ∧
        task.executionTime.toNat < getTime wide now ∧
        q.runScheduledTasks wide now top =
          { q with
            scheduledTasks := q.scheduledTasks.eraseIdx top
            ran :=
              if task.callable then q.ran ++ [⟨task, now, q.scheduledTasks.eraseIdx top⟩]
              else q.ran } := by
  unfold runScheduledTasks
  cases htask : q.scheduledTasks[top]? with
  | none => exact Or.inl rfl
  | some task =>
    by_cases htop : isTop task q.scheduledTasks = true
    · by_cases hdue : task.executionTime.toNat < getTime wide now
      · exact Or.inr ⟨task, rfl, htop, hdue, by simp [htop, hdue]⟩
      · exact Or.inl (by simp [hdue])
    · exact Or.inl (by simp [htop])

/-- What holds of the tasks, whatever their times are: each has a number of its own, and is waiting
or has run. -/
structure Numbered (q : TaskQueue) : Prop where
  distinct : (q.scheduledTasks.map (·.number) ++ q.ran.map (·.task.number)).Nodup
  issued : ∀ n ∈ q.scheduledTasks.map (·.number) ++ q.ran.map (·.task.number), n < q.added

theorem Numbered.add (hq : q.Numbered) (now : Nat) (delayMs : UInt32) (callable : Bool) :
    (q.addScheduledTask wide now delayMs callable).Numbered := by
  have hperm : ((q.addScheduledTask wide now delayMs callable).scheduledTasks.map (·.number) ++
      q.ran.map (·.task.number)).Perm
      (q.added :: (q.scheduledTasks.map (·.number) ++ q.ran.map (·.task.number))) := by
    simp only [addScheduledTask, List.map_append, List.map_cons, List.map_nil, List.append_assoc]
    exact List.perm_middle
  constructor
  · refine hperm.nodup_iff.mpr (List.nodup_cons.mpr ⟨fun hmem => ?_, hq.distinct⟩)
    exact absurd (hq.issued _ hmem) (lt_irrefl _)
  · intro n hn
    rcases List.mem_cons.mp (hperm.mem_iff.mp hn) with rfl | hn
    · exact Nat.lt_succ_self _
    · exact Nat.lt_succ_of_lt (hq.issued n hn)

theorem Numbered.run (hq : q.Numbered) (now top : Nat) :
    (q.runScheduledTasks wide now top).Numbered := by
  rcases runScheduledTasks_cases wide now top q with heq | ⟨task, htask, -, -, heq⟩
  · rwa [heq]
  have hmem : q.scheduledTasks.Perm (task :: q.scheduledTasks.eraseIdx top) := by
    obtain ⟨hlt, hget⟩ := List.getElem?_eq_some_iff.mp htask
    rw [← hget]
    exact (List.getElem_cons_eraseIdx_perm hlt).symm
  -- the numbers that are left are among those before
  have hsub : ∃ rest, (q.scheduledTasks.map (·.number) ++ q.ran.map (·.task.number)).Perm
      (((q.runScheduledTasks wide now top).scheduledTasks.map (·.number) ++
        (q.runScheduledTasks wide now top).ran.map (·.task.number)) ++ rest) := by
    rw [heq]
    cases task.callable with
    | true =>
      refine ⟨[], ?_⟩
      simp only [if_true, List.map_append, List.map_cons, List.map_nil, List.append_nil]
      refine ((hmem.map _).append_right _).trans ?_
      rw [List.map_cons, List.cons_append, ← List.append_assoc]
      exact (List.perm_append_singleton _ _).symm
    | false =>
      refine ⟨[task.number], ?_⟩
      refine ((hmem.map _).append_right _).trans ?_
      rw [List.map_cons, List.cons_append]
      exact (List.perm_append_singleton _ _).symm
  obtain ⟨rest, hperm⟩ := hsub
  have hadded : (q.runScheduledTasks wide now top).added = q.added := by rw [heq]
  constructor
  · exact (List.nodup_append.mp (hperm.nodup_iff.mp hq.distinct)).1
  · intro n hn
    rw [hadded]
    exact hq.issued n (hperm.mem_iff.mpr (List.mem_append_left _ hn))

/-- What holds while every due time fits: a waiting task has the time it is due stored. -/
structure Sound (q : TaskQueue) : Prop where
  numbered : q.Numbered
  stored : ∀ task ∈ q.scheduledTasks, task.executionTime.toNat = task.due
  notEarly : ∀ run ∈ q.ran, run.task.due ≤ run.ranAt
  inOrder : ∀ run ∈ q.ran, ∀ other ∈ run.waiting, run.task.due ≤ other.due

theorem Sound.firesRight (hq : q.Sound) : q.FiresRight :=
  ⟨hq.notEarly, (List.nodup_append.mp hq.numbered.distinct).2.1, hq.inOrder⟩

theorem Sound.add (hq : q.Sound) {now : Nat} {delayMs : UInt32} (callable : Bool)
    (hfits : now + delayMs.toNat < 2 ^ 32) :
    (q.addScheduledTask wide now delayMs callable).Sound := by
  refine ⟨hq.numbered.add now delayMs callable, ?_, hq.notEarly, hq.inOrder⟩
  intro task htask
  rcases List.mem_append.mp htask with hold | hnew
  · exact hq.stored task hold
  · rw [List.mem_singleton.mp hnew]
    show (UInt32.ofNat (getTime wide now + delayMs.toNat)).toNat = now + delayMs.toNat
    rw [getTime_of_lt (by omega), UInt32.toNat_ofNat_of_lt' hfits]

theorem Sound.run (hq : q.Sound) (now top : Nat) : (q.runScheduledTasks wide now top).Sound := by
  have hnumbered : (q.runScheduledTasks wide now top).Numbered := hq.numbered.run now top
  rcases runScheduledTasks_cases wide now top q with heq | ⟨task, htask, htop, hdue, heq⟩
  · rwa [heq]
  have hmem : task ∈ q.scheduledTasks := List.mem_of_getElem? htask
  have hnow : task.due ≤ now := by
    rw [← hq.stored task hmem]
    exact (Nat.le_of_lt hdue).trans (getTime_le wide now)
  have hfirst : ∀ other ∈ q.scheduledTasks.eraseIdx top, task.due ≤ other.due := by
    intro other hother
    have hother' := List.mem_of_mem_eraseIdx hother
    have hle : ¬task.executionTime > other.executionTime := by
      simpa using List.all_eq_true.mp htop other hother'
    rw [← hq.stored task hmem, ← hq.stored other hother']
    exact UInt32.le_iff_toNat_le.mp (UInt32.not_lt.mp hle)
  have hran : ∀ run ∈ (q.runScheduledTasks wide now top).ran,
      run ∈ q.ran ∨ run = ⟨task, now, q.scheduledTasks.eraseIdx top⟩ := by
    intro run hrun
    rw [heq] at hrun
    simp only at hrun
    split at hrun
    · exact (List.mem_append.mp hrun).imp_right List.mem_singleton.mp
    · exact Or.inl hrun
  refine ⟨hnumbered, ?_, fun run hrun => ?_, fun run hrun => ?_⟩
  · rw [heq]
    exact fun other hother => hq.stored other (List.mem_of_mem_eraseIdx hother)
  · rcases hran run hrun with hold | rfl
    · exact hq.notEarly run hold
    · exact hnow
  · rcases hran run hrun with hold | rfl
    · exact hq.inOrder run hold
    · exact hfirst

theorem numbered_keeps :
    Transition.Keeps (step wide) (fun _ _ => True) Numbered := by
  intro q op hq _
  cases op with
  | add now delayMs callable => exact hq.add now delayMs callable
  | run now top => exact hq.run now top

/-- A task runs at most once, whatever the clock and the delays are. -/
theorem once_run (wide : Bool) (ops : List TaskOp) :
    ((Transition.run (step wide) {} ops).ran.map (·.task.number)).Nodup := by
  have hnew : Numbered {} := ⟨List.nodup_nil, nofun⟩
  have hq : Numbered (Transition.run (step wide) {} ops) :=
    numbered_keeps.run hnew (Transition.eachStep_of_forall fun _ _ _ => trivial)
  exact (List.nodup_append.mp hq.distinct).2.1

theorem sound_keeps : Transition.Keeps (step wide) (fun _ op => Fits op) Sound := by
  intro q op hq hfits
  cases op with
  | add now delayMs callable => exact hq.add callable hfits
  | run now top => exact hq.run now top

/-- While every task is scheduled for a time below `2^32`, no task runs early, twice, or before one
that is due earlier; and a task that is scheduled for a later time, before the uptime is there, runs
at once. -/
theorem firesRight_of_fits (wide : Bool) :
    (∀ ops : List TaskOp, (∀ op ∈ ops, Fits op) →
      Transition.Always (step wide) FiresRight {} ops) ∧
    ∀ now delayMs, now < 2 ^ 32 → ¬Fits (.add now delayMs true) →
      ¬Transition.Always (step wide) FiresRight {} [.add now delayMs true, .run now 0] := by
  constructor
  · intro ops hfits
    have hnew : Sound {} := ⟨⟨List.nodup_nil, nofun⟩, nofun, nofun, nofun⟩
    exact (sound_keeps.always hnew (Transition.eachStep_of_forall fun op hop _ => hfits op hop)).imp
      fun _ hq => hq.firesRight
  · intro now delayMs hnow hwraps halways
    have hdelay := delayMs.toNat_lt
    have hsum : 2 ^ 32 ≤ now + delayMs.toNat := Nat.not_lt.mp hwraps
    have htarget : (UInt32.ofNat (getTime wide now + delayMs.toNat)).toNat < getTime wide now := by
      rw [getTime_of_lt hnow, UInt32.toNat_ofNat']
      omega
    have hlast := halways.last
    simp only [Transition.run_cons, Transition.run_nil, step, addScheduledTask, runScheduledTasks,
      List.nil_append, List.getElem?_cons_zero, isTop, List.all_cons, List.all_nil,
      htarget] at hlast
    have hearly := hlast.notEarly ⟨_, now, []⟩ (by simp; rfl)
    simp only [TimedTask.due] at hearly
    omega

/-- Two tasks run in the order of their due times. -/
theorem firesRight_of_fits_two :
    let ops : List TaskOp := [.add 0 50 true, .add 10 20 true, .run 31 1, .run 51 0]
    Transition.Always (step true) FiresRight {} ops ∧
      (Transition.run (step true) {} ops).ran.map (·.task.number) = [1, 0] := by
  intro ops
  exact ⟨(firesRight_of_fits true).1 ops (by decide), by decide⟩

/-- After 25 days of uptime a task with the longest time that a room may be kept runs at once. -/
theorem not_firesRight_wrapped :
    let ops : List TaskOp := [.add 2147483649 2147483647 true, .run 2147483649 0]
    Monotone ops ∧ ¬Transition.Always (step true) FiresRight {} ops ∧
      ¬Transition.Always (step false) FiresRight {} ops := by
  intro ops
  refine ⟨by decide, fun halways => ?_, fun halways => ?_⟩
  all_goals exact absurd (halways.last.notEarly _ List.mem_cons_self) (by decide)

end TaskQueue

end LuxonServer
