import Mathlib.Data.Int.Notation
import Mathlib.Data.Nat.Notation

/-!
# Tasks and deadlines

Times and durations are integers in nanoseconds, times counted from the zero `time.Time`.
-/

namespace Lsvmi.Scheduler

def schedulerTaskQLen : Nat := 64
def schedulerTodoQLen : Nat := 64
def schedulerGranularity : Int := 20000000
def schedulerTaskMinExecutionPause : Int := 2 * schedulerGranularity

/-- The address of a `Task`. -/
abbrev TaskRef := Nat

/-- What `NewTask` is called with; `hasAction` says that the action is not nil. -/
structure TaskSpec where
  id : String
  interval : Int
  hasAction : Bool

/-- A `Task` on its way through the scheduler: the fields that are written, and which task it is. -/
structure Task where
  ref : TaskRef
  interval : Int
  deadline : Int
  addedByWorker : Bool
  lastExecuted : Int
  deriving DecidableEq, Repr

structure TaskStats where
  scheduledCount : UInt64
  delayedCount : UInt64
  overrunCount : UInt64
  executedCount : UInt64
  deadlineHackCount : UInt64
  runtimeTotal : Int
  deriving DecidableEq, Repr

def newTaskStats : TaskStats := ⟨0, 0, 0, 0, 0, 0⟩

/-- `CompliantTaskInterval`; `Duration.Truncate` rounds toward zero. -/
def compliantTaskInterval (interval : Int) : Int :=
  let compliantInterval := interval - interval.tmod schedulerGranularity
  let compliantInterval :=
    if interval - compliantInterval ≥ schedulerGranularity / 2 then
      compliantInterval + schedulerGranularity
    else compliantInterval
  if compliantInterval < schedulerTaskMinExecutionPause then schedulerTaskMinExecutionPause
  else compliantInterval

theorem compliantTaskInterval_pos (interval : Int) : 0 < compliantTaskInterval interval := by
  unfold compliantTaskInterval schedulerTaskMinExecutionPause schedulerGranularity
  simp only
  split <;> omega

/-- The task that `AddNewTask` sends, for the task built by `NewTask` from `spec`. -/
def addedTask (ref : TaskRef) (spec : TaskSpec) : Task :=
  ⟨ref, compliantTaskInterval spec.interval, 0, false, 0⟩

def truncate (t d : Int) : Int := if d ≤ 0 then t else t - t % d

def nextMultiple (timeNow interval : Int) : Int := truncate timeNow interval + interval

/-- The loop that moves a deadline past the previous one; the second component is `deadlineHack`. -/
def deadlineLoop (interval prevDeadline : Int) : Nat → Int → Bool → Option (Int × Bool)
  | 0, _, _ => none
  | fuel + 1, nextDeadline, deadlineHack =>
    if prevDeadline < nextDeadline then some (nextDeadline, deadlineHack)
    else deadlineLoop interval prevDeadline fuel (nextDeadline + interval) true

/-- The deadline of a task that comes back from a worker, and whether the deadline hack was applied
and the task was delayed; `none` when the loop does not end. -/
def requeueDeadline (task : Task) (timeNow : Int) : Option (Int × Bool × Bool) :=
  let nextDeadline := nextMultiple timeNow task.interval
  -- An interval of at least 1 needs no more turns than this.
  match deadlineLoop task.interval task.deadline ((task.deadline - nextDeadline).toNat + 2)
    nextDeadline false with
  | none => none
  | some (nextDeadline, deadlineHack) =>
    let taskNearestDeadline := task.lastExecuted + schedulerTaskMinExecutionPause
    if nextDeadline < taskNearestDeadline then some (taskNearestDeadline, deadlineHack, true)
    else some (nextDeadline, deadlineHack, false)

theorem deadlineLoop_isSome {interval : Int} (hpos : 0 < interval) (prevDeadline : Int)
    (fuel : Nat) (nextDeadline : Int) (deadlineHack : Bool) (hfuel : 0 < fuel)
    (hlt : prevDeadline - nextDeadline + 1 < fuel) :
    (deadlineLoop interval prevDeadline fuel nextDeadline deadlineHack).isSome := by
  induction fuel generalizing nextDeadline deadlineHack with
  | zero => omega
  | succ fuel ih =>
    unfold deadlineLoop
    by_cases hpast : prevDeadline < nextDeadline
    · rw [if_pos hpast]
      rfl
    · rw [if_neg hpast]
      apply ih
      · omega
      · omega

end Lsvmi.Scheduler
