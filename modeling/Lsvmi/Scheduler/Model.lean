import Mathlib.Data.Fintype.Basic
import Lsvmi.Reasoning.BinaryHeap
import Lsvmi.Scheduler.Task

/-!
# The dispatcher and the workers

The goroutines of a started scheduler as one transition system.  A step is what a goroutine does
between two points where it can be interrupted in a way the others notice: a channel operation, a
critical section, or the part of a loop body that only touches its own variables.  A step that is
not enabled, such as a send on a full channel, has no next state.
-/

namespace Lsvmi.Scheduler

open Reasoning

/-- A `time.Timer`: whether it is armed, and whether its channel holds a value. -/
structure Timer where
  running : Bool
  pending : Bool
  deriving DecidableEq, Repr

/-- `if !timer.Stop() { <-timer.C }`; `none` when the receive finds nothing and blocks. -/
def Timer.stopAndDrain (timer : Timer) : Option Timer :=
  if timer.running then some { timer with running := false }
  else if timer.pending then some { timer with pending := false }
  else none

inductive DispatcherPc where
  /-- before the timer made for the loop is stopped -/
  | starting
  | loopTop
  | select
  /-- a task was received from `taskQ` -/
  | received (task : Task)
  /-- `task != nil` after the select statement -/
  | scheduling (task : Task)
  /-- about to send on `todoQ` -/
  | sending (task : Task)
  | stopped
  /-- receiving from a timer channel that holds no value, with `task` as given -/
  | drainBlocked (task : Option Task)
  | panicked (task : Option Task)
  /-- in the loop that moves the deadline -/
  | diverged (task : Task)
  deriving DecidableEq, Repr

structure Dispatcher where
  pc : DispatcherPc
  tasks : List Task
  timer : Timer
  activeTimer : Bool
  currentDeadline : Int
  deriving DecidableEq, Repr

inductive Worker where
  | idle
  | executing (task : Task) (startTs : Int)
  /-- the action has returned, the stats are not updated yet -/
  | executed (task : Task) (reQueue : Bool) (runtime : Int)
  /-- about to send on `taskQ` -/
  | requeueing (task : Task)
  | stopped
  | panicked (task : Task)
  deriving DecidableEq, Repr

structure State (W : Nat) where
  /-- the tasks of the `AddNewTask` calls that have not returned -/
  adders : List Task
  taskQ : List Task
  todoQ : List Task
  dispatcher : Dispatcher
  workers : Fin W → Worker
  /-- the tasks that were not re-queued -/
  retired : List TaskRef
  /-- the tasks `AddNewTask` was called for -/
  added : List TaskRef
  stats : String → Option TaskStats
  ctxDone : Bool

def started (W : Nat) : State W :=
  { adders := [], taskQ := [], todoQ := []
    dispatcher := ⟨.starting, [], ⟨true, false⟩, false, 0⟩
    workers := fun _ => .idle, retired := [], added := [], stats := fun _ => none
    ctxDone := false }

inductive Event (W : Nat) where
  | addNewTask (ref : TaskRef)
  /-- the send of the call at position `i` of `adders` -/
  | adderSend (i : Nat)
  | timerExpires
  | dispatcherStart
  | dispatcherArm
  | dispatcherDone
  | dispatcherReceive
  | dispatcherProcess (timeNow : Int)
  | dispatcherTimer
  | dispatcherCount
  | dispatcherSend
  | workerReceive (w : Fin W) (startTs : Int)
  /-- the `Execute` of the task `ref` returns; a nil action counts as returning true -/
  | workerReturn (w : Fin W) (ref : TaskRef) (reQueue : Bool) (endTs : Int)
  | workerCount (w : Fin W)
  | workerSend (w : Fin W)
  | workerDone (w : Fin W)
  /-- `Shutdown` cancels the context -/
  | shutdown
  deriving DecidableEq, Repr

variable (d : Dispatcher)

/-- Stop the timer, with `task` at hand. -/
def Dispatcher.cancelTimer (task : Option Task) : Dispatcher :=
  match d.timer.stopAndDrain with
  | some timer => { d with timer, activeTimer := false }
  | none => { d with pc := .drainBlocked task }

/-- `heap.Push`, and cancel the timer if the new deadline is before the one it is armed with. -/
def Dispatcher.push (task : Task) (nextDeadline : Int) : Dispatcher :=
  let task := { task with deadline := nextDeadline }
  let d := { d with pc := .loopTop, tasks := BinaryHeap.push Task.deadline d.tasks task }
  if d.activeTimer && nextDeadline < d.currentDeadline then d.cancelTimer none else d

/-- The top of the loop: arm the timer unless it is armed or there is nothing to wait for. -/
def Dispatcher.arm : Dispatcher :=
  let d := { d with pc := .select }
  match d.activeTimer, d.tasks.head? with
  | false, some task =>
    { d with currentDeadline := task.deadline, timer := { d.timer with running := true }
             activeTimer := true }
  | _, _ => d

/-- The timer case of the select statement; `heap.Pop` panics on an empty heap. -/
def Dispatcher.popTask : Dispatcher :=
  let d := { d with timer := { d.timer with pending := false }, activeTimer := false }
  match BinaryHeap.pop Task.deadline d.tasks with
  | some (task, tasks) => { d with pc := .scheduling task, tasks }
  | none => { d with pc := .panicked none }

/-- The context case: return, through the deferred function. -/
def Dispatcher.done : Dispatcher :=
  if d.activeTimer then
    match d.timer.stopAndDrain with
    | some timer => { d with pc := .stopped, timer }
    | none => { d with pc := .drainBlocked none }
  else { d with pc := .stopped }

/-- A new task that is not close to its next deadline is executed right away. -/
def Dispatcher.scheduleNow (task : Task) (timeNow : Int) : Dispatcher :=
  let task := { task with deadline := timeNow }
  let d := { d with pc := .scheduling task }
  if d.activeTimer then d.cancelTimer (some task) else d

/-- The critical section of a re-queued task; a missing entry is only noticed when it is used. -/
def countRequeue (stats : String → Option TaskStats) (id : String)
    (deadlineHack taskDelayed : Bool) : Option (String → Option TaskStats) :=
  if !deadlineHack && !taskDelayed then some stats
  else match stats id with
    | none => none
    | some s =>
      let s := { s with
        deadlineHackCount := s.deadlineHackCount + if deadlineHack then 1 else 0
        delayedCount := s.delayedCount + if taskDelayed then 1 else 0 }
      some (Function.update stats id (some s))

def countScheduled (stats : String → Option TaskStats) (id : String) :
    String → Option TaskStats :=
  let s := (stats id).getD newTaskStats
  Function.update stats id (some { s with scheduledCount := s.scheduledCount + 1 })

def countExecuted (stats : String → Option TaskStats) (id : String) (overrun : Bool)
    (runtime : Int) : Option (String → Option TaskStats) :=
  match stats id with
  | none => none
  | some s =>
    some (Function.update stats id (some { s with
      overrunCount := s.overrunCount + if overrun then 1 else 0
      executedCount := s.executedCount + 1
      runtimeTotal := s.runtimeTotal + runtime }))

section

variable {W : Nat} (spec : TaskRef → TaskSpec)

def State.process (s : State W) (task : Task) (timeNow : Int) : State W :=
  let d := s.dispatcher
  let nextDeadline := nextMultiple timeNow task.interval
  if task.addedByWorker then
    match requeueDeadline task timeNow with
    | none => { s with dispatcher := { d with pc := .diverged task } }
    | some (nextDeadline, deadlineHack, taskDelayed) =>
      match countRequeue s.stats (spec task.ref).id deadlineHack taskDelayed with
      | none => { s with dispatcher := { d with pc := .panicked (some task) } }
      | some stats => { s with stats, dispatcher := d.push task nextDeadline }
  else if nextDeadline - timeNow < schedulerTaskMinExecutionPause then
    { s with dispatcher := d.push task nextDeadline }
  else { s with dispatcher := d.scheduleNow task timeNow }

def State.record (s : State W) (w : Fin W) (task : Task) (reQueue : Bool) (runtime : Int) :
    State W :=
  match countExecuted s.stats (spec task.ref).id (task.interval ≤ runtime) runtime with
  | none => { s with workers := Function.update s.workers w (.panicked task) }
  | some stats =>
    if reQueue then
      let task := { task with addedByWorker := true }
      { s with stats, workers := Function.update s.workers w (.requeueing task) }
    else
      { s with stats, workers := Function.update s.workers w .idle
               retired := task.ref :: s.retired }

def step (s : State W) : Event W → Option (State W)
  | .addNewTask ref =>
    if ref ∈ s.added then none
    else some { s with adders := addedTask ref (spec ref) :: s.adders, added := ref :: s.added }
  | .adderSend i =>
    match s.adders[i]? with
    | some task =>
      if s.taskQ.length < schedulerTaskQLen then
        some { s with adders := s.adders.eraseIdx i, taskQ := s.taskQ ++ [task] }
      else none
    | none => none
  | .timerExpires =>
    if s.dispatcher.timer.running then
      some { s with dispatcher := { s.dispatcher with timer := ⟨false, true⟩ } }
    else none
  | .dispatcherStart =>
    match s.dispatcher.pc with
    | .starting => some { s with dispatcher := { s.dispatcher with pc := .loopTop }.cancelTimer none }
    | _ => none
  | .dispatcherArm =>
    match s.dispatcher.pc with
    | .loopTop => some { s with dispatcher := s.dispatcher.arm }
    | _ => none
  | .dispatcherDone =>
    match s.dispatcher.pc, s.ctxDone with
    | .select, true => some { s with dispatcher := s.dispatcher.done }
    | _, _ => none
  | .dispatcherReceive =>
    match s.dispatcher.pc, s.taskQ with
    | .select, task :: taskQ =>
      some { s with taskQ, dispatcher := { s.dispatcher with pc := .received task } }
    | _, _ => none
  | .dispatcherProcess timeNow =>
    match s.dispatcher.pc with
    | .received task => some (s.process spec task timeNow)
    | _ => none
  | .dispatcherTimer =>
    match s.dispatcher.pc, s.dispatcher.timer.pending with
    | .select, true => some { s with dispatcher := s.dispatcher.popTask }
    | _, _ => none
  | .dispatcherCount =>
    match s.dispatcher.pc with
    | .scheduling task =>
      some { s with stats := countScheduled s.stats (spec task.ref).id
                    dispatcher := { s.dispatcher with pc := .sending task } }
    | _ => none
  | .dispatcherSend =>
    match s.dispatcher.pc with
    | .sending task =>
      if s.todoQ.length < schedulerTodoQLen then
        some { s with todoQ := s.todoQ ++ [task]
                      dispatcher := { s.dispatcher with pc := .loopTop } }
      else none
    | _ => none
  | .workerReceive w startTs =>
    match s.workers w, s.todoQ with
    | .idle, task :: todoQ =>
      some { s with todoQ, workers := Function.update s.workers w (.executing task startTs) }
    | _, _ => none
  | .workerReturn w ref reQueue endTs =>
    match s.workers w with
    | .executing task startTs =>
      -- Without an action there is nothing that could return false.
      if task.ref = ref ∧ ((spec ref).hasAction || reQueue) then
        let task := { task with lastExecuted := endTs }
        some { s with
          workers := Function.update s.workers w (.executed task reQueue (endTs - startTs)) }
      else none
    | _ => none
  | .workerCount w =>
    match s.workers w with
    | .executed task reQueue runtime => some (s.record spec w task reQueue runtime)
    | _ => none
  | .workerSend w =>
    match s.workers w with
    | .requeueing task =>
      if s.taskQ.length < schedulerTaskQLen then
        some { s with taskQ := s.taskQ ++ [task], workers := Function.update s.workers w .idle }
      else none
    | _ => none
  | .workerDone w =>
    match s.workers w, s.ctxDone with
    | .idle, true => some { s with workers := Function.update s.workers w .stopped }
    | _, _ => none
  | .shutdown => some { s with ctxDone := true }

end

inductive Enabled {W : Nat} (spec : TaskRef → TaskSpec) (s : State W) : Event W → State W → Prop
  | addNewTask {ref : TaskRef} (hnew : ref ∉ s.added) :
    Enabled spec s (.addNewTask ref)
      { s with adders := addedTask ref (spec ref) :: s.adders, added := ref :: s.added }
  | adderSend {i : Nat} {task : Task} (htask : s.adders[i]? = some task)
    (hroom : s.taskQ.length < schedulerTaskQLen) :
    Enabled spec s (.adderSend i)
      { s with adders := s.adders.eraseIdx i, taskQ := s.taskQ ++ [task] }
  | timerExpires (hrunning : s.dispatcher.timer.running = true) :
    Enabled spec s .timerExpires { s with dispatcher := { s.dispatcher with timer := ⟨false, true⟩ } }
  | dispatcherStart (hpc : s.dispatcher.pc = .starting) :
    Enabled spec s .dispatcherStart
      { s with dispatcher := { s.dispatcher with pc := .loopTop }.cancelTimer none }
  | dispatcherArm (hpc : s.dispatcher.pc = .loopTop) :
    Enabled spec s .dispatcherArm { s with dispatcher := s.dispatcher.arm }
  | dispatcherDone (hpc : s.dispatcher.pc = .select) (hdone : s.ctxDone = true) :
    Enabled spec s .dispatcherDone { s with dispatcher := s.dispatcher.done }
  | dispatcherReceive {task : Task} {taskQ : List Task} (hpc : s.dispatcher.pc = .select)
    (hq : s.taskQ = task :: taskQ) :
    Enabled spec s .dispatcherReceive
      { s with taskQ, dispatcher := { s.dispatcher with pc := .received task } }
  | dispatcherProcess {task : Task} {timeNow : Int} (hpc : s.dispatcher.pc = .received task) :
    Enabled spec s (.dispatcherProcess timeNow) (s.process spec task timeNow)
  | dispatcherTimer (hpc : s.dispatcher.pc = .select)
    (hpending : s.dispatcher.timer.pending = true) :
    Enabled spec s .dispatcherTimer { s with dispatcher := s.dispatcher.popTask }
  | dispatcherCount {task : Task} (hpc : s.dispatcher.pc = .scheduling task) :
    Enabled spec s .dispatcherCount
      { s with stats := countScheduled s.stats (spec task.ref).id
               dispatcher := { s.dispatcher with pc := .sending task } }
  | dispatcherSend {task : Task} (hpc : s.dispatcher.pc = .sending task)
    (hroom : s.todoQ.length < schedulerTodoQLen) :
    Enabled spec s .dispatcherSend
      { s with todoQ := s.todoQ ++ [task], dispatcher := { s.dispatcher with pc := .loopTop } }
  | workerReceive {w : Fin W} {startTs : Int} {task : Task} {todoQ : List Task}
    (hw : s.workers w = .idle) (hq : s.todoQ = task :: todoQ) :
    Enabled spec s (.workerReceive w startTs)
      { s with todoQ, workers := Function.update s.workers w (.executing task startTs) }
  | workerReturn {w : Fin W} {reQueue : Bool} {startTs endTs : Int} {task : Task}
    (hw : s.workers w = .executing task startTs)
    (haction : ((spec task.ref).hasAction || reQueue) = true) :
    Enabled spec s (.workerReturn w task.ref reQueue endTs)
      { s with workers := Function.update s.workers w
                (.executed { task with lastExecuted := endTs } reQueue (endTs - startTs)) }
  | workerCount {w : Fin W} {task : Task} {reQueue : Bool} {runtime : Int}
    (hw : s.workers w = .executed task reQueue runtime) :
    Enabled spec s (.workerCount w) (s.record spec w task reQueue runtime)
  | workerSend {w : Fin W} {task : Task} (hw : s.workers w = .requeueing task)
    (hroom : s.taskQ.length < schedulerTaskQLen) :
    Enabled spec s (.workerSend w)
      { s with taskQ := s.taskQ ++ [task], workers := Function.update s.workers w .idle }
  | workerDone {w : Fin W} (hw : s.workers w = .idle) (hdone : s.ctxDone = true) :
    Enabled spec s (.workerDone w) { s with workers := Function.update s.workers w .stopped }
  | shutdown : Enabled spec s .shutdown { s with ctxDone := true }

theorem enabled_of_step {W : Nat} {spec : TaskRef → TaskSpec} {s s' : State W} {e : Event W}
    (h : step spec s e = some s') : Enabled spec s e s' := by
  cases e with
  | addNewTask ref =>
    simp only [step] at h
    split at h
    · cases h
    · cases h
      exact .addNewTask ‹_›
  | workerReturn w ref reQueue endTs =>
    simp only [step] at h
    split at h
    · split at h
      · rename_i task startTs hw href
        cases h
        obtain ⟨rfl, haction⟩ := href
        exact .workerReturn hw haction
      · cases h
    · cases h
  | shutdown =>
    cases h
    exact .shutdown
  | adderSend | dispatcherSend | workerSend =>
    -- there is a task to send, and room for it
    simp only [step] at h
    split at h
    · split at h
      · cases h
        constructor <;> assumption
      · cases h
    · cases h
  | timerExpires | dispatcherStart | dispatcherArm | dispatcherDone | dispatcherReceive
  | dispatcherProcess | dispatcherTimer | dispatcherCount | workerReceive | workerCount
  | workerDone =>
    simp only [step] at h
    split at h
    · cases h
      constructor <;> assumption
    · cases h

end Lsvmi.Scheduler
