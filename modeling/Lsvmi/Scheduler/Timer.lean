import Lsvmi.Scheduler.Conservation

/-!
# The timer and the heap

As long as the dispatcher considers its timer active, the timer is armed or has expired without the
dispatcher having seen it, and the deadline it was armed with is the least one on the heap.  While
tasks are on the heap, the dispatcher does not wait without it.
-/

namespace Lsvmi.Scheduler

open Reasoning BinaryHeap List

variable {W : Nat} {spec : TaskRef → TaskSpec} {s s' : State W} {e : Event W} {d : Dispatcher}

/-- Armed or expired, not both: a drain after a failed `Stop` finds a value. -/
def Timer.Live (timer : Timer) : Prop := timer.running = !timer.pending

theorem Timer.Live.stopAndDrain {timer : Timer} (h : timer.Live) :
    timer.stopAndDrain = some ⟨false, false⟩ := by
  obtain ⟨running, pending⟩ := timer
  unfold Timer.Live at h
  cases pending <;> cases h <;> rfl

/-- What holds of the timer between the first statements of the loop and its end. -/
structure Dispatcher.Armed (d : Dispatcher) : Prop where
  idle : d.activeTimer = false → d.timer = ⟨false, false⟩
  live : d.activeTimer = true → d.timer.Live
  head : d.activeTimer = true → ∃ task, d.tasks.head? = some task ∧
    task.deadline = d.currentDeadline

def Dispatcher.TimerOk (d : Dispatcher) : Prop :=
  match d.pc with
  | .starting => d.activeTimer = false ∧ d.timer.Live
  | .loopTop | .select | .received _ | .scheduling _ | .sending _ => d.Armed
  | .drainBlocked _ | .panicked none => False
  | .stopped | .panicked (some _) | .diverged _ => True

/-- The heap order, and the timer by where the dispatcher is. -/
structure Dispatcher.Inv (d : Dispatcher) : Prop where
  heap : BinaryHeap.IsHeap (BinaryHeap.keyAt Task.deadline d.tasks)
  timer : d.TimerOk

theorem started_dispatcher_inv : (started W).dispatcher.Inv :=
  ⟨fun _ => le_refl _, rfl, rfl⟩

open Dispatcher

theorem armed_of_cancelled (h : d.timer = ⟨false, false⟩) (hactive : d.activeTimer = false) :
    d.Armed := by
  refine ⟨fun _ => h, ?_, ?_⟩ <;>
  · intro ha
    rw [hactive] at ha
    cases ha

theorem cancelTimer_timerOk (hlive : d.timer.Live)
    (hpc : d.pc = .loopTop ∨ ∃ task, d.pc = .scheduling task) (hand : Option Task) :
    (d.cancelTimer hand).TimerOk := by
  unfold cancelTimer TimerOk
  rw [hlive.stopAndDrain]
  rcases hpc with hpc | ⟨task, hpc⟩
  all_goals
    simp only [hpc]
    exact armed_of_cancelled rfl rfl

theorem Dispatcher.Inv.armed (h : d.Inv) (hpc : d.pc = .loopTop ∨ d.pc = .select ∨
    (∃ task, d.pc = .received task) ∨ (∃ task, d.pc = .scheduling task) ∨
    ∃ task, d.pc = .sending task) : d.Armed := by
  have htimer := h.timer
  unfold TimerOk at htimer
  rcases hpc with hpc | hpc | ⟨task, hpc⟩ | ⟨task, hpc⟩ | ⟨task, hpc⟩ <;> rwa [hpc] at htimer

theorem Dispatcher.Armed.active (h : d.Armed) (hne : d.timer ≠ ⟨false, false⟩) : d.activeTimer := by
  by_contra hidle
  exact hne (h.idle (by simpa using hidle))

theorem Dispatcher.Armed.setPc (h : d.Armed) (pc : DispatcherPc) : { d with pc }.Armed :=
  ⟨h.idle, h.live, h.head⟩

theorem arm_armed (h : d.Armed) : d.arm.Armed := by
  unfold arm
  simp only
  split
  · rename_i task hactive htasks
    refine ⟨fun ha => absurd ha (by simp), fun _ => ?_, fun _ => ⟨task, htasks, rfl⟩⟩
    show (true : Bool) = !d.timer.pending
    rw [h.idle hactive]
    rfl
  · exact h.setPc .select

theorem arm_inv (h : d.Inv) (hpc : d.pc = .loopTop) : d.arm.Inv := by
  refine ⟨by rw [arm_tasks]; exact h.heap, ?_⟩
  unfold TimerOk
  rw [arm_pc]
  exact arm_armed (h.armed (.inl hpc))

theorem push_head {tasks : List Task} (task : Task) {first : Task}
    (hheap : IsHeap (keyAt Task.deadline tasks))
    (hfirst : tasks.head? = some first) (hle : first.deadline ≤ task.deadline) :
    ∃ task', (push Task.deadline tasks task).head? = some task' ∧
      task'.deadline = first.deadline := by
  have hperm : (push Task.deadline tasks task).Perm (task :: tasks) := push_perm tasks task
  have hheap' := push_isHeap hheap task
  have hne : push Task.deadline tasks task ≠ [] := by
    intro hnil
    rw [hnil] at hperm
    exact absurd hperm.length_eq (by simp)
  obtain ⟨task', hhead⟩ := Option.isSome_iff_exists.mp (isSome_head?.mpr hne)
  refine ⟨task', hhead, le_antisymm ?_ ?_⟩
  · apply head_le_of_isHeap hheap' hhead
    exact hperm.mem_iff.mpr (mem_cons_of_mem _ (mem_of_head? hfirst))
  · have hmem : task' ∈ task :: tasks := hperm.mem_iff.mp (mem_of_head? hhead)
    rcases mem_cons.mp hmem with rfl | hmem
    · exact hle
    · exact head_le_of_isHeap hheap hfirst task' hmem

section

variable (hheap : IsHeap (keyAt Task.deadline d.tasks)) (h : d.Armed) (task : Task)
include hheap h task

theorem push_inv (nextDeadline : Int) : (d.push task nextDeadline).Inv := by
  refine ⟨?_, ?_⟩
  · rw [push_tasks]
    exact push_isHeap hheap _
  unfold Dispatcher.push
  simp only
  by_cases hbefore : (d.activeTimer && nextDeadline < d.currentDeadline)
  · rw [if_pos hbefore]
    have hactive : d.activeTimer := by
      rw [Bool.and_eq_true] at hbefore
      exact hbefore.1
    apply cancelTimer_timerOk
    · exact h.live hactive
    · exact .inl rfl
  · rw [if_neg hbefore]
    refine ⟨h.idle, h.live, fun hactive => ?_⟩
    obtain ⟨first, hfirst, hdeadline⟩ := h.head hactive
    have hle : first.deadline ≤ nextDeadline := by
      have hactive' : d.activeTimer := hactive
      simp [hactive'] at hbefore
      omega
    obtain ⟨task', hhead, heq⟩ := push_head { task with deadline := nextDeadline } hheap hfirst hle
    exact ⟨task', hhead, heq.trans hdeadline⟩

theorem scheduleNow_inv (timeNow : Int) : (d.scheduleNow task timeNow).Inv := by
  refine ⟨by rw [scheduleNow_tasks]; exact hheap, ?_⟩
  unfold scheduleNow
  simp only
  cases hactive : d.activeTimer with
  | true =>
    rw [if_pos rfl]
    apply cancelTimer_timerOk
    · exact h.live hactive
    · exact .inr ⟨_, rfl⟩
  | false => exact armed_of_cancelled (h.idle hactive) rfl

end

theorem popTask_spec (h : d.Inv) (hpc : d.pc = .select) (hpending : d.timer.pending) :
    ∃ task rest, d.popTask = { d with pc := .scheduling task, tasks := rest
                                      timer := ⟨false, false⟩, activeTimer := false } ∧
      IsHeap (keyAt Task.deadline rest) ∧
      task ∈ d.tasks ∧ task.deadline = d.currentDeadline ∧
      ∀ t ∈ d.tasks, task.deadline ≤ t.deadline := by
  have harmed : d.Armed := h.armed (.inr (.inl hpc))
  have hactive := harmed.active fun h => by simp [h] at hpending
  have hrunning : d.timer.running = false := by
    have := harmed.live hactive
    unfold Timer.Live at this
    rw [this, hpending]
    rfl
  obtain ⟨task, hhead, hdeadline⟩ := harmed.head hactive
  obtain ⟨rest, hpop, hrest, hmin⟩ := pop_spec h.heap hhead
  refine ⟨task, rest, ?_, hrest, mem_of_head? hhead, hdeadline, hmin⟩
  unfold popTask
  simp only [hpop, hrunning]

theorem done_inv (h : d.Inv) (hpc : d.pc = .select) : d.done.Inv := by
  have harmed : d.Armed := h.armed (.inr (.inl hpc))
  refine ⟨by rw [done_tasks]; exact h.heap, ?_⟩
  unfold done
  cases hactive : d.activeTimer with
  | true =>
    rw [if_pos rfl, (harmed.live hactive).stopAndDrain]
    trivial
  | false => trivial

theorem process_inv (h : s.dispatcher.Inv) {task : Task} (hpc : s.dispatcher.pc = .received task)
    (timeNow : Int) : (s.process spec task timeNow).dispatcher.Inv := by
  have harmed : s.dispatcher.Armed := h.armed (.inr (.inr (.inl ⟨task, hpc⟩)))
  unfold State.process
  simp only
  split
  · split
    · exact ⟨h.heap, trivial⟩
    · split
      · exact ⟨h.heap, trivial⟩
      · exact push_inv h.heap harmed _ _
  · split
    · exact push_inv h.heap harmed _ _
    · exact scheduleNow_inv h.heap harmed _ _

theorem record_dispatcher (s : State W) (w : Fin W) (task : Task) (reQueue : Bool) (runtime : Int) :
    (s.record spec w task reQueue runtime).dispatcher = s.dispatcher := by
  unfold State.record
  split
  · rfl
  · split <;> rfl

theorem expire_inv (h : d.Inv) (hrunning : d.timer.running) :
    { d with timer := ⟨false, true⟩ }.Inv := by
  refine ⟨h.heap, ?_⟩
  have htimer := h.timer
  unfold TimerOk at htimer ⊢
  cases hpc : d.pc with
  | starting =>
    rw [hpc] at htimer
    exact ⟨htimer.1, rfl⟩
  | loopTop | select | received task | scheduling task | sending task =>
    rw [hpc] at htimer
    have hactive := htimer.active fun h => by simp [h] at hrunning
    refine ⟨fun ha => ?_, fun _ => rfl, htimer.head⟩
    rw [hactive] at ha
    cases ha
  | stopped | drainBlocked task | diverged task =>
    rw [hpc] at htimer
    exact htimer
  | panicked task =>
    rw [hpc] at htimer
    cases task <;> exact htimer

theorem dispatcher_inv_step (h : s.dispatcher.Inv) (hstep : Steps spec s e s') :
    s'.dispatcher.Inv := by
  cases enabled_of_step hstep with
  | addNewTask | adderSend | workerReceive | workerReturn | workerSend | workerDone | shutdown =>
    exact h
  | workerCount =>
    rw [record_dispatcher]
    exact h
  | timerExpires hrunning => exact expire_inv h hrunning
  | dispatcherStart hpc =>
    have htimer := h.timer
    unfold TimerOk at htimer
    rw [hpc] at htimer
    constructor
    · simp only [cancelTimer_tasks]
      exact h.heap
    · apply cancelTimer_timerOk
      · exact htimer.2
      · exact .inl rfl
  | dispatcherArm hpc => exact arm_inv h hpc
  | dispatcherDone hpc hdone => exact done_inv h hpc
  | dispatcherReceive hpc hq => exact ⟨h.heap, (h.armed (.inr (.inl hpc))).setPc _⟩
  | dispatcherProcess hpc => exact process_inv h hpc _
  | dispatcherTimer hpc hpending =>
    obtain ⟨task, rest, hpop, hheap, -⟩ := popTask_spec h hpc hpending
    simp only [hpop]
    exact ⟨hheap, armed_of_cancelled rfl rfl⟩
  | @dispatcherCount task hpc =>
    exact ⟨h.heap, (h.armed (.inr (.inr (.inr (.inl ⟨task, hpc⟩))))).setPc _⟩
  | @dispatcherSend task hpc hroom =>
    exact ⟨h.heap, (h.armed (.inr (.inr (.inr (.inr ⟨task, hpc⟩))))).setPc _⟩

theorem dispatcher_inv_of_run {es : List (Event W)} (h : Run (Steps spec) (started W) es s) :
    s.dispatcher.Inv :=
  h.invariant (I := fun s => s.dispatcher.Inv) started_dispatcher_inv
    fun _ _ _ hs hstep => dispatcher_inv_step hs hstep

/-- At the select statement an active timer belongs to the least deadline on the heap; the timer
case takes a task with that deadline; and no drain of the timer's channel blocks. -/
theorem timer_matches_heap (spec : TaskRef → TaskSpec) (es : List (Event W)) (s : State W)
    (h : Run (Steps spec) (started W) es s) :
    (s.dispatcher.pc = .select → s.dispatcher.activeTimer = true →
      ∃ task ∈ s.dispatcher.tasks, task.deadline = s.dispatcher.currentDeadline ∧
        ∀ t ∈ s.dispatcher.tasks, task.deadline ≤ t.deadline) ∧
    (∀ s', Steps spec s .dispatcherTimer s' →
      ∃ task ∈ s.dispatcher.tasks, s'.dispatcher.pc = .scheduling task ∧
        task.deadline = s.dispatcher.currentDeadline ∧
        ∀ t ∈ s.dispatcher.tasks, task.deadline ≤ t.deadline) ∧
    (∀ task, s.dispatcher.pc ≠ .drainBlocked task) ∧ s.dispatcher.pc ≠ .panicked none := by
  have hinv := dispatcher_inv_of_run h
  refine ⟨fun hpc hactive => ?_, fun s' hstep => ?_, fun task hpc => ?_, fun hpc => ?_⟩
  · have harmed := hinv.armed (.inr (.inl hpc))
    obtain ⟨task, hhead, hdeadline⟩ := harmed.head hactive
    exact ⟨task, mem_of_head? hhead, hdeadline, head_le_of_isHeap hinv.heap hhead⟩
  · cases enabled_of_step hstep with
    | dispatcherTimer hpc hpending =>
      obtain ⟨task, rest, hpop, -, hmem, hdeadline, hmin⟩ := popTask_spec hinv hpc hpending
      exact ⟨task, hmem, by rw [hpop], hdeadline, hmin⟩
  all_goals
    have htimer := hinv.timer
    unfold TimerOk at htimer
    rwa [hpc] at htimer

/-- A new task that comes just before a multiple of its interval waits for it on the heap. -/
def nearDeadline : List (Event 1) :=
  [.addNewTask 0, .adderSend 0, .dispatcherStart, .dispatcherArm, .dispatcherReceive,
    .dispatcherProcess 59990000000, .dispatcherArm, .timerExpires]

theorem timer_matches_heap_near_deadline :
    ∃ s s' : State 1, Run (Steps plainSpec) (started 1) nearDeadline s ∧
      Steps plainSpec s .dispatcherTimer s' ∧
      ∃ task, s'.dispatcher.pc = .scheduling task ∧
        task.deadline = s.dispatcher.currentDeadline := by
  obtain ⟨s, s', hrun, hstep⟩ : ∃ s s', Run (Steps plainSpec) (started 1) nearDeadline s ∧
      Steps plainSpec s .dispatcherTimer s' := ⟨_, _, Run.of_foldlM rfl, rfl⟩
  obtain ⟨task, -, hpc, hdeadline, -⟩ := (timer_matches_heap plainSpec nearDeadline s hrun).2.1 s' hstep
  exact ⟨s, s', hrun, hstep, task, hpc, hdeadline⟩

/-- The dispatcher does not wait without a timer while there are tasks on the heap. -/
def Dispatcher.TimerSet (d : Dispatcher) : Prop :=
  d.pc = .select → d.tasks ≠ [] → d.activeTimer = true

theorem process_pc (s : State W) (task : Task) (timeNow : Int) :
    (s.process spec task timeNow).dispatcher.pc ≠ .select := by
  unfold State.process Dispatcher.push scheduleNow cancelTimer
  grind

theorem timerSet_step (h : s.dispatcher.TimerSet) (hstep : Steps spec s e s') :
    s'.dispatcher.TimerSet := by
  cases enabled_of_step hstep with
  | workerCount =>
    rw [record_dispatcher]
    exact h
  | dispatcherArm =>
    intro _ hheap
    unfold arm at hheap ⊢
    cases hactive : s.dispatcher.activeTimer <;> cases htasks : s.dispatcher.tasks <;> simp_all
  -- the other steps of the dispatcher do not lead to the select statement
  | dispatcherProcess => exact fun hpc => absurd hpc (process_pc s _ _)
  | dispatcherStart | dispatcherDone | dispatcherTimer =>
    intro hpc
    grind [cancelTimer, done, popTask]
  | dispatcherReceive | dispatcherCount | dispatcherSend => exact nofun
  | addNewTask | adderSend | timerExpires | workerReceive | workerReturn | workerSend | workerDone
  | shutdown => exact h

theorem popTask_step (hinv : s.dispatcher.Inv) (hpc : s.dispatcher.pc = .select)
    (hpending : s.dispatcher.timer.pending) : ∃ s' task, Steps spec s .dispatcherTimer s' ∧
      s'.dispatcher.pc = .scheduling task ∧ task ∈ s.dispatcher.tasks ∧
      ∀ t ∈ s.dispatcher.tasks, task.deadline ≤ t.deadline := by
  obtain ⟨task, rest, hpop, -, hmem, -, hmin⟩ := popTask_spec hinv hpc hpending
  refine ⟨{ s with dispatcher := s.dispatcher.popTask }, task, ?_, by rw [hpop], hmem, hmin⟩
  simp [Steps, step, hpc, hpending]

/-- Where the dispatcher waits with tasks on the heap, the timer alone makes it schedule one with the
least deadline. -/
theorem heap_wakes_dispatcher (spec : TaskRef → TaskSpec) (es : List (Event W)) (s : State W)
    (h : Run (Steps spec) (started W) es s) (hpc : s.dispatcher.pc = .select)
    (hheap : s.dispatcher.tasks ≠ []) :
    ∃ es' s' task, Run (Steps spec) s es' s' ∧
      (∀ e ∈ es', e = .timerExpires ∨ e = .dispatcherTimer) ∧
      s'.dispatcher.pc = .scheduling task ∧ task ∈ s.dispatcher.tasks ∧
      ∀ t ∈ s.dispatcher.tasks, task.deadline ≤ t.deadline := by
  have hinv := dispatcher_inv_of_run h
  have hset : s.dispatcher.TimerSet := h.invariant (I := fun s => s.dispatcher.TimerSet) nofun
    fun _ _ _ hs hstep => timerSet_step hs hstep
  have hlive := (hinv.armed (.inr (.inl hpc))).live (hset hpc hheap)
  unfold Timer.Live at hlive
  cases hpending : s.dispatcher.timer.pending with
  | true =>
    obtain ⟨s', task, hstep, hrest⟩ := popTask_step hinv hpc hpending
    exact ⟨_, s', task, .snoc .start hstep, by simp, hrest⟩
  | false =>
    have hexpires : Steps spec s .timerExpires
        { s with dispatcher := { s.dispatcher with timer := ⟨false, true⟩ } } := by
      simp [Steps, step, hlive, hpending]
    obtain ⟨s', task, hstep, hrest⟩ := popTask_step (dispatcher_inv_step hinv hexpires) hpc rfl
    exact ⟨_, s', task, .cons hexpires (.snoc .start hstep), by simp, hrest⟩

theorem heap_wakes_dispatcher_near_deadline :
    ∃ s : State 1, Run (Steps plainSpec) (started 1) nearDeadline s ∧ s.dispatcher.tasks ≠ [] ∧
      ∃ es' s' task, Run (Steps plainSpec) s es' s' ∧ s'.dispatcher.pc = .scheduling task := by
  obtain ⟨s, hrun, hpc, hheap⟩ : ∃ s, Run (Steps plainSpec) (started 1) nearDeadline s ∧
      s.dispatcher.pc = .select ∧ s.dispatcher.tasks ≠ [] :=
    ⟨_, Run.of_foldlM rfl, rfl, by decide⟩
  obtain ⟨es', s', task, hrun', -, hpc', -⟩ := heap_wakes_dispatcher _ _ s hrun hpc hheap
  exact ⟨s, hrun, hheap, es', s', task, hrun', hpc'⟩

end Lsvmi.Scheduler
