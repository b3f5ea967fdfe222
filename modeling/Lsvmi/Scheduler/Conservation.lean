import Lsvmi.Reasoning.Inventory
import Lsvmi.Reasoning.Runs
import Lsvmi.Scheduler.Model

/-!
# No task is lost or duplicated

Where each task is at any time.  Every step hands one task from one place to another, leaves all of
them where they are, or is the call that adds a task.
-/

namespace Lsvmi.Scheduler

open Reasoning Dispatcher Function Multiset

variable {stats : String → Option TaskStats} (d : Dispatcher) {W : Nat} {spec : TaskRef → TaskSpec}
  {s s' : State W} {e : Event W} {task : Task} {w : Fin W}

/-- The places a task can be in, apart from the hands of the workers. -/
inductive Place where
  | adders | taskQ | heap | dispatcher | todoQ | retired
  deriving DecidableEq

instance : Fintype Place where
  elems := {.adders, .taskQ, .heap, .dispatcher, .todoQ, .retired}
  complete := by
    intro x
    cases x <;> decide

abbrev Where (W : Nat) := Place ⊕ Fin W

def DispatcherPc.hand : DispatcherPc → Option Task
  | .received task | .scheduling task | .sending task | .diverged task => some task
  | .drainBlocked task | .panicked task => task
  | .starting | .loopTop | .select | .stopped => none

def Worker.hand : Worker → Option Task
  | .executing task _ | .executed task _ _ | .requeueing task | .panicked task => some task
  | .idle | .stopped => none

def inHand : Option Task → Multiset TaskRef
  | some task => {task.ref}
  | none => 0

def contents (s : State W) : Where W → Multiset TaskRef
  | .inl .adders => s.adders.map Task.ref
  | .inl .taskQ => s.taskQ.map Task.ref
  | .inl .heap => s.dispatcher.tasks.map Task.ref
  | .inl .dispatcher => inHand s.dispatcher.pc.hand
  | .inl .todoQ => s.todoQ.map Task.ref
  | .inl .retired => s.retired
  | .inr w => inHand (s.workers w).hand

theorem cancelTimer_tasks (hand : Option Task) : (d.cancelTimer hand).tasks = d.tasks := by
  unfold cancelTimer
  split <;> rfl

theorem cancelTimer_hand {d : Dispatcher} {hand : Option Task} (h : d.pc.hand = hand) :
    (d.cancelTimer hand).pc.hand = hand := by
  unfold cancelTimer
  split
  · exact h
  · rfl

theorem push_tasks (task : Task) (nextDeadline : Int) :
    (d.push task nextDeadline).tasks =
      BinaryHeap.push Task.deadline d.tasks { task with deadline := nextDeadline } := by
  unfold push
  simp only
  split
  · rw [cancelTimer_tasks]
  · rfl

theorem push_hand (task : Task) (nextDeadline : Int) :
    (d.push task nextDeadline).pc.hand = none := by
  unfold push
  simp only
  split
  · exact cancelTimer_hand rfl
  · rfl

theorem scheduleNow_tasks (task : Task) (timeNow : Int) :
    (d.scheduleNow task timeNow).tasks = d.tasks := by
  unfold scheduleNow
  simp only
  split
  · rw [cancelTimer_tasks]
  · rfl

theorem scheduleNow_hand (task : Task) (timeNow : Int) :
    (d.scheduleNow task timeNow).pc.hand = some { task with deadline := timeNow } := by
  unfold scheduleNow
  simp only
  split
  · exact cancelTimer_hand rfl
  · rfl

theorem arm_tasks : d.arm.tasks = d.tasks := by
  unfold arm
  simp only
  split <;> rfl

theorem arm_pc : d.arm.pc = .select := by
  unfold arm
  simp only
  split <;> rfl

theorem done_tasks : d.done.tasks = d.tasks := by
  unfold done
  split
  · split <;> rfl
  · rfl

theorem done_hand : d.done.pc.hand = none := by
  unfold done
  split
  · split <;> rfl
  · rfl

theorem coe_map_append_singleton (q : List Task) (task : Task) :
    (((q ++ [task]).map Task.ref : List TaskRef) : Multiset TaskRef) =
      task.ref ::ₘ ((q.map Task.ref : List TaskRef) : Multiset TaskRef) := by
  rw [List.map_append, List.map_singleton]
  exact coe_eq_coe.mpr (List.perm_append_singleton _ _)

inductive Moves (s s' : State W) : Prop
  | same (h : contents s' = contents s) (ha : s'.added = s.added)
  | transfer (p q : Where W) (r : TaskRef) (h : Transfer (contents s) (contents s') p q r)
    (ha : s'.added = s.added)
  | arrival (r : TaskRef) (hr : r ∉ s.added)
    (h : Arrival (contents s) (contents s') (.inl .adders) r) (ha : s'.added = r :: s.added)

theorem moves_of_dispatcher {d : Dispatcher} (htasks : d.tasks = s.dispatcher.tasks)
    (hhand : inHand d.pc.hand = inHand s.dispatcher.pc.hand) :
    Moves s { s with stats, dispatcher := d } := by
  refine .same ?_ rfl
  funext x
  rcases x with x | w
  · cases x with
    | heap =>
      show ((d.tasks.map Task.ref : List TaskRef) : Multiset TaskRef) = _
      rw [htasks]
      rfl
    | dispatcher => exact hhand
    | adders | taskQ | todoQ | retired => rfl
  · rfl

theorem moves_push (hpc : s.dispatcher.pc = .received task) (nextDeadline : Int)
    (stats : String → Option TaskStats) :
    Moves s { s with stats, dispatcher := s.dispatcher.push task nextDeadline } := by
  refine .transfer (.inl .dispatcher) (.inl .heap) task.ref ⟨by simp, ?_, ?_, ?_⟩ rfl
  · show inHand s.dispatcher.pc.hand = task.ref ::ₘ inHand (s.dispatcher.push task _).pc.hand
    rw [push_hand, hpc]
    rfl
  · show (((s.dispatcher.push task _).tasks.map Task.ref : List TaskRef) : Multiset TaskRef) = _
    rw [push_tasks]
    exact coe_eq_coe.mpr ((BinaryHeap.push_perm _ _).map Task.ref)
  · rintro (x | w) hp hq
    · cases x <;> first | rfl | exact absurd rfl hp | exact absurd rfl hq
    · rfl

theorem moves_popTask (hpc : s.dispatcher.pc = .select) :
    Moves s { s with dispatcher := s.dispatcher.popTask } := by
  unfold popTask
  simp only
  cases hpop : BinaryHeap.pop Task.deadline s.dispatcher.tasks with
  | none =>
    apply moves_of_dispatcher
    · rfl
    · rw [hpc]
      rfl
  | some popped =>
    refine .transfer (.inl .heap) (.inl .dispatcher) popped.1.ref ⟨by simp, ?_, ?_, ?_⟩ rfl
    · exact coe_eq_coe.mpr ((BinaryHeap.pop_perm hpop).map Task.ref)
    · show {popped.1.ref} = popped.1.ref ::ₘ inHand s.dispatcher.pc.hand
      rw [hpc]
      rfl
    · rintro (x | w) hp hq
      · cases x <;> first | rfl | exact absurd rfl hp | exact absurd rfl hq
      · rfl

theorem moves_process (hpc : s.dispatcher.pc = .received task) (timeNow : Int) :
    Moves s (s.process spec task timeNow) := by
  unfold State.process
  simp only
  split
  · split
    · apply moves_of_dispatcher
      · rfl
      · rw [hpc]
        rfl
    split
    · apply moves_of_dispatcher
      · rfl
      · rw [hpc]
        rfl
    · exact moves_push hpc _ _
  · split
    · exact moves_push hpc _ _
    · apply moves_of_dispatcher
      · exact scheduleNow_tasks _ _ _
      · rw [scheduleNow_hand, hpc]
        rfl

theorem moves_worker {worker : Worker} (hhand : inHand worker.hand = inHand (s.workers w).hand) :
    Moves s { s with stats, workers := update s.workers w worker } := by
  refine .same ?_ rfl
  funext x
  rcases x with x | w'
  · cases x <;> rfl
  show inHand (update s.workers w worker w').hand = inHand (s.workers w').hand
  by_cases hw : w' = w
  · subst hw
    rw [update_self]
    exact hhand
  · rw [update_of_ne hw]

theorem worker_frame {w' : Fin W} (worker : Worker) (hw : (Sum.inr w' : Where W) ≠ .inr w) :
    inHand (update s.workers w worker w').hand = inHand (s.workers w').hand := by
  rw [update_of_ne fun h => hw (congrArg Sum.inr h)]

/-- The worker `w` gets rid of the task it has, which goes to the end of `taskQ` or is retired. -/
theorem moves_from_worker (hw : (s.workers w).hand = some task)
    (worker : Worker) (hidle : worker.hand = none) {task' : Task} (href : task'.ref = task.ref)
    (stats : String → Option TaskStats) :
    Moves s { s with taskQ := s.taskQ ++ [task'], workers := update s.workers w worker } ∧
    Moves s { s with stats, workers := update s.workers w worker
                     retired := task.ref :: s.retired } := by
  have hsource : inHand (s.workers w).hand =
      task.ref ::ₘ inHand (update s.workers w worker w).hand := by
    rw [hw, update_self, hidle]
    rfl
  constructor
  · refine .transfer (.inr w) (.inl .taskQ) task.ref ⟨by simp, hsource, ?_, ?_⟩ rfl
    · rw [← href]
      exact coe_map_append_singleton s.taskQ task'
    · rintro (x | w') hp hq
      · cases x <;> first | rfl | exact absurd rfl hq
      · exact worker_frame worker hp
  · refine .transfer (.inr w) (.inl .retired) task.ref ⟨by simp, hsource, rfl, ?_⟩ rfl
    rintro (x | w') hp hq
    · cases x <;> first | rfl | exact absurd rfl hq
    · exact worker_frame worker hp

theorem moves_record {reQueue : Bool} {runtime : Int}
    (hw : s.workers w = .executed task reQueue runtime) :
    Moves s (s.record spec w task reQueue runtime) := by
  have hhand : (s.workers w).hand = some task := by
    rw [hw]
    rfl
  unfold State.record
  split
  · apply moves_worker
    rw [hhand]
    rfl
  split
  · apply moves_worker
    rw [hhand]
    rfl
  · exact (moves_from_worker hhand .idle rfl rfl _).2

theorem step_moves (h : step spec s e = some s') : Moves s s' := by
  cases enabled_of_step h with
  | @addNewTask ref hnew =>
    refine .arrival ref hnew ⟨rfl, ?_⟩ rfl
    rintro (x | w) hp
    · cases x <;> first | rfl | exact absurd rfl hp
    · rfl
  | @adderSend i task htask hroom =>
    refine .transfer (.inl .adders) (.inl .taskQ) task.ref ⟨by simp, ?_, ?_, ?_⟩ rfl
    · obtain ⟨hi, rfl⟩ := List.getElem?_eq_some_iff.mp htask
      exact coe_eq_coe.mpr ((List.getElem_cons_eraseIdx_perm hi).symm.map Task.ref)
    · exact coe_map_append_singleton s.taskQ task
    · rintro (x | w) hp hq
      · cases x <;> first | rfl | exact absurd rfl hp | exact absurd rfl hq
      · rfl
  | timerExpires hrunning => exact moves_of_dispatcher rfl rfl
  | dispatcherStart hpc =>
    have hhand : ({ s.dispatcher with pc := .loopTop }.cancelTimer none).pc.hand = none :=
      cancelTimer_hand rfl
    apply moves_of_dispatcher
    · exact cancelTimer_tasks _ _
    · rw [hhand, hpc]
      rfl
  | dispatcherArm hpc =>
    apply moves_of_dispatcher
    · exact arm_tasks _
    · rw [arm_pc, hpc]
      rfl
  | dispatcherDone hpc hdone =>
    apply moves_of_dispatcher
    · exact done_tasks _
    · rw [done_hand, hpc]
      rfl
  | @dispatcherReceive task taskQ hpc hq =>
    refine .transfer (.inl .taskQ) (.inl .dispatcher) task.ref ⟨by simp, ?_, ?_, ?_⟩ rfl
    · show ((s.taskQ.map Task.ref : List TaskRef) : Multiset TaskRef) = _
      rw [hq]
      rfl
    · show {task.ref} = task.ref ::ₘ inHand s.dispatcher.pc.hand
      rw [hpc]
      rfl
    · rintro (x | w) hp hq
      · cases x <;> first | rfl | exact absurd rfl hp | exact absurd rfl hq
      · rfl
  | dispatcherProcess hpc => exact moves_process hpc _
  | dispatcherTimer hpc hpending => exact moves_popTask hpc
  | dispatcherCount hpc =>
    apply moves_of_dispatcher
    · rfl
    · rw [hpc]
      rfl
  | @dispatcherSend task hpc hroom =>
    refine .transfer (.inl .dispatcher) (.inl .todoQ) task.ref ⟨by simp, ?_, ?_, ?_⟩ rfl
    · show inHand s.dispatcher.pc.hand = _
      rw [hpc]
      rfl
    · exact coe_map_append_singleton s.todoQ task
    · rintro (x | w) hp hq
      · cases x <;> first | rfl | exact absurd rfl hp | exact absurd rfl hq
      · rfl
  | @workerReceive w startTs task todoQ hw hq =>
    refine .transfer (.inl .todoQ) (.inr w) task.ref ⟨by simp, ?_, ?_, ?_⟩ rfl
    · show ((s.todoQ.map Task.ref : List TaskRef) : Multiset TaskRef) = _
      rw [hq]
      rfl
    · show inHand (update s.workers w _ w).hand = task.ref ::ₘ inHand (s.workers w).hand
      rw [update_self, hw]
      rfl
    · rintro (x | w') hp hq
      · cases x <;> first | rfl | exact absurd rfl hp
      · exact worker_frame _ hq
  | workerReturn hw haction | workerDone hw hdone =>
    apply moves_worker
    rw [hw]
    rfl
  | workerCount hw => exact moves_record hw
  | workerSend hw hroom =>
    refine (moves_from_worker ?_ .idle rfl rfl s.stats).1
    rw [hw]
    rfl
  | shutdown => exact .same rfl rfl

def Steps (spec : TaskRef → TaskSpec) (s : State W) (e : Event W) (s' : State W) : Prop :=
  step spec s e = some s'

/-- All the tasks that were added are somewhere, and none is there twice. -/
structure Conserved (s : State W) : Prop where
  inventory_eq : inventory (contents s) = s.added
  nodup : s.added.Nodup

theorem started_conserved : Conserved (started W) := by
  refine ⟨?_, List.nodup_nil⟩
  apply eq_zero_of_forall_notMem
  intro r hr
  rcases mem_inventory.mp hr with ⟨x | w, hx⟩
  · cases x <;> exact absurd hx (notMem_zero r)
  · exact absurd hx (notMem_zero r)

theorem Conserved.step (hs : Conserved s) (h : Steps spec s e s') : Conserved s' := by
  cases step_moves h with
  | same hsame hadded =>
    exact ⟨by rw [hsame, hadded, hs.inventory_eq], hadded ▸ hs.nodup⟩
  | transfer p q r hmove hadded =>
    exact ⟨by rw [hmove.inventory_eq, hadded, hs.inventory_eq], hadded ▸ hs.nodup⟩
  | arrival r hr hmove hadded =>
    refine ⟨by rw [hmove.inventory_eq, hadded, hs.inventory_eq]; rfl, ?_⟩
    rw [hadded]
    exact List.nodup_cons.mpr ⟨hr, hs.nodup⟩

theorem Conserved.of_run {es : List (Event W)} (h : Run (Steps spec) (started W) es s) :
    Conserved s :=
  h.invariant started_conserved fun _ _ _ hs hstep => hs.step hstep

theorem Conserved.inventory_nodup (hs : Conserved s) : (inventory (contents s)).Nodup := by
  rw [hs.inventory_eq]
  exact coe_nodup.mpr hs.nodup

theorem Conserved.length_added (hs : Conserved s) :
    s.adders.length + s.taskQ.length + s.dispatcher.tasks.length +
      (inHand s.dispatcher.pc.hand).card + s.todoQ.length + s.retired.length +
      ∑ w, (inHand (s.workers w).hand).card = s.added.length := by
  have hcard : (inventory (contents s)).card = s.added.length := by
    rw [hs.inventory_eq]
    rfl
  have hplaces : ∑ x : Place, (contents s (.inl x)).card =
      s.adders.length + s.taskQ.length + s.dispatcher.tasks.length +
        (inHand s.dispatcher.pc.hand).card + s.todoQ.length + s.retired.length := by
    show ∑ x ∈ {Place.adders, .taskQ, .heap, .dispatcher, .todoQ, .retired},
      (contents s (.inl x)).card = _
    simp [contents]
    omega
  rw [card_inventory, Fintype.sum_sum_type, hplaces] at hcard
  exact hcard

/-- The circular wait: the dispatcher sends on a full `todoQ` and every worker on a full `taskQ`. -/
structure Stuck (s : State W) : Prop where
  sending : ∃ task, s.dispatcher.pc = .sending task
  todoQ_full : s.todoQ.length = schedulerTodoQLen
  taskQ_full : s.taskQ.length = schedulerTaskQLen
  requeueing : ∀ w, ∃ task, s.workers w = .requeueing task

theorem card_inHand_requeueing (hw : ∀ w, ∃ task, s.workers w = .requeueing task) :
    ∑ w, (inHand (s.workers w).hand).card = W := by
  have hone : ∀ w, (inHand (s.workers w).hand).card = 1 := by
    intro w
    obtain ⟨task, htask⟩ := hw w
    rw [htask]
    rfl
  simp [hone]

/-- With no more tasks than the channels and the workers hold there is no circular wait, and with
no more than one channel holds every send of the dispatcher and of a worker finds room. -/
theorem sends_not_stuck (spec : TaskRef → TaskSpec) (tasks : Finset TaskRef)
    (es : List (Event W)) (s : State W) (h : Run (Steps spec) (started W) es s)
    (hadded : ∀ r ∈ s.added, r ∈ tasks) :
    (tasks.card ≤ schedulerTaskQLen + schedulerTodoQLen + W → ¬ Stuck s) ∧
    (tasks.card ≤ 64 →
      (∀ task, s.dispatcher.pc = .sending task → s.todoQ.length < schedulerTodoQLen) ∧
      ∀ w task, s.workers w = .requeueing task → s.taskQ.length < schedulerTaskQLen) := by
  have hs := Conserved.of_run h
  have hlen := hs.length_added
  have hcard : s.added.length ≤ tasks.card := by
    rw [← List.toFinset_card_of_nodup hs.nodup]
    exact Finset.card_le_card fun r hr => hadded r (List.mem_toFinset.mp hr)
  refine ⟨fun hN hstuck => ?_, fun hN => ⟨fun task hpc => ?_, fun w task hw => ?_⟩⟩
  · obtain ⟨task, hpc⟩ := hstuck.sending
    have hhand : (inHand s.dispatcher.pc.hand).card = 1 := by
      rw [hpc]
      rfl
    have hworkers := card_inHand_requeueing hstuck.requeueing
    have htodo := hstuck.todoQ_full
    have htask := hstuck.taskQ_full
    omega
  · have hhand : (inHand s.dispatcher.pc.hand).card = 1 := by
      rw [hpc]
      rfl
    unfold schedulerTodoQLen
    omega
  · have hhand : (inHand (s.workers w).hand).card = 1 := by
      rw [hw]
      rfl
    have hle : (inHand (s.workers w).hand).card ≤ ∑ w, (inHand (s.workers w).hand).card :=
      Finset.single_le_sum (f := fun w => (inHand (s.workers w).hand).card)
        (fun _ _ => Nat.zero_le _) (Finset.mem_univ w)
    unfold schedulerTaskQLen
    omega

def plainSpec (_ : TaskRef) : TaskSpec := ⟨"task", 60000000000, false⟩

def firstExecution : List (Event 1) :=
  [.addNewTask 0, .adderSend 0, .dispatcherStart, .dispatcherArm, .dispatcherReceive,
    .dispatcherProcess 1, .dispatcherCount, .dispatcherSend, .workerReceive 0 1,
    .workerReturn 0 0 true 2, .workerCount 0]

theorem sends_not_stuck_first_execution :
    ∃ s : State 1, Run (Steps plainSpec) (started 1) firstExecution s ∧
      s.workers 0 = .requeueing ⟨0, 60000000000, 1, true, 2⟩ ∧
      s.taskQ.length < schedulerTaskQLen := by
  refine ⟨_, Run.of_foldlM rfl, rfl, ?_⟩
  exact ((sends_not_stuck plainSpec {0} firstExecution _ (Run.of_foldlM rfl)
    (by decide)).2 (by decide)).2 0 _ rfl

end Lsvmi.Scheduler
