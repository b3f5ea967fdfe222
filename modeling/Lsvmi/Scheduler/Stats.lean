import Lsvmi.Scheduler.Conservation

/-!
# What the stats say about a task

A task is outstanding from the update of its scheduled count until the one of its executed count.
The difference of the two counts of an id is the number of outstanding tasks that have it.
-/

namespace Lsvmi.Scheduler

open Reasoning Function Multiset

variable {stats' stats : String → Option TaskStats} {W : Nat} {spec : TaskRef → TaskSpec}
  {s s' : State W} {e : Event W} {runtime : Int} {w : Fin W} {task : Task} {es : List (Event W)}

def DispatcherPc.outstanding : DispatcherPc → Option Task
  | .sending task => some task
  | _ => none

def Worker.outstanding : Worker → Option Task
  | .executing task _ | .executed task _ _ | .panicked task => some task
  | _ => none

def outstanding (s : State W) : Where W → Multiset TaskRef
  | .inl .dispatcher => inHand s.dispatcher.pc.outstanding
  | .inl .todoQ => s.todoQ.map Task.ref
  | .inl _ => 0
  | .inr w => inHand (s.workers w).outstanding

/-- `SCHEDULED_COUNT` minus `EXECUTED_COUNT`; both are 0 before the first update. -/
def scheduledMinusExecuted (stats : String → Option TaskStats) (id : String) : UInt64 :=
  match stats id with
  | none => 0
  | some s => s.scheduledCount - s.executedCount

/-! ## The critical sections -/

theorem countRequeue_diff {id : String} {deadlineHack taskDelayed : Bool}
    (h : countRequeue stats id deadlineHack taskDelayed = some stats') (id' : String) :
    scheduledMinusExecuted stats' id' = scheduledMinusExecuted stats id' := by
  unfold countRequeue at h
  split at h
  · cases h
    rfl
  split at h
  · cases h
  rename_i st hst
  cases h
  unfold scheduledMinusExecuted
  by_cases hid : id' = id
  · subst hid
    rw [update_self, hst]
  · rw [update_of_ne hid]

theorem countScheduled_diff (stats : String → Option TaskStats) (id id' : String) :
    scheduledMinusExecuted (countScheduled stats id) id' =
      scheduledMinusExecuted stats id' + if id' = id then 1 else 0 := by
  unfold countScheduled scheduledMinusExecuted
  simp only
  by_cases hid : id' = id
  · subst hid
    rw [update_self, if_pos rfl]
    cases stats id' with
    | none => rfl
    | some st =>
      simp only [Option.getD_some]
      grind
  · rw [update_of_ne hid, if_neg hid]
    simp

theorem countExecuted_diff {id : String} {overrun : Bool}
    (h : countExecuted stats id overrun runtime = some stats') (id' : String) :
    scheduledMinusExecuted stats id' =
      scheduledMinusExecuted stats' id' + if id' = id then 1 else 0 := by
  unfold countExecuted at h
  split at h
  · cases h
  rename_i st hst
  cases h
  unfold scheduledMinusExecuted
  by_cases hid : id' = id
  · subst hid
    rw [update_self, if_pos rfl, hst]
    simp only
    grind
  · rw [update_of_ne hid, if_neg hid]
    simp

/-! ## What a step counts -/

theorem outstanding_of_hand_none {pc : DispatcherPc} (h : pc.hand = none) :
    pc.outstanding = none := by
  cases pc <;> first | rfl | cases h

theorem scheduleNow_outstanding (d : Dispatcher) (task : Task) (timeNow : Int) :
    (d.scheduleNow task timeNow).pc.outstanding = none := by
  unfold Dispatcher.scheduleNow Dispatcher.cancelTimer
  simp only
  split
  · split <;> rfl
  · rfl

theorem process_outstanding (s : State W) (task : Task) (timeNow : Int) :
    (s.process spec task timeNow).dispatcher.pc.outstanding = none := by
  unfold State.process
  simp only
  split
  · split
    · rfl
    · split
      · rfl
      · exact outstanding_of_hand_none (push_hand _ _ _)
  · split
    · exact outstanding_of_hand_none (push_hand _ _ _)
    · exact scheduleNow_outstanding _ _ _

theorem process_frame (spec : TaskRef → TaskSpec) (s : State W) (task : Task) (timeNow : Int) :
    (s.process spec task timeNow).todoQ = s.todoQ ∧
      (s.process spec task timeNow).workers = s.workers ∧
      ∀ id, scheduledMinusExecuted (s.process spec task timeNow).stats id =
        scheduledMinusExecuted s.stats id := by
  unfold State.process
  simp only
  split
  · split
    · exact ⟨rfl, rfl, fun _ => rfl⟩
    · split
      · exact ⟨rfl, rfl, fun _ => rfl⟩
      · rename_i hcount
        exact ⟨rfl, rfl, countRequeue_diff hcount⟩
  · split <;> exact ⟨rfl, rfl, fun _ => rfl⟩

inductive Counts (spec : TaskRef → TaskSpec) (s s' : State W) : Prop
  | same (h : inventory (outstanding s') = inventory (outstanding s))
    (hdiff : ∀ id, scheduledMinusExecuted s'.stats id = scheduledMinusExecuted s.stats id)
  | scheduled (r : TaskRef) (h : inventory (outstanding s') = r ::ₘ inventory (outstanding s))
    (hdiff : ∀ id, scheduledMinusExecuted s'.stats id =
      scheduledMinusExecuted s.stats id + if id = (spec r).id then 1 else 0)
  | executed (r : TaskRef) (h : inventory (outstanding s) = r ::ₘ inventory (outstanding s'))
    (hdiff : ∀ id, scheduledMinusExecuted s.stats id =
      scheduledMinusExecuted s'.stats id + if id = (spec r).id then 1 else 0)

theorem counts_of_frame (hpc : inHand s'.dispatcher.pc.outstanding =
      inHand s.dispatcher.pc.outstanding) (htodo : s'.todoQ = s.todoQ)
    (hworkers : ∀ w, inHand (s'.workers w).outstanding = inHand (s.workers w).outstanding)
    (hdiff : ∀ id, scheduledMinusExecuted s'.stats id = scheduledMinusExecuted s.stats id) :
    Counts spec s s' := by
  refine .same (congrArg inventory ?_) hdiff
  funext x
  rcases x with x | w
  · cases x with
    | dispatcher => exact hpc
    | todoQ =>
      show ((s'.todoQ.map Task.ref : List TaskRef) : Multiset TaskRef) = _
      rw [htodo]
      rfl
    | adders | taskQ | heap | retired => rfl
  · exact hworkers w

theorem update_outstanding {worker : Worker}
    (h : inHand worker.outstanding = inHand (s.workers w).outstanding) (w' : Fin W) :
    inHand (update s.workers w worker w').outstanding =
      inHand (s.workers w').outstanding := by
  by_cases hw : w' = w
  · subst hw
    rw [update_self]
    exact h
  · rw [update_of_ne hw]

theorem counts_record {reQueue : Bool} (hw : s.workers w = .executed task reQueue runtime) :
    Counts spec s (s.record spec w task reQueue runtime) := by
  have hleave : ∀ (worker : Worker) (stats : String → Option TaskStats) (retired : List TaskRef),
      worker.outstanding = none →
      Arrival (outstanding
        { s with stats, retired, workers := update s.workers w worker })
        (outstanding s) (.inr w) task.ref := by
    intro worker stats retired hworker
    constructor
    · show inHand (s.workers w).outstanding =
        task.ref ::ₘ inHand (update s.workers w worker w).outstanding
      rw [update_self, hworker, hw]
      rfl
    rintro (x | w') hx
    · cases x <;> rfl
    · show _ = inHand (update s.workers w worker w').outstanding
      rw [update_of_ne fun h => hx (congrArg Sum.inr h)]
      rfl
  unfold State.record
  split
  · refine counts_of_frame rfl rfl (update_outstanding ?_) fun _ => rfl
    rw [hw]
    rfl
  · rename_i stats hcount
    split
    · exact .executed task.ref (hleave _ _ s.retired rfl).inventory_eq (countExecuted_diff hcount)
    · exact .executed task.ref (hleave .idle _ _ rfl).inventory_eq (countExecuted_diff hcount)

theorem step_counts (h : step spec s e = some s') : Counts spec s s' := by
  cases enabled_of_step h with
  | addNewTask | adderSend | timerExpires | shutdown =>
    exact counts_of_frame rfl rfl (fun _ => rfl) fun _ => rfl
  | dispatcherStart hpc =>
    refine counts_of_frame ?_ rfl (fun _ => rfl) fun _ => rfl
    rw [outstanding_of_hand_none (cancelTimer_hand rfl), hpc]
    rfl
  | dispatcherArm hpc =>
    refine counts_of_frame ?_ rfl (fun _ => rfl) fun _ => rfl
    rw [arm_pc, hpc]
    rfl
  | dispatcherDone hpc hdone =>
    refine counts_of_frame ?_ rfl (fun _ => rfl) fun _ => rfl
    rw [outstanding_of_hand_none (done_hand _), hpc]
    rfl
  | dispatcherReceive hpc hq =>
    refine counts_of_frame ?_ rfl (fun _ => rfl) fun _ => rfl
    rw [hpc]
    rfl
  | @dispatcherProcess task timeNow hpc =>
    have hframe := process_frame spec s task timeNow
    refine counts_of_frame ?_ hframe.1 (fun w => by rw [hframe.2.1]) hframe.2.2
    rw [process_outstanding, hpc]
    rfl
  | dispatcherTimer hpc hpending =>
    refine counts_of_frame ?_ rfl (fun _ => rfl) fun _ => rfl
    rw [hpc]
    unfold Dispatcher.popTask
    simp only
    split <;> rfl
  | @dispatcherCount task hpc =>
    have harr : Arrival (outstanding s)
        (outstanding { s with
          stats := countScheduled s.stats (spec task.ref).id
          dispatcher := { s.dispatcher with pc := .sending task } })
        (.inl .dispatcher) task.ref := by
      constructor
      · show {task.ref} = task.ref ::ₘ inHand s.dispatcher.pc.outstanding
        rw [hpc]
        rfl
      · rintro (x | w) hx
        · cases x <;> first | rfl | exact absurd rfl hx
        · rfl
    exact .scheduled task.ref harr.inventory_eq (countScheduled_diff _ _)
  | @dispatcherSend task hpc hroom =>
    refine .same (Transfer.inventory_eq (p := .inl .dispatcher) (q := .inl .todoQ)
      (a := task.ref) ⟨by simp, ?_, coe_map_append_singleton s.todoQ task, ?_⟩) fun _ => rfl
    · show inHand s.dispatcher.pc.outstanding = _
      rw [hpc]
      rfl
    · rintro (x | w) hp hq
      · cases x <;> first | rfl | exact absurd rfl hp | exact absurd rfl hq
      · rfl
  | @workerReceive w startTs task todoQ hw hq =>
    refine .same (Transfer.inventory_eq (p := .inl .todoQ) (q := .inr w)
      (a := task.ref) ⟨by simp, ?_, ?_, ?_⟩) fun _ => rfl
    · show ((s.todoQ.map Task.ref : List TaskRef) : Multiset TaskRef) = _
      rw [hq]
      rfl
    · show inHand (update s.workers w _ w).outstanding =
        task.ref ::ₘ inHand (s.workers w).outstanding
      rw [update_self, hw]
      rfl
    rintro (x | w') hp hq
    · cases x <;> first | rfl | exact absurd rfl hp
    · show inHand (update s.workers w _ w').outstanding = _
      rw [update_of_ne fun h => hq (congrArg Sum.inr h)]
      rfl
  | workerReturn hw haction | workerSend hw hroom | workerDone hw hdone =>
    refine counts_of_frame rfl rfl (update_outstanding ?_) fun _ => rfl
    rw [hw]
    rfl
  | workerCount hw => exact counts_record hw

/-! ## Runs -/

/-- The difference of the two counts of an id is the number of outstanding tasks with that id. -/
def Balanced (spec : TaskRef → TaskSpec) (s : State W) : Prop :=
  ∀ id, scheduledMinusExecuted s.stats id =
    UInt64.ofNat ((inventory (outstanding s)).countP fun r => (spec r).id = id)

theorem started_balanced : Balanced spec (started W) := by
  have hzero : inventory (outstanding (started W)) = 0 := by
    apply eq_zero_of_forall_notMem
    intro r hr
    rcases mem_inventory.mp hr with ⟨x | w, hx⟩
    · cases x <;> exact absurd hx (notMem_zero r)
    · exact absurd hx (notMem_zero r)
  intro id
  rw [hzero]
  rfl

theorem ofNat_countP_cons (m : Multiset TaskRef) (r : TaskRef) (id : String) :
    UInt64.ofNat ((r ::ₘ m).countP fun r => (spec r).id = id) =
      UInt64.ofNat (m.countP fun r => (spec r).id = id) + if id = (spec r).id then 1 else 0 := by
  rw [countP_cons, UInt64.ofNat_add]
  by_cases hid : (spec r).id = id
  · rw [if_pos hid, if_pos hid.symm]
    rfl
  · rw [if_neg hid, if_neg (Ne.symm hid)]
    rfl

theorem Balanced.step (hs : Balanced spec s) (h : Steps spec s e s') : Balanced spec s' := by
  intro id
  cases step_counts h with
  | same hinv hdiff => rw [hdiff, hinv, hs id]
  | scheduled r hinv hdiff => rw [hdiff, hinv, hs id, ofNat_countP_cons]
  | executed r hinv hdiff =>
    have hbefore := hs id
    rw [hdiff, hinv, ofNat_countP_cons] at hbefore
    exact (UInt64.add_left_inj _).mp hbefore

theorem Balanced.of_run (h : Run (Steps spec) (started W) es s) : Balanced spec s :=
  h.invariant started_balanced fun _ _ _ hs hstep => hs.step hstep

theorem outstanding_le_contents (s : State W) (p : Where W) : outstanding s p ≤ contents s p := by
  rcases p with x | w
  · cases x with
    | dispatcher =>
      show inHand s.dispatcher.pc.outstanding ≤ inHand s.dispatcher.pc.hand
      cases s.dispatcher.pc <;> first | exact le_refl _ | exact zero_le _
    | todoQ => exact le_refl _
    | adders | taskQ | heap | retired => exact zero_le _
  · show inHand (s.workers w).outstanding ≤ inHand (s.workers w).hand
    cases s.workers w <;> first | exact le_refl _ | exact zero_le _

theorem inventory_outstanding_le (s : State W) :
    inventory (outstanding s) ≤ inventory (contents s) :=
  Finset.sum_le_sum fun p _ => outstanding_le_contents s p

theorem countP_id_eq {m : Multiset TaskRef} (hnodup : m.Nodup) {r : TaskRef}
    (hid : ∀ r' ∈ m, (spec r').id = (spec r).id → r' = r) :
    m.countP (fun r' => (spec r').id = (spec r).id) = if r ∈ m then 1 else 0 := by
  have hcount : m.countP (fun r' => (spec r').id = (spec r).id) = m.count r := by
    apply countP_congr rfl
    intro r' hr'
    exact propext ⟨fun h => (hid r' hr' h).symm, fun h => by rw [h]⟩
  rw [hcount]
  split
  · exact count_eq_one_of_mem hnodup ‹_›
  · exact count_eq_zero.mpr ‹_›

/-- Where a retired task, or one about to be, comes from. -/
structure RetiredBy (spec : TaskRef → TaskSpec) (es : List (Event W)) (s : State W) : Prop where
  retired : ∀ r ∈ s.retired, (spec r).hasAction = true ∧
    ∃ w endTs, Event.workerReturn w r false endTs ∈ es
  executed : ∀ w task runtime, s.workers w = .executed task false runtime →
    (spec task.ref).hasAction = true ∧
      ∃ endTs, Event.workerReturn w task.ref false endTs ∈ es

theorem RetiredBy.mono (hs : RetiredBy spec es s) (hretired : s'.retired = s.retired)
    (hworkers : ∀ w task runtime, s'.workers w = .executed task false runtime →
      s.workers w = .executed task false runtime) (e : Event W) :
    RetiredBy spec (es ++ [e]) s' := by
  constructor
  · intro r hr
    rw [hretired] at hr
    obtain ⟨haction, w, endTs, hmem⟩ := hs.retired r hr
    exact ⟨haction, w, endTs, List.mem_append_left _ hmem⟩
  · intro w task runtime hw
    obtain ⟨haction, endTs, hmem⟩ := hs.executed w task runtime (hworkers w task runtime hw)
    exact ⟨haction, endTs, List.mem_append_left _ hmem⟩

theorem executed_of_update {w' : Fin W} {worker : Worker}
    (hworker : ∀ task runtime, worker ≠ .executed task false runtime)
    (h : update s.workers w worker w' = .executed task false runtime) :
    s.workers w' = .executed task false runtime := by
  by_cases hw : w' = w
  · subst hw
    rw [update_self] at h
    exact absurd h (hworker _ _)
  · rwa [update_of_ne hw] at h

theorem RetiredBy.record (hs : RetiredBy spec es s)
    {reQueue : Bool} (hw : s.workers w = .executed task reQueue runtime) :
    RetiredBy spec (es ++ [.workerCount w]) (s.record spec w task reQueue runtime) := by
  unfold State.record
  split
  · refine hs.mono ?_ ?_ _
    · rfl
    · exact fun _ _ _ => executed_of_update (by simp)
  cases reQueue with
  | true =>
    refine hs.mono ?_ ?_ _
    · rfl
    · exact fun _ _ _ => executed_of_update (by simp)
  | false =>
    have hidle : RetiredBy spec (es ++ [.workerCount w])
        { s with workers := update s.workers w .idle } := by
      refine hs.mono ?_ ?_ _
      · rfl
      · exact fun _ _ _ => executed_of_update (by simp)
    refine ⟨fun r hr => ?_, hidle.executed⟩
    rcases List.mem_cons.mp hr with rfl | hr
    · obtain ⟨haction, endTs, hmem⟩ := hs.executed w task runtime hw
      exact ⟨haction, w, endTs, List.mem_append_left _ hmem⟩
    · exact hidle.retired r hr

theorem RetiredBy.step (hs : RetiredBy spec es s) (h : Steps spec s e s') :
    RetiredBy spec (es ++ [e]) s' := by
  cases enabled_of_step h with
  | addNewTask | adderSend | timerExpires | shutdown | dispatcherStart | dispatcherArm |
    dispatcherDone | dispatcherReceive | dispatcherTimer | dispatcherCount | dispatcherSend =>
    refine hs.mono ?_ ?_ _
    · rfl
    · exact fun _ _ _ hw => hw
  | @dispatcherProcess task timeNow hpc =>
    refine hs.mono ?_ ?_ _
    · unfold State.process
      simp only
      repeat' split
      all_goals rfl
    · rw [(process_frame spec s task timeNow).2.1]
      exact fun _ _ _ hw => hw
  | workerReceive | workerSend | workerDone =>
    refine hs.mono ?_ ?_ _
    · rfl
    · exact fun _ _ _ => executed_of_update (by simp)
  | @workerReturn w reQueue startTs endTs task hw haction =>
    constructor
    · intro r hr
      obtain ⟨hact, w', ts, hmem⟩ := hs.retired r hr
      exact ⟨hact, w', ts, List.mem_append_left _ hmem⟩
    intro w' task' runtime' hw'
    by_cases hww : w' = w
    · subst hww
      simp only [update_self, Worker.executed.injEq] at hw'
      obtain ⟨rfl, rfl, rfl⟩ := hw'
      exact ⟨by simpa using haction, endTs, by simp⟩
    · simp only [update_of_ne hww] at hw'
      obtain ⟨hact, ts, hmem⟩ := hs.executed w' task' runtime' hw'
      exact ⟨hact, ts, List.mem_append_left _ hmem⟩
  | workerCount hw => exact hs.record hw

theorem RetiredBy.of_run (h : Run (Steps spec) (started W) es s) : RetiredBy spec es s := by
  induction h with
  | start =>
    constructor
    · intro r hr
      cases hr
    · intro w task runtime hw
      cases hw
  | snoc _ hstep ih => exact ih.step hstep

/-- Every added task is in exactly one place and once there; a task is retired only by its own
action returning false; no two workers execute one task; and as long as the ids are distinct, the
two counts of a task differ by 1 exactly while it is outstanding. -/
theorem tasks_conserved (spec : TaskRef → TaskSpec) (es : List (Event W)) (s : State W)
    (h : Run (Steps spec) (started W) es s) :
    (∀ r ∈ s.added, ∃ p, (contents s p).count r = 1 ∧ ∀ q, q ≠ p → r ∉ contents s q) ∧
    (∀ r ∈ s.retired, (spec r).hasAction = true ∧
      ∃ w endTs, Event.workerReturn w r false endTs ∈ es) ∧
    (∀ w w' task task' startTs startTs', s.workers w = .executing task startTs →
      s.workers w' = .executing task' startTs' → task.ref = task'.ref → w = w') ∧
    ((∀ r ∈ s.added, ∀ r' ∈ s.added, (spec r).id = (spec r').id → r = r') →
      ∀ r ∈ s.added, scheduledMinusExecuted s.stats (spec r).id =
        if r ∈ inventory (outstanding s) then 1 else 0) := by
  have hs := Conserved.of_run h
  have hnodup := hs.inventory_nodup
  refine ⟨fun r hr => ?_, (RetiredBy.of_run h).retired, ?_, fun hids r hr => ?_⟩
  · apply existsUnique_place hnodup
    rw [hs.inventory_eq]
    exact mem_coe.mpr hr
  · intro w w' task task' startTs startTs' hw hw' href
    have hmem : task.ref ∈ contents s (.inr w) := by
      show task.ref ∈ inHand (s.workers w).hand
      rw [hw]
      exact mem_singleton_self _
    have hmem' : task.ref ∈ contents s (.inr w') := by
      show task.ref ∈ inHand (s.workers w').hand
      rw [hw', href]
      exact mem_singleton_self _
    exact Sum.inr.inj (place_unique hnodup hmem hmem')
  · have hle := inventory_outstanding_le s
    rw [Balanced.of_run h, countP_id_eq (nodup_of_le hle hnodup)]
    · split <;> rfl
    intro r' hr' hid
    have hadded : r' ∈ s.added := by
      have := mem_of_le hle hr'
      rwa [hs.inventory_eq] at this
    exact hids r' hadded r hr hid

def twoSpecs (ref : TaskRef) : TaskSpec :=
  if ref = 0 then ⟨"proc_stat_metrics", 60000000000, false⟩
  else ⟨"proc_softirqs_metrics", 60000000000, true⟩

/-- Two workers execute one task each; the second task is done for good, while the first one is
still executed. -/
def twoExecutions : List (Event 2) :=
  [.addNewTask 0, .addNewTask 1, .adderSend 1, .adderSend 0, .dispatcherStart, .dispatcherArm,
    .dispatcherReceive, .dispatcherProcess 1, .dispatcherCount, .dispatcherSend,
    .workerReceive (.last 1) 2, .dispatcherArm, .dispatcherReceive, .dispatcherProcess 3,
    .dispatcherCount, .dispatcherSend, .workerReceive (Fin.last 1).rev 4,
    .workerReturn (Fin.last 1).rev 1 false 5, .workerCount (Fin.last 1).rev]

theorem tasks_conserved_two_executions :
    ∃ s : State 2, Run (Steps twoSpecs) (started 2) twoExecutions s ∧
      s.added = [1, 0] ∧ s.retired = [1] ∧
      scheduledMinusExecuted s.stats "proc_stat_metrics" = 1 ∧
      scheduledMinusExecuted s.stats "proc_softirqs_metrics" = 0 := by
  refine ⟨_, Run.of_foldlM rfl, rfl, rfl, ?_⟩
  have hcounts := (tasks_conserved twoSpecs twoExecutions _ (Run.of_foldlM rfl)).2.2.2 (by decide)
  exact ⟨hcounts 0 (by decide), hcounts 1 (by decide)⟩

end Lsvmi.Scheduler
