import Mathlib.Order.Bounds.Basic
import Lsvmi.Scheduler.Model

/-!
# The deadline of a re-queued task

The multiples of the interval are the deadlines a task is meant to have.  A task that comes back from
a worker gets the first of them that is in the future and past its previous deadline, however the
clock has moved, unless that is too close to its last execution.
-/

namespace Lsvmi.Scheduler

def laterMultiples (interval timeNow prevDeadline : Int) : Set Int :=
  {m | interval ∣ m ∧ timeNow < m ∧ prevDeadline < m}

theorem add_interval_le {interval a b : Int} (ha : interval ∣ a) (hb : interval ∣ b) (hlt : a < b) :
    a + interval ≤ b := by
  have hle := Int.le_of_dvd (show 0 < b - a by omega) (Int.dvd_sub hb ha)
  omega

section

variable {interval : Int} (hpos : 0 < interval)
include hpos

theorem nextMultiple_eq (timeNow : Int) :
    nextMultiple timeNow interval = interval * (timeNow / interval + 1) := by
  have hdiv := Int.mul_ediv_add_emod timeNow interval
  unfold nextMultiple truncate
  rw [if_neg (by omega), Int.mul_add, Int.mul_one]
  omega

theorem lt_nextMultiple (timeNow : Int) : timeNow < nextMultiple timeNow interval := by
  have hmod := Int.emod_lt_of_pos timeNow hpos
  unfold nextMultiple truncate
  rw [if_neg (by omega)]
  omega

theorem nextMultiple_le {timeNow m : Int} (hdvd : interval ∣ m) (hlt : timeNow < m) :
    nextMultiple timeNow interval ≤ m := by
  obtain ⟨k, rfl⟩ := hdvd
  -- The quotient of the clock reading is below that of any later multiple.
  have hk : timeNow / interval < k := Int.ediv_lt_of_lt_mul hpos (by rwa [Int.mul_comm])
  rw [nextMultiple_eq hpos]
  exact Int.mul_le_mul_of_nonneg_left hk (Int.le_of_lt hpos)

/-- The loop stops at the first multiple past the previous deadline: the induction is on the turns,
and no multiple after the clock reading and past the previous deadline is ever jumped over. -/
theorem deadlineLoop_isLeast {timeNow prevDeadline : Int} (fuel : Nat) (nextDeadline : Int)
    (deadlineHack : Bool) {result : Int × Bool}
    (hdvd : interval ∣ nextDeadline) (hlt : timeNow < nextDeadline)
    (hmin : ∀ m ∈ laterMultiples interval timeNow prevDeadline, nextDeadline ≤ m)
    (h : deadlineLoop interval prevDeadline fuel nextDeadline deadlineHack = some result) :
    IsLeast (laterMultiples interval timeNow prevDeadline) result.1 := by
  induction fuel generalizing nextDeadline deadlineHack with
  | zero => cases h
  | succ fuel ih =>
    unfold deadlineLoop at h
    by_cases hpast : prevDeadline < nextDeadline
    · rw [if_pos hpast] at h
      cases h
      exact ⟨⟨hdvd, hlt, hpast⟩, fun m hm => hmin m hm⟩
    rw [if_neg hpast] at h
    apply ih (nextDeadline + interval) true
    · exact Int.dvd_add hdvd (Int.dvd_refl interval)
    · omega
    · intro m hm
      have hle := hmin m hm
      obtain ⟨hdvdm, -, hpastm⟩ := hm
      exact add_interval_le hdvd hdvdm (by omega)
    · exact h

end

/-- The deadline of a task that comes back: the loop ends, at the first later multiple, and the
pause since the last execution is kept. -/
theorem requeueDeadline_eq {task : Task} (hpos : 0 < task.interval) (timeNow : Int) :
    ∃ next, IsLeast (laterMultiples task.interval timeNow task.deadline) next ∧
      ∃ deadlineHack taskDelayed, requeueDeadline task timeNow =
        some (max (task.lastExecuted + schedulerTaskMinExecutionPause) next, deadlineHack,
          taskDelayed) := by
  have hloop := deadlineLoop_isSome hpos task.deadline
    ((task.deadline - nextMultiple timeNow task.interval).toNat + 2)
    (nextMultiple timeNow task.interval) false (by omega) (by omega)
  obtain ⟨⟨next, deadlineHack⟩, hresult⟩ := Option.isSome_iff_exists.mp hloop
  have hleast : IsLeast (laterMultiples task.interval timeNow task.deadline) next :=
    deadlineLoop_isLeast hpos _ _ _ ⟨_, nextMultiple_eq hpos timeNow⟩ (lt_nextMultiple hpos timeNow)
      (fun m hm => nextMultiple_le hpos hm.1 hm.2.1) hresult
  refine ⟨next, hleast, deadlineHack, ?_⟩
  unfold requeueDeadline
  simp only [hresult]
  by_cases hnear : next < task.lastExecuted + schedulerTaskMinExecutionPause
  · rw [if_pos hnear, Int.max_eq_left (Int.le_of_lt hnear)]
    exact ⟨true, rfl⟩
  · rw [if_neg hnear, Int.max_eq_right (Int.not_lt.mp hnear)]
    exact ⟨false, rfl⟩

/-- The dispatcher re-queues a task: whatever the clock says, the task goes back on the heap with the
first multiple of its interval that is later than the clock reading and its previous deadline, or
with the end of the pause after its last execution if that is later still. -/
theorem requeued_deadline {W : Nat} (spec : TaskRef → TaskSpec) (s : State W) (interval : Int)
    (task : Task) (hinterval : task.interval = compliantTaskInterval interval)
    (hworker : task.addedByWorker = true) (timeNow : Int) :
    ∃ next deadline, IsLeast (laterMultiples task.interval timeNow task.deadline) next ∧
      deadline = max (task.lastExecuted + schedulerTaskMinExecutionPause) next ∧
      task.deadline < deadline ∧
      ∃ deadlineHack taskDelayed,
        requeueDeadline task timeNow = some (deadline, deadlineHack, taskDelayed) ∧
        ∀ stats, countRequeue s.stats (spec task.ref).id deadlineHack taskDelayed = some stats →
          s.process spec task timeNow =
            { s with stats, dispatcher := s.dispatcher.push task deadline } := by
  have hpos : 0 < task.interval := hinterval ▸ compliantTaskInterval_pos interval
  obtain ⟨next, hleast, deadlineHack, taskDelayed, hresult⟩ := requeueDeadline_eq hpos timeNow
  refine ⟨next, _, hleast, rfl, ?_, deadlineHack, taskDelayed, hresult, ?_⟩
  · exact Int.lt_of_lt_of_le hleast.1.2.2 (Int.le_max_right _ _)
  · intro stats hstats
    unfold State.process
    rw [if_pos hworker]
    simp only [hresult, hstats]

/-- A task that comes back when the clock has gone a minute backwards: the next multiple after the
clock reading is its previous deadline. -/
theorem requeued_deadline_clock_back :
    ∃ next, IsLeast (laterMultiples 60000000000 119000000000 120000000000) next ∧
      (requeueDeadline ⟨0, 60000000000, 120000000000, true, 121000000000⟩ 119000000000).map Prod.fst =
        some (max 121040000000 next) := by
  obtain ⟨next, deadline, hleast, rfl, -, hack, delayed, hresult, -⟩ :=
    requeued_deadline (fun _ => ⟨"task", 60000000000, false⟩) (started 1) 60000000000
      ⟨0, 60000000000, 120000000000, true, 121000000000⟩ (by decide) rfl 119000000000
  refine ⟨next, hleast, ?_⟩
  rw [hresult]
  rfl

end Lsvmi.Scheduler
