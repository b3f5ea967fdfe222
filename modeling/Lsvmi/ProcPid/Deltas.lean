import Mathlib.Data.UInt
import Lsvmi.ProcPid.Lives

/-!
# The deltas of a PID or TID

Page faults and context switches are published as differences to the previous generation, and a
zero that follows a zero is left out.  The previous value is the one the entry keeps, so over the
life of an entry the differences add up.
-/

namespace Lsvmi.ProcPid

open Reasoning

def deltaOf (s : PidSample) : UInt64 :=
  match s.value with
  | .uint n => n
  | _ => 0

def deltaSum (m : PidMetric) (gens : List Generation) : UInt64 :=
  ((ofMetric m (gens.flatMap Generation.samples)).map deltaOf).sum

theorem deltaSum_append (m : PidMetric) (gens : List Generation) (g : Generation) :
    deltaSum m (gens ++ [g]) = deltaSum m gens + ((ofMetric m g.samples).map deltaOf).sum := by
  simp [deltaSum]

theorem sum_deltaSamples (a : GenArgs) (m : PidMetric) (delta : UInt64) (zero : Bool) :
    ((a.deltaSamples m delta zero).map deltaOf).sum = delta := by
  unfold GenArgs.deltaSamples
  split
  · exact add_zero delta
  · have hzero : delta = 0 := by simp_all
    exact hzero.symm

/-- The metrics of page faults and, when status files are used, of context switches. -/
def deltaMetric (cfg : Config) : PidMetric → Bool
  | .statFlt f => f = .minflt ∨ f = .majflt
  | .statusCtx _ => cfg.usePidStatus
  | _ => false

def counter (files : Files) : PidMetric → UInt64
  | .statFlt f => files.stat.nf f
  | .statusCtx f => files.status.nf f
  | _ => 0

section

variable {cfg : Config} {p : PidTid} {info : ProcPidTidMetricsInfo} {gens : List Generation}
  {m : PidMetric}

theorem ofMetric_firstSamples (hm : deltaMetric cfg m) (files : Files)
    (info : ProcPidTidMetricsInfo) (full : Bool) (now : Int) :
    ofMetric m (entrySamples cfg files info false full now) = [] := by
  cases m with
  | statFlt f => exact GenArgs.ofMetric_statFlt _ _ _ _ (of_decide_eq_true hm)
  | statusCtx f => exact GenArgs.ofMetric_statusCtx _ _ _ _ f hm
  | _ => cases hm

theorem sum_laterSamples (hm : deltaMetric cfg m) (files prev : Files) (full : Bool)
    (now : Int) (hstat : info.pidStat = prev.stat)
    (hstatus : cfg.usePidStatus → info.pidStatus = prev.status) :
    ((ofMetric m (entrySamples cfg files info true full now)).map deltaOf).sum =
      counter files m - counter prev m := by
  unfold entrySamples
  cases m with
  | statFlt f =>
    rw [GenArgs.ofMetric_statFlt _ _ _ _ (of_decide_eq_true hm)]
    refine (sum_deltaSamples _ _ _ _).trans ?_
    show files.stat.nf f - info.pidStat.nf f = _
    rw [hstat]
    rfl
  | statusCtx f =>
    rw [GenArgs.ofMetric_statusCtx _ _ _ _ f hm]
    refine (sum_deltaSamples _ _ _ _).trans ?_
    show files.status.nf f - info.pidStatus.nf f = _
    rw [hstatus hm]
    rfl
  | _ => cases hm

/-- Over a life the deltas add up to what the counter grew by. -/
theorem Life.deltaSum_eq (h : Life cfg p info gens) (hm : deltaMetric cfg m) (hne : gens ≠ []) :
    deltaSum m gens = counter (gens.getLast hne).files m - counter (gens.head hne).files m := by
  induction h with
  | created files info cycleNum now scanNum hinfo =>
    have hsum : deltaSum m [⟨files, true, entrySamples cfg files info false false now⟩] = 0 := by
      rw [deltaSum, List.flatMap_singleton, ofMetric_firstSamples hm]
      rfl
    rw [hsum]
    exact (sub_self _).symm
  | skipped _ _ _ ih => exact ih hne
  | @generated info gens h files active now scanNum hstart ih =>
    obtain ⟨hstat, hstatus⟩ := h.last h.ne_nil
    rw [deltaSum_append, ih h.ne_nil, sum_laterSamples hm files _ _ _ hstat hstatus,
      List.getLast_append_of_ne_nil _ (List.cons_ne_nil _ _), List.head_append_of_ne_nil h.ne_nil]
    exact sub_add_sub_cancel' ..

/-- The deltas published in the current life of a pid add up to what its counter has grown by since
the first of its scans. -/
theorem deltas_sum_to_growth {calls : List Call} {r : RunState}
    (hrun : Run (Executes cfg) newRun calls r) (hne : r.gens p ≠ [])
    (hm : deltaMetric cfg m = true) :
    deltaSum m (r.gens p) =
      counter ((r.gens p).getLast hne).files m - counter ((r.gens p).head hne).files m := by
  obtain ⟨info, hlife⟩ := life_of_run hrun hne
  exact hlife.deltaSum_eq hm hne

end

def countersCall (n : UInt64) : Call :=
  { plainCall [⟨1, 0⟩] with stat := fun _ => ⟨true, ⟨fun _ => [], fun _ => n⟩⟩ }

theorem deltas_sum_to_growth_two_scans :
    ∃ r, Run (Executes plainConfig) newRun [countersCall 5, countersCall 12] r ∧
      deltaSum (.statFlt .minflt) (r.gens ⟨1, 0⟩) = 7 := by
  have hend : ([countersCall 5, countersCall 12].foldlM (nextRun plainConfig) newRun).any (fun r =>
      if hne : r.gens ⟨1, 0⟩ ≠ [] then
        counter ((r.gens ⟨1, 0⟩).getLast hne).files (.statFlt .minflt) = 12 ∧
          counter ((r.gens ⟨1, 0⟩).head hne).files (.statFlt .minflt) = 5
      else false) = true := by decide +kernel
  obtain ⟨r, hrun, htest⟩ := exists_run hend
  split at htest
  · rename_i hne
    obtain ⟨hlast, hfirst⟩ := of_decide_eq_true htest
    refine ⟨r, hrun, ?_⟩
    rw [deltas_sum_to_growth hrun hne rfl, hlast, hfirst]
    rfl
  · cases htest

end Lsvmi.ProcPid
