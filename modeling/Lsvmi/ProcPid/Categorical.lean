import Lsvmi.ProcPid.Lives
import Lsvmi.Reasoning.Replay

/-!
# Pseudo-categorical metrics

The state, comm, priority and info metrics carry a tuple of fields in their labels.  The tuple of
the last generation is the only one that is on: when it changes, the one before is published with 0.
-/

namespace Lsvmi.ProcPid

open Reasoning List GenArgs

def metricLog (m : PidMetric) (samples : List PidSample) :
    List ((PidTid × List Bytes) × SampleValue) :=
  (ofMetric m samples).map fun s => (s.labels, s.value)

/-- The tuple of `labels` has last value 1, and all the others that were published have 0. -/
def OnlyCurrent (m : PidMetric) (samples : List PidSample) (labels : PidTid × List Bytes) : Prop :=
  Selects (.flag true) (.flag false) (metricLog m samples) labels

def categoricalMetric (cfg : Config) (p : PidTid) : PidMetric → Bool
  | .statState | .statComm | .statPriority => true
  | .statInfo => p.tid == pidOnlyTid
  | .statusInfo => p.tid == pidOnlyTid && cfg.usePidStatus
  | _ => false

def categoricalTuple (starttimeMsec : Bytes) (stat : PidStat) (status : PidStatus) :
    PidMetric → List Bytes
  | .statState => [stat.bsf .state]
  | .statComm => [starttimeMsec, stat.bsf .comm]
  | .statPriority => GenArgs.priorityFields.map stat.bsf
  | .statInfo => GenArgs.infoFields.map stat.bsf
  | .statusInfo => GenArgs.statusInfoFields.map fun f => (status.bsf f).getD []
  | _ => []

def categoricalLabels (cfg : Config) (p : PidTid) (files : Files) (m : PidMetric) :
    PidTid × List Bytes :=
  (p, categoricalTuple (cfg.starttimeMsec (files.stat.bsf .starttime)) files.stat files.status m)

theorem any_bne_eq {α β : Type} [BEq β] [LawfulBEq β] [DecidableEq β] (fields : List α)
    (f g : α → β) : (fields.any fun x => f x != g x) = decide (fields.map f ≠ fields.map g) := by
  induction fields with
  | nil => rfl
  | cons x fields ih =>
    rw [any_cons, ih]
    by_cases hx : f x = g x <;> simp [hx]

theorem statCategoricalSamples_eq (a : GenArgs) (m : PidMetric) (extra : List Bytes)
    (fields : List PidStatField) :
    a.statCategoricalSamples m extra fields = a.categoricalSamples m
      (a.hasPrev && decide (extra ++ fields.map a.prevStat.bsf ≠ extra ++ fields.map a.currStat.bsf))
      (extra ++ fields.map a.prevStat.bsf) (extra ++ fields.map a.currStat.bsf) := by
  rw [statCategoricalSamples, statChanged, any_bne_eq]
  simp only [ne_eq, append_cancel_left_eq]

section

variable {cfg : Config} {p : PidTid} {info : ProcPidTidMetricsInfo} {gens : List Generation}
  {m : PidMetric}

section

variable (hm : categoricalMetric cfg p m) (hp : info.pidTid = p) (files : Files)
include hm hp files

theorem ofMetric_entrySamples (hasPrev full : Bool) (now : Int) :
    let prev := categoricalTuple info.starttimeMsec info.pidStat info.pidStatus m
    let curr := categoricalTuple info.starttimeMsec files.stat files.status m
    ofMetric m (entrySamples cfg files info hasPrev full now) =
      (entryArgs files info hasPrev full now).categoricalSamples m
        (hasPrev && decide (prev ≠ curr)) prev curr := by
  intro prev curr
  unfold entrySamples
  have hisPid : (entryArgs files info hasPrev full now).isPid = (p.tid == pidOnlyTid) := by
    rw [← hp]
    rfl
  cases m with
  | statState =>
    rw [ofMetric_statState]
    exact statCategoricalSamples_eq _ _ _ _
  | statComm =>
    rw [ofMetric_statComm]
    exact statCategoricalSamples_eq _ _ _ _
  | statPriority =>
    rw [ofMetric_statPriority]
    exact statCategoricalSamples_eq _ _ _ _
  | statInfo =>
    rw [ofMetric_statInfo _ _ _ _ (hisPid.trans hm)]
    exact statCategoricalSamples_eq _ _ _ _
  | statusInfo =>
    obtain ⟨hpid, hstatus⟩ := Bool.and_eq_true_iff.mp hm
    rw [ofMetric_statusInfo _ _ _ _ (hisPid.trans hpid) hstatus,
      statusInfoSamples, statusChanged, any_bne_eq]
    rfl
  | _ => cases hm

theorem onlyCurrent_first (full : Bool) (now : Int) :
    OnlyCurrent m (entrySamples cfg files info false full now)
      (p, categoricalTuple info.starttimeMsec files.stat files.status m) := by
  have hlog : metricLog m (entrySamples cfg files info false full now) =
      [((p, categoricalTuple info.starttimeMsec files.stat files.status m), .flag true)] := by
    rw [metricLog, ofMetric_entrySamples hm hp]
    simp [categoricalSamples, fullMetricsNoPrev, sample, entryArgs, genArgs, hp]
  rw [OnlyCurrent, hlog]
  exact .first _ _ _

theorem OnlyCurrent.later {samples : List PidSample} (full : Bool) (now : Int)
    (h : OnlyCurrent m samples
      (p, categoricalTuple info.starttimeMsec info.pidStat info.pidStatus m)) :
    OnlyCurrent m (samples ++ entrySamples cfg files info true full now)
      (p, categoricalTuple info.starttimeMsec files.stat files.status m) := by
  rw [OnlyCurrent, metricLog, ofMetric_append, map_append, ofMetric_entrySamples hm hp]
  -- Nothing but the two tuples matters from here on.
  generalize categoricalTuple info.starttimeMsec info.pidStat info.pidStatus m = prev at h ⊢
  generalize categoricalTuple info.starttimeMsec files.stat files.status m = curr
  have hlabels : ∀ labels v, (entryArgs files info true full now).sample m labels v =
      ⟨m, (p, labels), v, unixMilli now⟩ := by
    intro labels v
    rw [← hp]
    rfl
  -- An unchanged tuple is published again on full metrics only; a changed one always, after the
  -- previous one is cleared.
  by_cases hchanged : prev = curr
  · subst hchanged
    have hsamples : (entryArgs files info true full now).categoricalSamples m
        (true && decide (prev ≠ prev)) prev prev =
          if full then [⟨m, (p, prev), .flag true, unixMilli now⟩] else [] := by
      have hfull : (entryArgs files info true full now).fullMetricsNoPrev = full :=
        Bool.or_false full
      simp [categoricalSamples, hlabels, hfull]
    rw [hsamples]
    cases full
    · rw [if_neg Bool.false_ne_true, map_nil, List.append_nil]
      exact h
    · exact h.again
  · have hsamples : (entryArgs files info true full now).categoricalSamples m
        (true && decide (prev ≠ curr)) prev curr =
          [⟨m, (p, prev), .flag false, unixMilli now⟩, ⟨m, (p, curr), .flag true, unixMilli now⟩] := by
      simp [categoricalSamples, hchanged, hlabels]
    rw [hsamples]
    exact h.switch _

end

theorem categoricalTuple_status (hm : categoricalMetric cfg p m) (starttimeMsec : Bytes)
    (stat : PidStat) {status status' : PidStatus} (hstatus : cfg.usePidStatus → status = status') :
    categoricalTuple starttimeMsec stat status m = categoricalTuple starttimeMsec stat status' m := by
  cases m with
  | statusInfo =>
    obtain ⟨-, huse⟩ := Bool.and_eq_true_iff.mp hm
    rw [hstatus huse]
  | _ => rfl

theorem Life.starttimeMsec (h : Life cfg p info gens) :
    info.starttimeMsec = cfg.starttimeMsec (info.pidStat.bsf .starttime) := by
  induction h with
  | created files info cycleNum now scanNum hinfo =>
    rw [entryNext, noteZeroDeltas_starttimeMsec, hinfo]
    rfl
  | skipped _ _ _ ih => exact ih
  | generated h files active now scanNum hstart ih =>
    rw [entryNext, noteZeroDeltas_starttimeMsec, ih, hstart]

theorem Life.onlyCurrent (h : Life cfg p info gens) (hm : categoricalMetric cfg p m)
    (hne : gens ≠ []) :
    OnlyCurrent m (gens.flatMap Generation.samples)
      (categoricalLabels cfg p (gens.getLast hne).files m) := by
  induction h with
  | created files info cycleNum now scanNum hinfo =>
    rw [flatMap_singleton, getLast_singleton]
    have hp : info.pidTid = p := by rw [hinfo, newPidTidMetricsInfo]
    have hmsec : info.starttimeMsec = cfg.starttimeMsec (files.stat.bsf .starttime) := by
      rw [hinfo, newPidTidMetricsInfo]
    rw [categoricalLabels, ← hmsec]
    exact onlyCurrent_first hm hp files false now
  | skipped _ _ _ ih => exact ih hne
  | @generated info gens h files active now scanNum hstart ih =>
    rw [flatMap_append, flatMap_singleton,
      getLast_append_of_ne_nil _ (cons_ne_nil _ _), getLast_singleton,
      categoricalLabels, hstart, ← h.starttimeMsec]
    refine OnlyCurrent.later hm h.pidTid files _ now ?_
    obtain ⟨hstat, hstatus⟩ := h.last h.ne_nil
    have hprev := ih h.ne_nil
    rwa [categoricalLabels, ← hstat, ← h.starttimeMsec,
      ← categoricalTuple_status hm _ _ hstatus] at hprev

/-- After every scan the tuple of the last generation has last value 1, and all the others that were
published since the entry was made have 0. -/
theorem last_tuple_is_current {calls : List Call} {r : RunState}
    (hrun : Run (Executes cfg) newRun calls r) (hne : r.gens p ≠ [])
    (hm : categoricalMetric cfg p m = true) :
    OnlyCurrent m ((r.gens p).flatMap Generation.samples)
      (categoricalLabels cfg p ((r.gens p).getLast hne).files m) := by
  obtain ⟨info, hlife⟩ := life_of_run hrun hne
  exact hlife.onlyCurrent hm hne

end

def fieldsCall (b : Bytes) : Call :=
  { plainCall [⟨1, 0⟩] with
    stat := fun _ => ⟨true, ⟨fun f => if f = .starttime then [] else b, fun _ => 0⟩⟩ }

theorem last_tuple_is_current_two_scans :
    ∃ r, Run (Executes plainConfig) newRun [fieldsCall (utf8 "R"), fieldsCall (utf8 "S")] r ∧
      OnlyCurrent .statState ((r.gens ⟨1, 0⟩).flatMap Generation.samples)
        (⟨1, 0⟩, [utf8 "S"]) := by
  have hend : ([fieldsCall (utf8 "R"), fieldsCall (utf8 "S")].foldlM (nextRun plainConfig)
      newRun).any (fun r => if hne : r.gens ⟨1, 0⟩ ≠ [] then
        categoricalLabels plainConfig ⟨1, 0⟩ ((r.gens ⟨1, 0⟩).getLast hne).files .statState =
          (⟨1, 0⟩, [utf8 "S"])
      else false) = true := by decide +kernel
  obtain ⟨r, hrun, htest⟩ := exists_run hend
  split at htest
  · rename_i hne
    refine ⟨r, hrun, ?_⟩
    rw [← of_decide_eq_true htest]
    exact last_tuple_is_current hrun hne rfl
  · cases htest

end Lsvmi.ProcPid
