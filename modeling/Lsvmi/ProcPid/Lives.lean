import Lsvmi.ProcPid.Life

/-!
# The lives of all the entries

A run of `Execute` calls with a record, for every PID, TID in the cache, of what was generated for
it since its entry was made.  The record is read off what each turn of the loop leaves in the map
and adds to the buffer.
-/

namespace Lsvmi.ProcPid

open Reasoning Function

variable {calls : List Call}

/-- The generations of `p` after a turn for it that led from `st` to `st'`. -/
def recordTurn (call : Call) (p : PidTid) (st st' : ScanState) (gens : List Generation) :
    List Generation :=
  match st'.pm.pidTidMetricsInfo.lookup p with
  | none => []
  | some r =>
    let samples := st'.out.buf.drop st.out.buf.length
    if st.pm.pidTidMetricsInfo.lookup p = some r then
      if samples = [] then gens
      else gens ++ [⟨call.files p, (st.pm.info r).cycleNum == 0, samples⟩]
    else [⟨call.files p, true, samples⟩]

structure Recorded where
  st : ScanState
  gens : PidTid → List Generation

def recordScan (cfg : Config) (call : Call) (scanNum : Int64) (t : Recorded) (p : PidTid) :
    Recorded :=
  let st := scanPidTid cfg call scanNum t.st p
  ⟨st, Function.update t.gens p (recordTurn call p t.st st (t.gens p))⟩

structure RunState where
  pm : ProcPidMetrics
  gens : PidTid → List Generation

def newRun : RunState := ⟨newProcPidMetrics, fun _ => []⟩

def recordCall (cfg : Config) (r : RunState) (call : Call) (pm : ProcPidMetrics) :
    PidTid → List Generation :=
  match call.pidTidList with
  | none => r.gens
  | some ps =>
    let t := ps.foldl (recordScan cfg call (nextScanNum r.pm.scanNum))
      ⟨.start (r.pm.begin ps), r.gens⟩
    fun p => if p ∈ pm.pidTidMetricsInfo then t.gens p else []

def Executes (cfg : Config) (r : RunState) (call : Call) (r' : RunState) : Prop :=
  ∃ ret, execute cfg r.pm call = .ok ret ∧ r' = ⟨ret.pm, recordCall cfg r call ret.pm⟩

def nextRun (cfg : Config) (r : RunState) (call : Call) : Option RunState :=
  match execute cfg r.pm call with
  | .ok ret => some ⟨ret.pm, recordCall cfg r call ret.pm⟩
  | .nilDeref | .diverge => none

theorem executes_of_nextRun {cfg : Config} {r r' : RunState} {call : Call}
    (h : nextRun cfg r call = some r') : Executes cfg r call r' := by
  unfold nextRun at h
  split at h
  · exact ⟨_, ‹_›, (Option.some.inj h).symm⟩
  · cases h
  · cases h

theorem exists_run {cfg : Config} {test : RunState → Bool}
    (h : (calls.foldlM (nextRun cfg) newRun).any test) :
    ∃ r, Run (Executes cfg) newRun calls r ∧ test r := by
  obtain ⟨r, hrun, htest⟩ := Run.exists_of_any h
  exact ⟨r, hrun.mono fun _ _ _ => executes_of_nextRun, htest⟩

structure Tracked (cfg : Config) (pm : ProcPidMetrics) (gens : PidTid → List Generation) :
    Prop where
  life : ∀ p r, pm.pidTidMetricsInfo.lookup p = some r → Life cfg p (pm.info r) (gens p)
  none : ∀ p, pm.pidTidMetricsInfo.lookup p = none → gens p = []
  lt_nextRef : ∀ p r, pm.pidTidMetricsInfo.lookup p = some r → r < pm.nextRef

section

variable {cfg : Config} {call : Call} {scanNum : Int64} {pm : ProcPidMetrics} {st : ScanState}
  {gens : PidTid → List Generation} {p : PidTid} {r : RunState}

theorem entrySamples_ne_nil (cfg : Config) (files : Files) (info : ProcPidTidMetricsInfo)
    (hasPrev full : Bool) (now : Int) : entrySamples cfg files info hasPrev full now ≠ [] := by
  simp [entrySamples, GenArgs.samples, GenArgs.cpuNumSamples]

theorem drop_buf {o o' : Out} {l : List PidSample} (h : o' = o.append l) :
    o'.buf.drop o.buf.length = l := by
  rw [h]
  exact List.drop_left

theorem Tracked.turn (h : Tracked cfg st.pm gens) (call : Call) (scanNum : Int64) (p : PidTid) :
    Turn cfg call scanNum p st (scanPidTid cfg call scanNum st p) :=
  scanPidTid_turn cfg call scanNum st p fun r hr =>
    ⟨(h.life p r hr).pidTid, h.lt_nextRef p r hr⟩

theorem scanPidTid_nextRef_le (cfg : Config) (call : Call) (scanNum : Int64) (st : ScanState)
    (p : PidTid) : st.pm.nextRef ≤ (scanPidTid cfg call scanNum st p).pm.nextRef := by
  change _ ≤ (scanPidTid cfg call scanNum st p).cache.nextRef
  rw [scanPidTid_cache]
  exact Cache.apply_nextRef_le st.cache _ _ _

theorem Tracked.turn_life (h : Tracked cfg st.pm gens) {r : Ref}
    (hr : (scanPidTid cfg call scanNum st p).pm.pidTidMetricsInfo.lookup p = some r) :
    Life cfg p ((scanPidTid cfg call scanNum st p).pm.info r)
      (recordTurn call p st (scanPidTid cfg call scanNum st p) (gens p)) ∧
    r < (scanPidTid cfg call scanNum st p).pm.nextRef := by
  have hnext := scanPidTid_nextRef_le cfg call scanNum st p
  simp only [recordTurn, hr]
  -- One case for each thing that a turn can do to the entry of `p`.
  cases h.turn call scanNum p with
  | gone hlookup => exact nomatch hlookup.symm.trans hr
  | kept hlookup hinfo hout =>
    rw [hr] at hlookup
    rw [if_pos hlookup.symm, if_pos (by rw [hout, List.drop_length]), hinfo r hlookup.symm]
    exact ⟨h.life p r hlookup.symm, (h.lt_nextRef p r hlookup.symm).trans_le hnext⟩
  | skipped x hlookup hlookup' hinfo hout =>
    obtain rfl : x = r := Option.some.inj (hlookup'.symm.trans hr)
    rw [if_pos hlookup, if_pos (by rw [hout, List.drop_length]), hinfo]
    exact ⟨(h.life p x hlookup).skipped _ _, (h.lt_nextRef p x hlookup).trans_le hnext⟩
  | generated x active hlookup hlookup' hstart hinfo hout =>
    obtain rfl : x = r := Option.some.inj (hlookup'.symm.trans hr)
    rw [if_pos hlookup, drop_buf hout, if_neg (entrySamples_ne_nil _ _ _ _ _ _), hinfo]
    exact ⟨(h.life p x hlookup).generated _ _ _ _ hstart, (h.lt_nextRef p x hlookup).trans_le hnext⟩
  | created hlookup' hnext hinfo hout =>
    obtain rfl : st.pm.nextRef = r := Option.some.inj (hlookup'.symm.trans hr)
    -- A new entry is a new object, whose record starts over.
    have hnew : st.pm.pidTidMetricsInfo.lookup p ≠ some st.pm.nextRef := fun hold =>
      Nat.lt_irrefl _ (h.lt_nextRef p _ hold)
    rw [if_neg hnew, drop_buf hout, hinfo, hnext]
    exact ⟨.created _ _ _ _ _ rfl, Nat.lt_succ_self _⟩

theorem Tracked.turn_other (h : Tracked cfg st.pm gens) (call : Call) (scanNum : Int64)
    {q : PidTid} (hq : q ≠ p) :
    (scanPidTid cfg call scanNum st p).pm.pidTidMetricsInfo.lookup q =
      st.pm.pidTidMetricsInfo.lookup q ∧
    ∀ r, st.pm.pidTidMetricsInfo.lookup q = some r →
      (scanPidTid cfg call scanNum st p).pm.info r = st.pm.info r := by
  constructor
  · change (scanPidTid cfg call scanNum st p).cache.entries.lookup q = _
    rw [scanPidTid_cache, Cache.apply_lookup _ _ _ hq]
    rfl
  intro r hr
  apply scanPidTid_info
  · exact Nat.ne_of_lt (h.lt_nextRef q r hr)
  · intro hp
    exact hq ((h.life q r hr).pidTid.symm.trans (h.life p r hp).pidTid)

theorem Tracked.recordScan {t : Recorded} (h : Tracked cfg t.st.pm t.gens) (p : PidTid) :
    Tracked cfg (recordScan cfg call scanNum t p).st.pm
      (ProcPid.recordScan cfg call scanNum t p).gens := by
  simp only [ProcPid.recordScan]
  refine ⟨fun q r hr => ?_, fun q hr => ?_, fun q r hr => ?_⟩
  · by_cases hq : q = p
    · subst hq
      rw [update_self]
      exact (h.turn_life hr).1
    · obtain ⟨hlookup, hinfo⟩ := h.turn_other call scanNum hq
      rw [hlookup] at hr
      rw [update_of_ne hq, hinfo r hr]
      exact h.life q r hr
  · by_cases hq : q = p
    · subst hq
      rw [update_self, recordTurn, hr]
    · rw [(h.turn_other call scanNum hq).1] at hr
      rw [update_of_ne hq]
      exact h.none q hr
  · by_cases hq : q = p
    · subst hq
      exact (h.turn_life hr).2
    · rw [(h.turn_other call scanNum hq).1] at hr
      exact (h.lt_nextRef q r hr).trans_le (scanPidTid_nextRef_le cfg call scanNum t.st p)

theorem Tracked.recordScans {ps : List PidTid} {t : Recorded} (h : Tracked cfg t.st.pm t.gens) :
    Tracked cfg (ps.foldl (ProcPid.recordScan cfg call scanNum) t).st.pm
      (ps.foldl (ProcPid.recordScan cfg call scanNum) t).gens := by
  induction ps generalizing t with
  | nil => exact h
  | cons p ps ih => exact ih (h.recordScan p)

theorem recordScans_st (cfg : Config) (call : Call) (scanNum : Int64) (ps : List PidTid)
    (t : Recorded) : (ps.foldl (recordScan cfg call scanNum) t).st =
      ps.foldl (scanPidTid cfg call scanNum) t.st := by
  induction ps generalizing t with
  | nil => rfl
  | cons p ps ih => exact ih _

theorem pruneLru_frame {fuel : Nat} {o : Option Ref} {st' : ScanState}
    (h : pruneLru scanNum fuel o st = .ok st') :
    st'.pm.info = st.pm.info ∧ st'.pm.nextRef = st.pm.nextRef ∧
      ∀ p r, st'.pm.pidTidMetricsInfo.lookup p = some r →
        st.pm.pidTidMetricsInfo.lookup p = some r := by
  -- On the fuel, with the node the removal has come to.
  induction fuel generalizing o st with
  | zero =>
    cases o with
    | none =>
      cases h
      exact ⟨rfl, rfl, fun _ _ hr => hr⟩
    | some r => cases h
  | succ fuel ih =>
    cases o with
    | none =>
      cases h
      exact ⟨rfl, rfl, fun _ _ hr => hr⟩
    | some r =>
      rw [pruneLru] at h
      split at h
      · cases h
        exact ⟨rfl, rfl, fun _ _ hr => hr⟩
      cases hn : st.pm.lru.next r with
      | none => simp [ScanState.forget, hn] at h
      | some n =>
        simp only [ScanState.forget, hn] at h
        obtain ⟨hinfo, hnext, hsub⟩ := ih h
        refine ⟨hinfo, hnext, fun p x hx => ?_⟩
        have herased := hsub p x hx
        by_cases hp : p = (st.pm.info r).pidTid
        · rw [hp, Finmap.lookup_erase] at herased
          cases herased
        · rwa [Finmap.lookup_erase_ne hp] at herased

theorem Tracked.begin (h : Tracked cfg pm gens) (ps : List PidTid) :
    Tracked cfg (pm.begin ps) gens := by
  unfold ProcPidMetrics.begin
  split <;> exact ⟨h.life, h.none, h.lt_nextRef⟩

theorem Tracked.step {r' : RunState} (h : Tracked cfg r.pm r.gens)
    (hstep : Executes cfg r call r') : Tracked cfg r'.pm r'.gens := by
  obtain ⟨ret, hret, rfl⟩ := hstep
  unfold recordCall
  cases hlist : call.pidTidList with
  | none =>
    rw [execute_none cfg hlist] at hret
    cases hret
    show Tracked cfg (if r.pm.intialized then r.pm else r.pm.initParsers) r.gens
    split <;> exact ⟨h.life, h.none, h.lt_nextRef⟩
  | some ps =>
    let t := ps.foldl (ProcPid.recordScan cfg call (nextScanNum r.pm.scanNum))
      ⟨.start (r.pm.begin ps), r.gens⟩
    have ht : Tracked cfg t.st.pm t.gens := Tracked.recordScans (h.begin ps)
    have hst : t.st = scan cfg call r.pm ps := recordScans_st cfg call _ ps _
    rw [execute_some cfg r.pm hlist, ← hst] at hret
    -- The record is made during the scan; the removal that follows only takes entries away.
    cases hprune : pruneLru (nextScanNum r.pm.scanNum) t.st.pm.nextRef t.st.pm.lru.head t.st with
    | nilDeref | diverge => simp [hprune] at hret
    | ok st =>
      obtain ⟨hinfo, hnext, hsub⟩ := pruneLru_frame hprune
      rw [hprune] at hret
      cases hret
      refine ⟨fun p x hx => ?_, fun p hp => if_neg (Finmap.lookup_eq_none.mp hp), fun p x hx => ?_⟩
      · show Life cfg p (st.pm.info x) (if p ∈ st.pm.pidTidMetricsInfo then t.gens p else [])
        rw [if_pos (Finmap.mem_of_lookup_eq_some hx), hinfo]
        exact ht.life p x (hsub p x hx)
      · show x < st.pm.nextRef
        rw [hnext]
        exact ht.lt_nextRef p x (hsub p x hx)

theorem newRun_tracked (cfg : Config) : Tracked cfg newRun.pm newRun.gens := by
  have hempty : ∀ p r, newRun.pm.pidTidMetricsInfo.lookup p ≠ some r := fun _ _ hr => nomatch hr
  exact ⟨fun p r hr => absurd hr (hempty p r), fun _ _ => rfl, fun p r hr => absurd hr (hempty p r)⟩

variable (hrun : Run (Executes cfg) newRun calls r)
include hrun

theorem tracked_of_run : Tracked cfg r.pm r.gens :=
  hrun.invariant (I := fun r => Tracked cfg r.pm r.gens) (newRun_tracked cfg)
    fun _ _ _ h hstep => h.step hstep

/-- In every run, what has been generated for a PID, TID in the cache is a life of its entry. -/
theorem life_of_run (hp : r.gens p ≠ []) : ∃ info, Life cfg p info (r.gens p) := by
  have h := tracked_of_run hrun
  cases hlookup : r.pm.pidTidMetricsInfo.lookup p with
  | none => exact absurd (h.none p hlookup) hp
  | some x => exact ⟨_, h.life p x hlookup⟩

end

end Lsvmi.ProcPid
