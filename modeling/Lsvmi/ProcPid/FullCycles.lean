import Lsvmi.CycleNum
import Lsvmi.ProcPid.Lives
import Lsvmi.Reasoning.Cycles

/-!
# The full metrics cycles of an entry

The cycle number of an entry is advanced by every scan that completes, whether metrics are generated
or the entry is skipped as inactive, and an entry at 0 is not skipped.
-/

namespace Lsvmi.ProcPid

open Reasoning List

def callGenerations (cfg : Config) (pm : ProcPidMetrics) (call : Call) (p : PidTid) :
    List Generation :=
  match call.pidTidList with
  | none => []
  | some ps => (ps.foldl (recordScan cfg call (nextScanNum pm.scanNum))
      ⟨.start (pm.begin ps), fun _ => []⟩).gens p

def publishedFor (cfg : Config) (p : PidTid) (r : RunState) (call : Call) : List (List PidSample) :=
  (callGenerations cfg r.pm call p).map Generation.samples

/-- What `generateMetrics` publishes for the entry of `p` if it is called with `fullMetrics`. -/
def samplesWith (cfg : Config) (p : PidTid) (fullMetrics : Bool) (r : RunState) (call : Call) :
    List PidSample :=
  match r.pm.pidTidMetricsInfo.lookup p with
  | none => []
  | some x => (generateMetrics cfg (call.stat p).data (call.status p).data (call.cmdline p).data
      (r.pm.info x) true (p.tid == pidOnlyTid) fullMetrics (call.timeNow p) ⟨[], 0⟩).1.buf

def generatesFull (cfg : Config) (p : PidTid) (r : RunState) (call : Call) : Bool :=
  ((r.pm.pidTidMetricsInfo.lookup p).any fun x => (r.pm.info x).cycleNum == 0) &&
    publishedFor cfg p r call == [samplesWith cfg p true r call]

/-- `generateMetrics` is not called for `p`, or with `fullMetrics` false. -/
def GeneratesPartial (cfg : Config) (p : PidTid) (r : RunState) (call : Call) : Prop :=
  publishedFor cfg p r call = [] ∨ publishedFor cfg p r call = [samplesWith cfg p false r call]

/-- `p` is in the list and in the cache, with the starttime that it has there, and its files can be
parsed. -/
def Rescans (cfg : Config) (p : PidTid) (r : RunState) (call : Call) : Prop :=
  (∃ ps, call.pidTidList = some ps ∧ p ∈ ps) ∧ ∃ x, fate cfg call r.pm p = .refreshed x

def CyclesOk (cfg : Config) (pm : ProcPidMetrics) : Prop :=
  ∀ p x, pm.pidTidMetricsInfo.lookup p = some x →
    0 ≤ (pm.info x).cycleNum ∧ (pm.info x).cycleNum < cycleLength cfg.fullMetricsFactor

def SameEntry (p : PidTid) (pm pm' : ProcPidMetrics) : Prop :=
  pm'.pidTidMetricsInfo.lookup p = pm.pidTidMetricsInfo.lookup p ∧
    ∀ x, pm.pidTidMetricsInfo.lookup p = some x → pm'.info x = pm.info x

section

variable {cfg : Config} {call : Call} {scanNum : Int64} {pm pm' pm'' : ProcPidMetrics}
  {st : ScanState} {gens : PidTid → List Generation} {p : PidTid} {ps : List PidTid} {x : Ref}
  {r r' : RunState}

theorem SameEntry.refl (p : PidTid) (pm : ProcPidMetrics) : SameEntry p pm pm :=
  ⟨rfl, fun _ _ => rfl⟩

theorem SameEntry.trans (h : SameEntry p pm pm') (h' : SameEntry p pm' pm'') :
    SameEntry p pm pm'' := by
  refine ⟨h'.1.trans h.1, fun x hx => ?_⟩
  rw [h'.2 x (h.1.trans hx), h.2 x hx]

theorem SameEntry.fate_eq (h : SameEntry p pm pm') : fate cfg call pm' p = fate cfg call pm p := by
  unfold fate
  rw [h.1]
  cases hx : pm.pidTidMetricsInfo.lookup p with
  | none => rfl
  | some x => simp only [h.2 x hx]

theorem lookup_of_refreshed (h : fate cfg call pm p = .refreshed x) :
    pm.pidTidMetricsInfo.lookup p = some x := by
  have hentry := fate_entry cfg call pm p
  rw [h] at hentry
  exact hentry.symm

theorem scanPidTid_refreshed (scanNum : Int64) (hfate : fate cfg call st.pm p = .refreshed x)
    (hp : (st.pm.info x).pidTid = p) :
    let st' := scanPidTid cfg call scanNum st p
    st'.pm.pidTidMetricsInfo.lookup p = some x ∧
      (st'.pm.info x).cycleNum = nextCycleNum (st.pm.info x).cycleNum cfg.fullMetricsFactor ∧
      (st'.out = st.out ∧ (st.pm.info x).cycleNum ≠ 0 ∨
        st'.out = st.out.append (entrySamples cfg (call.files p) (st.pm.info x) true
          ((st.pm.info x).cycleNum == 0) (call.timeNow p))) := by
  have hbody := scanPidTid_body cfg call scanNum st p
  rw [hfate] at hbody
  generalize hf : Fate.refreshed x = f, scanPidTid cfg call scanNum st p = st' at hbody ⊢
  cases hbody with
  | ignored | gone => cases hf
  | created | reused => split at hf <;> cases hf
  | skipped r hl hcycle =>
    cases hf
    have hinfo : (ScanState.skipInactive cfg call scanNum (st.parseStat call p (some x)) p x).pm.info
        x = entrySkipped cfg (st.pm.info x) (call.timeNow p) scanNum := Function.update_self ..
    exact ⟨hl, by rw [hinfo]; rfl, .inl ⟨rfl, hcycle⟩⟩
  | scanned r active hl =>
    split at hf
    · cases hf
    rename_i hfiles
    cases hf
    rw [Bool.not_eq_true] at hfiles
    obtain ⟨hout, hinfo⟩ :=
      scanEntry_ok cfg call scanNum (st.parseStat call p (some x)) p x true active _ hfiles rfl hp
    refine ⟨?_, by rw [hinfo]; rfl, .inr hout⟩
    rw [scanEntry_lookup cfg call scanNum _ p x true active _ hfiles, if_pos rfl]
    exact hl

theorem recordTurn_refreshed (scanNum : Int64) (hfate : fate cfg call st.pm p = .refreshed x)
    (hp : (st.pm.info x).pidTid = p) :
    let samples := (recordTurn call p st (scanPidTid cfg call scanNum st p) []).map
      Generation.samples
    samples = [] ∧ (st.pm.info x).cycleNum ≠ 0 ∨
      samples = [entrySamples cfg (call.files p) (st.pm.info x) true ((st.pm.info x).cycleNum == 0)
        (call.timeNow p)] := by
  obtain ⟨hlookup', -, hout⟩ := scanPidTid_refreshed scanNum hfate hp
  simp only [recordTurn, hlookup', lookup_of_refreshed hfate, if_true]
  cases hout with
  | inl h =>
    rw [h.1, drop_length, if_pos rfl]
    exact .inl ⟨rfl, h.2⟩
  | inr h =>
    rw [drop_buf h, if_neg (entrySamples_ne_nil _ _ _ _ _ _)]
    exact .inr rfl

theorem samplesWith_eq (hx : r.pm.pidTidMetricsInfo.lookup p = some x)
    (hp : (r.pm.info x).pidTid = p) (fullMetrics : Bool) :
    samplesWith cfg p fullMetrics r call =
      entrySamples cfg (call.files p) (r.pm.info x) true fullMetrics (call.timeNow p) := by
  unfold samplesWith entrySamples entryArgs
  rw [hx, hp]
  simp only [generateMetrics_eq]
  rfl

theorem recordScans_other (call : Call) (scanNum : Int64) {t : Recorded}
    {gens : PidTid → List Generation} (h : Tracked cfg t.st.pm gens) (hp : p ∉ ps) :
    let t' := ps.foldl (recordScan cfg call scanNum) t
    (∃ gens', Tracked cfg t'.st.pm gens') ∧ SameEntry p t.st.pm t'.st.pm ∧ t'.gens p = t.gens p := by
  induction ps generalizing t gens with
  | nil => exact ⟨⟨gens, h⟩, .refl p t.st.pm, rfl⟩
  | cons q ps ih =>
    rw [mem_cons, not_or] at hp
    have hstep : Tracked cfg (recordScan cfg call scanNum ⟨t.st, gens⟩ q).st.pm _ :=
      Tracked.recordScan (t := ⟨t.st, gens⟩) h q
    obtain ⟨htracked, hsame, hgens⟩ := ih (t := recordScan cfg call scanNum t q) hstep hp.2
    exact ⟨htracked, .trans (h.turn_other call scanNum hp.1) hsame,
      hgens.trans (Function.update_of_ne hp.1 _ _)⟩

theorem sameEntry_begin (p : PidTid) (pm : ProcPidMetrics) (ps : List PidTid) :
    SameEntry p pm (pm.begin ps) := by
  unfold ProcPidMetrics.begin
  split <;> exact ⟨rfl, fun _ _ => rfl⟩

theorem Executes.frame (hlist : call.pidTidList = some ps) (h : Executes cfg r call r') :
    r'.pm.info = (scan cfg call r.pm ps).pm.info ∧
      ∀ p x, r'.pm.pidTidMetricsInfo.lookup p = some x →
        (scan cfg call r.pm ps).pm.pidTidMetricsInfo.lookup p = some x := by
  obtain ⟨ret, hret, rfl⟩ := h
  rw [execute_some cfg r.pm hlist] at hret
  split at hret
  · cases hret
  · cases hret
  · rename_i st hprune
    obtain ⟨hinfo, -, hsub⟩ := pruneLru_frame hprune
    cases hret
    exact ⟨hinfo, hsub⟩

theorem rescan_loop (htracked : Tracked cfg r.pm r.gens) (hlist : call.pidTidList = some ps)
    (hnodup : ps.Nodup) (hp : p ∈ ps) (hfate : fate cfg call r.pm p = .refreshed x) :
    (publishedFor cfg p r call = [] ∧ (r.pm.info x).cycleNum ≠ 0 ∨
        publishedFor cfg p r call = [samplesWith cfg p ((r.pm.info x).cycleNum == 0) r call]) ∧
      (scan cfg call r.pm ps).pm.pidTidMetricsInfo.lookup p = some x ∧
      ((scan cfg call r.pm ps).pm.info x).cycleNum =
        nextCycleNum (r.pm.info x).cycleNum cfg.fullMetricsFactor := by
  obtain ⟨before, after, hps⟩ := append_of_mem hp
  rw [hps, nodup_append] at hnodup
  have hbefore : p ∉ before := fun hmem => hnodup.2.2 p hmem p mem_cons_self rfl
  have hafter : p ∉ after := (nodup_cons.mp hnodup.2.1).1
  -- the turns before the one for `p`, that one, and the ones after it
  let scanNum := nextScanNum r.pm.scanNum
  let start : Recorded := ⟨.start (r.pm.begin ps), fun _ => []⟩
  let t₁ := before.foldl (recordScan cfg call scanNum) start
  let t₂ := recordScan cfg call scanNum t₁ p
  let t₃ := after.foldl (recordScan cfg call scanNum) t₂
  have ht₃ : ps.foldl (recordScan cfg call scanNum) start = t₃ := by
    rw [hps, List.foldl_append, foldl_cons]
  have hscanned : scan cfg call r.pm ps = t₃.st := by
    rw [← ht₃, recordScans_st]
    rfl
  obtain ⟨⟨gens₁, htracked₁⟩, hsame₁, hgens₁⟩ :=
    recordScans_other call scanNum (t := start) (htracked.begin ps) hbefore
  have hsame := (sameEntry_begin p r.pm ps).trans hsame₁
  have hfate₁ := hsame.fate_eq.trans hfate
  have hinfo₁ := hsame.2 x (lookup_of_refreshed hfate)
  have hpidTid := (htracked₁.life p x (lookup_of_refreshed hfate₁)).pidTid
  obtain ⟨hlookup₂, hcycle₂, -⟩ := scanPidTid_refreshed scanNum hfate₁ hpidTid
  have htracked₂ : Tracked cfg t₂.st.pm _ := Tracked.recordScan (t := ⟨t₁.st, gens₁⟩) htracked₁ p
  obtain ⟨-, hsame₃, hgens₃⟩ := recordScans_other call scanNum (t := t₂) htracked₂ hafter
  refine ⟨?_, ?_, ?_⟩
  · have hturn : t₂.gens p = recordTurn call p t₁.st (scanPidTid cfg call scanNum t₁.st p)
        (t₁.gens p) := Function.update_self ..
    have hgens : callGenerations cfg r.pm call p =
        recordTurn call p t₁.st (scanPidTid cfg call scanNum t₁.st p) [] := by
      simp only [callGenerations, hlist]
      rw [ht₃, hgens₃, hturn, hgens₁]
    have hsamples := recordTurn_refreshed scanNum hfate₁ hpidTid
    rw [hinfo₁] at hsamples hpidTid
    rw [publishedFor, hgens, samplesWith_eq (lookup_of_refreshed hfate) hpidTid]
    exact hsamples
  · rw [hscanned]
    exact hsame₃.1.trans hlookup₂
  · rw [hscanned, hsame₃.2 x hlookup₂, ← hinfo₁]
    exact hcycle₂

section

variable (h : Rescans cfg p r call) (htracked : Tracked cfg r.pm r.gens) (hdist : call.Distinct)
include h htracked hdist

theorem Rescans.generatesFull_iff :
    ∃ x, r.pm.pidTidMetricsInfo.lookup p = some x ∧
      (generatesFull cfg p r call ↔ (r.pm.info x).cycleNum = 0) ∧
      (generatesFull cfg p r call ∨ GeneratesPartial cfg p r call) := by
  obtain ⟨⟨ps, hlist, hp⟩, x, hfate⟩ := h
  have hx := lookup_of_refreshed hfate
  have hpublished := (rescan_loop htracked hlist (hdist ps hlist) hp hfate).1
  refine ⟨x, hx, ?_⟩
  unfold generatesFull GeneratesPartial
  rw [hx, Option.any_some]
  by_cases hcycle : (r.pm.info x).cycleNum = 0
  · obtain ⟨-, hne⟩ | hsamples := hpublished
    · exact absurd hcycle hne
    · rw [hcycle] at hsamples ⊢
      simp [hsamples]
  · rw [beq_false_of_ne hcycle] at hpublished ⊢
    exact ⟨iff_of_false nofun hcycle, .inr (hpublished.imp_left And.left)⟩

theorem Rescans.cycleNum_eq (hstep : Executes cfg r call r') {y : Ref}
    (hy : r'.pm.pidTidMetricsInfo.lookup p = some y) :
    ∃ x, r.pm.pidTidMetricsInfo.lookup p = some x ∧
      (r'.pm.info y).cycleNum = nextCycleNum (r.pm.info x).cycleNum cfg.fullMetricsFactor := by
  obtain ⟨⟨ps, hlist, hp⟩, x, hfate⟩ := h
  obtain ⟨-, hlookup, hcycle⟩ := rescan_loop htracked hlist (hdist ps hlist) hp hfate
  obtain ⟨hinfo, hsub⟩ := hstep.frame hlist
  obtain rfl : x = y := Option.some.inj (hlookup.symm.trans (hsub p y hy))
  refine ⟨x, lookup_of_refreshed hfate, ?_⟩
  rw [hinfo]
  exact hcycle

end

theorem CyclesOk.scanPidTid (h : CyclesOk cfg st.pm) (htracked : Tracked cfg st.pm gens)
    (hcounter : IsCounterValue (call.cycleNum p)) :
    CyclesOk cfg (scanPidTid cfg call scanNum st p).pm := by
  intro q x hx
  by_cases hq : q = p
  · subst hq
    cases htracked.turn call scanNum q with
    | gone hlookup => exact nomatch hlookup.symm.trans hx
    | kept hlookup hinfo =>
      rw [hlookup] at hx
      rw [hinfo x hx]
      exact h q x hx
    | skipped y hlookup hlookup' hinfo | generated y active hlookup hlookup' hstart hinfo =>
      obtain rfl : y = x := Option.some.inj (hlookup'.symm.trans hx)
      rw [hinfo]
      exact nextCycleNum_lt (h q y hlookup)
    | created hlookup' hnext hinfo =>
      obtain rfl : st.pm.nextRef = x := Option.some.inj (hlookup'.symm.trans hx)
      rw [hinfo]
      exact nextCycleNum_lt (initialCycleNum_lt hcounter)
  · obtain ⟨hlookup, hinfo⟩ := htracked.turn_other call scanNum hq
    rw [hlookup] at hx
    rw [hinfo x hx]
    exact h q x hx

theorem CyclesOk.recordScans (scanNum : Int64) (ps : List PidTid) {t : Recorded}
    (h : CyclesOk cfg t.st.pm) (htracked : Tracked cfg t.st.pm t.gens)
    (hcounter : ∀ p, IsCounterValue (call.cycleNum p)) :
    CyclesOk cfg (ps.foldl (recordScan cfg call scanNum) t).st.pm := by
  induction ps generalizing t with
  | nil => exact h
  | cons q ps ih => exact ih (h.scanPidTid htracked (hcounter q)) (htracked.recordScan q)

theorem CyclesOk.step (h : CyclesOk cfg r.pm) (htracked : Tracked cfg r.pm r.gens)
    (hcounter : ∀ p, IsCounterValue (call.cycleNum p)) (hstep : Executes cfg r call r') :
    CyclesOk cfg r'.pm := by
  cases hlist : call.pidTidList with
  | none =>
    obtain ⟨ret, hret, rfl⟩ := hstep
    rw [execute_none cfg hlist] at hret
    cases hret
    show CyclesOk cfg (if r.pm.intialized then r.pm else r.pm.initParsers)
    split <;> exact h
  | some ps =>
    have hbegin : CyclesOk cfg (r.pm.begin ps) := by
      unfold ProcPidMetrics.begin
      split <;> exact h
    have hscan := CyclesOk.recordScans (nextScanNum r.pm.scanNum) ps
      (t := ⟨.start (r.pm.begin ps), r.gens⟩) hbegin (htracked.begin ps) hcounter
    rw [recordScans_st] at hscan
    obtain ⟨hinfo, hsub⟩ := hstep.frame hlist
    intro p x hx
    rw [hinfo]
    exact hscan p x (hsub p x hx)

theorem cyclesOk_of_run {calls : List Call} (hrun : Run (Executes cfg) newRun calls r)
    (hcounter : ∀ call ∈ calls, ∀ p, IsCounterValue (call.cycleNum p)) : CyclesOk cfg r.pm := by
  induction hrun with
  | start => exact fun p x hx => nomatch hx
  | snoc hrun hstep ih =>
    rw [forall_mem_append, forall_mem_singleton] at hcounter
    exact (ih hcounter.1).step (tracked_of_run hrun) hcounter.2 hstep

/-- Among as many calls as the cycle is long, each of which scans `p` again, exactly one generates
full metrics for it, and the others, if they generate metrics for it, partial ones. -/
theorem hits_generatesFull {calls window : List Call} (hrun : Run (Executes cfg) newRun calls r)
    (hcounter : ∀ call ∈ calls, ∀ p, IsCounterValue (call.cycleNum p))
    (hdist : ∀ call ∈ window, call.Distinct) (hwindow : window.foldlM (nextRun cfg) r = some r')
    (hscans : Always (fun r call r' => nextRun cfg r call = some r') (Rescans cfg p) r window)
    (hlen : window.length = cycleLength cfg.fullMetricsFactor) :
    hits (nextRun cfg) (generatesFull cfg p) r window = 1 ∧
      Always (fun r call r' => nextRun cfg r call = some r')
        (fun r call => generatesFull cfg p r call ∨ GeneratesPartial cfg p r call) r window := by
  -- the entry, wherever it is, is at place `n` of the count
  let I : Nat → RunState → Prop := fun n r => Tracked cfg r.pm r.gens ∧
    ∀ x, r.pm.pidTidMetricsInfo.lookup p = some x →
      (r.pm.info x).cycleNum = (n % cycleLength cfg.fullMetricsFactor : Nat)
  let H : RunState → Call → Prop := fun r call => Rescans cfg p r call ∧ call.Distinct
  have hstart : ∃ n, I n r := by
    have htracked := tracked_of_run hrun
    cases hlookup : r.pm.pidTidMetricsInfo.lookup p with
    | none => exact ⟨0, htracked, fun x hx => nomatch hlookup.symm.trans hx⟩
    | some x =>
      obtain ⟨hlo, hhi⟩ := cyclesOk_of_run hrun hcounter p x hlookup
      refine ⟨(r.pm.info x).cycleNum.toNat, htracked, fun y hy => ?_⟩
      obtain rfl : x = y := Option.some.inj (hlookup.symm.trans hy)
      rw [Nat.mod_eq_of_lt (by omega)]
      omega
  obtain ⟨n, hn⟩ := hstart
  have hall := hscans.and (Always.of_forall_mem hdist r)
  constructor
  · refine hits_eq_one (I := I) (H := H) ?_ ?_ hn hwindow hall (cycleLength_pos _) hlen
    · intro n r call hI hH
      obtain ⟨x, hx, hfull, -⟩ := hH.1.generatesFull_iff hI.1 hH.2
      rw [hfull, hI.2 x hx, Nat.dvd_iff_mod_eq_zero]
      exact Int.natCast_eq_zero
    intro n r call r' hI hH hstep
    have hexec := executes_of_nextRun hstep
    refine ⟨hI.1.step hexec, fun y hy => ?_⟩
    obtain ⟨x, hx, hcycle⟩ := hH.1.cycleNum_eq hI.1 hH.2 hexec hy
    rw [hcycle, hI.2 x hx, nextCycleNum_mod]
  · refine Always.of_invariant (I := fun r => Tracked cfg r.pm r.gens) (H := H) ?_ ?_ hn.1 hall
    · intro r call hI hH
      obtain ⟨x, -, -, hsamples⟩ := hH.1.generatesFull_iff hI hH.2
      exact hsamples
    · exact fun r call r' hI _ hstep => hI.step (executes_of_nextRun hstep)

end

end Lsvmi.ProcPid
