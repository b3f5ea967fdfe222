import Lsvmi.ProcPid.Scan
import Lsvmi.Reasoning.Runs

/-!
# Sequences of `Execute` calls

What holds of the LRU list and the map between two calls, and when a call leaves them so.
-/

namespace Lsvmi.ProcPid

open Reasoning Result List Option

variable {pm : ProcPidMetrics} {call : Call} {cfg : Config} {l : List Ref}

def ProcPidMetrics.cache (pm : ProcPidMetrics) : Cache := (ScanState.start pm).cache

/-- Between two calls the LRU list spells `l`, and its entries were all seen by the last scan. -/
structure ProcPidMetrics.Inv (pm : ProcPidMetrics) (l : List Ref) : Prop where
  cache : pm.cache.Inv l
  scanned : ∀ r ∈ l, (pm.info r).scanNum = pm.scanNum

open ProcPidMetrics

theorem newProcPidMetrics_inv : newProcPidMetrics.Inv [] :=
  ⟨⟨Links.threads_empty, by simp [cache, ScanState.cache, ScanState.start,
    newProcPidMetrics], by simp⟩, by simp⟩

def ProcPidMetrics.begin (pm : ProcPidMetrics) (pidTidList : List PidTid) : ProcPidMetrics :=
  { (if pm.intialized then pm else pm.initParsers) with pidTidList }

theorem begin_cache (pm : ProcPidMetrics) (ps : List PidTid) : (pm.begin ps).cache = pm.cache := by
  unfold begin
  split <;> rfl

theorem fate_begin (cfg : Config) (call : Call) (pm : ProcPidMetrics) (ps : List PidTid) :
    fate cfg call (pm.begin ps) = fate cfg call pm := by
  unfold begin
  split <;> rfl

def scan (cfg : Config) (call : Call) (pm : ProcPidMetrics) (ps : List PidTid) : ScanState :=
  ps.foldl (scanPidTid cfg call (nextScanNum pm.scanNum)) (.start (pm.begin ps))

theorem nextScanNum_ne (n : Int64) : n ≠ nextScanNum n := by
  unfold nextScanNum
  split
  · rintro rfl
    exact absurd ‹(1 : Int64) + 1 = 0› (by decide)
  · intro h
    simp at h

/-! ## One call -/

def ExecuteReturn.published (ret : ExecuteReturn) (metric : SpecificMetric) : Option SampleValue :=
  ret.queued.findSome? fun
    | .specific s => if s.metric = metric then some s.value else none
    | .pidTid _ => none

def Linked (pm : ProcPidMetrics) (call : Call) : Prop :=
  ∀ ps, call.pidTidList = some ps → ∀ l, pm.lru.Threads l →
    ∀ p ∈ ps, ∀ r, pm.pidTidMetricsInfo.lookup p = some r → r ∈ l

/-- Some listed PID, TID is scanned to the end, unless the LRU list has no entry to remove. -/
def ScanCompletes (cfg : Config) (pm : ProcPidMetrics) (call : Call) : Prop :=
  ∀ ps, call.pidTidList = some ps →
    (∃ p ∈ ps, (fate cfg call pm p).completes = true) ∨
      ∀ l, pm.lru.Threads l → ∀ r ∈ l, (pm.info r).pidTid ∈ ps

/-- No listed PID, TID was reused and then could not be parsed. -/
def NoneLeftBehind (cfg : Config) (pm : ProcPidMetrics) (call : Call) : Prop :=
  ∀ ps, call.pidTidList = some ps → ∀ p ∈ ps, (fate cfg call pm p).isLeftBehind = false

/-- The list the source calls its input is one of distinct PIDs, TIDs. -/
def Call.Distinct (call : Call) : Prop := ∀ ps, call.pidTidList = some ps → ps.Nodup

/-- What a call leaves that got the list `ps` and came to its end. -/
structure Completed (cfg : Config) (pm : ProcPidMetrics) (call : Call) (ps : List PidTid)
    (l : List Ref) (ret : ExecuteReturn) (l' : List Ref) : Prop where
  ret_eq : ret.ret = true
  inv : ret.pm.Inv l'
  covers : NoneLeftBehind cfg pm call → pm.cache.Covers l → ret.pm.cache.Covers l'
  counts : ∃ new del : Int, ret.published .newCount = some (.int new) ∧
    ret.published .delCount = some (.int del) ∧
    new - del + ps.countP (fun p => (fate cfg call pm p).isLeftBehind) =
      ret.pm.pidTidMetricsInfo.keys.card - pm.pidTidMetricsInfo.keys.card

theorem execute_none (cfg : Config) (hlist : call.pidTidList = none) :
    execute cfg pm call =
      .ok ⟨false, if pm.intialized then pm else pm.initParsers, [], 0, 0⟩ := by
  unfold execute
  rw [hlist]

theorem published_specific (cfg : Config) (st : ScanState) (hasPrev : Bool) (prevTs currTs : Int)
    (ret : ExecuteReturn) (hret : ret.queued = st.out.buf.map .pidTid ++
      (specificSamples cfg hasPrev prevTs currTs st).map .specific) :
    ret.published .newCount = some (.int st.addPidCount) ∧
      ret.published .delCount = some (.int st.delPidCount) := by
  have hpid : ∀ metric, (st.out.buf.map ProcPidLine.pidTid).findSome? (fun
      | .specific s => if s.metric = metric then some s.value else none
      | .pidTid _ => none) = none := by
    intro metric
    rw [findSome?_map, findSome?_eq_none_iff]
    intro s _
    rfl
  unfold ExecuteReturn.published
  rw [hret, findSome?_append, findSome?_append, hpid, hpid]
  exact ⟨rfl, rfl⟩

theorem execute_some (cfg : Config) (pm : ProcPidMetrics) {ps : List PidTid}
    (hlist : call.pidTidList = some ps) :
    execute cfg pm call =
      match pruneLru (nextScanNum pm.scanNum) (scan cfg call pm ps).pm.nextRef
        (scan cfg call pm ps).pm.lru.head (scan cfg call pm ps) with
      | .nilDeref => .nilDeref
      | .diverge => .diverge
      | .ok st =>
        let specific := specificSamples cfg pm.intialized (pm.begin ps).prevTs call.endTime st
        .ok {
          ret := true
          pm := { st.pm with prevTs := call.endTime, scanNum := nextScanNum pm.scanNum }
          queued := st.out.buf.map .pidTid ++ specific.map .specific
          actualMetricsCount := st.out.actualMetricsCount + specific.length
          totalMetricsCount := cfg.perPidTidMetricCount * st.pidTidCount +
            cfg.perPidOnlyMetricCount * st.pidOnlyCount + 7 } := by
  unfold execute scan begin
  rw [hlist]
  cases pm.intialized <;> rfl

section OneCall

variable {cfg : Config} {pm : ProcPidMetrics} {call : Call} {ps : List PidTid} {l : List Ref}

theorem scan_begin (cfg : Config) (hinv : pm.Inv l) (hlist : call.pidTidList = some ps)
    (hdist : ps.Nodup) (hlinked : Linked pm call) :
    ∃ stale fresh, Scanned (nextScanNum pm.scanNum) (fate cfg call pm) ps pm.cache
      (scan cfg call pm ps).cache [] l [] stale fresh := by
  have hstart : (ScanState.start (pm.begin ps)).cache = pm.cache := begin_cache pm ps
  have hscan : (ScanState.start (pm.begin ps)).cache.Scanning (nextScanNum pm.scanNum) [] l [] := by
    rw [hstart]
    refine ⟨by simpa using hinv.cache, ?_, by simp, by simp, by simp⟩
    intro r hr
    change (pm.info r).scanNum ≠ _
    rw [hinv.scanned r hr]
    exact nextScanNum_ne _
  have h := scan_loop cfg call _ ps _ [] l [] hscan hdist (by simp) ?_
  · change ∃ stale fresh, Scanned _ (fate cfg call (pm.begin ps)) ps _ _ [] l [] stale fresh at h
    rwa [fate_begin, hstart] at h
  · intro p hp r hr
    rw [hstart] at hr
    simpa using hlinked ps hlist l hinv.cache.threads p hp r hr

theorem length_le_nextRef {c : Cache} (h : c.Inv l) : l.length ≤ c.nextRef := by
  have hsub : l ⊆ range c.nextRef := fun r hr => mem_range.mpr (h.lt_nextRef hr)
  have := (subperm_of_subset h.threads.nodup hsub).length_le
  rwa [length_range] at this

variable (hinv : pm.Inv l) (hlist : call.pidTidList = some ps)
include hinv hlist

theorem scanCompletes_iff {c : Cache} {stale fresh : List Ref}
    (hscan : Scanned (nextScanNum pm.scanNum) (fate cfg call pm) ps pm.cache c [] l [] stale fresh) :
    ScanCompletes cfg pm call ↔ fresh ≠ [] ∨ stale = [] := by
  have hfresh : fresh ≠ [] ↔ ∃ p ∈ ps, (fate cfg call pm p).completes := by
    rw [Ne, hscan.fresh_iff]
    simp
  have hstale : stale = [] ↔ ∀ r ∈ l, (pm.info r).pidTid ∈ ps := by
    rw [eq_nil_iff_forall_not_mem]
    refine forall_congr' fun r => ?_
    rw [hscan.stale_iff, not_and, not_not]
    rfl
  rw [hfresh, hstale]
  constructor
  · intro h
    exact (h ps hlist).imp_right fun hall => hall l hinv.cache.threads
  · intro h ps' hps'
    obtain rfl : ps = ps' := some.inj (hlist.symm.trans hps')
    refine h.imp_right fun hall l' hl' => ?_
    rwa [hl'.unique hinv.cache.threads]

theorem execute_completed (hdist : ps.Nodup) (hlinked : Linked pm call)
    (hend : ScanCompletes cfg pm call) :
    ∃ ret l', execute cfg pm call = .ok ret ∧ Completed cfg pm call ps l ret l' := by
  obtain ⟨stale, fresh, hscan⟩ := scan_begin cfg hinv hlist hdist hlinked
  obtain ⟨st, hrun, hst, hbal, hcov⟩ := pruneLru_ok _ stale fresh
    ((scanCompletes_iff hinv hlist hscan).mp hend) _ _ _ hscan.scanning
    (length_le_nextRef hscan.scanning.toInv)
  have hret := execute_some cfg pm hlist
  rw [show pruneLru _ (scan cfg call pm ps).pm.nextRef _ _ = _ from hrun] at hret
  refine ⟨_, fresh, hret, rfl, ⟨⟨hst.threads, hst.owner, hst.mapped⟩, hst.fresh_num⟩, ?_, ?_⟩
  · intro hleft hc
    refine hcov (hscan.covers (hleft ps hlist) ?_)
    simpa using hc
  refine ⟨st.addPidCount, st.delPidCount, (published_specific cfg st _ _ _ _ rfl).1,
    (published_specific cfg st _ _ _ _ rfl).2, ?_⟩
  have hbefore : pm.cache.balance = pm.pidTidMetricsInfo.keys.card := by
    simp [Cache.balance, cache, ScanState.cache, ScanState.start]
  have hafter : st.cache.balance =
      st.pm.pidTidMetricsInfo.keys.card - st.addPidCount + st.delPidCount := rfl
  rw [hafter, hscan.balance, hbefore] at hbal
  change (st.addPidCount : Int) - st.delPidCount + _ = st.pm.pidTidMetricsInfo.keys.card - _
  omega

theorem execute_nilDeref (hdist : ps.Nodup) (hlinked : Linked pm call)
    (hend : ¬ ScanCompletes cfg pm call) : execute cfg pm call = .nilDeref := by
  obtain ⟨stale, fresh, hscan⟩ := scan_begin cfg hinv hlist hdist hlinked
  rw [scanCompletes_iff hinv hlist hscan, not_or, not_not] at hend
  obtain ⟨rfl, hstale⟩ := hend
  have hlen := length_le_nextRef hscan.scanning.toInv
  rw [append_nil] at hlen
  have hrun := pruneLru_nilDeref _ stale hstale _ _ _ hscan.scanning hlen
  rw [execute_some cfg pm hlist]
  rw [show pruneLru _ (scan cfg call pm ps).pm.nextRef _ _ = _ from hrun]

end OneCall

/-! ## Runs -/

/-- The next call finds what this one left; after a panic there is no next call. -/
def Step (cfg : Config) (pm : ProcPidMetrics) (call : Call) (pm' : ProcPidMetrics) : Prop :=
  ∃ ret, execute cfg pm call = .ok ret ∧ ret.pm = pm'

section

variable (hinv : pm.Inv l) (hdist : call.Distinct) (hlinked : Linked pm call)
include hinv hdist hlinked

theorem inv_step {pm' : ProcPidMetrics} (hstep : Step cfg pm call pm') : ∃ l', pm'.Inv l' := by
  obtain ⟨ret, hret, rfl⟩ := hstep
  cases hlist : call.pidTidList with
  | none =>
    obtain rfl := ok.inj ((execute_none cfg hlist).symm.trans hret)
    refine ⟨l, ?_⟩
    show (if pm.intialized then pm else pm.initParsers).Inv l
    split
    · exact hinv
    · exact ⟨hinv.cache, hinv.scanned⟩
  | some ps =>
    by_cases hend : ScanCompletes cfg pm call
    · obtain ⟨ret', l', hret', hdone⟩ := execute_completed hinv hlist (hdist ps hlist) hlinked hend
      obtain rfl := ok.inj (hret'.symm.trans hret)
      exact ⟨l', hdone.inv⟩
    · rw [execute_nilDeref hinv hlist (hdist ps hlist) hlinked hend] at hret
      cases hret

theorem execute_eq_nilDeref_iff :
    execute cfg pm call = .nilDeref ↔ ¬ ScanCompletes cfg pm call := by
  cases hlist : call.pidTidList with
  | none => simp [execute_none cfg hlist, ScanCompletes, hlist]
  | some ps =>
    refine ⟨fun h hend => ?_, execute_nilDeref hinv hlist (hdist ps hlist) hlinked⟩
    obtain ⟨ret, l', hret, -⟩ := execute_completed hinv hlist (hdist ps hlist) hlinked hend
    rw [hret] at h
    cases h

theorem execute_ne_diverge : execute cfg pm call ≠ .diverge := by
  cases hlist : call.pidTidList with
  | none => simp [execute_none cfg hlist]
  | some ps =>
    by_cases hend : ScanCompletes cfg pm call
    · obtain ⟨ret, l', hret, -⟩ := execute_completed hinv hlist (hdist ps hlist) hlinked hend
      simp [hret]
    · simp [execute_nilDeref hinv hlist (hdist ps hlist) hlinked hend]

end

/-- As long as no listed PID, TID has its entry off the LRU list, the calls are free of nil
dereferences exactly when each of them finds an entry that the removal of outdated ones can stop
at; and they all end. -/
theorem execute_ne_nilDeref_iff (cfg : Config) (calls : List Call)
    (hdist : ∀ call ∈ calls, call.Distinct)
    (hlinked : Always (Step cfg) Linked newProcPidMetrics calls) :
    (Always (Step cfg) (fun pm call => execute cfg pm call ≠ .nilDeref) newProcPidMetrics calls ↔
      Always (Step cfg) (ScanCompletes cfg) newProcPidMetrics calls) ∧
    Always (Step cfg) (fun pm call => execute cfg pm call ≠ .diverge) newProcPidMetrics calls := by
  have hrun := (Always.of_forall_mem hdist newProcPidMetrics).and hlinked
  have hstep : ∀ pm call pm', (∃ l, pm.Inv l) → call.Distinct ∧ Linked pm call →
      Step cfg pm call pm' → ∃ l', pm'.Inv l' := by
    rintro pm call pm' ⟨l, hinv⟩ ⟨hd, hl⟩ hs
    exact inv_step hinv hd hl hs
  have hstart : ∃ l, newProcPidMetrics.Inv l := ⟨[], newProcPidMetrics_inv⟩
  constructor
  · refine Always.iff_of_invariant ?_ (fun pm call pm' hi hc _ => hstep pm call pm' hi hc) hstart
      hrun
    rintro pm call ⟨l, hinv⟩ ⟨hd, hl⟩
    exact (not_congr (execute_eq_nilDeref_iff hinv hd hl)).trans not_not
  · refine Always.of_invariant ?_ hstep hstart hrun
    rintro pm call ⟨l, hinv⟩ ⟨hd, hl⟩
    exact execute_ne_diverge hinv hd hl

def plainConfig : Config :=
  { fullMetricsFactor := 1, usePidStatus := false, pidStatusMemKeepIndex := [], partNo := 0
    pageSize := 4096, starttimeMsec := fun b => b }

def plainCall (ps : List PidTid) : Call :=
  { pidTidList := some ps, stat := fun _ => ⟨true, newPidStat⟩
    status := fun _ => ⟨true, newPidStatus⟩, cmdline := fun _ => ⟨true, newPidCmdline⟩
    timeNow := fun _ => 0, cycleNum := fun _ => 0, endTime := 0 }

-- A process, and then none at all.
theorem execute_nilDeref_of_no_process :
    ¬ ∀ (cfg : Config) (calls : List Call), (∀ call ∈ calls, call.Distinct) →
      Always (Step cfg) (fun pm call => execute cfg pm call ≠ .nilDeref) newProcPidMetrics
        calls := by
  intro h
  have hrun := h plainConfig [plainCall [⟨1, 0⟩], plainCall []]
    (by simp [Call.Distinct, plainCall])
  exact (hrun.2 _ ⟨_, rfl, rfl⟩).1 rfl

theorem execute_ne_nilDeref_same_process :
    Always (Step plainConfig) (fun pm call => execute plainConfig pm call ≠ .nilDeref)
      newProcPidMetrics [plainCall [⟨1, 0⟩], plainCall [⟨1, 0⟩]] := by
  refine (execute_ne_nilDeref_iff plainConfig [plainCall [⟨1, 0⟩], plainCall [⟨1, 0⟩]]
    (by simp [Call.Distinct, plainCall]) ⟨?_, ?_⟩).1.mpr ⟨?_, ?_⟩
  · intro ps hps l hl p hp r hr
    simp [newProcPidMetrics] at hr
  · rintro pm ⟨ret, hret, rfl⟩
    obtain rfl := ok.inj hret
    refine ⟨?_, fun _ _ => trivial⟩
    rintro ps hps l hl p hp r hr
    obtain rfl := some.inj hps
    obtain rfl := mem_singleton.mp hp
    obtain rfl : 0 = r := some.inj hr
    exact mem_of_head? hl.head_eq.symm
  · rintro ps hps
    obtain rfl := some.inj hps
    exact .inl ⟨⟨1, 0⟩, by simp, rfl⟩
  rintro pm ⟨ret, hret, rfl⟩
  obtain rfl := ok.inj hret
  refine ⟨?_, fun _ _ => trivial⟩
  rintro ps hps
  obtain rfl := some.inj hps
  exact .inl ⟨⟨1, 0⟩, by simp, rfl⟩

/-! ## The list, the map and the counts -/

/-- The LRU list holds the values of the map, each once, all of them scanned last time. -/
def ProcPidMetrics.Coherent (pm : ProcPidMetrics) : Prop :=
  ∃ l, pm.lru.Threads l ∧ (l : Multiset Ref) = pm.pidTidMetricsInfo.entries.map Sigma.snd ∧
    ∀ r ∈ l, (pm.info r).scanNum = pm.scanNum

def CountsMatch (pm : ProcPidMetrics) (ret : ExecuteReturn) : Prop :=
  ∃ new del : Int, ret.published .newCount = some (.int new) ∧
    ret.published .delCount = some (.int del) ∧
    new - del = ret.pm.pidTidMetricsInfo.keys.card - pm.pidTidMetricsInfo.keys.card

def ReturnsTrue (cfg : Config) (pm : ProcPidMetrics) (call : Call) : Prop :=
  ∃ ret, execute cfg pm call = .ok ret ∧ ret.ret = true

/-- A call that returns leaves the list and the map coherent and has published matching counts. -/
def KeepsBooks (cfg : Config) (pm : ProcPidMetrics) (call : Call) : Prop :=
  ∀ ret, execute cfg pm call = .ok ret → ret.pm.Coherent ∧ CountsMatch pm ret

theorem coherent_of_inv (hinv : pm.Inv l) (hcov : pm.cache.Covers l) : pm.Coherent := by
  refine ⟨l, hinv.cache.threads, ?_, hinv.scanned⟩
  have howner : ∀ e ∈ pm.pidTidMetricsInfo.entries, (pm.info e.2).pidTid = e.1 := fun e he =>
    (hinv.cache.owner e.1 e.2 (Finmap.lookup_eq_some_iff.mpr he)).1
  have hinj : ∀ e ∈ pm.pidTidMetricsInfo.entries, ∀ e' ∈ pm.pidTidMetricsInfo.entries,
      e.2 = e'.2 → e = e' := by
    intro e he e' he' h
    refine Sigma.ext ?_ (heq_of_eq h)
    rw [← howner e he, h, howner e' he']
  have hnodup := Multiset.Nodup.map_on hinj pm.pidTidMetricsInfo.nodup_entries
  rw [Multiset.Nodup.ext (Multiset.coe_nodup.mpr hinv.cache.threads.nodup) hnodup]
  intro r
  rw [Multiset.mem_coe, Multiset.mem_map]
  constructor
  · intro hr
    exact ⟨⟨_, r⟩, Finmap.lookup_eq_some_iff.mp (hinv.cache.mapped r hr), rfl⟩
  · rintro ⟨e, he, rfl⟩
    exact hcov e.1 e.2 (Finmap.lookup_eq_some_iff.mpr he)

theorem ReturnsTrue.list (h : ReturnsTrue cfg pm call) : ∃ ps, call.pidTidList = some ps := by
  obtain ⟨ret, hret, htrue⟩ := h
  cases hlist : call.pidTidList with
  | none =>
    obtain rfl := ok.inj ((execute_none cfg hlist).symm.trans hret)
    cases htrue
  | some ps => exact ⟨ps, rfl⟩

section

variable {cfg : Config} {pm : ProcPidMetrics} {call : Call} {l : List Ref} (hinv : pm.Inv l)
  (hcov : pm.cache.Covers l) (hdist : call.Distinct) (htrue : ReturnsTrue cfg pm call)
include hinv hcov hdist htrue

theorem ReturnsTrue.completed :
    ∃ ps ret l', call.pidTidList = some ps ∧ execute cfg pm call = .ok ret ∧
      Completed cfg pm call ps l ret l' := by
  obtain ⟨ps, hlist⟩ := htrue.list
  have hlinked : Linked pm call := by
    intro ps' _ l' hl' p _ r hr
    rw [hl'.unique hinv.cache.threads]
    exact hcov p r hr
  have hend : ScanCompletes cfg pm call := by
    by_contra hend
    obtain ⟨ret, hret, -⟩ := htrue
    rw [execute_nilDeref hinv hlist (hdist ps hlist) hlinked hend] at hret
    cases hret
  obtain ⟨ret, l', hret, hdone⟩ := execute_completed hinv hlist (hdist ps hlist) hlinked hend
  exact ⟨ps, ret, l', hlist, hret, hdone⟩

theorem keepsBooks_iff : KeepsBooks cfg pm call ↔ NoneLeftBehind cfg pm call := by
  obtain ⟨ps, ret, l', hlist, hret, hdone⟩ := htrue.completed hinv hcov hdist
  obtain ⟨new, del, hnew, hdel, hcount⟩ := hdone.counts
  constructor
  · intro h ps' hps'
    obtain rfl : ps = ps' := some.inj (hlist.symm.trans hps')
    obtain ⟨-, new', del', hnew', hdel', hmatch⟩ := h ret hret
    obtain rfl : new = new' := by simpa [hnew] using hnew'
    obtain rfl : del = del' := by simpa [hdel] using hdel'
    have hzero : ps.countP (fun p => (fate cfg call pm p).isLeftBehind) = 0 := by omega
    intro p hp
    simpa using countP_eq_zero.mp hzero p hp
  · intro h ret' hret'
    obtain rfl := ok.inj (hret.symm.trans hret')
    refine ⟨coherent_of_inv hdone.inv (hdone.covers h hcov), new, del, hnew, hdel, ?_⟩
    have hzero : ps.countP (fun p => (fate cfg call pm p).isLeftBehind) = 0 := by
      rw [countP_eq_zero]
      intro p hp
      simp [h ps hlist p hp]
    omega

theorem covers_step {pm' : ProcPidMetrics} (hleft : NoneLeftBehind cfg pm call)
    (hstep : Step cfg pm call pm') : ∃ l', pm'.Inv l' ∧ pm'.cache.Covers l' := by
  obtain ⟨ps, ret, l', hlist, hret, hdone⟩ := htrue.completed hinv hcov hdist
  obtain ⟨ret', hret', rfl⟩ := hstep
  obtain rfl := ok.inj (hret.symm.trans hret')
  exact ⟨l', hdone.inv, hdone.covers hleft hcov⟩

end

/-- Over calls that all return true, the list, the map and the counts stay together exactly when no
call finds a reused PID, TID that it then cannot parse. -/
theorem execute_keepsBooks_iff (cfg : Config) (calls : List Call)
    (hdist : ∀ call ∈ calls, call.Distinct)
    (htrue : Always (Step cfg) (ReturnsTrue cfg) newProcPidMetrics calls) :
    Always (Step cfg) (KeepsBooks cfg) newProcPidMetrics calls ↔
      Always (Step cfg) (NoneLeftBehind cfg) newProcPidMetrics calls := by
  have hrun := (Always.of_forall_mem hdist newProcPidMetrics).and htrue
  let I (pm : ProcPidMetrics) : Prop := ∃ l, pm.Inv l ∧ pm.cache.Covers l
  have hstart : I newProcPidMetrics := by
    refine ⟨[], newProcPidMetrics_inv, fun p r hr => ?_⟩
    simp [cache, ScanState.cache, ScanState.start, newProcPidMetrics] at hr
  refine Always.iff_of_invariant (I := I) ?_ ?_ hstart hrun
  · rintro pm call ⟨l, hinv, hcov⟩ ⟨hd, ht⟩
    exact keepsBooks_iff hinv hcov hd ht
  · rintro pm call pm' ⟨l, hinv, hcov⟩ ⟨hd, ht⟩ hleft hs
    exact covers_step hinv hcov hd ht hleft hs

def reusedCall : Call :=
  { plainCall [⟨1, 0⟩] with
    stat := fun _ => ⟨true, ⟨fun _ => [49], fun _ => 0⟩⟩, cmdline := fun _ => ⟨false, ⟨[], [], []⟩⟩ }

theorem execute_keepsBooks_same_process :
    Always (Step plainConfig) (KeepsBooks plainConfig) newProcPidMetrics
      [plainCall [⟨1, 0⟩], plainCall [⟨1, 0⟩]] := by
  refine (execute_keepsBooks_iff plainConfig [plainCall [⟨1, 0⟩], plainCall [⟨1, 0⟩]]
    (by simp [Call.Distinct, plainCall]) ⟨⟨_, rfl, rfl⟩, ?_⟩).mpr ⟨?_, ?_⟩
  · rintro pm ⟨ret, hret, rfl⟩
    obtain rfl := ok.inj hret
    exact ⟨⟨_, rfl, rfl⟩, fun _ _ => trivial⟩
  · rintro ps hps p hp
    obtain rfl := some.inj hps
    obtain rfl := mem_singleton.mp hp
    rfl
  rintro pm ⟨ret, hret, rfl⟩
  obtain rfl := ok.inj hret
  refine ⟨?_, fun _ _ => trivial⟩
  rintro ps hps p hp
  obtain rfl := some.inj hps
  obtain rfl := mem_singleton.mp hp
  rfl

-- The old entry stays in the map, off the list, and is counted as deleted.
theorem execute_books_broken_by_reuse :
    ¬ ∀ (cfg : Config) (calls : List Call), (∀ call ∈ calls, call.Distinct) →
      Always (Step cfg) (ReturnsTrue cfg) newProcPidMetrics calls →
      Always (Step cfg) (KeepsBooks cfg) newProcPidMetrics calls := by
  intro h
  have hrun := h plainConfig [plainCall [⟨1, 0⟩], reusedCall]
    (by simp [Call.Distinct, plainCall, reusedCall]) ⟨⟨_, rfl, rfl⟩, ?_⟩
  · obtain ⟨-, new, del, hnew, hdel, hmatch⟩ := (hrun.2 _ ⟨_, rfl, rfl⟩).1 _ rfl
    obtain rfl : 0 = new := SampleValue.int.inj (some.inj hnew)
    obtain rfl : 1 = del := SampleValue.int.inj (some.inj hdel)
    exact absurd hmatch (by decide)
  · rintro pm ⟨ret, hret, rfl⟩
    obtain rfl := ok.inj hret
    exact ⟨⟨_, rfl, rfl⟩, fun _ _ => trivial⟩

end Lsvmi.ProcPid
