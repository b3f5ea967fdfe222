import Lsvmi.ProcPid.Execute

/-!
# The cache of a scan

What a scan does to the map, the LRU list, the scan numbers and the two counters, with the parsers,
the metrics and the clock taken away.  The whole body of the loop over the PID, TID list comes down
to one of seven `Fate`s, read off the outcomes of the parsers and the entry the PID, TID had before.
-/

namespace Lsvmi.ProcPid

open Reasoning Function

variable (cfg : Config) (call : Call) (scanNum : Int64) (st : ScanState) (p : PidTid) (r : Ref)

theorem removeFromLru_eq (L : Links Ref) (r : Ref) : removeFromLru L r = L.unlink r := by
  unfold removeFromLru Links.unlink
  cases hn : L.next r with
  | none =>
    cases hp : L.prev r
    all_goals
      simp only [hn, hp, if_true, reduceCtorEq, if_false]
      congr 1 <;> funext x <;> grind [update_apply]
  | some n =>
    -- Reading `prev` of the entry after its neighbour was written gives what it was before.
    have hprev : update L.prev n (L.prev r) r = L.prev r := by
      grind [update_apply]
    cases hp : L.prev r
    all_goals
      simp only [hp] at hprev
      simp only [hn, hprev, if_true, reduceCtorEq, if_false]
      congr 1 <;> funext x <;> grind [update_apply]

theorem addToLruTail_eq (L : Links Ref) (r : Ref) : addToLruTail L r = L.pushBack r := by
  unfold addToLruTail Links.pushBack
  cases ht : L.tail with
  | none => simp
  | some t =>
    simp only [reduceCtorEq, if_false]
    congr 1 <;> funext x <;> grind [update_apply]
/-- The part of a scan that its bookkeeping is about. -/
structure Cache where
  entries : Finmap fun _ : PidTid => Ref
  lru : Links Ref
  pidTidOf : Ref → PidTid
  scanNumOf : Ref → Int64
  nextRef : Ref
  added : Nat
  deleted : Nat

def ScanState.cache (st : ScanState) : Cache where
  entries := st.pm.pidTidMetricsInfo
  lru := st.pm.lru
  pidTidOf r := (st.pm.info r).pidTid
  scanNumOf r := (st.pm.info r).scanNum
  nextRef := st.pm.nextRef
  added := st.addPidCount
  deleted := st.delPidCount

namespace Cache

def unlink (c : Cache) (r : Ref) : Cache := { c with lru := c.lru.unlink r }

def forget (c : Cache) (p : PidTid) : Cache :=
  { c with entries := c.entries.erase p, deleted := c.deleted + 1 }

def alloc (c : Cache) (p : PidTid) : Cache :=
  { c with
    lru := { c.lru with next := Function.update c.lru.next c.nextRef none
                        prev := Function.update c.lru.prev c.nextRef none }
    pidTidOf := Function.update c.pidTidOf c.nextRef p
    scanNumOf := Function.update c.scanNumOf c.nextRef 0
    nextRef := c.nextRef + 1 }

def store (c : Cache) (p : PidTid) (r : Ref) : Cache :=
  { c with entries := c.entries.insert p r, added := c.added + 1 }

def mark (c : Cache) (scanNum : Int64) (r : Ref) : Cache :=
  { c with scanNumOf := Function.update c.scanNumOf r scanNum, lru := c.lru.pushBack r }

def countDeleted (c : Cache) : Cache := { c with deleted := c.deleted + 1 }

end Cache

/-- What becomes of a PID, TID of the list and of the entry `r` it had. -/
inductive Fate where
  /-- not cached, and its stat file cannot be parsed -/
  | ignored
  /-- not cached, and its status or cmdline file cannot be parsed -/
  | abandoned
  /-- cached, and one of its files cannot be parsed -/
  | dropped (r : Ref)
  /-- reused, with a status or cmdline file that cannot be parsed -/
  | leftBehind (r : Ref)
  | added
  /-- reused -/
  | replaced (r : Ref)
  /-- the same process or thread as before, scanned to the end -/
  | refreshed (r : Ref)
  deriving DecidableEq

def Fate.completes : Fate → Bool
  | .added | .replaced _ | .refreshed _ => true
  | _ => false

def filesFail (cfg : Config) (call : Call) (p : PidTid) (fullOrNew : Bool) : Bool :=
  (cfg.usePidStatus && !(call.status p).ok) ||
    (p.tid == pidOnlyTid && fullOrNew && !(call.cmdline p).ok)

def reused (call : Call) (info : ProcPidTidMetricsInfo) (p : PidTid) : Bool :=
  (call.stat p).data.bsf .starttime != info.pidStat.bsf .starttime

def skipped (call : Call) (info : ProcPidTidMetricsInfo) (p : PidTid) : Bool :=
  !((call.stat p).data.nf .utime != info.pidStat.nf .utime ||
    (call.stat p).data.nf .stime != info.pidStat.nf .stime) &&
    !(info.cycleNum == 0) && !info.active

def fate (cfg : Config) (call : Call) (pm : ProcPidMetrics) (p : PidTid) : Fate :=
  match pm.pidTidMetricsInfo.lookup p with
  | none =>
    if !(call.stat p).ok then .ignored
    else if filesFail cfg call p true then .abandoned else .added
  | some r =>
    if !(call.stat p).ok then .dropped r
    else if reused call (pm.info r) p then
      if filesFail cfg call p true then .leftBehind r else .replaced r
    else if skipped call (pm.info r) p then .refreshed r
    else if filesFail cfg call p ((pm.info r).cycleNum == 0) then .dropped r else .refreshed r

def Cache.apply (scanNum : Int64) (p : PidTid) : Fate → Cache → Cache
  | .ignored, c => c
  | .abandoned, c => c.alloc p
  | .dropped r, c => (c.unlink r).forget p
  | .leftBehind r, c => ((c.unlink r).countDeleted).alloc p
  | .added, c => ((c.alloc p).store p c.nextRef).mark scanNum c.nextRef
  | .replaced r, c =>
    ((((c.unlink r).countDeleted).alloc p).store p c.nextRef).mark scanNum c.nextRef
  | .refreshed r, c => (c.unlink r).mark scanNum r

open ScanState

theorem setInfo_cache (info : ProcPidTidMetricsInfo) (hp : info.pidTid = (st.pm.info r).pidTid) :
    (st.setInfo r info).cache =
      { st.cache with scanNumOf := update st.cache.scanNumOf r info.scanNum } := by
  unfold setInfo cache
  simp only [Cache.mk.injEq, true_and, and_true]
  constructor
  · refine (comp_update ProcPidTidMetricsInfo.pidTid st.pm.info r info).trans ?_
    rw [hp]
    exact update_eq_self _ _
  · exact comp_update ProcPidTidMetricsInfo.scanNum _ _ _

theorem setActive_cache (active : Bool) :
    (st.setInfo r { st.pm.info r with active }).cache = st.cache := by
  refine (setInfo_cache st r { st.pm.info r with active } rfl).trans ?_
  change { st.cache with
    scanNumOf := update st.cache.scanNumOf r (st.cache.scanNumOf r) } = st.cache
  rw [update_eq_self]

theorem forget_cache : (st.forget p).cache = st.cache.forget p := rfl

theorem parseStatus_cache : (st.parseStatus cfg call p).cache = st.cache := by
  unfold parseStatus
  split <;> rfl

theorem parseCmdline_cache (needed : Bool) : (st.parseCmdline call p needed).cache = st.cache := by
  unfold parseCmdline
  split <;> rfl

theorem initPidTidMetricsInfo_cache :
    (st.initPidTidMetricsInfo cfg call p).cache = st.cache.alloc p := by
  unfold initPidTidMetricsInfo cache Cache.alloc
  simp only [Cache.mk.injEq, true_and, and_true]
  constructor
  all_goals
    funext x
    by_cases hx : x = st.pm.nextRef <;> simp [hx, newPidTidMetricsInfo]

theorem readd_cache : (st.readd p r).cache = { st.cache with lru := st.cache.lru.pushBack r } := by
  unfold readd cache
  rw [addToLruTail_eq]

theorem skipInactive_cache :
    (st.skipInactive cfg call scanNum p r).cache = st.cache.mark scanNum r := by
  unfold skipInactive
  simp only [readd_cache]
  rw [setInfo_cache]
  · rfl
  · rfl

theorem publish_cache (hasPrev active fullMetrics : Bool) :
    (st.publish cfg call scanNum p r hasPrev active fullMetrics).cache =
      (if hasPrev then st.cache else st.cache.store p r).mark scanNum r := by
  unfold publish
  rw [readd_cache]
  unfold cache Cache.mark Cache.store
  cases hasPrev
  all_goals
    simp only [if_true, if_false, Bool.false_eq_true, Cache.mk.injEq, true_and, and_true,
      Nat.add_zero]
    constructor
    · refine (comp_update ProcPidTidMetricsInfo.pidTid st.pm.info r _).trans ?_
      refine (congrArg (update _ r) ?_).trans (update_eq_self _ _)
      -- the entry keeps its PID, TID
      unfold generateMetrics
      cases p.tid == pidOnlyTid <;> rfl
    · exact comp_update ProcPidTidMetricsInfo.scanNum _ _ _

theorem scanEntry_cache (hasPrev active fullMetrics : Bool) :
    (st.scanEntry cfg call scanNum p r hasPrev active fullMetrics).cache =
      if filesFail cfg call p (fullMetrics || !hasPrev) then
        if hasPrev then st.cache.forget p else st.cache
      else (if hasPrev then st.cache else st.cache.store p r).mark scanNum r := by
  unfold scanEntry filesFail
  by_cases hs : (cfg.usePidStatus && !(call.status p).ok)
  · simp only [hs, if_true, Bool.true_or]
    cases hasPrev <;> simp [forget_cache, parseStatus_cache, setActive_cache]
  by_cases hc : (p.tid == pidOnlyTid && (fullMetrics || !hasPrev) && !(call.cmdline p).ok)
  · simp only [hs, hc, if_true, Bool.or_true, Bool.false_eq_true, if_false]
    cases hasPrev <;> simp [forget_cache, parseCmdline_cache, parseStatus_cache, setActive_cache]
  · simp only [hs, hc, Bool.or_false, Bool.false_eq_true, if_false, publish_cache,
      parseCmdline_cache, parseStatus_cache, setActive_cache]

theorem scanNew_cache :
    (st.scanNew cfg call scanNum p).cache =
      if filesFail cfg call p true then st.cache.alloc p
      else ((st.cache.alloc p).store p st.cache.nextRef).mark scanNum st.cache.nextRef := by
  unfold scanNew
  rw [scanEntry_cache, initPidTidMetricsInfo_cache]
  simp only [Bool.not_false, Bool.or_true, Bool.false_eq_true, if_false]
  rfl

/-- The state once the stat file is read and the entry found in the cache is off the LRU list. -/
def ScanState.parseStat (call : Call) (st : ScanState) (p : PidTid) (cached : Option Ref) :
    ScanState :=
  { st with pm := { st.pm with
      lru := cached.elim st.pm.lru (removeFromLru st.pm.lru)
      pidStat := (call.stat p).data } }

inductive Body (cfg : Config) (call : Call) (scanNum : Int64) (st : ScanState) (p : PidTid) :
    Fate → ScanState → Prop
  | ignored (hl : st.pm.pidTidMetricsInfo.lookup p = none) :
    Body cfg call scanNum st p .ignored (st.parseStat call p none)
  | created (hl : st.pm.pidTidMetricsInfo.lookup p = none) :
    Body cfg call scanNum st p (if filesFail cfg call p true then .abandoned else .added)
      ((st.parseStat call p none).scanNew cfg call scanNum p)
  | gone (r : Ref) (hl : st.pm.pidTidMetricsInfo.lookup p = some r) :
    Body cfg call scanNum st p (.dropped r) ((st.parseStat call p (some r)).forget p)
  | reused (r : Ref) (hl : st.pm.pidTidMetricsInfo.lookup p = some r) :
    Body cfg call scanNum st p
      (if filesFail cfg call p true then .leftBehind r else .replaced r)
      (ScanState.scanNew cfg call scanNum
        { st.parseStat call p (some r) with delPidCount := st.delPidCount + 1 } p)
  | skipped (r : Ref) (hl : st.pm.pidTidMetricsInfo.lookup p = some r)
      (hcycle : (st.pm.info r).cycleNum ≠ 0) :
    Body cfg call scanNum st p (.refreshed r)
      ((st.parseStat call p (some r)).skipInactive cfg call scanNum p r)
  | scanned (r : Ref) (active : Bool) (hl : st.pm.pidTidMetricsInfo.lookup p = some r)
      (hstart : (call.stat p).data.bsf .starttime = (st.pm.info r).pidStat.bsf .starttime) :
    Body cfg call scanNum st p
      (if filesFail cfg call p ((st.pm.info r).cycleNum == 0 || !true) then .dropped r
        else .refreshed r)
      ((st.parseStat call p (some r)).scanEntry cfg call scanNum p r true active
        ((st.pm.info r).cycleNum == 0))

theorem scanPidTid_body :
    Body cfg call scanNum st p (fate cfg call st.pm p) (scanPidTid cfg call scanNum st p) := by
  unfold scanPidTid fate
  cases hl : st.pm.pidTidMetricsInfo.lookup p with
  | none =>
    cases hok : (call.stat p).ok with
    | true => exact .created hl
    | false => exact .ignored hl
  | some r =>
    cases hok : (call.stat p).ok with
    | false => exact .gone r hl
    | true =>
      simp only [reused, skipped, Bool.not_true, Bool.false_eq_true, if_false]
      by_cases hre : ((call.stat p).data.bsf .starttime != (st.pm.info r).pidStat.bsf .starttime)
      · simp only [hre, if_true]
        exact .reused r hl
      have hscanned : ∀ active, Body cfg call scanNum st p _ _ := fun active =>
        .scanned r active hl (by simpa using hre)
      rw [Bool.not_true, Bool.or_false] at hscanned
      by_cases hactive : ((call.stat p).data.nf .utime != (st.pm.info r).pidStat.nf .utime ||
          (call.stat p).data.nf .stime != (st.pm.info r).pidStat.nf .stime)
      · simp only [hre, hactive, Bool.not_true, Bool.false_and, Bool.false_eq_true, if_false, if_true]
        exact hscanned true
      by_cases hskip : (!((st.pm.info r).cycleNum == 0) && !(st.pm.info r).active)
      · simp only [hre, hactive, hskip, Bool.not_false, Bool.true_and, Bool.false_eq_true, if_false,
          if_true]
        refine .skipped r hl fun hzero => ?_
        rw [hzero] at hskip
        cases hskip
      · simp only [hre, hactive, hskip, Bool.not_false, Bool.true_and, Bool.false_eq_true, if_false]
        exact hscanned false

theorem scanPidTid_cache :
    (scanPidTid cfg call scanNum st p).cache =
      st.cache.apply scanNum p (fate cfg call st.pm p) := by
  have hbody := scanPidTid_body cfg call scanNum st p
  generalize fate cfg call st.pm p = f, scanPidTid cfg call scanNum st p = st' at hbody ⊢
  cases hbody with
  | ignored => rfl
  | created =>
    rw [scanNew_cache]
    split <;> rfl
  | gone r =>
    simp only [forget_cache, parseStat, Option.elim, removeFromLru_eq]
    rfl
  | reused r =>
    simp only [scanNew_cache, parseStat, Option.elim, removeFromLru_eq]
    split <;> rfl
  | skipped r =>
    simp only [skipInactive_cache, parseStat, Option.elim, removeFromLru_eq]
    rfl
  | scanned r active =>
    simp only [scanEntry_cache, parseStat, Option.elim, removeFromLru_eq]
    split <;> rfl

end Lsvmi.ProcPid
