import Mathlib.Data.Finmap
import Lsvmi.ProcPid.GenerateMetrics
import Lsvmi.Reasoning.LinkedList

/-!
# `ProcPidMetrics.Execute`

The cache entries are heap objects, named by a `Ref`; a nil pointer is `none`.  The LRU pointers of
the entries and the two ends of the list are kept together in `lru`, the other fields in `info`.
-/

namespace Lsvmi.ProcPid

open Reasoning

/-- The address of a `ProcPidTidMetricsInfo`. -/
abbrev Ref := Nat

/-- The fields of `ProcPidMetrics` that change from one scan to the next. -/
structure ProcPidMetrics where
  intialized : Bool
  scanNum : Int64
  pidTidList : List PidTid
  pidTidMetricsInfo : Finmap fun _ : PidTid => Ref
  lru : Links Ref
  info : Ref → ProcPidTidMetricsInfo
  /-- Everything below is allocated. -/
  nextRef : Ref
  pidStat : PidStat
  pidStatus : PidStatus
  pidCmdline : PidCmdline
  prevTs : Int

/-- What the outside world answers during one call of `Execute`: the PID, TID list (`none` for an
error), the outcomes of the parsers, the clock, and the shared initial cycle number. -/
structure Call where
  pidTidList : Option (List PidTid)
  stat : PidTid → Parsed PidStat
  status : PidTid → Parsed PidStatus
  cmdline : PidTid → Parsed PidCmdline
  timeNow : PidTid → Int
  cycleNum : PidTid → Int
  endTime : Int

def newPidTidMetricsInfo (pidTid : PidTid) (starttimeMsec : Bytes) (cycleNum : Int) :
    ProcPidTidMetricsInfo :=
  { pidStat := newPidStat, pidStatus := newPidStatus, prevTs := 0, pidTid, starttimeMsec
    active := false, pidStatFltZeroDelta := fun _ => false
    pidStatusCtxZeroDelta := fun _ => false, cycleNum, scanNum := 0 }

def newProcPidMetrics : ProcPidMetrics :=
  { intialized := false, scanNum := 0, pidTidList := [], pidTidMetricsInfo := ∅
    lru := Links.empty, info := fun _ => newPidTidMetricsInfo ⟨0, 0⟩ [] 0, nextRef := 0
    pidStat := newPidStat, pidStatus := newPidStatus, pidCmdline := newPidCmdline, prevTs := 0 }

/-- `ProcPidMetrics.initialize`; the metric formats are fixed by the configuration. -/
def ProcPidMetrics.initParsers (pm : ProcPidMetrics) : ProcPidMetrics :=
  { pm with pidStat := newPidStat, pidStatus := newPidStatus, pidCmdline := newPidCmdline
            intialized := true }

structure ScanState where
  pm : ProcPidMetrics
  out : Out
  pidTidCount : Nat
  pidOnlyCount : Nat
  activePidTidCount : Nat
  addPidCount : Nat
  delPidCount : Nat

def ScanState.start (pm : ProcPidMetrics) : ScanState := ⟨pm, ⟨[], 0⟩, 0, 0, 0, 0, 0⟩

def ScanState.setInfo (st : ScanState) (r : Ref) (info : ProcPidTidMetricsInfo) : ScanState :=
  { st with pm := { st.pm with info := Function.update st.pm.info r info } }

def removeFromLru (L : Links Ref) (r : Ref) : Links Ref :=
  let L := match L.next r with
    | some n => { L with prev := Function.update L.prev n (L.prev r) }
    | none => { L with tail := L.prev r }
  let L := match L.prev r with
    | some p => { L with next := Function.update L.next p (L.next r) }
    | none => { L with head := L.next r }
  { L with next := Function.update L.next r none, prev := Function.update L.prev r none }

def addToLruTail (L : Links Ref) (r : Ref) : Links Ref :=
  match L.tail with
  | some t =>
    { L with next := Function.update L.next t (some r), prev := Function.update L.prev r (some t)
             tail := some r }
  | none => { L with head := some r, tail := some r }

/-- A parse error of a cached PID, TID: `delete` and count it. -/
def ScanState.forget (st : ScanState) (pidTid : PidTid) : ScanState :=
  { st with
    pm := { st.pm with pidTidMetricsInfo := st.pm.pidTidMetricsInfo.erase pidTid }
    delPidCount := st.delPidCount + 1 }

/-- The re-add at the tail and the PID, TID counts, common to both ways a scan completes. -/
def ScanState.readd (st : ScanState) (pidTid : PidTid) (r : Ref) : ScanState :=
  { st with
    pm := { st.pm with lru := addToLruTail st.pm.lru r }
    pidTidCount := st.pidTidCount + 1
    pidOnlyCount := st.pidOnlyCount + if pidTid.tid == pidOnlyTid then 1 else 0 }

def ScanState.skipInactive (cfg : Config) (call : Call) (scanNum : Int64) (st : ScanState)
    (pidTid : PidTid) (r : Ref) : ScanState :=
  let info := st.pm.info r
  let info := { info with cycleNum := nextCycleNum info.cycleNum cfg.fullMetricsFactor, scanNum
                          prevTs := call.timeNow pidTid }
  (st.setInfo r info).readd pidTid r

def ScanState.publish (cfg : Config) (call : Call) (scanNum : Int64) (st : ScanState)
    (pidTid : PidTid) (r : Ref) (hasPrev active fullMetrics : Bool) : ScanState :=
  let pm := st.pm
  let currTs := call.timeNow pidTid
  let (out, info) := generateMetrics cfg pm.pidStat pm.pidStatus pm.pidCmdline (pm.info r)
    hasPrev (pidTid.tid == pidOnlyTid) fullMetrics currTs st.out
  -- The parsers of the entry and of the generator are swapped.
  let scanned := { info with
    pidStat := pm.pidStat
    pidStatus := if cfg.usePidStatus then pm.pidStatus else info.pidStatus
    prevTs := currTs
    cycleNum := nextCycleNum info.cycleNum cfg.fullMetricsFactor
    scanNum }
  let pm := { pm with
    pidStat := info.pidStat
    pidStatus := if cfg.usePidStatus then info.pidStatus else pm.pidStatus
    info := Function.update pm.info r scanned
    pidTidMetricsInfo :=
      if hasPrev then pm.pidTidMetricsInfo else pm.pidTidMetricsInfo.insert pidTid r }
  { st with
    pm, out
    addPidCount := st.addPidCount + if hasPrev then 0 else 1
    activePidTidCount := st.activePidTidCount + if active then 1 else 0 }.readd pidTid r

def ScanState.parseStatus (cfg : Config) (call : Call) (st : ScanState) (pidTid : PidTid) :
    ScanState :=
  if cfg.usePidStatus then
    { st with pm := { st.pm with pidStatus := (call.status pidTid).data } }
  else st

def ScanState.parseCmdline (call : Call) (st : ScanState) (pidTid : PidTid) (needed : Bool) :
    ScanState :=
  if needed then { st with pm := { st.pm with pidCmdline := (call.cmdline pidTid).data } } else st

/-- The rest of the loop body for an entry that is not skipped: the status and, on full metrics or
for a new PID, the cmdline file, then the metrics. -/
def ScanState.scanEntry (cfg : Config) (call : Call) (scanNum : Int64) (st : ScanState)
    (pidTid : PidTid) (r : Ref) (hasPrev active fullMetrics : Bool) : ScanState :=
  let st := st.setInfo r { st.pm.info r with active }
  let st := st.parseStatus cfg call pidTid
  if cfg.usePidStatus && !(call.status pidTid).ok then
    if hasPrev then st.forget pidTid else st
  else
  let readCmdline := pidTid.tid == pidOnlyTid && (fullMetrics || !hasPrev)
  let st := st.parseCmdline call pidTid readCmdline
  if readCmdline && !(call.cmdline pidTid).ok then
    if hasPrev then st.forget pidTid else st
  else st.publish cfg call scanNum pidTid r hasPrev active fullMetrics

def ScanState.initPidTidMetricsInfo (cfg : Config) (call : Call) (st : ScanState)
    (pidTid : PidTid) : ScanState :=
  let r := st.pm.nextRef
  let info := newPidTidMetricsInfo pidTid (cfg.starttimeMsec (st.pm.pidStat.bsf .starttime))
    (initialCycleNum (call.cycleNum pidTid) cfg.fullMetricsFactor)
  let lru := { st.pm.lru with next := Function.update st.pm.lru.next r none
                              prev := Function.update st.pm.lru.prev r none }
  { st with
    pm := { st.pm with lru, info := Function.update st.pm.info r info, nextRef := r + 1 } }

def ScanState.scanNew (cfg : Config) (call : Call) (scanNum : Int64) (st : ScanState)
    (pidTid : PidTid) : ScanState :=
  (st.initPidTidMetricsInfo cfg call pidTid).scanEntry cfg call scanNum pidTid st.pm.nextRef
    false true false

def scanPidTid (cfg : Config) (call : Call) (scanNum : Int64) (st : ScanState)
    (pidTid : PidTid) : ScanState :=
  let cached := st.pm.pidTidMetricsInfo.lookup pidTid
  let lru := match cached with
    | some r => removeFromLru st.pm.lru r
    | none => st.pm.lru
  let pidStat := (call.stat pidTid).data
  let st := { st with pm := { st.pm with lru, pidStat } }
  match cached with
  | none =>
    if !(call.stat pidTid).ok then st else st.scanNew cfg call scanNum pidTid
  | some r =>
    if !(call.stat pidTid).ok then st.forget pidTid else
    let info := st.pm.info r
    if pidStat.bsf .starttime != info.pidStat.bsf .starttime then
      -- The PID, TID was reused since the last scan; technically a delete.
      { st with delPidCount := st.delPidCount + 1 }.scanNew cfg call scanNum pidTid
    else
      let fullMetrics := info.cycleNum == 0
      if pidStat.nf .utime != info.pidStat.nf .utime ||
          pidStat.nf .stime != info.pidStat.nf .stime then
        st.scanEntry cfg call scanNum pidTid r true true fullMetrics
      else if !fullMetrics && !info.active then
        st.skipInactive cfg call scanNum pidTid r
      else st.scanEntry cfg call scanNum pidTid r true false fullMetrics

inductive Result (α : Type) where
  | ok (a : α)
  | nilDeref
  | diverge

def pruneLru (scanNum : Int64) : Nat → Option Ref → ScanState → Result ScanState
  | _, none, st => .ok st
  | 0, some _, _ => .diverge
  | fuel + 1, some r, st =>
    if (st.pm.info r).scanNum = scanNum then .ok st
    else
      let st := st.forget (st.pm.info r).pidTid
      let next := st.pm.lru.next r
      let lru := { st.pm.lru with head := next }
      -- `pidTidMetricsInfo.prev = nil`, with no test for the end of the list
      match next with
      | none => .nilDeref
      | some n =>
        let lru := { lru with prev := Function.update lru.prev n none }
        pruneLru scanNum fuel next { st with pm := { st.pm with lru } }

/-- Advance the scan number, never to 0, which new entries are initialized with. -/
def nextScanNum (scanNum : Int64) : Int64 :=
  if scanNum + 1 = 0 then 1 else scanNum + 1

/-- The generator's specific metrics; the interval needs a previous scan. -/
def specificSamples (cfg : Config) (hasPrev : Bool) (prevTs currTs : Int) (st : ScanState) :
    List (Sample SpecificMetric Int) :=
  let sample (m : SpecificMetric) (v : SampleValue) : Sample SpecificMetric Int :=
    ⟨m, cfg.partNo, v, unixMilli currTs⟩
  let pidTidTotalCount := st.pm.pidTidList.length
  [sample .totalCount (.int pidTidTotalCount),
    sample .parseOkCount (.int st.pidTidCount),
    sample .parseErrCount (.int (pidTidTotalCount - st.pidTidCount)),
    sample .activeCount (.int st.activePidTidCount),
    sample .newCount (.int st.addPidCount),
    sample .delCount (.int st.delPidCount)] ++
  if hasPrev then [sample .interval (.seconds (currTs - prevTs))] else []

structure ExecuteReturn where
  ret : Bool
  pm : ProcPidMetrics
  queued : List ProcPidLine
  actualMetricsCount : Nat
  totalMetricsCount : Nat

def execute (cfg : Config) (pm : ProcPidMetrics) (call : Call) : Result ExecuteReturn :=
  let hasPrev := pm.intialized
  let pm := if hasPrev then pm else pm.initParsers
  match call.pidTidList with
  | none => .ok ⟨false, pm, [], 0, 0⟩
  | some pidTidList =>
    let pm := { pm with pidTidList }
    let scanNum := nextScanNum pm.scanNum
    let st := pidTidList.foldl (scanPidTid cfg call scanNum) (.start pm)
    match pruneLru scanNum st.pm.nextRef st.pm.lru.head st with
    | .nilDeref => .nilDeref
    | .diverge => .diverge
    | .ok st =>
      let specific := specificSamples cfg hasPrev pm.prevTs call.endTime st
      .ok {
        ret := true
        pm := { st.pm with prevTs := call.endTime, scanNum }
        queued := st.out.buf.map .pidTid ++ specific.map .specific
        actualMetricsCount := st.out.actualMetricsCount + specific.length
        totalMetricsCount := cfg.perPidTidMetricCount * st.pidTidCount +
          cfg.perPidOnlyMetricCount * st.pidOnlyCount + 7 }

end Lsvmi.ProcPid
