import Lsvmi.ProcPid.Execute
import Lsvmi.Procfs.PidStat
import Lsvmi.Procfs.PidStatus

/-!
# The parsers of the files behind a call

A `Call` has the outcomes of the parsers.  For all contents of the stat and status files there is one
that has those of `PidStat.parse` and `PidStatus.parse`, each on the object that the generator has in
hand at the PID.
-/

namespace Lsvmi.ProcPid

open List

/-- The contents of the files of a PID, TID; `none` if one cannot be read. -/
structure PidTidFiles where
  stat : Option Bytes
  status : Option Bytes

def parsedStat (pidStat : PidStat) : Option Bytes → Parsed PidStat
  | none => ⟨false, pidStat⟩
  | some buf =>
    let (pidStat, err) := Procfs.PidStat.parse pidStat buf
    ⟨err.isNone, pidStat⟩

def parsedStatus (pidStatus : PidStatus) (file : Option Bytes) : Parsed PidStatus :=
  let (pidStatus, err) := Procfs.PidStatus.parse pidStatus file
  ⟨err.isNone, pidStatus⟩

section

variable (cfg : Config) (files : PidTid → PidTidFiles) (scanNum : Int64)

def Call.readAt (call : Call) (pm : ProcPidMetrics) (pidTid : PidTid) : Call :=
  { call with
    stat := Function.update call.stat pidTid (parsedStat pm.pidStat (files pidTid).stat)
    status := Function.update call.status pidTid (parsedStatus pm.pidStatus (files pidTid).status) }

/-- The outcomes for the PIDs that the loop of `Execute` visits. -/
def readFiles : List PidTid → ScanState → Call → Call
  | [], _, call => call
  | pidTid :: pidTids, st, call =>
    let call := call.readAt files st.pm pidTid
    readFiles pidTids (scanPidTid cfg call scanNum st pidTid) call

structure AgreeAt (call call' : Call) (pidTid : PidTid) : Prop where
  stat_eq : call.stat pidTid = call'.stat pidTid
  status_eq : call.status pidTid = call'.status pidTid
  cmdline_eq : call.cmdline pidTid = call'.cmdline pidTid
  timeNow_eq : call.timeNow pidTid = call'.timeNow pidTid
  cycleNum_eq : call.cycleNum pidTid = call'.cycleNum pidTid

theorem scanPidTid_congr {call call' : Call} {pidTid : PidTid} (h : AgreeAt call call' pidTid)
    (st : ScanState) :
    scanPidTid cfg call scanNum st pidTid = scanPidTid cfg call' scanNum st pidTid := by
  simp only [scanPidTid, ScanState.scanNew, ScanState.initPidTidMetricsInfo, ScanState.skipInactive,
    ScanState.scanEntry, ScanState.parseStatus, ScanState.parseCmdline, ScanState.publish, h.stat_eq,
    h.status_eq, h.cmdline_eq, h.timeNow_eq, h.cycleNum_eq]

theorem readAt_of_ne (call : Call) (pm : ProcPidMetrics) {p q : PidTid} (hne : p ≠ q) :
    AgreeAt (call.readAt files pm q) call p :=
  ⟨Function.update_of_ne hne .., Function.update_of_ne hne .., rfl, rfl, rfl⟩

theorem readFiles_of_notMem {pidTids : List PidTid} {p : PidTid} (h : p ∉ pidTids) (st : ScanState)
    (call : Call) : AgreeAt (readFiles cfg files scanNum pidTids st call) call p := by
  induction pidTids generalizing st call with
  | nil => exact ⟨rfl, rfl, rfl, rfl, rfl⟩
  | cons q pidTids ih =>
    rw [mem_cons, not_or] at h
    have hrest := ih h.2 (scanPidTid cfg (call.readAt files st.pm q) scanNum st q)
      (call.readAt files st.pm q)
    have hfirst := readAt_of_ne files call st.pm h.1
    exact ⟨hrest.stat_eq.trans hfirst.stat_eq, hrest.status_eq.trans hfirst.status_eq,
      hrest.cmdline_eq, hrest.timeNow_eq, hrest.cycleNum_eq⟩

/-- At each PID the outcomes are those of the parsers on its files, with the objects that the loop
has left behind with the PIDs before it. -/
theorem readFiles_outcomes {pidTids done rest : List PidTid} {p : PidTid} (hnodup : pidTids.Nodup)
    (hp : pidTids = done ++ p :: rest) (st : ScanState) (call : Call) :
    let call' := readFiles cfg files scanNum pidTids st call
    let pm := (done.foldl (scanPidTid cfg call' scanNum) st).pm
    call'.stat p = parsedStat pm.pidStat (files p).stat ∧
      call'.status p = parsedStatus pm.pidStatus (files p).status := by
  induction pidTids generalizing done st call with
  | nil => exact absurd hp.symm (append_ne_nil_of_right_ne_nil _ (cons_ne_nil _ _))
  | cons q pidTids ih =>
    obtain ⟨hq, hnodup⟩ := nodup_cons.mp hnodup
    have hagree := readFiles_of_notMem cfg files scanNum hq
      (scanPidTid cfg (call.readAt files st.pm q) scanNum st q) (call.readAt files st.pm q)
    cases done with
    | nil =>
      obtain ⟨rfl, -⟩ := cons.inj hp
      exact ⟨hagree.stat_eq.trans (Function.update_self ..),
        hagree.status_eq.trans (Function.update_self ..)⟩
    | cons q' done =>
      obtain ⟨rfl, hrest⟩ := cons.inj hp
      intro call' pm
      -- The PID at the head is scanned with the same outcomes in both calls.
      have hhead : scanPidTid cfg call' scanNum st q =
          scanPidTid cfg (call.readAt files st.pm q) scanNum st q :=
        scanPidTid_congr cfg scanNum hagree st
      have hpm : pm = (done.foldl (scanPidTid cfg call' scanNum)
          (scanPidTid cfg (call.readAt files st.pm q) scanNum st q)).pm := by
        rw [← hhead]
        rfl
      rw [hpm]
      exact ih hnodup hrest _ _

end

end Lsvmi.ProcPid
