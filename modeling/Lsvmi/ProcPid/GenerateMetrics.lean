import Lsvmi.ProcPid.Data

/-!
# The metrics of one PID or TID

`ProcPidMetrics.generateMetrics`, cut along its blocks.  Every block appends to the output of the
ones before it and counts what it appends.
-/

namespace Lsvmi.ProcPid

/-- The samples appended so far and the running `actualMetricsCount`. -/
structure Out where
  buf : List PidSample
  actualMetricsCount : Nat

def Out.emit (o : Out) (s : PidSample) : Out :=
  ⟨o.buf ++ [s], o.actualMetricsCount + 1⟩

/-- The arguments of `generateMetrics` and the parser data it compares.  The previous data are
those of the cache entry; they are looked at only under `hasPrev`. -/
structure GenArgs where
  hasPrev : Bool
  isPid : Bool
  fullMetrics : Bool
  currTs : Int
  pidTid : PidTid
  starttimeMsec : Bytes
  prevTs : Int
  currStat : PidStat
  prevStat : PidStat
  currStatus : PidStatus
  prevStatus : PidStatus
  cmdline : PidCmdline

namespace GenArgs

variable (a : GenArgs)

def fullMetricsNoPrev : Bool := a.fullMetrics || !a.hasPrev

def sample (m : PidMetric) (labels : List Bytes) (v : SampleValue) : PidSample :=
  ⟨m, (a.pidTid, labels), v, unixMilli a.currTs⟩

/-- A pseudo-categorical metric: the previous label tuple is cleared when it changed, the current
one is published when it changed or on full metrics. -/
def categorical (m : PidMetric) (changed : Bool) (prev curr : List Bytes) (o : Out) : Out :=
  let o := if changed then o.emit (a.sample m prev (.flag false)) else o
  if a.fullMetricsNoPrev || changed then o.emit (a.sample m curr (.flag true)) else o

def statChanged (fields : List PidStatField) : Bool :=
  a.hasPrev && fields.any fun f => a.prevStat.bsf f != a.currStat.bsf f

def statusChanged (fields : List PidStatusField) : Bool :=
  -- A missing field compares equal to an empty one, as with `bytes.Equal`.
  a.hasPrev && fields.any fun f => (a.prevStatus.bsf f).getD [] != (a.currStatus.bsf f).getD []

def statCategorical (m : PidMetric) (extra : List Bytes) (fields : List PidStatField)
    (o : Out) : Out :=
  a.categorical m (a.statChanged fields) (extra ++ fields.map a.prevStat.bsf)
    (extra ++ fields.map a.currStat.bsf) o

def statePart : Out → Out := a.statCategorical .statState [] [.state]

def commPart : Out → Out := a.statCategorical .statComm [a.starttimeMsec] [.comm]

def priorityPart : Out → Out :=
  a.statCategorical .statPriority [] [.priority, .nice, .rtPriority, .policy]

def cpuNumPart (o : Out) : Out :=
  o.emit (a.sample .statCpuNum [] (.text (a.currStat.bsf .processor)))

/-- The memory fields of the status file: a missing one is skipped, the others are published when
they differ from the previous ones or on full metrics. -/
def statusMemoryPart (fields : List PidStatusField) (o : Out) : Out :=
  fields.foldl (fun o f =>
    match a.currStatus.bsf f with
    | none => o
    | some v =>
      if a.fullMetricsNoPrev || (a.prevStatus.bsf f).getD [] != v then
        o.emit (a.sample (.statusMemory f) [(a.currStatus.bsfu f).getD []] (.text v))
      else o) o

/-- One delta counter under the skip-zero-after-zero rule; `zero` is whether the previous delta was
zero. -/
def deltaPart (m : PidMetric) (delta : UInt64) (zero : Bool) (o : Out) : Out :=
  if delta != 0 || a.fullMetrics || !zero then o.emit (a.sample m [] (.uint delta)) else o

def statDelta (f : PidStatNumField) : UInt64 := a.currStat.nf f - a.prevStat.nf f

def statusDelta (f : PidStatusNumField) : UInt64 := a.currStatus.nf f - a.prevStatus.nf f

def fltPart (zeroDelta : PidStatNumField → Bool) (o : Out) : Out :=
  [PidStatNumField.minflt, .majflt].foldl
    (fun o f => a.deltaPart (.statFlt f) (a.statDelta f) (zeroDelta f) o) o

def pcpuPart (o : Out) : Out :=
  let elapsed := a.currTs - a.prevTs
  let o := [PidStatNumField.stime, .utime].foldl
    (fun o f => o.emit (a.sample (.statTimePcpu f) [] (.pct (a.statDelta f) elapsed))) o
  o.emit (a.sample .statPcpu [] (.pct (a.statDelta .stime + a.statDelta .utime) elapsed))

def ctxPart (zeroDelta : PidStatusNumField → Bool) (o : Out) : Out :=
  [PidStatusNumField.voluntaryCtxtSwitches, .nonvoluntaryCtxtSwitches].foldl
    (fun o f => a.deltaPart (.statusCtx f) (a.statusDelta f) (zeroDelta f) o) o

def infoPart : Out → Out :=
  a.statCategorical .statInfo [] [.ppid, .pgrp, .session, .ttyNr, .tpgid, .flags]

def numThreadsPart (o : Out) : Out :=
  if a.fullMetricsNoPrev || a.currStat.bsf .numThreads != a.prevStat.bsf .numThreads then
    o.emit (a.sample .statNumThreads [] (.text (a.currStat.bsf .numThreads)))
  else o

def rssPart (pageSize : UInt64) (o : Out) : Out :=
  if a.fullMetricsNoPrev || a.currStat.nf .rss != a.prevStat.nf .rss then
    o.emit (a.sample .statRss [] (.uint (a.currStat.nf .rss * pageSize)))
  else o

def statMemoryPart (o : Out) : Out :=
  [PidStatField.vsize, .rsslim].foldl (fun o f =>
    if a.fullMetricsNoPrev || a.prevStat.bsf f != a.currStat.bsf f then
      o.emit (a.sample (.statMemory f) [] (.text (a.currStat.bsf f)))
    else o) o

def statusInfoPart (o : Out) : Out :=
  let fields := [PidStatusField.uid, .gid, .groups, .cpusAllowedList, .memsAllowedList]
  a.categorical .statusInfo (a.statusChanged fields)
    (fields.map fun f => (a.prevStatus.bsf f).getD [])
    (fields.map fun f => (a.currStatus.bsf f).getD []) o

/-- The command line, or `[COMM]` for kernel threads and zombies, whose command line is empty. -/
def cmdlinePart (o : Out) : Out :=
  if !a.fullMetricsNoPrev then o
  else if a.cmdline.cmdPath.length != 0 then
    o.emit (a.sample .cmdline [a.cmdline.cmdPath, a.cmdline.args, a.cmdline.cmd] (.flag true))
  else
    let o := if a.statChanged [.comm] then
      o.emit (a.sample .cmdlineComm [a.prevStat.bsf .comm] (.flag false)) else o
    o.emit (a.sample .cmdlineComm [a.currStat.bsf .comm] (.flag true))

end GenArgs

def pidStatusMemoryFields : List PidStatusField :=
  [.vmPeak, .vmSize, .vmLck, .vmPin, .vmHwm, .vmRss, .rssAnon, .rssFile, .rssShmem, .vmData,
    .vmStk, .vmExe, .vmLib, .vmPte, .vmPmd, .vmSwap, .hugetlbpages]

variable (cfg : Config)

def Config.keepMemoryField (f : PidStatusField) : Bool :=
  cfg.pidStatusMemKeepIndex.isEmpty || cfg.pidStatusMemKeepIndex.contains f

def Config.pidTidMemoryFields : List PidStatusField :=
  pidStatusMemoryFields.filter fun f => cfg.keepMemoryField f && f == .vmStk

def Config.pidOnlyMemoryFields : List PidStatusField :=
  pidStatusMemoryFields.filter fun f => cfg.keepMemoryField f && f != .vmStk

def Config.perPidTidMetricCount : Nat :=
  9 + if cfg.usePidStatus then cfg.pidTidMemoryFields.length + 2 else 0

def Config.perPidOnlyMetricCount : Nat :=
  6 + if cfg.usePidStatus then 1 + cfg.pidOnlyMemoryFields.length else 0

/-- `ProcPidMetrics.generateMetrics`: the samples of one PID, TID and its updated cache entry. -/
def generateMetrics (pidStat : PidStat) (pidStatus : PidStatus)
    (pidCmdline : PidCmdline) (info : ProcPidTidMetricsInfo) (hasPrev isPid fullMetrics : Bool)
    (currTs : Int) (o : Out) : Out × ProcPidTidMetricsInfo :=
  let a : GenArgs :=
    { hasPrev, isPid, fullMetrics, currTs, pidTid := info.pidTid
      starttimeMsec := info.starttimeMsec, prevTs := info.prevTs
      currStat := pidStat, prevStat := info.pidStat
      currStatus := pidStatus, prevStatus := info.pidStatus, cmdline := pidCmdline }
  let o := a.cpuNumPart (a.priorityPart (a.commPart (a.statePart o)))
  let o := if cfg.usePidStatus then a.statusMemoryPart cfg.pidTidMemoryFields o else o
  let o := if !hasPrev then o else
    let o := a.pcpuPart (a.fltPart info.pidStatFltZeroDelta o)
    if cfg.usePidStatus then a.ctxPart info.pidStatusCtxZeroDelta o else o
  let info := if !hasPrev then info else
    { info with
      pidStatFltZeroDelta := fun f => a.statDelta f == 0
      pidStatusCtxZeroDelta := if cfg.usePidStatus then fun f => a.statusDelta f == 0
        else info.pidStatusCtxZeroDelta }
  if !isPid then (o, info) else
  let o := a.statMemoryPart (a.rssPart cfg.pageSize (a.numThreadsPart (a.infoPart o)))
  let o := if cfg.usePidStatus then
    a.statusMemoryPart cfg.pidOnlyMemoryFields (a.statusInfoPart o) else o
  (a.cmdlinePart o, info)

end Lsvmi.ProcPid
