import Lsvmi.Metrics

/-!
# Processes and threads: parsed files and cache entries

The data that the stat, status and cmdline parsers of a PID or TID hand to the generator, and the
entry the generator keeps for each of them between scans.
-/

namespace Lsvmi.ProcPid

structure PidTid where
  pid : Int
  tid : Int
  deriving DecidableEq, Repr

/-- The TID that marks an entry as standing for the whole process. -/
def pidOnlyTid : Int := 0

inductive PidStatField where
  | comm | state | ppid | pgrp | session | ttyNr | tpgid | flags | priority | nice | numThreads
  | starttime | vsize | rsslim | processor | rtPriority | policy
  deriving DecidableEq, Repr

inductive PidStatNumField where
  | minflt | majflt | utime | stime | rss
  deriving DecidableEq, Repr

/-- The byte slice and the numeric fields that `PidStat.GetData` returns. -/
structure PidStat where
  bsf : PidStatField → Bytes
  nf : PidStatNumField → UInt64

def newPidStat : PidStat := ⟨fun _ => [], fun _ => 0⟩

inductive PidStatusField where
  | uid | gid | groups | vmPeak | vmSize | vmLck | vmPin | vmHwm | vmRss | rssAnon | rssFile
  | rssShmem | vmData | vmStk | vmExe | vmLib | vmPte | vmPmd | vmSwap | hugetlbpages
  | cpusAllowedList | memsAllowedList
  deriving DecidableEq, Repr

inductive PidStatusNumField where
  | voluntaryCtxtSwitches | nonvoluntaryCtxtSwitches
  deriving DecidableEq, Repr

/-- What `PidStatus.GetData` returns; a byte slice is `none` when the file lacks the field. -/
structure PidStatus where
  bsf : PidStatusField → Option Bytes
  bsfu : PidStatusField → Option Bytes
  nf : PidStatusNumField → UInt64

def newPidStatus : PidStatus := ⟨fun _ => none, fun _ => none, fun _ => 0⟩

structure PidCmdline where
  cmdPath : Bytes
  args : Bytes
  cmd : Bytes
  deriving DecidableEq, Repr

def newPidCmdline : PidCmdline := ⟨[], [], []⟩

/-- The outcome of a `Parse` call: whether it returned a nil error, and what the parser object
holds afterwards, which is anything at all when it did not. -/
structure Parsed (α : Type) where
  ok : Bool
  data : α

/-- `ProcPidTidMetricsInfo` without its LRU pointers.  The path and the PID, TID labels are
functions of `pidTid` and are not repeated. -/
structure ProcPidTidMetricsInfo where
  pidStat : PidStat
  pidStatus : PidStatus
  prevTs : Int
  pidTid : PidTid
  starttimeMsec : Bytes
  active : Bool
  pidStatFltZeroDelta : PidStatNumField → Bool
  pidStatusCtxZeroDelta : PidStatusNumField → Bool
  cycleNum : Int
  scanNum : Int64

inductive PidMetric where
  | statState | statComm | statInfo | statNumThreads | statPriority | statRss | statCpuNum
  | statMemory (field : PidStatField)
  | statFlt (field : PidStatNumField)
  | statPcpu
  | statTimePcpu (field : PidStatNumField)
  | statusInfo
  | statusMemory (field : PidStatusField)
  | statusCtx (field : PidStatusNumField)
  | cmdline
  | cmdlineComm
  deriving DecidableEq, Repr

/-- The generator's own metrics, labelled with the partition. -/
inductive SpecificMetric where
  | totalCount | parseOkCount | parseErrCount | activeCount | newCount | delCount | interval
  deriving DecidableEq, Repr

abbrev PidSample := Sample PidMetric (PidTid × List Bytes)

inductive ProcPidLine where
  | pidTid (s : PidSample)
  | specific (s : Sample SpecificMetric Int)
  deriving DecidableEq, Repr

/-- What a `ProcPidMetrics` is built with. `starttimeMsec` stands for the floating point conversion
of a starttime field, boot time added, that labels the comm metric. -/
structure Config where
  fullMetricsFactor : Int
  usePidStatus : Bool
  pidStatusMemKeepIndex : List PidStatusField
  partNo : Int
  pageSize : UInt64
  starttimeMsec : Bytes → Bytes

end Lsvmi.ProcPid
