import Lsvmi.Procfs.Stat
import Lsvmi.Reasoning.Population

/-!
# The /proc/stat metrics generator

`ProcStatMetrics.generateMetrics`.  Each call follows a successful parse into the current slot.  The
loops over the maps with the names of metrics are in the order of the index.
-/

namespace Lsvmi.StatMetrics

open Procfs Reasoning

inductive StatMetric where
  /-- labelled with the mode and the CPU -/
  | cpuPct
  /-- labelled with the CPU -/
  | cpuUp
  | btime
  | uptime
  /-- a value, or the delta of one, by its index -/
  | numeric (index : Nat)
  | interval
  deriving DecidableEq, Repr

abbrev StatSample := Sample StatMetric (List Bytes)

abbrev Out := Output StatMetric (List Bytes)

abbrev CpuStats := Vector UInt64 statCpuStatsSz

def procStatCpuIndexTypeLabelVals : List Bytes :=
  [utf8 "user", utf8 "nice", utf8 "system", utf8 "idle", utf8 "iowait", utf8 "irq", utf8 "softirq",
    utf8 "steal", utf8 "guest", utf8 "guest_nice"]

/-- The indexes of `procStatIndexDeltaMetricNameMap`: page in and out, swap in and out, ctxt and
processes. -/
def deltaIndexes : List Nat := [0, 1, 2, 3, 4, 6]

/-- The indexes of `procStatIndexMetricNameMap`: procs_running and procs_blocked. -/
def valueIndexes : List Nat := [7, 8]

def statBtime : Nat := 5

/-- `ProcStatMetricsCpuInfo`; the cached metrics of the source are functions of the CPU. -/
structure CpuInfo where
  cycleNum : Int
  zeroPcpu : Nat → Bool

abbrev CpuInfoMap := Finmap fun _ : Int64 => CpuInfo

structure ProcStatMetrics where
  prev : Option Stat
  prevTs : Int
  cpuInfo : CpuInfoMap
  /-- set at the first reading, with the other metrics, which are nil before -/
  btime : Option Int
  otherZeroDelta : Nat → Bool
  otherCycleNum : Int
  maxNumCpus : Nat
  totalMetricsCount : Nat

def totalFor (maxNumCpus : Nat) : Nat :=
  (maxNumCpus + 1) * (statCpuNumStats + 1) + deltaIndexes.length + valueIndexes.length + (2 + 1)

def ProcStatMetrics.updateMaxNumCpus (psm : ProcStatMetrics) (numCpus : Nat) : ProcStatMetrics :=
  { psm with maxNumCpus := numCpus, totalMetricsCount := totalFor numCpus }

def newProcStatMetrics (fullMetricsFactor cycleNum : Int) : ProcStatMetrics :=
  ({ prev := none, prevTs := 0, cpuInfo := ∅, btime := none, otherZeroDelta := fun _ => false
     otherCycleNum := initialCycleNum cycleNum fullMetricsFactor, maxNumCpus := 0
     totalMetricsCount := 0 } : ProcStatMetrics).updateMaxNumCpus 1

structure Scan where
  /-- what the parser has left in the current slot -/
  procStat : Stat
  timeNow : Int
  /-- the time when the uptime is computed -/
  sinceNow : Int
  order : List Int64
  removeOrder : List Int64
  cycleNum : Int64 → Int

def cpuLabelVal (cpu : Int64) : Bytes :=
  if cpu = statCpuAll then utf8 "all" else formatInt cpu.toInt

def hasAvg (numCpus : Nat) (cpu : Int64) : Bool := cpu == statCpuAll && decide (numCpus > 0)

/-- The metrics of a mode, and whether the last value is zero from now on.  Percentages are kept as
the ticks and the time that they are computed from. -/
def pcpuPart (ts elapsed : Int) (numCpus : Nat) (cpu : Int64) (fullMetrics : Bool)
    (currCpuStats prevCpuStats : CpuStats) (zeroPcpu : Nat → Bool) (index : Nat) :
    List StatSample × Bool :=
  let mode := procStatCpuIndexTypeLabelVals.getD index []
  let dCpuTicks := currCpuStats[index]?.getD 0 - prevCpuStats[index]?.getD 0
  if dCpuTicks != 0 || fullMetrics || !zeroPcpu index then
    (⟨.cpuPct, [mode, cpuLabelVal cpu], .pct dCpuTicks elapsed, ts⟩ ::
        if hasAvg numCpus cpu then
          [⟨.cpuPct, [mode, utf8 "avg"], .pct dCpuTicks (elapsed * numCpus), ts⟩]
        else [],
      dCpuTicks == 0)
  else ([], zeroPcpu index)

def upPart (ts : Int) (numCpus : Nat) (cpu : Int64) : List StatSample :=
  ⟨.cpuUp, [cpuLabelVal cpu], .flag true, ts⟩ ::
    if hasAvg numCpus cpu then [⟨.cpuUp, [utf8 "avg"], .flag true, ts⟩] else []

def downPart (ts : Int) (cpu : Int64) : List StatSample :=
  ⟨.cpuUp, [cpuLabelVal cpu], .flag false, ts⟩ ::
    if cpu = statCpuAll then [⟨.cpuUp, [utf8 "avg"], .flag false, ts⟩] else []

def cpuPart (fullMetricsFactor : Int) (scan : Scan) (ts elapsed : Int) (prev : Stat) (cpu : Int64)
    (entry : Option CpuInfo) : Option (List StatSample × CpuInfo) :=
  match scan.procStat.cpu.lookup cpu, prev.cpu.lookup cpu with
  | some currCpuStats, some prevCpuStats =>
    let numCpus := scan.procStat.numCpus
    let fullMetrics := entry.all fun cpuInfo => cpuInfo.cycleNum == 0
    let cpuInfo := entry.getD
      ⟨initialCycleNum (scan.cycleNum cpu) fullMetricsFactor, fun _ => false⟩
    let parts :=
      pcpuPart ts elapsed numCpus cpu fullMetrics currCpuStats prevCpuStats cpuInfo.zeroPcpu
    let up := if fullMetrics then upPart ts numCpus cpu else []
    some (((List.range statCpuNumStats).flatMap fun index => (parts index).1) ++ up,
      ⟨nextCycleNum cpuInfo.cycleNum fullMetricsFactor, fun index => (parts index).2⟩)
  | _, _ => none

def numericDelta (curr prev : Stat) (index : Nat) : UInt64 :=
  curr.numericFields[index]?.getD 0 - prev.numericFields[index]?.getD 0

def deltaPart (ts : Int) (otherFullMetrics : Bool) (curr prev : Stat) (otherZeroDelta : Nat → Bool)
    (index : Nat) : List StatSample :=
  let delta := numericDelta curr prev index
  if otherFullMetrics || delta != 0 || !otherZeroDelta index then
    [⟨.numeric index, [], .uint delta, ts⟩]
  else []

def valuePart (ts : Int) (otherFullMetrics : Bool) (curr prev : Stat) (index : Nat) :
    List StatSample :=
  let val := curr.numericFields[index]?.getD 0
  if otherFullMetrics || val != prev.numericFields[index]?.getD 0 then
    [⟨.numeric index, [], .uint val, ts⟩]
  else []

def otherPart (psm : ProcStatMetrics) (scan : Scan) (ts elapsed : Int) (prev : Stat) :
    List StatSample :=
  let otherFullMetrics := psm.btime.isNone || psm.otherCycleNum == 0
  let secs := (scan.procStat.numericFields[statBtime]?.getD 0).toInt64.toInt
  let btime := psm.btime.getD secs
  (deltaIndexes.flatMap fun index =>
      deltaPart ts otherFullMetrics scan.procStat prev psm.otherZeroDelta index) ++
    (valueIndexes.flatMap fun index => valuePart ts otherFullMetrics scan.procStat prev index) ++
    (if otherFullMetrics then
      [⟨.btime, [], .int btime, ts⟩,
        ⟨.uptime, [], .seconds (scan.sinceNow - btime * 1000000000), ts⟩]
      else []) ++
    [⟨.interval, [], .seconds elapsed, ts⟩]

def ProcStatMetrics.updateOther (fullMetricsFactor : Int) (psm : ProcStatMetrics) (curr prev : Stat) :
    ProcStatMetrics :=
  { psm with
    btime := some (psm.btime.getD (curr.numericFields[statBtime]?.getD 0).toInt64.toInt)
    otherZeroDelta := fun index =>
      if index ∈ deltaIndexes then numericDelta curr prev index == 0 else psm.otherZeroDelta index
    otherCycleNum := nextCycleNum psm.otherCycleNum fullMetricsFactor }

def ProcStatMetrics.countCpus (psm : ProcStatMetrics) (numCpus : Nat) : ProcStatMetrics :=
  if numCpus > psm.maxNumCpus then psm.updateMaxNumCpus numCpus else psm

def ProcStatMetrics.deltas (fullMetricsFactor : Int) (psm : ProcStatMetrics) (scan : Scan)
    (prev : Stat) : Out × ProcStatMetrics :=
  let ts := unixMilli scan.timeNow
  let elapsed := scan.timeNow - psm.prevTs
  let curr := scan.procStat
  let loop := scan.order.foldl (visit (cpuPart fullMetricsFactor scan ts elapsed prev))
    ([], psm.cpuInfo)
  -- CPUs may be unplugged; only the numbers are compared
  let removes := decide (loop.2.keys.card > curr.cpu.keys.card)
  let down := (goneKeys removes curr.cpu scan.removeOrder).flatMap (downPart ts)
  let out := ((Output.empty.emit loop.1).emit down).emit (otherPart psm scan ts elapsed prev)
  (out, { psm with cpuInfo := dropGone removes curr.cpu loop.2 }.updateOther fullMetricsFactor curr prev)

/-- What a call writes and counts, and the generator after it. -/
def generateMetrics (fullMetricsFactor : Int) (psm : ProcStatMetrics) (scan : Scan) :
    Out × ProcStatMetrics :=
  let psm := psm.countCpus scan.procStat.numCpus
  let result := psm.prev.elim (Output.empty, psm) (psm.deltas fullMetricsFactor scan)
  (result.1.count psm.totalMetricsCount,
    { result.2 with prev := some scan.procStat, prevTs := scan.timeNow })

end Lsvmi.StatMetrics
