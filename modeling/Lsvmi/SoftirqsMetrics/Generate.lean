import Lsvmi.Procfs.Softirqs
import Lsvmi.InterruptsMetrics.Generate

/-!
# The /proc/softirqs metrics generator

`ProcSoftirqsMetrics.Execute` and `generateMetrics`.  The kinds of metrics and the loop over the
counters of an IRQ are those of the interrupts generator, with the IRQ as the only text label.
-/

namespace Lsvmi.SoftirqsMetrics

open Procfs Reasoning
open InterruptsMetrics (IrqSample Out cpuIndex counterPart)

structure ProcSoftirqsMetricsIrqData where
  cycleNum : Int
  zeroDelta : List Bool
  deriving DecidableEq, Repr

abbrev IrqDataCache := Finmap fun _ : Bytes => ProcSoftirqsMetricsIrqData

structure Config where
  fullMetricsFactor : Int
  deriving DecidableEq, Repr

structure ProcSoftirqsMetrics where
  curr : Option Softirqs
  prev : Option Softirqs
  currTs : Int
  prevTs : Int
  irqDataCache : IrqDataCache
  deltaMetricsSuffixCache : Option (List Int64)

def newProcSoftirqsMetrics : ProcSoftirqsMetrics :=
  { curr := none, prev := none, currTs := 0, prevTs := 0, irqDataCache := ∅
    deltaMetricsSuffixCache := none }

structure Scan where
  softirqs : Option Bytes
  timeNow : Int
  order : List Bytes
  cacheOrder : List Bytes
  cycleNum : Bytes → Int

def cpus (softirqs : Softirqs) : List Int64 :=
  match softirqs.cpuList with
  | none => (List.range softirqs.numCounters).map Int64.ofNat
  | some cpuList => cpuList

def currToPrevCounterIndex (curr prev : Softirqs) (currI : Nat) : Option Nat :=
  (cpus curr)[currI]?.bind (cpuIndex (cpus prev))

def ProcSoftirqsMetrics.suffixCache (psirqm : ProcSoftirqsMetrics) (curr : Softirqs) : List Int64 :=
  if curr.cpuListChanged then cpus curr else psirqm.deltaMetricsSuffixCache.getD (cpus curr)

def prevIndex (curr prev : Softirqs) : Nat → Option Nat :=
  if curr.cpuListChanged then currToPrevCounterIndex curr prev else some

def infoSample (ts : Int) (irq : Bytes) (on : Bool) : IrqSample :=
  ⟨.info, ([irq], none), .flag on, ts⟩

def updateIrqData (cfg : Config) (cycleNum : Int) (numCounters : Nat) :
    Option ProcSoftirqsMetricsIrqData → ProcSoftirqsMetricsIrqData
  | none => ⟨initialCycleNum cycleNum cfg.fullMetricsFactor, List.replicate numCounters false⟩
  | some irqData => irqData

def fullMetrics : Option ProcSoftirqsMetricsIrqData → Bool
  | none => true
  | some irqData => irqData.cycleNum == 0

def irqPart (cfg : Config) (scan : Scan) (ts : Int) (curr prev : Softirqs)
    (suffixCache : List Int64) (state : Out × IrqDataCache) (irq : Bytes) :
    Option (Out × IrqDataCache) :=
  match curr.counters.lookup irq, prev.counters.lookup irq with
  | some currCounters, some prevCounters => do
    let entry := state.2.lookup irq
    let full := fullMetrics entry
    let irqData := updateIrqData cfg (scan.cycleNum irq) curr.numCounters entry
    -- the flags of the last scan were for other columns
    let zeroDelta :=
      if curr.cpuListChanged then List.replicate curr.numCounters false else irqData.zeroDelta
    let (deltas, zeroDelta) ← currCounters.values.zipIdx.foldlM
      (counterPart ts [irq] full suffixCache (prevIndex curr prev) prevCounters.values)
      ([], zeroDelta)
    let infos := if full then [infoSample ts irq true] else []
    let irqData := { zeroDelta, cycleNum := nextCycleNum irqData.cycleNum cfg.fullMetricsFactor }
    return (state.1.emit (deltas ++ infos), state.2.insert irq irqData)
  -- a new IRQ has no deltas
  | _, _ => some state

def cleanUp (scan : Scan) (ts : Int) (curr : Softirqs) (state : Out × IrqDataCache) :
    Out × IrqDataCache :=
  -- only the numbers of IRQs are compared
  if state.2.keys.card ≠ curr.counters.keys.card then
    let gone := fun irq => (curr.counters.lookup irq).isNone
    let samples := scan.cacheOrder.filterMap fun irq => match state.2.lookup irq with
      | some _ => if gone irq then some (infoSample ts irq false) else none
      | none => none
    (state.1.emit samples,
      filterMapEntries (fun irq irqData => if gone irq then none else some irqData) state.2)
  else state

def deltaMetrics (cfg : Config) (scan : Scan) (psirqm : ProcSoftirqsMetrics) (curr prev : Softirqs) :
    Option (Out × ProcSoftirqsMetrics) := do
  let ts := unixMilli psirqm.currTs
  let suffixCache := psirqm.suffixCache curr
  let state ← scan.order.foldlM (irqPart cfg scan ts curr prev suffixCache)
    (Output.empty, psirqm.irqDataCache)
  let (out, irqDataCache) := cleanUp scan ts curr state
  return (out.emit [⟨.interval, ([], none), .seconds (psirqm.currTs - psirqm.prevTs), ts⟩],
    { psirqm with irqDataCache, deltaMetricsSuffixCache := some suffixCache })

def ProcSoftirqsMetrics.flip (psirqm : ProcSoftirqsMetrics) : ProcSoftirqsMetrics :=
  { psirqm with
    curr := psirqm.prev, prev := psirqm.curr, currTs := psirqm.prevTs, prevTs := psirqm.currTs }

def generateMetrics (cfg : Config) (scan : Scan) (psirqm : ProcSoftirqsMetrics) (curr : Softirqs) :
    Option (Out × ProcSoftirqsMetrics) :=
  let result := match psirqm.prev with
    | some prev => deltaMetrics cfg scan psirqm curr prev
    | none => some (Output.empty, psirqm)
  result.map fun (out, psirqm) =>
    (out.count (curr.counters.keys.card * (curr.numCounters + 1) + 1),
      { psirqm with curr := some curr }.flip)

def ProcSoftirqsMetrics.currProcSoftirqs (psirqm : ProcSoftirqsMetrics) : Softirqs :=
  match psirqm.curr, psirqm.prev with
  | some curr, _ => curr
  | none, some prev => prev.clone false
  | none, none => newSoftirqs

def execute (cfg : Config) (psirqm : ProcSoftirqsMetrics) (scan : Scan) :
    Option (Out × ProcSoftirqsMetrics) :=
  match scan.softirqs with
  | none => none
  | some buf =>
    match psirqm.currProcSoftirqs.parse buf with
    | some (curr, none) => generateMetrics cfg scan { psirqm with currTs := scan.timeNow } curr
    | _ => none

end Lsvmi.SoftirqsMetrics
