import Lsvmi.Procfs.Interrupts

/-!
# The /proc/interrupts metrics generator

`ProcInterruptsMetrics.Execute` and `generateMetrics`.  The part that the objects in the two slots
share is a field of its own.
-/

namespace Lsvmi.InterruptsMetrics

open Procfs Reasoning

inductive IrqMetric where
  /-- labelled with IRQ, device and CPU -/
  | delta
  /-- labelled with IRQ, controller, hardware interrupt and device -/
  | info
  | interval
  deriving DecidableEq, Repr

/-- The labels are texts, and the number of the CPU. -/
abbrev IrqSample := Sample IrqMetric (List Bytes × Option Int64)

abbrev Out := Output IrqMetric (List Bytes × Option Int64)

/-- The labels of the cached metrics of an IRQ, other than the IRQ itself. -/
structure IrqLabels where
  controller : Bytes
  hwInterrupt : Bytes
  devices : Bytes
  deriving DecidableEq, Repr

structure ProcInterruptsMetricsIrqData where
  cycleNum : Int
  labels : IrqLabels
  zeroDelta : List Bool
  deriving DecidableEq, Repr

abbrev IrqDataCache := Finmap fun _ : Bytes => ProcInterruptsMetricsIrqData

structure Config where
  fullMetricsFactor : Int
  deriving DecidableEq, Repr

structure ProcInterruptsMetrics where
  curr : Option Interrupts
  prev : Option Interrupts
  /-- shared by the objects -/
  info : InterruptsInfo
  currTs : Int
  prevTs : Int
  irqDataCache : IrqDataCache
  /-- the CPU of each counter -/
  deltaMetricsSuffixCache : Option (List Int64)

def newProcInterruptsMetrics : ProcInterruptsMetrics :=
  { curr := none, prev := none, info := newInterruptsInfo, currTs := 0, prevTs := 0
    irqDataCache := ∅, deltaMetricsSuffixCache := none }

structure Scan where
  interrupts : Option Bytes
  timeNow : Int
  order : List Bytes
  cacheOrder : List Bytes
  cycleNum : Bytes → Int

def cpus (interrupts : Interrupts) : List Int64 :=
  match interrupts.cpuList with
  | none => (List.range interrupts.numCounters).map Int64.ofNat
  | some cpuList => cpuList

def cpuIndex (cpus : List Int64) (cpu : Int64) : Option Nat := cpus.zipIdx.reverse.lookup cpu

def currToPrevCounterIndex (curr prev : Interrupts) (currI : Nat) : Option Nat :=
  (cpus curr)[currI]?.bind (cpuIndex (cpus prev))

def counterPart (ts : Int) (labels : List Bytes) (fullMetrics : Bool) (suffixCache : List Int64)
    (prevIndex : Nat → Option Nat) (prevCounters : List UInt64)
    (state : List IrqSample × List Bool) (entry : UInt64 × Nat) :
    Option (List IrqSample × List Bool) :=
  match prevIndex entry.2 with
  | none => some state
  | some prevI => do
    let prevCounter ← prevCounters[prevI]?
    let zeroDelta ← state.2[entry.2]?
    let delta := entry.1 - prevCounter
    let samples ← (if fullMetrics || 0 < delta || !zeroDelta then
        suffixCache[entry.2]?.map fun cpu => [⟨.delta, (labels, some cpu), .uint delta, ts⟩]
      else some [])
    return (state.1 ++ samples, state.2.set entry.2 (delta == 0))

def infoSample (ts : Int) (irq : Bytes) (labels : IrqLabels) (on : Bool) : IrqSample :=
  ⟨.info, ([irq, labels.controller, labels.hwInterrupt, labels.devices], none), .flag on, ts⟩

def irqLabels (irqInfo : InterruptsIrqInfo) : IrqLabels :=
  ⟨irqInfo.controller, irqInfo.hwInterrupt, irqInfo.devices⟩

def updateIrqData (cfg : Config) (cycleNum : Int) (numCounters : Nat) (irqInfo : InterruptsIrqInfo) :
    Option ProcInterruptsMetricsIrqData → ProcInterruptsMetricsIrqData
  | none => ⟨initialCycleNum cycleNum cfg.fullMetricsFactor, irqLabels irqInfo,
      List.replicate numCounters false⟩
  | some irqData => if irqInfo.changed then { irqData with labels := irqLabels irqInfo } else irqData

def fullMetrics (irqInfo : InterruptsIrqInfo) : Option ProcInterruptsMetricsIrqData → Bool
  | none => true
  | some irqData => irqInfo.changed || irqData.cycleNum == 0

def annulled (ts : Int) (irq : Bytes) (irqInfo : InterruptsIrqInfo) :
    Option ProcInterruptsMetricsIrqData → List IrqSample
  | none => []
  | some irqData =>
    if irqInfo.changed ∧ irqData.labels ≠ irqLabels irqInfo then
      [infoSample ts irq irqData.labels false]
    else []

def irqPart (cfg : Config) (scan : Scan) (ts : Int) (curr prev : Interrupts) (info : InterruptsInfo)
    (suffixCache : List Int64) (prevIndex : Nat → Option Nat) (state : Out × IrqDataCache)
    (irq : Bytes) : Option (Out × IrqDataCache) :=
  match curr.counters.lookup irq, prev.counters.lookup irq with
  | some currCounters, some prevCounters => do
    let irqInfo ← info.irqInfo.lookup irq
    let entry := state.2.lookup irq
    let full := fullMetrics irqInfo entry
    let irqData := updateIrqData cfg (scan.cycleNum irq) curr.numCounters irqInfo entry
    let zeroDelta :=
      if info.cpuListChanged then List.replicate curr.numCounters false else irqData.zeroDelta
    let (deltas, zeroDelta) ← currCounters.values.zipIdx.foldlM
      (counterPart ts [irq, irqData.labels.devices] full suffixCache prevIndex prevCounters.values)
      ([], zeroDelta)
    let infos :=
      if full then annulled ts irq irqInfo entry ++ [infoSample ts irq irqData.labels true] else []
    let irqData :=
      { irqData with zeroDelta, cycleNum := nextCycleNum irqData.cycleNum cfg.fullMetricsFactor }
    return (state.1.emit (deltas ++ infos), state.2.insert irq irqData)
  | _, _ => some state

def cleanUp (scan : Scan) (ts : Int) (curr : Interrupts) (info : InterruptsInfo)
    (state : Out × IrqDataCache) : Out × IrqDataCache :=
  if state.2.keys.card ≠ info.irqInfo.keys.card then
    let gone := fun irq => (curr.counters.lookup irq).isNone
    let samples := scan.cacheOrder.filterMap fun irq => match state.2.lookup irq with
      | some irqData => if gone irq then some (infoSample ts irq irqData.labels false) else none
      | none => none
    (state.1.emit samples,
      filterMapEntries (fun irq irqData => if gone irq then none else some irqData) state.2)
  else state

variable (pim : ProcInterruptsMetrics)

def ProcInterruptsMetrics.suffixCache (curr : Interrupts) :
    List Int64 :=
  if pim.info.cpuListChanged then cpus curr else pim.deltaMetricsSuffixCache.getD (cpus curr)

/-- The counter of the same CPU in the previous scan, the one with the same index if there was no
change. -/
def ProcInterruptsMetrics.prevIndex (curr prev : Interrupts) :
    Nat → Option Nat :=
  if pim.info.cpuListChanged then currToPrevCounterIndex curr prev else some

def deltaMetrics (cfg : Config) (scan : Scan) (pim : ProcInterruptsMetrics) (curr prev : Interrupts) :
    Option (Out × ProcInterruptsMetrics) := do
  let ts := unixMilli pim.currTs
  let suffixCache := pim.suffixCache curr
  let state ← scan.order.foldlM
    (irqPart cfg scan ts curr prev pim.info suffixCache (pim.prevIndex curr prev))
    (Output.empty, pim.irqDataCache)
  let (out, irqDataCache) := cleanUp scan ts curr pim.info state
  return (out.emit [⟨.interval, ([], none), .seconds (pim.currTs - pim.prevTs), ts⟩],
    { pim with irqDataCache, deltaMetricsSuffixCache := some suffixCache })

def ProcInterruptsMetrics.flip : ProcInterruptsMetrics :=
  { pim with curr := pim.prev, prev := pim.curr, currTs := pim.prevTs, prevTs := pim.currTs }

def generateMetrics (cfg : Config) (scan : Scan) (pim : ProcInterruptsMetrics) (curr : Interrupts) :
    Option (Out × ProcInterruptsMetrics) :=
  let result := match pim.prev with
    | some prev => deltaMetrics cfg scan pim curr prev
    | none => some (Output.empty, pim)
  result.map fun (out, pim) => (out.count (curr.counters.keys.card * (curr.numCounters + 1) + 1),
    { pim with curr := some curr }.flip)

def ProcInterruptsMetrics.currProcInterrupts : Interrupts :=
  match pim.curr, pim.prev with
  | some curr, _ => curr
  | none, some prev => prev.clone
  | none, none => newInterrupts

def execute [UnicodeUpper] (cfg : Config) (pim : ProcInterruptsMetrics) (scan : Scan) :
    Option (Out × ProcInterruptsMetrics) :=
  match scan.interrupts with
  | none => none
  | some buf =>
    match pim.currProcInterrupts.parse pim.info buf with
    | .error _ => none
    | .ok (curr, info) => generateMetrics cfg scan { pim with info, currTs := scan.timeNow } curr

end Lsvmi.InterruptsMetrics
