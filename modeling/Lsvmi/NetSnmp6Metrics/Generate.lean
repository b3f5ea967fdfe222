import Lsvmi.Procfs.NetSnmp6

/-!
# The /proc/net/snmp6 metrics generator

`ProcNetSnmp6Metrics.Execute` and `generateMetrics`.
-/

namespace Lsvmi.NetSnmp6Metrics

open Procfs

def cycleCounterNum : Nat := 16

/-- `procNetSnmp6IndexRate`: the counters of octets, which are published as rates. -/
def isRate (index : Nat) : Bool := 22 ≤ index && index ≤ 27

inductive NetSnmp6Metric where
  /-- the metric that `procNetSnmp6IndexToMetricNameMap` has for the index; no index is left out -/
  | stat (index : Nat)
  | interval
  deriving DecidableEq, Repr

abbrev NetSnmp6Sample := Sample NetSnmp6Metric Unit

abbrev Out := Output NetSnmp6Metric Unit

structure ProcNetSnmp6Metrics where
  curr : Option NetSnmp6
  prev : Option NetSnmp6
  currTs : Int
  prevTs : Int
  cycleNum : List Int
  zeroDelta : List Bool
  totalMetricsCount : Nat
  /-- `netSnmp6IsUint32`, a variable of the parser's package -/
  isUint32Table : List Bool

variable (fullMetricsFactor : Int)

/-- The cycle numbers are drawn from the shared counter, which has these values. -/
def newProcNetSnmp6Metrics (counters : Nat → Int) : ProcNetSnmp6Metrics :=
  { curr := none, prev := none, currTs := 0, prevTs := 0
    cycleNum := (List.range cycleCounterNum).map fun i =>
      initialCycleNum (counters i) fullMetricsFactor
    zeroDelta := List.replicate netSnmp6NumValues false
    totalMetricsCount := 0
    isUint32Table := netSnmp6IsUint32 }

structure Scan where
  netSnmp6 : Option Bytes
  timeNow : Int

def delta (curr prev : NetSnmp6) (index : Nat) : UInt64 :=
  let currValue := curr.values.getD index 0
  let prevValue := prev.values.getD index 0
  let currValue :=
    if curr.isUint32.getD index false && currValue < prevValue then
      currValue + (1 : UInt64) <<< 32
    else currValue
  currValue - prevValue

def deltaValue (index : Nat) (delta : UInt64) (elapsed : Int) : SampleValue :=
  if isRate index then .pct delta elapsed else .uint delta

def statSamples (pnsm6 : ProcNetSnmp6Metrics) (curr prev : NetSnmp6) (ts elapsed : Int)
    (index : Nat) : List NetSnmp6Sample :=
  let delta := delta curr prev index
  if delta != 0 || pnsm6.cycleNum.getD (index % cycleCounterNum) 0 == 0 ||
      !pnsm6.zeroDelta.getD index false then
    [⟨.stat index, (), deltaValue index delta elapsed, ts⟩]
  else []

def ProcNetSnmp6Metrics.flip (pnsm6 : ProcNetSnmp6Metrics) : ProcNetSnmp6Metrics :=
  { pnsm6 with
    curr := pnsm6.prev, prev := pnsm6.curr, currTs := pnsm6.prevTs, prevTs := pnsm6.currTs }

def ProcNetSnmp6Metrics.next (pnsm6 : ProcNetSnmp6Metrics) :
    ProcNetSnmp6Metrics :=
  { pnsm6 with cycleNum := pnsm6.cycleNum.map fun n => nextCycleNum n fullMetricsFactor }.flip

def generateMetrics (pnsm6 : ProcNetSnmp6Metrics) (curr : NetSnmp6) :
    Out × ProcNetSnmp6Metrics :=
  let pnsm6 := { pnsm6 with curr := some curr }
  match pnsm6.prev with
  | none => (Output.empty.count pnsm6.totalMetricsCount, pnsm6.next fullMetricsFactor)
  | some prev =>
    let ts := unixMilli pnsm6.currTs
    let elapsed := pnsm6.currTs - pnsm6.prevTs
    -- all the indices have a metric, and there is the interval one
    let totalMetricsCount := netSnmp6NumValues + 1
    let indices := List.range curr.values.length
    let stats := indices.flatMap (statSamples pnsm6 curr prev ts elapsed)
    let out := (Output.empty.emit stats).emit [⟨.interval, (), .seconds elapsed, ts⟩]
    (out.count totalMetricsCount,
      { pnsm6 with
        zeroDelta := indices.map fun index => delta curr prev index == 0
        totalMetricsCount }.next fullMetricsFactor)

def ProcNetSnmp6Metrics.prepare (pnsm6 : ProcNetSnmp6Metrics) : NetSnmp6 × ProcNetSnmp6Metrics :=
  match pnsm6.curr, pnsm6.prev with
  | some curr, _ => (curr, pnsm6)
  | none, some prev =>
    let (curr, prev) := prev.clone false
    (curr, { pnsm6 with prev := some prev })
  | none, none =>
    let (curr, isUint32Table) := newNetSnmp6 pnsm6.isUint32Table
    (curr, { pnsm6 with isUint32Table })

def execute (pnsm6 : ProcNetSnmp6Metrics) (scan : Scan) :
    Option (Out × ProcNetSnmp6Metrics) :=
  match scan.netSnmp6 with
  | none => none
  | some buf =>
    let (curr, pnsm6) := pnsm6.prepare
    match curr.parse buf with
    | (_, some _) => none
    | (curr, none) =>
      some (generateMetrics fullMetricsFactor { pnsm6 with currTs := scan.timeNow } curr)

end Lsvmi.NetSnmp6Metrics
