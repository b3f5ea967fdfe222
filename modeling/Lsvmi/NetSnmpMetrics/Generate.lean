import Lsvmi.Procfs.NetSnmp

/-!
# The /proc/net/snmp metrics generator

`ProcNetSnmpMetrics.Execute` and `generateMetrics`.
-/

namespace Lsvmi.NetSnmpMetrics

open Procfs

def cycleCounterNum : Nat := 16

/-- `procNetSnmpNonDeltaIndex`: IP Forwarding, DefaultTTL and ReasmTimeout, TCP RtoAlgorithm, RtoMin,
RtoMax, MaxConn and CurrEstab. -/
def isNonDelta (index : Nat) : Bool :=
  index = 0 || index = 1 || index = 12 || index = 48 || index = 49 || index = 50 || index = 51 ||
    index = 56

inductive NetSnmpMetric where
  /-- the metric that `procNetSnmpIndexToMetricNameMap` has for the index; no index is left out -/
  | stat (index : Nat)
  | interval
  deriving DecidableEq, Repr

abbrev NetSnmpSample := Sample NetSnmpMetric Unit

abbrev Out := Output NetSnmpMetric Unit

structure ProcNetSnmpMetrics where
  curr : Option NetSnmp
  prev : Option NetSnmp
  currTs : Int
  prevTs : Int
  cycleNum : List Int
  zeroDelta : List Bool

def newProcNetSnmpMetrics (fullMetricsFactor : Int) (counters : Nat → Int) : ProcNetSnmpMetrics :=
  { curr := none, prev := none, currTs := 0, prevTs := 0
    cycleNum := (List.range cycleCounterNum).map fun i =>
      initialCycleNum (counters i) fullMetricsFactor
    zeroDelta := List.replicate netSnmpNumValues false }

structure Scan where
  netSnmp : Option Bytes
  timeNow : Int

def asIsValue (index : Nat) (value : UInt32) : SampleValue :=
  if mayBeNegative index then .int value.toInt32.toInt else .uint value.toUInt64

def statPart (ts : Int) (fullCycle : Nat → Bool) (zeroDelta : Nat → Bool) (currValues : List UInt32)
    (prevValues : Option (List UInt32)) (index : Nat) : List NetSnmpSample × Bool :=
  let value := currValues.getD index 0
  let prevValue := prevValues.map fun values => values.getD index 0
  if isNonDelta index then
    (if fullCycle index || prevValue.all (value != ·) then
        [⟨.stat index, (), asIsValue index value, ts⟩]
      else [],
      zeroDelta index)
  else match prevValue with
    | none => ([], zeroDelta index)
    | some prevValue =>
      let delta := value - prevValue
      (if delta != 0 || fullCycle index || !zeroDelta index then
          [⟨.stat index, (), .uint delta.toUInt64, ts⟩]
        else [],
        delta == 0)

variable (pnsm : ProcNetSnmpMetrics)

def ProcNetSnmpMetrics.part (curr : NetSnmp) (index : Nat) :
    List NetSnmpSample × Bool :=
  statPart (unixMilli pnsm.currTs)
    (fun index => pnsm.cycleNum.getD (index % cycleCounterNum) 0 == 0)
    (fun index => pnsm.zeroDelta.getD index false) curr.values (pnsm.prev.map NetSnmp.values) index

def ProcNetSnmpMetrics.flip : ProcNetSnmpMetrics :=
  { pnsm with curr := pnsm.prev, prev := pnsm.curr, currTs := pnsm.prevTs, prevTs := pnsm.currTs }

def generateMetrics (fullMetricsFactor : Int) (pnsm : ProcNetSnmpMetrics) (curr : NetSnmp) :
    Out × ProcNetSnmpMetrics :=
  let indices := List.range curr.values.length
  let out := Output.empty.emit (indices.flatMap fun index => (pnsm.part curr index).1)
  let out :=
    if pnsm.prev.isSome then
      out.emit [⟨.interval, (), .seconds (pnsm.currTs - pnsm.prevTs), unixMilli pnsm.currTs⟩]
    else out
  -- all the indices have a metric, and there is the interval one
  (out.count (netSnmpNumValues + 1),
    { pnsm with
      curr := some curr
      zeroDelta := indices.map fun index => (pnsm.part curr index).2
      cycleNum := pnsm.cycleNum.map fun n => nextCycleNum n fullMetricsFactor }.flip)

def ProcNetSnmpMetrics.currProcNetSnmp : NetSnmp :=
  match pnsm.curr, pnsm.prev with
  | some curr, _ => curr
  | none, some prev => prev.clone false
  | none, none => newNetSnmp

/-- The previous object, with the line info of the current one if that has changed. -/
def ProcNetSnmpMetrics.updatedPrev (curr : NetSnmp) : Option NetSnmp :=
  if curr.infoChanged.isSome then pnsm.prev.map fun prev => prev.updateInfo curr else pnsm.prev

def execute (fullMetricsFactor : Int) (pnsm : ProcNetSnmpMetrics) (scan : Scan) :
    Option (Out × ProcNetSnmpMetrics) :=
  match scan.netSnmp with
  | none => none
  | some buf =>
    match pnsm.currProcNetSnmp.parse buf with
    | (_, some _) => none
    | (curr, none) =>
      some (generateMetrics fullMetricsFactor
        { pnsm with prev := pnsm.updatedPrev curr, currTs := scan.timeNow } curr)

end Lsvmi.NetSnmpMetrics
