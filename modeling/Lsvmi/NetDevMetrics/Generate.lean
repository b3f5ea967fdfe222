import Lsvmi.Metrics
import Lsvmi.Reasoning.FiniteMap

/-!
# The /proc/net/dev metrics generator

`ProcNetDevMetrics.generateMetrics`.  Each call follows a successful parse into the current slot.
-/

namespace Lsvmi.NetDevMetrics

open Reasoning

/-- The indexes of the statistics of a device. -/
inductive NetDevStat where
  | rxBytes | rxPackets | rxErrs | rxDrop | rxFifo | rxFrame | rxCompressed | rxMulticast
  | txBytes | txPackets | txErrs | txDrop | txFifo | txColls | txCarrier | txCompressed
  deriving DecidableEq, Repr

def NetDevStat.all : List NetDevStat :=
  [.rxBytes, .rxPackets, .rxErrs, .rxDrop, .rxFifo, .rxFrame, .rxCompressed, .rxMulticast,
    .txBytes, .txPackets, .txErrs, .txDrop, .txFifo, .txColls, .txCarrier, .txCompressed]

theorem NetDevStat.mem_all (i : NetDevStat) : i ∈ all := by
  cases i <;> decide

/-- `procNetDevIndexRate`: the statistics that are published as rates. -/
def isRate (i : NetDevStat) : Bool := i = .rxBytes || i = .txBytes

/-- `NetDev.DevStats` -/
abbrev DevStats := Finmap fun _ : Bytes => NetDevStat → UInt64

inductive NetDevMetric where
  /-- labelled with the device, like `present` -/
  | stat (i : NetDevStat)
  | present
  | interval
  deriving DecidableEq, Repr

abbrev NetDevSample := Sample NetDevMetric (List Bytes)

abbrev Out := Output NetDevMetric (List Bytes)

/-- The cached metrics of the source are functions of the device. -/
structure ProcNetDevInfo where
  cycleNum : Int
  zeroDelta : NetDevStat → Bool

abbrev DevInfoMap := Finmap fun _ : Bytes => ProcNetDevInfo

structure ProcNetDevMetrics where
  prev : Option DevStats
  prevTs : Int
  devInfoMap : DevInfoMap
  totalMetricsCount : Nat

def newProcNetDevMetrics : ProcNetDevMetrics := ⟨none, 0, ∅, 0⟩

/-- What a call finds outside the generator. -/
structure Scan where
  /-- what the parser has left in the current slot -/
  devStats : DevStats
  timeNow : Int
  order : List Bytes
  removeOrder : List Bytes
  cycleNum : Bytes → Int

/-- A rate is kept as the delta and the time that it is computed from. -/
def deltaValue (i : NetDevStat) (val : UInt64) (elapsed : Int) : SampleValue :=
  if isRate i then .pct val elapsed else .uint val

def statPart (ts elapsed : Int) (dev : Bytes) (fullMetrics : Bool)
    (currDevStats prevDevStats : NetDevStat → UInt64) (zeroDelta : NetDevStat → Bool)
    (i : NetDevStat) : List NetDevSample × Bool :=
  let val := currDevStats i - prevDevStats i
  (if val != 0 || fullMetrics || !zeroDelta i then
      [⟨.stat i, [dev], deltaValue i val elapsed, ts⟩]
    else [],
    val == 0)

section

variable (fullMetricsFactor : Int) (scan : Scan) (ts elapsed : Int) (prev : DevStats)

def newDevInfo (dev : Bytes) : ProcNetDevInfo :=
  ⟨initialCycleNum (scan.cycleNum dev) fullMetricsFactor, fun _ => false⟩

def devEntry (dev : Bytes) (entry : Option ProcNetDevInfo) :
    Option (List NetDevSample × ProcNetDevInfo) :=
  match scan.devStats.lookup dev, prev.lookup dev with
  | some currDevStats, some prevDevStats =>
    let fullMetrics := entry.all fun devInfo => devInfo.cycleNum == 0
    let devInfo := entry.getD (newDevInfo fullMetricsFactor scan dev)
    let parts := statPart ts elapsed dev fullMetrics currDevStats prevDevStats devInfo.zeroDelta
    let present := if fullMetrics then [⟨.present, [dev], .flag true, ts⟩] else []
    some ((NetDevStat.all.flatMap fun i => (parts i).1) ++ present,
      ⟨nextCycleNum devInfo.cycleNum fullMetricsFactor, fun i => (parts i).2⟩)
  | _, _ => none

structure Loop where
  out : Out
  devInfoMap : DevInfoMap
  evalTotalMetricsCount : Bool

def devPart (loop : Loop) (dev : Bytes) : Loop :=
  match devEntry fullMetricsFactor scan ts elapsed prev dev (loop.devInfoMap.lookup dev) with
  | none => loop
  | some (samples, devInfo) =>
    ⟨loop.out.emit samples, loop.devInfoMap.insert dev devInfo,
      loop.evalTotalMetricsCount || (loop.devInfoMap.lookup dev).isNone⟩

def removeOutOfScope (loop : Loop) : Loop :=
  if loop.devInfoMap.keys.card > scan.devStats.keys.card then
    let gone := scan.removeOrder.filter fun dev => (scan.devStats.lookup dev).isNone
    ⟨loop.out.emit (gone.map fun dev => ⟨.present, [dev], .flag false, ts⟩),
      filterMapEntries
        (fun dev devInfo => if (scan.devStats.lookup dev).isNone then none else some devInfo)
        loop.devInfoMap,
      true⟩
  else loop

end

def generateMetrics (fullMetricsFactor : Int) (pndm : ProcNetDevMetrics) (scan : Scan) :
    Out × ProcNetDevMetrics :=
  match pndm.prev with
  | none => (Output.empty, { pndm with prev := some scan.devStats, prevTs := scan.timeNow })
  | some prev =>
    let ts := unixMilli scan.timeNow
    let elapsed := scan.timeNow - pndm.prevTs
    let loop := scan.order.foldl (devPart fullMetricsFactor scan ts elapsed prev)
      ⟨Output.empty, pndm.devInfoMap, false⟩
    let loop := removeOutOfScope scan ts loop
    let out := loop.out.emit [⟨.interval, [], .seconds elapsed, ts⟩]
    let totalMetricsCount :=
      if loop.evalTotalMetricsCount then
        scan.devStats.keys.card * (NetDevStat.all.length + 1) + 1
      else pndm.totalMetricsCount
    (out.count totalMetricsCount,
      ⟨some scan.devStats, scan.timeNow, loop.devInfoMap, totalMetricsCount⟩)

end Lsvmi.NetDevMetrics
