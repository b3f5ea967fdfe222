import Lsvmi.Qdisc.Parse
import Lsvmi.Reasoning.Population

/-!
# The qdisc metrics generator

`QdiscMetrics.generateMetrics`.  Each call follows a successful parse into the current slot.  The
loops over the maps with the names of metrics are in the order of the index.
-/

namespace Lsvmi.Qdisc

open Reasoning

/-- All metrics but the interval are labelled with kind, handle, parent and interface. -/
inductive QdiscMetric where
  | uint32 (index : QdiscUint32)
  | uint64 (index : QdiscUint64)
  | present
  | interval
  deriving DecidableEq, Repr

abbrev QdiscSample := Sample QdiscMetric (List Bytes)

abbrev Out := Output QdiscMetric (List Bytes)

/-- The indexes of `qdiscUint32IndexToDeltaMetricNameMap`. -/
def uint32Deltas : List QdiscUint32 := [.packets, .drops, .requeues, .overlimits]

/-- The indexes of `qdiscUint32IndexToMetricNameMap`. -/
def uint32Values : List QdiscUint32 := [.qlen, .backlog]

/-- The indexes of `qdiscUint64IndexToDeltaMetricNameMap`. -/
def uint64Deltas : List QdiscUint64 := [.bytes, .gcflows, .throttled, .flowsplimit]

/-- The indexes of `qdiscUint64IndexToMetricNameMap`. -/
def uint64Values : List QdiscUint64 := []

def qdiscMetricsCount : Nat :=
  uint32Deltas.length + uint32Values.length + uint64Deltas.length + uint64Values.length

def isRate (index : QdiscUint64) : Bool := index = .bytes

def formatHex4 (n : Nat) : Bytes :=
  let digits := (Nat.toDigits 16 n).map fun c => UInt8.ofNat c.toNat
  List.replicate (4 - digits.length) 48 ++ digits

def qdiscMajMin (majMin : UInt32) : Bytes :=
  formatHex4 (majMin >>> 16).toNat ++ utf8 ":" ++ formatHex4 (majMin &&& 65535).toNat

def commonLabels (qi : QdiscInfo) : List Bytes :=
  [qi.kind, qdiscMajMin (qi.uint32 .handle), qdiscMajMin (qi.uint32 .parent), qi.ifName]

/-- The cached metrics of the source are functions of the labels. -/
structure QdiscMetricsInfo where
  labels : List Bytes
  uint32ZeroDelta : QdiscUint32 → Bool
  uint64ZeroDelta : QdiscUint64 → Bool
  cycleNum : Int

abbrev QdiscMetricsInfoMap := Finmap fun _ : QdiscInfoKey => QdiscMetricsInfo

structure QdiscMetrics where
  prev : Option Info
  prevTs : Int
  qdiscMetricsInfoMap : QdiscMetricsInfoMap
  totalMetricsCount : Nat

def newQdiscMetrics : QdiscMetrics := ⟨none, 0, ∅, 0⟩

structure Scan where
  /-- what the parser has left in the current slot -/
  info : Info
  timeNow : Int
  order : List QdiscInfoKey
  removeOrder : List QdiscInfoKey
  cycleNum : QdiscInfoKey → Int

def labelsChanged (currQi prevQi : QdiscInfo) : Bool :=
  currQi.ifName != prevQi.ifName || currQi.kind != prevQi.kind ||
    currQi.uint32 .parent != prevQi.uint32 .parent

section

variable (ts elapsed : Int) (labels : List Bytes) (fullMetrics : Bool) (currQi prevQi : QdiscInfo)

def uint32DeltaPart (zeroDelta : QdiscUint32 → Bool) (index : QdiscUint32) : List QdiscSample :=
  let val := currQi.uint32 index - prevQi.uint32 index
  if fullMetrics || decide (val > 0) || !zeroDelta index then
    [⟨.uint32 index, labels, .uint val.toUInt64, ts⟩]
  else []

def uint32Part (index : QdiscUint32) : List QdiscSample :=
  let val := currQi.uint32 index
  if fullMetrics || val != prevQi.uint32 index then
    [⟨.uint32 index, labels, .uint val.toUInt64, ts⟩]
  else []

def uint64DeltaPart (zeroDelta : QdiscUint64 → Bool) (index : QdiscUint64) : List QdiscSample :=
  let val := currQi.uint64 index - prevQi.uint64 index
  if fullMetrics || decide (val > 0) || !zeroDelta index then
    [⟨.uint64 index, labels, if isRate index then .pct val elapsed else .uint val, ts⟩]
  else []

def uint64Part (index : QdiscUint64) : List QdiscSample :=
  let val := currQi.uint64 index
  if fullMetrics || val != prevQi.uint64 index then [⟨.uint64 index, labels, .uint val, ts⟩] else []

end

def newQdiscMetricsInfo (fullMetricsFactor cycleNum : Int) (qi : QdiscInfo) : QdiscMetricsInfo :=
  ⟨commonLabels qi, fun _ => false, fun _ => false, initialCycleNum cycleNum fullMetricsFactor⟩

/-- The body of the loop over the qdiscs: the samples and the entry afterwards, for the one before; a
qdisc without previous statistics is passed over. -/
def qdiscPart (fullMetricsFactor : Int) (scan : Scan) (ts elapsed : Int) (prev : Info)
    (qiKey : QdiscInfoKey) (entry : Option QdiscMetricsInfo) :
    Option (List QdiscSample × QdiscMetricsInfo) :=
  match scan.info.lookup qiKey, prev.lookup qiKey with
  | some currQi, some prevQi =>
    -- the metrics are made anew when the labels have changed
    let cleared := entry.filter fun _ => labelsChanged currQi prevQi
    let entry := entry.filter fun _ => !labelsChanged currQi prevQi
    let fullMetrics := entry.all fun qmi => qmi.cycleNum == 0
    let qmi := entry.getD (newQdiscMetricsInfo fullMetricsFactor (scan.cycleNum qiKey) currQi)
    some (
      (cleared.toList.map fun qmi => ⟨.present, qmi.labels, .flag false, ts⟩) ++
      uint32Deltas.flatMap (uint32DeltaPart ts qmi.labels fullMetrics currQi prevQi qmi.uint32ZeroDelta) ++
      uint32Values.flatMap (uint32Part ts qmi.labels fullMetrics currQi prevQi) ++
      uint64Deltas.flatMap
        (uint64DeltaPart ts elapsed qmi.labels fullMetrics currQi prevQi qmi.uint64ZeroDelta) ++
      uint64Values.flatMap (uint64Part ts qmi.labels fullMetrics currQi prevQi) ++
      (if fullMetrics then [⟨.present, qmi.labels, .flag true, ts⟩] else []),
      { labels := qmi.labels
        uint32ZeroDelta := fun index =>
          if index ∈ uint32Deltas then currQi.uint32 index - prevQi.uint32 index == 0
          else qmi.uint32ZeroDelta index
        uint64ZeroDelta := fun index =>
          if index ∈ uint64Deltas then currQi.uint64 index - prevQi.uint64 index == 0
          else qmi.uint64ZeroDelta index
        cycleNum := nextCycleNum qmi.cycleNum fullMetricsFactor })
  | _, _ => none

def gonePart (ts : Int) (infos : QdiscMetricsInfoMap) (qiKey : QdiscInfoKey) : List QdiscSample :=
  (infos.lookup qiKey).toList.map fun qmi => ⟨.present, qmi.labels, .flag false, ts⟩

def generateMetrics (fullMetricsFactor : Int) (qm : QdiscMetrics) (scan : Scan) :
    Out × QdiscMetrics :=
  match qm.prev with
  | none => (Output.empty, { qm with prev := some scan.info, prevTs := scan.timeNow })
  | some prev =>
    let ts := unixMilli scan.timeNow
    let elapsed := scan.timeNow - qm.prevTs
    let loop := scan.order.foldl (visit (qdiscPart fullMetricsFactor scan ts elapsed prev))
      ([], qm.qdiscMetricsInfoMap)
    -- only the numbers are compared
    let removes := loop.2.keys.card != scan.info.keys.card
    let gone := (goneKeys removes scan.info scan.removeOrder).flatMap (gonePart ts loop.2)
    let out := ((Output.empty.emit loop.1).emit gone).emit [⟨.interval, [], .seconds elapsed, ts⟩]
    let totalMetricsCount :=
      if qm.totalMetricsCount = 0 then scan.info.keys.card * (qdiscMetricsCount + 1) + 1
      else qm.totalMetricsCount
    (out.count totalMetricsCount,
      ⟨some scan.info, scan.timeNow, dropGone removes scan.info loop.2, totalMetricsCount⟩)

end Lsvmi.Qdisc
