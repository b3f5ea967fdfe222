import Mathlib.Data.Finmap
import Mathlib.Data.UInt
import Lsvmi.Metrics

/-!
# The stats of the metrics generators

Every generator adds to its stats in a shared container at the end of each of its invocations.
`InternalMetrics.Execute` moves them to a map of its own under the lock of the container and then
publishes that map.  The stats of the other components and the OS metrics are written into the same
buffer; they are represented by the text they come to.
-/

namespace Lsvmi.InternalMetrics

inductive StatIndex where
  | invocationCount | actualMetricsCount | totalMetricsCount | bytesCount
  deriving DecidableEq, Repr

def statIndexes : List StatIndex :=
  [.invocationCount, .actualMetricsCount, .totalMetricsCount, .bytesCount]

def metricName : StatIndex → String
  | .invocationCount => "lsvmi_metrics_gen_invocation_delta"
  | .actualMetricsCount => "lsvmi_metrics_gen_actual_metrics_delta"
  | .totalMetricsCount => "lsvmi_metrics_gen_total_metrics_delta"
  | .bytesCount => "lsvmi_metrics_gen_bytes_delta"

abbrev GStats := StatIndex → UInt64

abbrev MetricsGeneratorStats := Finmap fun _ : Bytes => GStats

structure MetricsGeneratorStatsContainer where
  stats : MetricsGeneratorStats

def newMetricsGeneratorStatsContainer : MetricsGeneratorStatsContainer := ⟨∅⟩

structure Update where
  id : Bytes
  actualMetricsCount : UInt64
  totalMetricsCount : UInt64
  byteCount : UInt64
  deriving DecidableEq

def Update.amount (u : Update) : GStats
  | .invocationCount => 1
  | .actualMetricsCount => u.actualMetricsCount
  | .totalMetricsCount => u.totalMetricsCount
  | .bytesCount => u.byteCount

namespace MetricsGeneratorStatsContainer

def update (mgs : MetricsGeneratorStatsContainer) (u : Update) : MetricsGeneratorStatsContainer :=
  let gStats := (mgs.stats.lookup u.id).getD fun _ => 0
  ⟨mgs.stats.insert u.id fun k => gStats k + u.amount k⟩

/-- The entries are copied over those that `snap` has for the same generators; `snap` is a nil map for
`none`. -/
def snapStats (mgs : MetricsGeneratorStatsContainer) (snap : Option MetricsGeneratorStats)
    (clearStats : Bool) : MetricsGeneratorStats × MetricsGeneratorStatsContainer :=
  (mgs.stats ∪ snap.getD ∅, if clearStats then ⟨∅⟩ else mgs)

end MetricsGeneratorStatsContainer

structure GenSample where
  id : Bytes
  stat : StatIndex
  value : Nat
  deriving DecidableEq

structure Config where
  instanceName : Bytes
  hostname : Bytes

def internalMetricsId : Bytes := utf8 "internal_metrics"

def metricsCache (cfg : Config) (id : Bytes) (k : StatIndex) : Bytes :=
  utf8 (metricName k) ++ utf8 "\x7binstance=\"" ++ cfg.instanceName ++ utf8 "\",hostname=\"" ++
    cfg.hostname ++ utf8 "\",id=\"" ++ id ++ utf8 "\"\x7d "

def GenSample.text (cfg : Config) (tsSuffix : Bytes) (s : GenSample) : Bytes :=
  metricsCache cfg s.id s.stat ++ formatUint s.value ++ tsSuffix

/-- What others write into the buffer, and how many metrics they count for it. -/
structure Section where
  text : Bytes
  metricsCount : Nat

/-- What `Execute` gets from elsewhere once the stats are collected. -/
structure Surroundings where
  /-- uptime, interval, scheduler, compressor pool, endpoint pool, Go and process metrics -/
  front : Section
  os : Section
  tsSuffix : Bytes
  /-- the order of the loop over `metricsGenStats` -/
  order : List Bytes

def genSamples (metricsGenStats : MetricsGeneratorStats) (order : List Bytes) : List GenSample :=
  order.flatMap fun id =>
    match metricsGenStats.lookup id with
    | none => []
    | some gStats => statIndexes.map fun k => ⟨id, k, (gStats k).toNat⟩

def byteCountLoop : Nat → Nat → Nat → Nat
  | 0, _, n => n
  | fuel + 1, pow10, n => if pow10 ≤ n then byteCountLoop fuel (pow10 * 10) (n + 1) else n

/-- The lines that `Execute` writes by hand about itself, behind the `buf` of the others. -/
def ownSamples (cfg : Config) (tsSuffix buf : Bytes) (metricsCount : Nat) : List GenSample :=
  let metricsCount := metricsCount + statIndexes.length
  let counts : List GenSample :=
    [⟨internalMetricsId, .invocationCount, 1⟩,
      ⟨internalMetricsId, .actualMetricsCount, metricsCount⟩,
      -- No delta for internal metrics
      ⟨internalMetricsId, .totalMetricsCount, metricsCount⟩]
  let l := buf.length + (counts.flatMap (GenSample.text cfg tsSuffix)).length +
    (metricsCache cfg internalMetricsId .bytesCount).length + tsSuffix.length + 1
  counts ++ [⟨internalMetricsId, .bytesCount, byteCountLoop (l + 1) 10 (l + 1)⟩]

def publishedSamples (cfg : Config) (metricsGenStats : MetricsGeneratorStats)
    (surr : Surroundings) : List GenSample :=
  let samples := genSamples metricsGenStats surr.order
  let buf := surr.front.text ++ samples.flatMap (GenSample.text cfg surr.tsSuffix) ++ surr.os.text
  let metricsCount := surr.front.metricsCount + samples.length + surr.os.metricsCount
  samples ++ ownSamples cfg surr.tsSuffix buf metricsCount

structure State where
  mgs : MetricsGeneratorStatsContainer
  metricsGenStats : MetricsGeneratorStats
  /-- `Execute` has collected the stats and not yet queued its buffer. -/
  executing : Bool

def created : State := ⟨newMetricsGeneratorStatsContainer, ∅, false⟩

inductive Event where
  | update (u : Update)
  | snapStats
  | publish (surr : Surroundings)

def step (cfg : Config) (s : State) : Event → Option (State × List GenSample)
  | .update u => some ({ s with mgs := s.mgs.update u }, [])
  | .snapStats =>
    if s.executing then none
    else
      let (metricsGenStats, mgs) := s.mgs.snapStats (some s.metricsGenStats) true
      some (⟨mgs, metricsGenStats, true⟩, [])
  | .publish surr =>
    if s.executing ∧ surr.order.Nodup ∧ surr.order.toFinset = s.metricsGenStats.keys then
      some ({ s with executing := false }, publishedSamples cfg s.metricsGenStats surr)
    else none

end Lsvmi.InternalMetrics
