import Lsvmi.Compressor.Loop
import Lsvmi.HttpPool.Pool
import Lsvmi.InternalMetrics.Buffer
import Lsvmi.ProcPid.Data
import Lsvmi.Reasoning.Exposition
import Lsvmi.Reasoning.LineCount
import Lsvmi.Scheduler.Task

/-!
# The sections of the internal metrics

What `Execute` and the generators of the components write, line by line, and the number of metrics
that `Execute` publishes for its buffer.  The stats are those that were collected, with the ones of the
previous call for the deltas.  The tables and the stats are Go maps; they are listed in the order in
which they are gone through.
-/

namespace Lsvmi.InternalMetrics

open Reasoning Reasoning.Exposition List
open Scheduler (TaskStats)
open Compressor (CompressorStats)
open HttpPool (HttpEndpointStats EndpointState)
open ProcPid (PidStat)

structure MetricName where
  text : String
  valid : isMetricName (utf8 text) = true

structure LabelName where
  text : String
  valid : isLabelName (utf8 text) = true

structure MetricLine where
  name : MetricName
  labels : List (LabelName × Bytes)
  value : Bytes

/-- What is printed with `strconv.FormatFloat`, by the numbers it is computed from. -/
inductive FloatValue where
  | seconds (ns : Int)
  /-- zero if the count is -/
  | avgSeconds (ns : Int) (count : UInt64)
  | factor (q : ℚ)
  | cpuPct (ticks : UInt64) (ns : Int)

variable (cfg : Config) (formatFloat : FloatValue → Nat → Bytes)

def MetricLine.body (l : MetricLine) : Bytes :=
  utf8 l.name.text ++ leftBrace :: (rawLabels ((utf8 "instance", cfg.instanceName) ::
    (utf8 "hostname", cfg.hostname) :: l.labels.map fun label => (utf8 label.1.text, label.2)) ++
    [rightBrace, space] ++ l.value)

def Section.write (tsSuffix : Bytes) (s : Section) (l : MetricLine) : Section where
  text := s.text ++ (l.body cfg ++ tsSuffix)
  metricsCount := s.metricsCount + 1

def Section.writeAll (tsSuffix : Bytes) (s : Section) (ls : List MetricLine) : Section :=
  ls.foldl (Section.write cfg tsSuffix) s

/-! ## The generators of the components -/

structure Snapped (S : Type) where
  curr : List (Bytes × S)
  prev : List (Bytes × S)

def deltaLines {S : Type} (nameMap : List (MetricName × (S → UInt64))) (labels : List (LabelName × Bytes))
    (curr : S) (prev : Option S) : List MetricLine :=
  nameMap.map fun (name, stat) => ⟨name, labels, formatUint (match prev with
    | some prev => stat curr - stat prev
    | none => stat curr).toNat⟩

def taskStatsUint64DeltaMetricsNameMap : List (MetricName × (TaskStats → UInt64)) :=
  [(⟨"lsvmi_task_scheduled_delta", rfl⟩, TaskStats.scheduledCount),
    (⟨"lsvmi_task_delayed_delta", rfl⟩, TaskStats.delayedCount),
    (⟨"lsvmi_task_overrun_delta", rfl⟩, TaskStats.overrunCount),
    (⟨"lsvmi_task_executed_delta", rfl⟩, TaskStats.executedCount),
    (⟨"lsvmi_task_deadline_hack_delta", rfl⟩, TaskStats.deadlineHackCount)]

def runtimeAvg (curr : TaskStats) : Option TaskStats → FloatValue
  | some prev =>
    .avgSeconds (curr.runtimeTotal - prev.runtimeTotal) (curr.executedCount - prev.executedCount)
  | none => .avgSeconds curr.runtimeTotal curr.executedCount

def schedulerLines (stats : Snapped TaskStats) : List MetricLine :=
  stats.curr.flatMap fun (taskId, curr) =>
    let labels := [(⟨"task_id", rfl⟩, taskId)]
    let prev := stats.prev.lookup taskId
    deltaLines taskStatsUint64DeltaMetricsNameMap labels curr prev ++
      [⟨⟨"lsvmi_task_interval_avg_runtime_sec", rfl⟩, labels, formatFloat (runtimeAvg curr prev) 6⟩]

def compressorStatsUint64DeltaMetricsNameMap : List (MetricName × (CompressorStats → UInt64)) :=
  [(⟨"lsvmi_compressor_read_delta", rfl⟩, CompressorStats.readCount),
    (⟨"lsvmi_compressor_read_byte_delta", rfl⟩, CompressorStats.readByteCount),
    (⟨"lsvmi_compressor_send_delta", rfl⟩, CompressorStats.sendCount),
    (⟨"lsvmi_compressor_send_byte_delta", rfl⟩, CompressorStats.sendByteCount),
    (⟨"lsvmi_compressor_tout_flush_delta", rfl⟩, CompressorStats.timeoutFlushCount),
    (⟨"lsvmi_compressor_send_error_delta", rfl⟩, CompressorStats.sendErrorCount),
    (⟨"lsvmi_compressor_write_error_delta", rfl⟩, CompressorStats.writeErrorCount)]

def compressorPoolLines (stats : Snapped CompressorStats) : List MetricLine :=
  stats.curr.flatMap fun (compressorId, curr) =>
    let labels := [(⟨"compressor", rfl⟩, compressorId)]
    deltaLines compressorStatsUint64DeltaMetricsNameMap labels curr (stats.prev.lookup compressorId) ++
      [⟨⟨"lsvmi_compressor_compression_factor", rfl⟩, labels,
        formatFloat (.factor curr.compressionFactor) 3⟩]

structure HttpEndpointPoolStats where
  healthyRotateCount : UInt64
  noHealthyEpErrorCount : UInt64
  endpointStats : List (Bytes × HttpEndpointStats)

def httpEndpointStatsDeltaMetricsNameMap : List (MetricName × (HttpEndpointStats → UInt64)) :=
  [(⟨"lsvmi_http_ep_send_buffer_delta", rfl⟩, HttpEndpointStats.sendBufferCount),
    (⟨"lsvmi_http_ep_send_buffer_byte_delta", rfl⟩, HttpEndpointStats.sendBufferByteCount),
    (⟨"lsvmi_http_ep_send_buffer_error_delta", rfl⟩, HttpEndpointStats.sendBufferErrorCount),
    (⟨"lsvmi_http_ep_healthcheck_delta", rfl⟩, HttpEndpointStats.healthCheckCount),
    (⟨"lsvmi_http_ep_healthcheck_error_delta", rfl⟩, HttpEndpointStats.healthCheckErrorCount)]

def endpointStateIndex : EndpointState → Nat
  | .inHealthCheck => 0
  | .healthy => 1
  | .atHead => 2

def httpEndpointPoolLines (curr : HttpEndpointPoolStats) (prev : Option HttpEndpointPoolStats) :
    List MetricLine :=
  deltaLines [(⟨"lsvmi_http_ep_pool_no_healthy_ep_error_delta", rfl⟩,
      HttpEndpointPoolStats.noHealthyEpErrorCount)] [] curr prev ++
    [⟨⟨"lsvmi_http_ep_pool_healthy_rotate_count", rfl⟩, [],
      formatUint curr.healthyRotateCount.toNat⟩] ++
    curr.endpointStats.flatMap fun (url, currEPStats) =>
      let labels := [(⟨"url", rfl⟩, url)]
      deltaLines httpEndpointStatsDeltaMetricsNameMap labels currEPStats
          (prev.bind fun prev => prev.endpointStats.lookup url) ++
        [⟨⟨"lsvmi_http_ep_state", rfl⟩, labels, formatUint (endpointStateIndex currEPStats.state)⟩]

structure MemStats where
  sys : UInt64
  heapAlloc : UInt64
  heapSys : UInt64
  mallocs : UInt64
  frees : UInt64
  numGC : UInt32

def goLines (numGoRoutine : Int) (curr prev : MemStats) : List MetricLine :=
  [⟨⟨"lsvmi_go_num_goroutine", rfl⟩, [], formatInt numGoRoutine⟩,
    ⟨⟨"lsvmi_go_mem_sys_bytes", rfl⟩, [], formatUint curr.sys.toNat⟩,
    ⟨⟨"lsvmi_go_mem_heap_bytes", rfl⟩, [], formatUint curr.heapAlloc.toNat⟩,
    ⟨⟨"lsvmi_go_mem_heap_sys_bytes", rfl⟩, [], formatUint curr.heapSys.toNat⟩,
    ⟨⟨"lsvmi_go_mem_in_use_object_count", rfl⟩, [], formatUint (curr.mallocs - curr.frees).toNat⟩,
    ⟨⟨"lsvmi_go_mem_malloc_delta", rfl⟩, [], formatUint (curr.mallocs - prev.mallocs).toNat⟩,
    ⟨⟨"lsvmi_go_mem_free_delta", rfl⟩, [], formatUint (curr.frees - prev.frees).toNat⟩,
    ⟨⟨"lsvmi_go_mem_gc_delta", rfl⟩, [], formatUint (curr.numGC - prev.numGC).toNat⟩]

/-- `none` for a `pidStat` that could not be collected. -/
structure ProcessStats where
  currPidStat : Option PidStat
  prevPidStat : Option PidStat
  elapsed : Int
  pagesize : UInt64

def processLines (stats : ProcessStats) : List MetricLine :=
  match stats.currPidStat with
  | none => []
  | some curr =>
    [⟨⟨"lsvmi_proc_vsize", rfl⟩, [], curr.bsf .vsize⟩,
      ⟨⟨"lsvmi_proc_rss", rfl⟩, [], formatUint (curr.nf .rss * stats.pagesize).toNat⟩,
      ⟨⟨"lsvmi_proc_num_threads", rfl⟩, [], curr.bsf .numThreads⟩] ++
    match stats.prevPidStat with
    | none => []
    | some prev =>
      [⟨⟨"lsvmi_proc_pcpu", rfl⟩, [], formatFloat (.cpuPct
        (curr.nf .utime + curr.nf .stime - prev.nf .utime - prev.nf .stime) stats.elapsed) 1⟩]

/-! ## The OS metrics -/

structure OsInfo where
  name : Bytes
  release : Bytes
  machine : Bytes
  releaseVer : List Int
  linuxOsRelease : String → Bytes
  btime : Int

def osInfoLinuxOSReleaseKeys : List LabelName :=
  [⟨"ID", rfl⟩, ⟨"NAME", rfl⟩, ⟨"PRETTY_NAME", rfl⟩, ⟨"VERSION", rfl⟩, ⟨"VERSION_CODENAME", rfl⟩,
    ⟨"VERSION_ID", rfl⟩]

def osInfoLine (os : OsInfo) : MetricLine :=
  ⟨⟨"os_info", rfl⟩, [(⟨"sys_name", rfl⟩, os.name), (⟨"sys_release", rfl⟩, os.release),
    (⟨"sys_arch", rfl⟩, os.machine), (⟨"sys_version", rfl⟩, List.intercalate (utf8 ".") (os.releaseVer.map formatInt))] ++
    osInfoLinuxOSReleaseKeys.map fun key => (key, os.linuxOsRelease key.text), utf8 "1"⟩

/-- There is no `osCycleNum` before the metrics are built. -/
def osLines (os : OsInfo) (osCycleNum : Option Int) (now : Int) : List MetricLine :=
  (if osCycleNum = none ∨ osCycleNum = some 0 then
    [osInfoLine os, ⟨⟨"os_btime_sec", rfl⟩, [], formatInt (os.btime / 1000000000)⟩] else []) ++
    [⟨⟨"os_uptime_sec", rfl⟩, [], formatFloat (.seconds (now - os.btime)) 0⟩]

/-! ## `Execute` -/

structure CollectedStats where
  ts : Int
  startTs : Int
  prevTs : Int
  version : Bytes
  gitInfo : Bytes
  scheduler : Snapped TaskStats
  compressorPool : Option (Snapped CompressorStats)
  httpEndpointPool : Option (HttpEndpointPoolStats × Option HttpEndpointPoolStats)
  numGoRoutine : Int
  memStats : MemStats
  prevMemStats : MemStats
  processMetrics : Option ProcessStats
  os : OsInfo
  osCycleNum : Option Int
  /-- when the OS uptime is taken -/
  now : Int

namespace CollectedStats

variable (c : CollectedStats)

def tsSuffix : Bytes := utf8 " " ++ formatInt (unixMilli c.ts) ++ [newline]

def uptimeLines : List MetricLine :=
  [⟨⟨"lsvmi_uptime_sec", rfl⟩, [(⟨"version", rfl⟩, c.version), (⟨"gitinfo", rfl⟩, c.gitInfo)],
      formatFloat (.seconds (c.ts - c.startTs)) 6⟩,
    ⟨⟨"lsvmi_internal_metrics_delta_sec", rfl⟩, [], formatFloat (.seconds (c.ts - c.prevTs)) 6⟩]

def compressorLines : List MetricLine :=
  match c.compressorPool with
  | some stats => compressorPoolLines formatFloat stats
  | none => []

def endpointLines : List MetricLine :=
  match c.httpEndpointPool with
  | some (curr, prev) => httpEndpointPoolLines curr prev
  | none => []

def pidLines : List MetricLine :=
  match c.processMetrics with
  | some stats => processLines formatFloat stats
  | none => []

def front : Section :=
  let out := Section.writeAll cfg c.tsSuffix ⟨[], 0⟩ (c.uptimeLines formatFloat)
  let out := out.writeAll cfg c.tsSuffix (schedulerLines formatFloat c.scheduler)
  let out := out.writeAll cfg c.tsSuffix (c.compressorLines formatFloat)
  let out := out.writeAll cfg c.tsSuffix c.endpointLines
  let out := out.writeAll cfg c.tsSuffix (goLines c.numGoRoutine c.memStats c.prevMemStats)
  -- What `generateMetrics` of the process metrics returns is not added to the count.
  { out.writeAll cfg c.tsSuffix (c.pidLines formatFloat) with metricsCount := out.metricsCount }

def surroundings (order : List Bytes) : Surroundings where
  front := c.front cfg formatFloat
  os := Section.writeAll cfg c.tsSuffix ⟨[], 0⟩ (osLines formatFloat c.os c.osCycleNum c.now)
  tsSuffix := c.tsSuffix
  order := order

def countedLines : List MetricLine :=
  c.uptimeLines formatFloat ++ schedulerLines formatFloat c.scheduler ++
    c.compressorLines formatFloat ++ c.endpointLines ++
    goLines c.numGoRoutine c.memStats c.prevMemStats

end CollectedStats

/-! ## The number of lines -/

theorem Section.writeAll_eq (tsSuffix : Bytes) (s : Section) (ls : List MetricLine) :
    s.writeAll cfg tsSuffix ls =
      ⟨s.text ++ (ls.map (MetricLine.body cfg)).flatMap (· ++ tsSuffix),
        s.metricsCount + ls.length⟩ := by
  induction ls generalizing s with
  | nil => simp [Section.writeAll]
  | cons l ls ih =>
    show (s.write cfg tsSuffix l).writeAll cfg tsSuffix ls = _
    rw [ih, Section.write]
    simp [Nat.add_comm, Nat.add_left_comm]

theorem MetricLine.head_body (l : MetricLine) : (l.body cfg).head? ≠ some newline := by
  intro hhead
  have hvalid := l.name.valid
  rw [isMetricName, Bool.and_eq_true] at hvalid
  cases hname : utf8 l.name.text with
  | nil =>
    rw [hname] at hvalid
    cases hvalid.1
  | cons b name =>
    rw [MetricLine.body, hname] at hhead
    rw [hname] at hvalid
    cases hhead
    cases hvalid.1

def GenSample.body (s : GenSample) : Bytes := metricsCache cfg s.id s.stat ++ formatUint s.value

theorem GenSample.head_body (s : GenSample) : (s.body cfg).head? ≠ some newline := by
  have hhead : (s.body cfg).head? = some 108 := by
    cases s with
    | mk id stat value => cases stat <;> rfl
  rw [hhead]
  decide

theorem newline_notMem_formatUint (n : Nat) : newline ∉ formatUint n := by
  intro hmem
  obtain ⟨ch, hch, heq⟩ := mem_map.mp hmem
  have hdigit : 48 ≤ ch.toNat ∧ ch.toNat ≤ 57 :=
    Char.isDigit_iff_toNat.mp (Nat.isDigit_of_mem_toDigits (by decide) (by decide) hch)
  have hnat : ch.toNat % 256 = 10 := congrArg UInt8.toNat heq
  omega

section

variable (c : CollectedStats) (metricsGenStats : MetricsGeneratorStats) (order : List Bytes)

def sampleTexts : List Bytes :=
  let surr := c.surroundings cfg formatFloat order
  (c.countedLines formatFloat ++ c.pidLines formatFloat).map (MetricLine.body cfg) ++
    (genSamples metricsGenStats order).map (GenSample.body cfg) ++
    (osLines formatFloat c.os c.osCycleNum c.now).map (MetricLine.body cfg) ++
    (ownPublished cfg metricsGenStats surr).map (GenSample.body cfg)

theorem front_eq : c.front cfg formatFloat =
    ⟨((c.countedLines formatFloat ++ c.pidLines formatFloat).map (MetricLine.body cfg)).flatMap
      (· ++ c.tsSuffix), (c.countedLines formatFloat).length⟩ := by
  simp only [CollectedStats.front, CollectedStats.countedLines, Section.writeAll_eq]
  simp [Nat.add_assoc]

theorem queuedBuf_eq : queuedBuf cfg metricsGenStats (c.surroundings cfg formatFloat order) =
    (sampleTexts cfg formatFloat c metricsGenStats order).flatMap
      (· ++ (utf8 " " ++ formatInt (unixMilli c.ts)) ++ [newline]) ++ [newline] := by
  have hsuffix : (fun body : Bytes => body ++ (utf8 " " ++ formatInt (unixMilli c.ts)) ++ [newline]) =
      (· ++ c.tsSuffix) := by
    funext body
    rw [CollectedStats.tsSuffix, append_assoc]
  have hgen : ∀ samples : List GenSample, samples.flatMap (GenSample.text cfg c.tsSuffix) =
      (samples.map (GenSample.body cfg)).flatMap (· ++ c.tsSuffix) := by
    intro samples
    rw [flatMap_map]
    rfl
  rw [hsuffix, queuedBuf, bufBeforeOwn, sampleTexts, flatMap_append, flatMap_append,
    flatMap_append, ← hgen, ← hgen]
  show (c.front cfg formatFloat).text ++ _ ++ (Section.writeAll cfg c.tsSuffix _ _).text ++ _ ++ _ = _
  rw [front_eq, Section.writeAll_eq]
  rfl

theorem length_sampleTexts : (sampleTexts cfg formatFloat c metricsGenStats order).length =
    countBeforeOwn metricsGenStats (c.surroundings cfg formatFloat order) + 4 +
      (c.pidLines formatFloat).length := by
  have hfront : (c.surroundings cfg formatFloat order).front.metricsCount =
      (c.countedLines formatFloat).length := congrArg Section.metricsCount (front_eq cfg formatFloat c)
  have hos : (c.surroundings cfg formatFloat order).os.metricsCount =
      (osLines formatFloat c.os c.osCycleNum c.now).length := by
    rw [CollectedStats.surroundings, Section.writeAll_eq]
    exact Nat.zero_add _
  have hown : (ownPublished cfg metricsGenStats (c.surroundings cfg formatFloat order)).length = 4 := rfl
  rw [countBeforeOwn, hfront, hos, sampleTexts]
  simp only [length_append, length_map, hown]
  show _ + (genSamples metricsGenStats order).length + _ + _ =
    _ + (genSamples metricsGenStats order).length + _ + _ + _
  omega

theorem newline_notMem_formatInt (n : Int) : newline ∉ formatInt n := by
  rw [formatInt]
  split
  · rw [mem_cons]
    exact not_or.mpr ⟨by decide, newline_notMem_formatUint _⟩
  · exact newline_notMem_formatUint _

theorem head_sampleTexts : ∀ body ∈ sampleTexts cfg formatFloat c metricsGenStats order,
    body.head? ≠ some newline := by
  intro body hbody
  simp only [sampleTexts, mem_append, mem_map] at hbody
  rcases hbody with ((⟨l, _, rfl⟩ | ⟨s, _, rfl⟩) | ⟨l, _, rfl⟩) | ⟨s, _, rfl⟩
  · exact l.head_body cfg
  · exact s.head_body cfg
  · exact l.head_body cfg
  · exact s.head_body cfg

theorem lineCount_queuedBuf :
    (sampleTexts cfg formatFloat c metricsGenStats order).length ≤
      lineCount newline (queuedBuf cfg metricsGenStats (c.surroundings cfg formatFloat order)) ∧
    (lineCount newline (queuedBuf cfg metricsGenStats (c.surroundings cfg formatFloat order)) =
        (sampleTexts cfg formatFloat c metricsGenStats order).length ↔
      ∀ body ∈ sampleTexts cfg formatFloat c metricsGenStats order, newline ∉ body) := by
  have htail : newline ∉ utf8 " " ++ formatInt (unixMilli c.ts) := by
    rw [mem_append]
    exact not_or.mpr ⟨by decide, newline_notMem_formatInt _⟩
  rw [queuedBuf_eq]
  exact lineCount_records htail (cons_ne_nil _ _)
    (head_sampleTexts cfg formatFloat c metricsGenStats order) [newline]

end

/-! ## Newlines in the texts -/

theorem newline_notMem_of_all {name : Bytes} {p : UInt8 → Bool} (h : name.all p)
    (hp : p newline = false) : newline ∉ name := by
  intro hmem
  have hnl := all_eq_true.mp h _ hmem
  rw [hp] at hnl
  cases hnl

theorem MetricLine.body_iff (l : MetricLine) : newline ∉ l.body cfg ↔
    newline ∉ cfg.instanceName ∧ newline ∉ cfg.hostname ∧
      (∀ text ∈ l.labels.map Prod.snd, newline ∉ text) ∧ newline ∉ l.value := by
  have hname : newline ∉ utf8 l.name.text :=
    newline_notMem_of_all (Bool.and_eq_true_iff.mp l.name.valid).2 rfl
  have hlabel : ∀ label : LabelName, newline ∉ utf8 label.text := fun label =>
    newline_notMem_of_all (Bool.and_eq_true_iff.mp label.valid).2 rfl
  have hfixed : newline ∉ utf8 "instance" ∧ newline ∉ utf8 "hostname" ∧ newline ≠ leftBrace ∧
      newline ≠ rightBrace ∧ newline ≠ space ∧ newline ≠ equals ∧ newline ≠ quote ∧
      newline ≠ comma := by decide
  simp [MetricLine.body, rawLabels, rawLabel, hname, hlabel, hfixed]

theorem GenSample.body_iff (s : GenSample) : newline ∉ s.body cfg ↔
    newline ∉ cfg.instanceName ∧ newline ∉ cfg.hostname ∧ newline ∉ s.id := by
  have hname : newline ∉ utf8 (metricName s.stat) := by cases s.stat <;> decide
  have hfixed : newline ∉ utf8 "\x7binstance=\"" ∧ newline ∉ utf8 "\",hostname=\"" ∧
      newline ∉ utf8 "\",id=\"" ∧ newline ∉ utf8 "\"\x7d " := by decide
  simp [GenSample.body, metricsCache, hname, hfixed, newline_notMem_formatUint]

theorem newline_notMem_releaseVer (releaseVer : List Int) :
    newline ∉ List.intercalate (utf8 ".") (releaseVer.map formatInt) := by
  induction releaseVer with
  | nil => exact nofun
  | cons ver vers ih =>
    cases vers with
    | nil => simpa using newline_notMem_formatInt ver
    | cons ver' vers =>
      rw [map_cons] at ih ⊢
      rw [map_cons, intercalate_cons_cons, mem_append, mem_append, not_or, not_or]
      exact ⟨⟨newline_notMem_formatInt ver, by decide⟩, ih⟩

namespace CollectedStats

variable (c : CollectedStats)

def osTexts : List Bytes :=
  if c.osCycleNum = none ∨ c.osCycleNum = some 0 then
    c.os.name :: c.os.release :: c.os.machine ::
      osInfoLinuxOSReleaseKeys.map fun key => c.os.linuxOsRelease key.text
  else []

/-- The texts that are printed as they are: the version, the ids of the tasks and the compressors, the
URLs of the endpoints, and those of the OS. -/
def texts : List Bytes :=
  [c.version, c.gitInfo] ++ c.scheduler.curr.map Prod.fst ++
    (c.compressorPool.elim [] fun stats => stats.curr.map Prod.fst) ++
    (c.httpEndpointPool.elim [] fun stats => stats.1.endpointStats.map Prod.fst) ++ c.osTexts

end CollectedStats

section

variable {cfg} {formatFloat} (c : CollectedStats) (hfloat : ∀ v prec, newline ∉ formatFloat v prec)
  (hinstance : newline ∉ cfg.instanceName) (hhost : newline ∉ cfg.hostname)

theorem entries_body_iff {S : Type} (entries : List (Bytes × S)) {f : Bytes × S → List MetricLine}
    (h : ∀ e, (∀ l ∈ f e, newline ∉ l.body cfg) ↔ newline ∉ e.1) :
    (∀ l ∈ entries.flatMap f, newline ∉ l.body cfg) ↔
      ∀ text ∈ entries.map Prod.fst, newline ∉ text := by
  rw [forall_mem_flatMap, forall_mem_map]
  exact forall₂_congr fun e _ => h e

include hfloat hinstance hhost

theorem front_body_iff : (∀ l ∈ c.countedLines formatFloat, newline ∉ l.body cfg) ∧
    (∀ l ∈ osLines formatFloat c.os c.osCycleNum c.now, newline ∉ l.body cfg) ↔
      ∀ text ∈ c.texts, newline ∉ text := by
  have hline : ∀ l : MetricLine, newline ∉ l.body cfg ↔
      (∀ text ∈ l.labels.map Prod.snd, newline ∉ text) ∧ newline ∉ l.value := by
    simp [MetricLine.body_iff, hinstance, hhost]
  have huptime : (∀ l ∈ c.uptimeLines formatFloat, newline ∉ l.body cfg) ↔
      ∀ text ∈ [c.version, c.gitInfo], newline ∉ text := by
    simp [CollectedStats.uptimeLines, hline, hfloat, or_imp, forall_and]
  have hscheduler : (∀ l ∈ schedulerLines formatFloat c.scheduler, newline ∉ l.body cfg) ↔
      ∀ text ∈ c.scheduler.curr.map Prod.fst, newline ∉ text := by
    refine entries_body_iff _ fun e => ?_
    simp [deltaLines, taskStatsUint64DeltaMetricsNameMap, hline, hfloat, newline_notMem_formatUint]
  have hcompressor : (∀ l ∈ c.compressorLines formatFloat, newline ∉ l.body cfg) ↔
      ∀ text ∈ c.compressorPool.elim [] fun stats => stats.curr.map Prod.fst, newline ∉ text := by
    unfold CollectedStats.compressorLines
    cases c.compressorPool with
    | none => exact iff_of_true nofun nofun
    | some stats =>
      refine entries_body_iff _ fun e => ?_
      simp [deltaLines, compressorStatsUint64DeltaMetricsNameMap, hline, hfloat,
        newline_notMem_formatUint]
  have hendpoint : (∀ l ∈ c.endpointLines, newline ∉ l.body cfg) ↔
      ∀ text ∈ c.httpEndpointPool.elim [] fun stats => stats.1.endpointStats.map Prod.fst,
        newline ∉ text := by
    unfold CollectedStats.endpointLines
    cases c.httpEndpointPool with
    | none => exact iff_of_true nofun nofun
    | some stats =>
      simp only [httpEndpointPoolLines, forall_mem_append]
      rw [and_iff_right]
      · refine entries_body_iff _ fun e => ?_
        simp [deltaLines, httpEndpointStatsDeltaMetricsNameMap, hline, newline_notMem_formatUint]
      · simp [deltaLines, hline, newline_notMem_formatUint]
  have hgo : ∀ l ∈ goLines c.numGoRoutine c.memStats c.prevMemStats, newline ∉ l.body cfg := by
    simp [goLines, hline, newline_notMem_formatUint, newline_notMem_formatInt]
  have hos : (∀ l ∈ osLines formatFloat c.os c.osCycleNum c.now, newline ∉ l.body cfg) ↔
      ∀ text ∈ c.osTexts, newline ∉ text := by
    unfold osLines CollectedStats.osTexts
    have hone : newline ∉ utf8 "1" := by decide
    split <;> simp [osInfoLine, hline, hfloat, hone, newline_notMem_formatInt,
      newline_notMem_releaseVer, or_imp, forall_and]
  simp only [CollectedStats.countedLines, CollectedStats.texts, forall_mem_append, huptime,
    hscheduler, hcompressor, hendpoint, hos, and_iff_left hgo]

omit hfloat in
theorem genSamples_body_iff (metricsGenStats : MetricsGeneratorStats) (order : List Bytes) :
    (∀ s ∈ genSamples metricsGenStats order, newline ∉ s.body cfg) ↔
      ∀ id ∈ order, id ∈ metricsGenStats → newline ∉ id := by
  rw [genSamples, forall_mem_flatMap]
  refine forall₂_congr fun id _ => ?_
  rw [← Finmap.lookup_isSome]
  cases metricsGenStats.lookup id with
  | none => exact iff_of_true nofun nofun
  | some gStats => simp [GenSample.body_iff, hinstance, hhost, statIndexes]

end

section

variable (c : CollectedStats) (metricsGenStats : MetricsGeneratorStats) (order : List Bytes)

theorem sampleTexts_iff (hfloat : ∀ v prec, newline ∉ formatFloat v prec)
    (hpid : c.pidLines formatFloat = []) :
    (∀ body ∈ sampleTexts cfg formatFloat c metricsGenStats order, newline ∉ body) ↔
      newline ∉ cfg.instanceName ∧ newline ∉ cfg.hostname ∧ (∀ text ∈ c.texts, newline ∉ text) ∧
        ∀ id ∈ order, id ∈ metricsGenStats → newline ∉ id := by
  have hown : (∀ s ∈ ownPublished cfg metricsGenStats (c.surroundings cfg formatFloat order),
      newline ∉ s.body cfg) ↔ newline ∉ cfg.instanceName ∧ newline ∉ cfg.hostname := by
    have hid : newline ∉ internalMetricsId := by decide
    simp [ownPublished, ownSamples, GenSample.body_iff, hid]
  simp only [sampleTexts, hpid, append_nil, forall_mem_append, forall_mem_map, hown]
  rw [and_comm, ← and_assoc (a := newline ∉ cfg.instanceName)]
  refine and_congr_right fun h => ?_
  rw [and_right_comm, front_body_iff c hfloat h.1 h.2, genSamples_body_iff h.1 h.2]

theorem pidLines_eq_nil_iff :
    c.pidLines formatFloat = [] ↔ c.processMetrics.bind ProcessStats.currPidStat = none := by
  unfold CollectedStats.pidLines
  cases c.processMetrics with
  | none => exact iff_of_true rfl rfl
  | some stats =>
    show processLines formatFloat stats = [] ↔ stats.currPidStat = none
    unfold processLines
    split <;> simp [*]

/-- The count that `Execute` publishes for itself is the number of lines of its buffer exactly if there
are no process metrics, whose lines it does not count, or no current `pidStat`, and no newline in the
texts that it prints. -/
theorem actualMetricsCount_eq_lineCount_iff (hfloat : ∀ v prec, newline ∉ formatFloat v prec) :
    (∀ s ∈ ownPublished cfg metricsGenStats (c.surroundings cfg formatFloat order),
      s.stat = .actualMetricsCount →
        s.value = lineCount newline
          (queuedBuf cfg metricsGenStats (c.surroundings cfg formatFloat order))) ↔
    c.processMetrics.bind ProcessStats.currPidStat = none ∧
      newline ∉ cfg.instanceName ∧ newline ∉ cfg.hostname ∧ (∀ text ∈ c.texts, newline ∉ text) ∧
      ∀ id ∈ order, id ∈ metricsGenStats → newline ∉ id := by
  obtain ⟨hle, heq⟩ := lineCount_queuedBuf cfg formatFloat c metricsGenStats order
  rw [← pidLines_eq_nil_iff formatFloat,
    ← and_congr_right (sampleTexts_iff cfg formatFloat c metricsGenStats order hfloat), ← heq,
    ← length_eq_zero_iff]
  rw [length_sampleTexts] at hle ⊢
  generalize lineCount newline _ = n at hle ⊢
  have hvalue : (∀ s ∈ ownPublished cfg metricsGenStats (c.surroundings cfg formatFloat order),
      s.stat = .actualMetricsCount → s.value = n) ↔
      countBeforeOwn metricsGenStats (c.surroundings cfg formatFloat order) + 4 = n := by
    simp [ownPublished, ownSamples, statIndexes]
  rw [hvalue]
  omega

end

def firstCollectedStats : CollectedStats where
  ts := 1700000000000000000
  startTs := 1700000000000000000
  prevTs := 1700000000000000000
  version := utf8 "v1"
  gitInfo := utf8 "0a1b2c"
  scheduler := ⟨[], []⟩
  compressorPool := none
  httpEndpointPool := none
  numGoRoutine := 7
  memStats := ⟨4096, 2048, 3072, 9, 4, 1⟩
  prevMemStats := ⟨0, 0, 0, 0, 0, 0⟩
  processMetrics := some ⟨some ⟨fun _ => utf8 "8", fun _ => 5⟩, none, 0, 4096⟩
  os := ⟨utf8 "Linux", utf8 "6.1.0", utf8 "x86_64", [6, 1, 0], fun _ => [], 1600000000000000000⟩
  osCycleNum := none
  now := 1700000000000000000

/-- On another OS there are no process metrics. -/
theorem actualMetricsCount_eq_lineCount_other_os :
    let c := { firstCollectedStats with processMetrics := none }
    let surr := c.surroundings ⟨utf8 "lsvmi", utf8 "host"⟩ (fun _ _ => utf8 "0") []
    ∀ s ∈ ownPublished ⟨utf8 "lsvmi", utf8 "host"⟩ ∅ surr, s.stat = .actualMetricsCount →
      s.value = lineCount newline (queuedBuf ⟨utf8 "lsvmi", utf8 "host"⟩ ∅ surr) := by
  refine (actualMetricsCount_eq_lineCount_iff _ _ _ _ _ fun _ _ => by decide).mpr ?_
  exact ⟨rfl, by decide, by decide, by decide +kernel, nofun⟩

/-- There are 20 lines, and 17 of them are counted. -/
theorem actualMetricsCount_misses_process :
    let surr := firstCollectedStats.surroundings ⟨utf8 "lsvmi", utf8 "host"⟩ (fun _ _ => utf8 "0") []
    lineCount newline (queuedBuf ⟨utf8 "lsvmi", utf8 "host"⟩ ∅ surr) = 20 ∧
      ∃ s ∈ ownPublished ⟨utf8 "lsvmi", utf8 "host"⟩ ∅ surr,
        s.stat = .actualMetricsCount ∧ s.value = 17 := by
  have hcount := (lineCount_queuedBuf ⟨utf8 "lsvmi", utf8 "host"⟩ (fun _ _ => utf8 "0") firstCollectedStats
    ∅ []).2.mpr (by decide +kernel)
  exact ⟨hcount, _, mem_cons_of_mem _ mem_cons_self, rfl, rfl⟩

end Lsvmi.InternalMetrics
