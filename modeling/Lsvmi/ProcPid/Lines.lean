import Lsvmi.ProcPid.Samples
import Lsvmi.Reasoning.Exposition
import Lsvmi.Reasoning.Percents

/-!
# The lines of one PID or TID

How `generateMetrics` writes a sample.  The instance and the hostname go into a format when the
generator is initialized, and that format is given the labels, the value and the timestamp when a
sample is written.
-/

namespace Lsvmi.ProcPid

open Reasoning List Fprintf

/-- What `%.1f` makes of a floating point number. -/
inductive Tenths where
  | nan
  | inf (negative : Bool)
  | fixed (negative : Bool) (tenths : Nat)
  deriving DecidableEq

def Tenths.format : Tenths → Bytes
  | .nan => utf8 "NaN"
  | .inf negative => (if negative then utf8 "-" else utf8 "+") ++ utf8 "Inf"
  | .fixed negative tenths =>
    (if negative then utf8 "-" else []) ++
      (formatUint (tenths / 10) ++ utf8 "." ++ formatUint (tenths % 10))

inductive FmtArg where
  | string (s : Bytes)
  | bytes (b : Bytes)
  | rune (c : UInt8)
  | int (n : Int)
  | uint64 (n : UInt64)
  | float64 (x : Tenths)

/-- How the fmt package prints arguments for verbs, flags, widths and precisions that no format of
the generator asks for, but an instance or a hostname may.  A percent sign comes from the argument
or starts the report of an error, such as `%!d(string=...)`. -/
structure OtherVerbs where
  printArg : Fprintf.Spec → Bytes → FmtArg → Bytes
  string_marked : ∀ spec verb s, Fprintf.percent ∉ s →
    Fprintf.bare (printArg spec verb (.string s)) = 0
  bytes_marked : ∀ spec verb b, Fprintf.percent ∉ b →
    Fprintf.bare (printArg spec verb (.bytes b)) = 0

/-- A `ProcPidMetrics`, as far as lines depend on it.  `pcpu` stands for the floating point
arithmetic that makes percentages of a number of ticks and the time elapsed. -/
structure Writer where
  inst : Bytes
  hostname : Bytes
  verbs : OtherVerbs
  pcpu : UInt64 → Int → Tenths

namespace Writer

variable (w : Writer)

def printArg (spec : Fprintf.Spec) (verb : Bytes) (a : FmtArg) : Bytes :=
  match a with
  | .string s => if spec = {} ∧ verb = utf8 "s" then s else w.verbs.printArg spec verb a
  | .bytes b => if spec = {} ∧ verb = utf8 "s" then b else w.verbs.printArg spec verb a
  | .rune c => if spec = {} ∧ verb = utf8 "c" then [c] else w.verbs.printArg spec verb a
  | .int n => if spec = {} ∧ verb = utf8 "d" then formatInt n else w.verbs.printArg spec verb a
  | .uint64 n =>
    if spec = {} ∧ verb = utf8 "d" then formatUint n.toNat else w.verbs.printArg spec verb a
  | .float64 x =>
    if spec = { prec := some 1 } ∧ verb = utf8 "f" then x.format
    else w.verbs.printArg spec verb a

def printer : Fprintf.Printer FmtArg where
  printArg := w.printArg
  asInt
    | .rune c => some (.ofNat c.toNat)
    | .int n => some n
    | .uint64 n => if 0 ≤ n.toInt64 then some (.ofNat n.toNat) else none
    | .string _ | .bytes _ | .float64 _ => none
  typeName
    | .string _ => utf8 "string"
    | .bytes _ => utf8 "[]uint8"
    | .rune _ => utf8 "int32"
    | .int _ => utf8 "int"
    | .uint64 _ => utf8 "uint64"
    | .float64 _ => utf8 "float64"

def sprintf (format : Bytes) (args : List FmtArg) : Bytes := Fprintf.fprintf w.printer format args

end Writer

def instanceLabelName : Bytes := utf8 "instance"

def hostnameLabelName : Bytes := utf8 "hostname"

def statusMemoryName : PidStatusField → Bytes
  | .vmPeak => utf8 "proc_pid_status_vm_peak"
  | .vmSize => utf8 "proc_pid_status_vm_size"
  | .vmLck => utf8 "proc_pid_status_vm_lck"
  | .vmPin => utf8 "proc_pid_status_vm_pin"
  | .vmHwm => utf8 "proc_pid_status_vm_hwm"
  | .vmRss => utf8 "proc_pid_status_vm_rss"
  | .rssAnon => utf8 "proc_pid_status_rss_anon"
  | .rssFile => utf8 "proc_pid_status_rss_file"
  | .rssShmem => utf8 "proc_pid_status_rss_shmem"
  | .vmData => utf8 "proc_pid_status_vm_data"
  | .vmStk => utf8 "proc_pid_status_vm_stk"
  | .vmExe => utf8 "proc_pid_status_vm_exe"
  | .vmLib => utf8 "proc_pid_status_vm_lib"
  | .vmPte => utf8 "proc_pid_status_vm_pte"
  | .vmPmd => utf8 "proc_pid_status_vm_pmd"
  | .vmSwap => utf8 "proc_pid_status_vm_swap"
  | .hugetlbpages => utf8 "proc_pid_status_hugetlbpages"
  -- The other fields are no metrics of their own.
  | .uid | .gid | .groups | .cpusAllowedList | .memsAllowedList => []

def metricName : PidMetric → Bytes
  | .statState => utf8 "proc_pid_stat_state"
  | .statComm => utf8 "proc_pid_stat_comm"
  | .statInfo => utf8 "proc_pid_stat_info"
  | .statNumThreads => utf8 "proc_pid_stat_num_threads"
  | .statPriority => utf8 "proc_pid_stat_prio"
  | .statRss => utf8 "proc_pid_stat_rss_bytes"
  | .statCpuNum => utf8 "proc_pid_stat_cpu_num"
  | .statMemory .vsize => utf8 "proc_pid_stat_vsize_bytes"
  | .statMemory .rsslim => utf8 "proc_pid_stat_rsslim_bytes"
  | .statMemory _ => []
  | .statFlt .minflt => utf8 "proc_pid_stat_minflt_delta"
  | .statFlt .majflt => utf8 "proc_pid_stat_majflt_delta"
  | .statFlt _ => []
  | .statPcpu => utf8 "proc_pid_stat_pcpu"
  | .statTimePcpu .stime => utf8 "proc_pid_stat_stime_pcpu"
  | .statTimePcpu .utime => utf8 "proc_pid_stat_utime_pcpu"
  | .statTimePcpu _ => []
  | .statusInfo => utf8 "proc_pid_status_info"
  | .statusMemory f => statusMemoryName f
  | .statusCtx .voluntaryCtxtSwitches => utf8 "proc_pid_status_vol_ctx_switch_delta"
  | .statusCtx .nonvoluntaryCtxtSwitches => utf8 "proc_pid_status_nonvol_ctx_switch_delta"
  | .cmdline | .cmdlineComm => utf8 "proc_pid_cmdline"

def valFmt : PidMetric → Bytes
  | .statState | .statComm | .statInfo | .statPriority | .statusInfo | .cmdline | .cmdlineComm =>
    utf8 "%c"
  | .statNumThreads | .statCpuNum | .statMemory _ | .statusMemory _ => utf8 "%s"
  | .statRss | .statFlt _ | .statusCtx _ => utf8 "%d"
  | .statPcpu | .statTimePcpu _ => utf8 "%.1f"

def labelNames : PidMetric → List Bytes
  | .statState => [utf8 "state"]
  | .statComm => [utf8 "starttime_msec", utf8 "comm"]
  | .statInfo =>
    [utf8 "ppid", utf8 "pgrp", utf8 "session", utf8 "tty", utf8 "tpgid", utf8 "flags"]
  | .statPriority => [utf8 "prio", utf8 "nice", utf8 "rt_prio", utf8 "policy"]
  | .statusInfo =>
    [utf8 "uid", utf8 "gid", utf8 "groups", utf8 "cpus_allowed", utf8 "mems_allowed"]
  | .statusMemory _ => [utf8 "unit"]
  | .cmdline => [utf8 "cmd_path", utf8 "args", utf8 "cmd"]
  | .cmdlineComm => [utf8 "cmd"]
  | _ => []

namespace Writer

variable (w : Writer)

def buildMetricFmt (metricName valFmt : Bytes) (labelNames : List Bytes) : Bytes :=
  let metricFmt := w.sprintf (utf8 "%s\x7b%s=\"%s\",%s=\"%s\",%%s")
    [.string metricName, .string instanceLabelName, .string w.inst, .string hostnameLabelName,
      .string w.hostname]
  let metricFmt := labelNames.foldl
    (fun metricFmt label => metricFmt ++ w.sprintf (utf8 ",%s=\"%%s\"") [.string label]) metricFmt
  metricFmt ++ w.sprintf (utf8 "\x7d %s %%s\n") [.string valFmt]

/-- The format that stands for an empty command line, which is built by hand. -/
def pidCmdlineCommMetricFmt : Bytes :=
  w.sprintf (utf8 "%s\x7b%s=\"%s\",%s=\"%s\",%%s,%s=\"[%%s]\"\x7d")
    [.string (metricName .cmdlineComm), .string instanceLabelName, .string w.inst,
      .string hostnameLabelName, .string w.hostname, .string (utf8 "cmd")] ++ utf8 " %c %s\n"

def metricFmt (m : PidMetric) : Bytes :=
  -- All formats come from `buildMetricFmt`, but for the one of an empty command line.
  if m = .cmdlineComm then w.pidCmdlineCommMetricFmt
  else w.buildMetricFmt (metricName m) (valFmt m) (labelNames m)

def pidTidLabels (p : PidTid) : Bytes :=
  w.sprintf (utf8 "%s=\"%d\"") [.string (utf8 "pid"), .int p.pid] ++
    if p.tid ≠ pidOnlyTid then w.sprintf (utf8 ",%s=\"%d\"") [.string (utf8 "tid"), .int p.tid]
    else []

def labelArgs (m : PidMetric) (labels : List Bytes) : List FmtArg :=
  match m, labels with
  -- `starttimeMsec` is a string of the cache entry, not a slice of the parser's buffer.
  | .statComm, starttimeMsec :: labels => .string starttimeMsec :: labels.map .bytes
  | _, labels => labels.map .bytes

def valueArg : SampleValue → FmtArg
  | .flag on => .rune (if on then 49 else 48)
  | .text b => .bytes b
  | .uint n => .uint64 n
  | .int n => .int n
  | .pct delta elapsed => .float64 (w.pcpu delta elapsed)
  -- Intervals are published for the generator, not for a PID or TID.
  | .seconds _ => .float64 .nan

def lineArgs (s : PidSample) : List FmtArg :=
  .string (w.pidTidLabels s.labels.1) :: (labelArgs s.metric s.labels.2 ++
    [w.valueArg s.value, .bytes (w.sprintf (utf8 "%d") [.int s.ts])])

def line (s : PidSample) : Bytes := w.sprintf (w.metricFmt s.metric) (w.lineArgs s)

end Writer

def FmtArg.content : FmtArg → Bytes
  | .string s => s
  | .bytes b => b
  | _ => []

namespace Writer

variable (w : Writer)

theorem prints_verb {q : UInt8} (hq : stops q) {a : FmtArg} {out : Bytes}
    (hout : w.printArg {} [q] a = out) : (Piece.verb [q] a out).Prints w.printer := by
  rw [← hout]
  exact Piece.prints_verb (P := w.printer) hq a

theorem prints_string (s : Bytes) : (Piece.verb [115] (FmtArg.string s) s).Prints w.printer :=
  w.prints_verb (by decide) rfl

theorem prints_bytes (b : Bytes) : (Piece.verb [115] (FmtArg.bytes b) b).Prints w.printer :=
  w.prints_verb (by decide) rfl

theorem prints_int (n : Int) : (Piece.verb [100] (FmtArg.int n) (formatInt n)).Prints w.printer :=
  w.prints_verb (by decide) rfl

theorem prints_text {u : Bytes} (hu : percent ∉ u) :
    (Piece.text u).Prints w.printer := hu

theorem sprintf_eq {format out : Bytes} {args : List FmtArg} (ps : List (Piece FmtArg))
    (hps : ∀ p ∈ ps, p.Prints w.printer) (hformat : ps.flatMap Piece.format = format)
    (hargs : ps.flatMap Piece.args = args) (hout : ps.flatMap Piece.out = out) :
    w.sprintf format args = out := by
  rw [← hformat, ← hargs, ← hout]
  exact fprintf_pieces hps

theorem sprintf_ts (ts : Int) : w.sprintf (utf8 "%d") [.int ts] = formatInt ts := by
  refine w.sprintf_eq [.verb [100] (.int ts) (formatInt ts)] ?_ rfl rfl (by simp [Piece.out])
  rw [forall_mem_singleton]
  exact w.prints_int ts

theorem sprintf_label (label : Bytes) :
    w.sprintf (utf8 ",%s=\"%%s\"") [.string label] = utf8 "," ++ label ++ utf8 "=\"%s\"" := by
  refine w.sprintf_eq [.text (utf8 ","), .verb [115] (.string label) label, .text (utf8 "=\""),
    .percent, .text (utf8 "s\"")] ?_ rfl rfl ?_
  · simp only [forall_mem_cons]
    exact ⟨w.prints_text (by decide), w.prints_string label, w.prints_text (by decide), trivial,
      w.prints_text (by decide), by simp⟩
  · simp only [flatMap_cons, flatMap_nil, Piece.out, append_assoc]
    rfl

def lineStart (name : Bytes) : Bytes :=
  name ++ utf8 "\x7binstance=\"" ++ w.inst ++ utf8 "\",hostname=\"" ++ w.hostname ++ utf8 "\","

def startPieces (name : Bytes) : List (Fprintf.Piece FmtArg) :=
  [.verb [115] (.string name) name, .text (utf8 "\x7b"),
    .verb [115] (.string instanceLabelName) instanceLabelName, .text (utf8 "=\""),
    .verb [115] (.string w.inst) w.inst, .text (utf8 "\","),
    .verb [115] (.string hostnameLabelName) hostnameLabelName, .text (utf8 "=\""),
    .verb [115] (.string w.hostname) w.hostname, .text (utf8 "\",")]

theorem startPieces_prints (name : Bytes) : ∀ p ∈ w.startPieces name, p.Prints w.printer := by
  simp only [startPieces, forall_mem_cons]
  exact ⟨w.prints_string _, w.prints_text (by decide), w.prints_string _, w.prints_text (by decide),
    w.prints_string _, w.prints_text (by decide), w.prints_string _, w.prints_text (by decide),
    w.prints_string _, w.prints_text (by decide), by simp⟩

theorem startPieces_out (name : Bytes) :
    (w.startPieces name).flatMap Piece.out = w.lineStart name := by
  simp only [startPieces, flatMap_cons, flatMap_nil, Piece.out, lineStart, append_assoc]
  rfl

theorem buildMetricFmt_eq (name valFmt : Bytes) (names : List Bytes) :
    w.buildMetricFmt name valFmt names = w.lineStart name ++ utf8 "%s" ++
      (names.flatMap fun label => utf8 "," ++ label ++ utf8 "=\"%s\"") ++
      (utf8 "\x7d " ++ valFmt ++ utf8 " %s\n") := by
  have hstart : w.sprintf (utf8 "%s\x7b%s=\"%s\",%s=\"%s\",%%s") [.string name,
      .string instanceLabelName, .string w.inst, .string hostnameLabelName, .string w.hostname] =
        w.lineStart name ++ utf8 "%s" := by
    refine w.sprintf_eq (w.startPieces name ++ [.percent, .text (utf8 "s")]) ?_ rfl rfl ?_
    · simp only [forall_mem_append, forall_mem_cons]
      exact ⟨w.startPieces_prints name, trivial, w.prints_text (by decide), by simp⟩
    · rw [flatMap_append, startPieces_out]
      rfl
  have hend : w.sprintf (utf8 "\x7d %s %%s\n") [.string valFmt] =
      utf8 "\x7d " ++ valFmt ++ utf8 " %s\n" := by
    refine w.sprintf_eq [.text (utf8 "\x7d "), .verb [115] (.string valFmt) valFmt,
      .text (utf8 " "), .percent, .text (utf8 "s\n")] ?_ rfl rfl ?_
    · simp only [forall_mem_cons]
      exact ⟨w.prints_text (by decide), w.prints_string _, w.prints_text (by decide), trivial,
        w.prints_text (by decide), by simp⟩
    · simp only [flatMap_cons, flatMap_nil, Piece.out, append_assoc]
      rfl
  -- The loop over the label names appends one piece of format for each.
  have hlabels : ∀ f : Bytes, names.foldl
      (fun metricFmt label => metricFmt ++ w.sprintf (utf8 ",%s=\"%%s\"") [.string label]) f =
        f ++ names.flatMap fun label => utf8 "," ++ label ++ utf8 "=\"%s\"" := by
    intro f
    induction names generalizing f with
    | nil => exact (List.append_nil f).symm
    | cons label names ih =>
      rw [foldl_cons, sprintf_label, ih, flatMap_cons, append_assoc]
  rw [buildMetricFmt, hstart, hend, hlabels]

theorem pidCmdlineCommMetricFmt_eq : w.pidCmdlineCommMetricFmt =
    w.lineStart (metricName .cmdlineComm) ++ utf8 "%s,cmd=\"[%s]\"\x7d %c %s\n" := by
  have hformat : w.sprintf (utf8 "%s\x7b%s=\"%s\",%s=\"%s\",%%s,%s=\"[%%s]\"\x7d")
      [.string (metricName .cmdlineComm), .string instanceLabelName, .string w.inst,
        .string hostnameLabelName, .string w.hostname, .string (utf8 "cmd")] =
        w.lineStart (metricName .cmdlineComm) ++ utf8 "%s,cmd=\"[%s]\"\x7d" := by
    refine w.sprintf_eq (w.startPieces (metricName .cmdlineComm) ++ [.percent, .text (utf8 "s,"),
      .verb [115] (.string (utf8 "cmd")) (utf8 "cmd"), .text (utf8 "=\"["), .percent,
      .text (utf8 "s]\"\x7d")]) ?_ rfl rfl ?_
    · simp only [forall_mem_append, forall_mem_cons]
      exact ⟨w.startPieces_prints _, trivial, w.prints_text (by decide), w.prints_string _,
        w.prints_text (by decide), trivial, w.prints_text (by decide), by simp⟩
    · rw [flatMap_append, startPieces_out]
      rfl
  rw [pidCmdlineCommMetricFmt, hformat, append_assoc]
  rfl

def pidTidPairs (p : PidTid) : List (Bytes × Bytes) :=
  (utf8 "pid", formatInt p.pid) ::
    if p.tid ≠ pidOnlyTid then [(utf8 "tid", formatInt p.tid)] else []

theorem pidTidLabels_eq (p : PidTid) : w.pidTidLabels p = Exposition.rawLabels (pidTidPairs p) := by
  have hpid : w.sprintf (utf8 "%s=\"%d\"") [.string (utf8 "pid"), .int p.pid] =
      Exposition.rawLabel (utf8 "pid", formatInt p.pid) := by
    refine w.sprintf_eq [.verb [115] (.string (utf8 "pid")) (utf8 "pid"), .text (utf8 "=\""),
      .verb [100] (.int p.pid) (formatInt p.pid), .text (utf8 "\"")] ?_ rfl rfl rfl
    simp only [forall_mem_cons]
    exact ⟨w.prints_string _, w.prints_text (by decide), w.prints_int _,
      w.prints_text (by decide), by simp⟩
  have htid : w.sprintf (utf8 ",%s=\"%d\"") [.string (utf8 "tid"), .int p.tid] =
      Exposition.comma :: Exposition.rawLabel (utf8 "tid", formatInt p.tid) := by
    refine w.sprintf_eq [.text (utf8 ","), .verb [115] (.string (utf8 "tid")) (utf8 "tid"),
      .text (utf8 "=\""), .verb [100] (.int p.tid) (formatInt p.tid), .text (utf8 "\"")]
      ?_ rfl rfl rfl
    simp only [forall_mem_cons]
    exact ⟨w.prints_text (by decide), w.prints_string _, w.prints_text (by decide),
      w.prints_int _, w.prints_text (by decide), by simp⟩
  rw [pidTidLabels, hpid, htid, pidTidPairs, Exposition.rawLabels]
  split <;> simp

end Writer

end Lsvmi.ProcPid
