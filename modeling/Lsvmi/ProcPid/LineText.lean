import Lsvmi.ProcPid.Lines

/-!
# The text of a line

When neither the instance nor the hostname has a percent sign, a line comes out as it was meant: the
labels and the value stand where the formats have them, as they are.
-/

namespace Lsvmi.ProcPid

open Reasoning List Exposition Fprintf

/-- The kind of a value is the one that the format of its metric is for. -/
def valueFits (m : PidMetric) : SampleValue → Bool
  | .flag _ => valFmt m = utf8 "%c"
  | .text _ => valFmt m = utf8 "%s"
  | .uint _ => valFmt m = utf8 "%d"
  | .pct _ _ => valFmt m = utf8 "%.1f"
  | .int _ | .seconds _ => false

structure Fits (s : PidSample) : Prop where
  labels : s.labels.2.length = (labelNames s.metric).length
  value : valueFits s.metric s.value = true

def labelTexts (m : PidMetric) (labels : List Bytes) : List Bytes :=
  if m = .cmdlineComm then labels.map fun comm => utf8 "[" ++ comm ++ utf8 "]" else labels

namespace Writer

variable (w : Writer) {names : List Bytes} {args : List FmtArg} {s : PidSample}

def valueText : SampleValue → Bytes
  | .flag on => [if on then 49 else 48]
  | .text b => b
  | .uint n => formatUint n.toNat
  | .int n => formatInt n
  | .pct delta elapsed => (w.pcpu delta elapsed).format
  | .seconds _ => Tenths.nan.format

def textLine (s : PidSample) : Exposition.Line :=
  { name := metricName s.metric
    labels := (instanceLabelName, w.inst) :: (hostnameLabelName, w.hostname) ::
      (pidTidPairs s.labels.1 ++ (labelNames s.metric).zip (labelTexts s.metric s.labels.2))
    value := w.valueText s.value
    ts := formatInt s.ts }

theorem prints_value {m : PidMetric} {v : SampleValue} (h : valueFits m v) :
    ∃ d, valFmt m = percent :: d ∧
      (Piece.verb d (w.valueArg v) (w.valueText v)).Prints w.printer := by
  cases v with
  | flag on => exact ⟨[99], of_decide_eq_true h, w.prints_verb (by decide) rfl⟩
  | text b => exact ⟨[115], of_decide_eq_true h, w.prints_bytes b⟩
  | uint n => exact ⟨[100], of_decide_eq_true h, w.prints_verb (by decide) rfl⟩
  | pct delta elapsed =>
    exact ⟨[46, 49, 102], of_decide_eq_true h, Piece.prints_prec (P := w.printer)
      (q := 102) (d := 49) (by decide) (by decide) (.float64 (w.pcpu delta elapsed))⟩
  | int n => cases h
  | seconds elapsed => cases h

def labelPieces (names : List Bytes) (args : List FmtArg) : List (Fprintf.Piece FmtArg) :=
  (names.zip args).flatMap fun (name, a) =>
    [.text (utf8 "," ++ name ++ utf8 "=\""), .verb [115] a a.content, .text (utf8 "\"")]

theorem labelPieces_format (h : args.length = names.length) :
    (labelPieces names args).flatMap Piece.format =
      names.flatMap fun name => utf8 "," ++ name ++ utf8 "=\"%s\"" := by
  induction names generalizing args with
  | nil => rfl
  | cons name names ih =>
    cases args with
    | nil => cases h
    | cons a args =>
      have hrest := ih (Nat.succ.inj h)
      unfold labelPieces at hrest ⊢
      simp only [zip_cons_cons, flatMap_cons, flatMap_append, hrest]
      simp only [flatMap_nil, Piece.format, append_assoc, append_nil]
      rfl

theorem labelPieces_args (h : args.length = names.length) :
    (labelPieces names args).flatMap Piece.args = args := by
  induction names generalizing args with
  | nil => exact (length_eq_zero_iff.mp h).symm
  | cons name names ih =>
    cases args with
    | nil => cases h
    | cons a args =>
      have hrest := ih (Nat.succ.inj h)
      unfold labelPieces at hrest ⊢
      simp only [zip_cons_cons, flatMap_cons, flatMap_append, hrest]
      rfl

theorem labelPieces_out (names : List Bytes) (args : List FmtArg) :
    (labelPieces names args).flatMap Piece.out =
      (names.zip (args.map FmtArg.content)).flatMap fun l => comma :: rawLabel l := by
  induction names generalizing args with
  | nil => rfl
  | cons name names ih =>
    cases args with
    | nil => rfl
    | cons a args =>
      have hrest := ih args
      unfold labelPieces at hrest ⊢
      simp only [zip_cons_cons, map_cons, flatMap_cons, flatMap_append, hrest]
      simp only [flatMap_nil, Piece.out, rawLabel, append_assoc, append_nil, cons_append]
      rfl

theorem labelPieces_prints (hnames : ∀ name ∈ names, percent ∉ name)
    (hargs : ∀ a ∈ args, (Piece.verb [115] a a.content).Prints w.printer) :
    ∀ p ∈ labelPieces names args, p.Prints w.printer := by
  intro p hp
  obtain ⟨⟨name, a⟩, hmem, hp⟩ := mem_flatMap.mp hp
  obtain ⟨hname, ha⟩ := of_mem_zip hmem
  have htext : percent ∉ utf8 "," ++ name ++ utf8 "=\"" := by
    simp only [mem_append, not_or]
    exact ⟨⟨by decide, hnames name hname⟩, by decide⟩
  simp only [mem_cons, not_mem_nil, or_false] at hp
  obtain rfl | rfl | rfl := hp
  · exact w.prints_text htext
  · exact hargs a ha
  · exact w.prints_text (by decide)

theorem labelArgs_content (m : PidMetric) (labels : List Bytes) :
    (labelArgs m labels).map FmtArg.content = labels := by
  have hbytes : (FmtArg.content ∘ FmtArg.bytes) = id := rfl
  unfold labelArgs
  split <;> simp [hbytes, FmtArg.content]

theorem labelArgs_prints (m : PidMetric) (labels : List Bytes) :
    ∀ a ∈ labelArgs m labels, (Piece.verb [115] a a.content).Prints w.printer := by
  have hbytes : ∀ labels : List Bytes, ∀ a ∈ labels.map FmtArg.bytes,
      (Piece.verb [115] a a.content).Prints w.printer := by
    intro labels a ha
    obtain ⟨b, -, rfl⟩ := mem_map.mp ha
    exact w.prints_bytes b
  unfold labelArgs
  split
  · exact forall_mem_cons.mpr ⟨w.prints_string _, hbytes _⟩
  · exact hbytes _

theorem percent_not_mem_metricName (m : PidMetric) : percent ∉ metricName m := by
  cases m with
  | statMemory f | statFlt f | statTimePcpu f | statusMemory f | statusCtx f => cases f <;> decide
  | _ => decide

theorem percent_not_mem_labelNames (m : PidMetric) : ∀ name ∈ labelNames m, percent ∉ name := by
  cases m with
  | statMemory f | statFlt f | statTimePcpu f | statusCtx f => exact forall_mem_nil _
  | statusMemory f =>
    show ∀ name ∈ [utf8 "unit"], percent ∉ name
    decide
  | _ => decide

variable (hinst : percent ∉ w.inst) (hhostname : percent ∉ w.hostname)
include hinst hhostname

theorem percent_not_mem_lineStart (m : PidMetric) : percent ∉ w.lineStart (metricName m) := by
  simp only [lineStart, mem_append, not_or]
  exact ⟨⟨⟨⟨⟨percent_not_mem_metricName m, by decide⟩, hinst⟩, by decide⟩, hhostname⟩, by decide⟩

theorem line_eq_raw_of_ne (hs : Fits s) (hm : s.metric ≠ .cmdlineComm) :
    w.line s = (w.textLine s).raw := by
  obtain ⟨d, hvalFmt, hvalue⟩ := w.prints_value hs.value
  have hlength : (labelArgs s.metric s.labels.2).length = (labelNames s.metric).length := by
    rw [← hs.labels, ← congrArg length (labelArgs_content s.metric s.labels.2), length_map]
  rw [line, metricFmt, if_neg hm, buildMetricFmt_eq, lineArgs, sprintf_ts]
  -- Without percent signs in the instance and the hostname, the start of the format is text.
  refine w.sprintf_eq ([.text (w.lineStart (metricName s.metric)),
    .verb [115] (.string (w.pidTidLabels s.labels.1)) (w.pidTidLabels s.labels.1)] ++
    (labelPieces (labelNames s.metric) (labelArgs s.metric s.labels.2) ++
    [.text (utf8 "\x7d "), .verb d (w.valueArg s.value) (w.valueText s.value), .text (utf8 " "),
      .verb [115] (.bytes (formatInt s.ts)) (formatInt s.ts), .text (utf8 "\n")])) ?_ ?_ ?_ ?_
  · simp only [forall_mem_append, forall_mem_cons]
    exact ⟨⟨w.prints_text (w.percent_not_mem_lineStart hinst hhostname s.metric),
      w.prints_string _, by simp⟩, w.labelPieces_prints (percent_not_mem_labelNames s.metric)
        (w.labelArgs_prints s.metric s.labels.2), w.prints_text (by decide), hvalue,
      w.prints_text (by decide), w.prints_bytes _, w.prints_text (by decide), by simp⟩
  · rw [flatMap_append, flatMap_append, labelPieces_format hlength, hvalFmt]
    simp only [flatMap_cons, flatMap_nil, Piece.format, append_assoc]
    rfl
  · rw [flatMap_append, flatMap_append, labelPieces_args hlength]
    rfl
  have hpairs : pidTidPairs s.labels.1 ≠ [] := cons_ne_nil _ _
  rw [flatMap_append, flatMap_append, labelPieces_out, labelArgs_content, pidTidLabels_eq]
  simp only [Line.raw, textLine, rawLabels, flatMap_cons,
    flatMap_append, ← comma_rawLabels hpairs, labelTexts, if_neg hm]
  simp only [flatMap_nil, Piece.out, lineStart, rawLabel,
    append_assoc, cons_append, nil_append, append_nil]
  rfl

theorem line_eq_raw_cmdlineComm (hs : Fits s) (hm : s.metric = .cmdlineComm) :
    w.line s = (w.textLine s).raw := by
  obtain ⟨m, ⟨p, labels⟩, v, ts⟩ := s
  obtain rfl : m = .cmdlineComm := hm
  obtain ⟨comm, rfl⟩ := length_eq_one_iff.mp hs.labels
  obtain ⟨d, hvalFmt, hvalue⟩ := w.prints_value hs.value
  obtain rfl : d = [99] := (cons.inj hvalFmt).2.symm
  rw [line, metricFmt, if_pos rfl, pidCmdlineCommMetricFmt_eq, lineArgs, sprintf_ts]
  refine w.sprintf_eq [.text (w.lineStart (metricName .cmdlineComm)),
    .verb [115] (.string (w.pidTidLabels p)) (w.pidTidLabels p), .text (utf8 ",cmd=\"["),
    .verb [115] (.bytes comm) comm, .text (utf8 "]\"\x7d "),
    .verb [99] (w.valueArg v) (w.valueText v), .text (utf8 " "),
    .verb [115] (.bytes (formatInt ts)) (formatInt ts), .text (utf8 "\n")] ?_ ?_ rfl ?_
  · simp only [forall_mem_cons]
    exact ⟨w.prints_text (w.percent_not_mem_lineStart hinst hhostname .cmdlineComm),
      w.prints_string _, w.prints_text (by decide), w.prints_bytes _, w.prints_text (by decide),
      hvalue, w.prints_text (by decide), w.prints_bytes _, w.prints_text (by decide), by simp⟩
  · simp only [flatMap_cons, flatMap_nil, Piece.format]
    rfl
  have hpairs : pidTidPairs p ≠ [] := cons_ne_nil _ _
  simp only [Line.raw, textLine, rawLabels, flatMap_cons,
    flatMap_append, ← comma_rawLabels hpairs, labelTexts, if_true, pidTidLabels_eq]
  simp only [flatMap_nil, Piece.out, lineStart, rawLabel, labelNames,
    zip_cons_cons, zip_nil_left, map_cons, flatMap_cons,
    append_assoc, cons_append, nil_append, append_nil]
  rfl

/-- A line is written as it was meant, but for what should be escaped. -/
theorem line_eq_raw (hs : Fits s) : w.line s = (w.textLine s).raw := by
  by_cases hm : s.metric = .cmdlineComm
  · exact w.line_eq_raw_cmdlineComm hinst hhostname hs hm
  · exact w.line_eq_raw_of_ne hinst hhostname hs hm

end Writer

end Lsvmi.ProcPid
