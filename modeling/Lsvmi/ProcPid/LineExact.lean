import Lsvmi.ProcPid.LineText
import Lsvmi.Procfs.PidCmdline

/-!
# Lines that say what they should

A line should be a well-formed sample of its metric whose labels have the instance, the hostname,
the PID and the parsed fields for values.  The fields of the files are as the kernel prints them,
but the comm is what the process chose.
-/

namespace Lsvmi.ProcPid

open Reasoning List Exposition

/-- The values that the labels of a sample stand for.  Command lines are escaped when they are
parsed. -/
def labelValues (m : PidMetric) (labels : List Bytes) : List Bytes :=
  if m = .cmdline then labels.map Exposition.unescape else labelTexts m labels

def Writer.expectedLine (w : Writer) (s : PidSample) : Exposition.Line :=
  { w.textLine s with
    labels := (instanceLabelName, w.inst) :: (hostnameLabelName, w.hostname) ::
      (Writer.pidTidPairs s.labels.1 ++ (labelNames s.metric).zip (labelValues s.metric s.labels.2)) }

def Writer.Exact (w : Writer) (s : PidSample) : Prop :=
  Exposition.decode (w.line s) = some (w.expectedLine s)

instance (w : Writer) (s : PidSample) : Decidable (w.Exact s) :=
  inferInstanceAs (Decidable (_ = _))

/-- A text that comes out of a format as it is, and needs no escaping. -/
structure Clean (b : Bytes) : Prop where
  percent : Fprintf.percent ∉ b
  plain : Exposition.Plain b

theorem isDigits_formatUint (n : Nat) : isDigits (formatUint n) := by
  rw [isDigits, Bool.and_eq_true, bne_iff_ne, all_eq_true]
  constructor
  · intro hnil
    exact Nat.toDigits_ne_nil (map_eq_nil_iff.mp hnil)
  intro c hc
  obtain ⟨x, hx, rfl⟩ := mem_map.mp hc
  obtain ⟨hlo, hhi⟩ := Char.isDigit_iff_toNat.mp
    (Nat.isDigit_of_mem_toDigits (by decide) (by decide) hx)
  have hval : (UInt8.ofNat x.toNat).toNat = x.toNat := by
    rw [UInt8.toNat_ofNat']
    exact Nat.mod_eq_of_lt (lt_of_le_of_lt hhi (by decide))
  rw [isDigit, Bool.and_eq_true, decide_eq_true_eq, decide_eq_true_eq,
    UInt8.le_iff_toNat_le, UInt8.le_iff_toNat_le, hval]
  exact ⟨hlo, hhi⟩

theorem dropSign_formatUint (n : Nat) (b : Bytes) :
    dropSign (formatUint n ++ b) = formatUint n ++ b := by
  have hdigits := isDigits_formatUint n
  cases hformat : formatUint n with
  | nil =>
    rw [hformat] at hdigits
    cases hdigits
  | cons c f =>
    rw [hformat] at hdigits
    have hsign : ¬ (c = 43 ∨ c = 45) := by
      rintro (rfl | rfl)
      all_goals exact not_mem_of_isDigits hdigits (by decide) mem_cons_self
    rw [cons_append, dropSign, if_neg hsign]

theorem isInteger_formatUint (n : Nat) : isInteger (formatUint n) := by
  have hdrop := dropSign_formatUint n []
  rw [List.append_nil] at hdrop
  rw [isInteger, hdrop]
  exact isDigits_formatUint n

theorem isInteger_formatInt (n : Int) : isInteger (formatInt n) := by
  unfold formatInt
  split
  · exact isDigits_formatUint _
  · exact isInteger_formatUint _

theorem isNumber_format (x : Tenths) : isNumber x.format := by
  cases x with
  | nan => decide
  | inf negative => cases negative <;> decide
  | fixed negative tenths =>
    have hdecimal := isDecimal_point (isDigits_formatUint (tenths / 10))
      (isDigits_formatUint (tenths % 10))
    have hformat : dropSign (Tenths.fixed negative tenths).format =
        formatUint (tenths / 10) ++ 46 :: formatUint (tenths % 10) := by
      rw [Tenths.format, append_assoc]
      cases negative
      · exact dropSign_formatUint _ _
      · rfl
    rw [isNumber, hformat, hdecimal]
    rfl

theorem clean_of_isInteger {b : Bytes} (h : isInteger b) : Clean b := by
  have hnot : ∀ x : UInt8, isDigit x = false → ¬ (x = 43 ∨ x = 45) → x ∉ b :=
    fun x hdigit hsign hmem =>
      not_mem_of_isDigits h hdigit (mem_dropSign hmem hsign)
  refine ⟨hnot _ (by decide) (by decide), fun c hc => ⟨?_, ?_, ?_⟩⟩
  all_goals
    rintro rfl
    exact hnot _ (by decide) (by decide) hc

def statValueFields : List PidStatField := [.processor, .numThreads, .vsize, .rsslim]

structure StatPrinted (stat : PidStat) : Prop where
  labels : ∀ f, f ≠ .comm → Exposition.Plain (stat.bsf f)
  values : ∀ f ∈ statValueFields, Exposition.isInteger (stat.bsf f) = true

structure StatusPrinted (status : PidStatus) : Prop where
  labels : ∀ f, Exposition.Plain ((status.bsf f).getD [])
  units : ∀ f, Exposition.Plain ((status.bsfu f).getD [])
  values : ∀ f ∈ pidStatusMemoryFields, ∀ v, status.bsf f = some v →
    Exposition.isInteger v = true

def CmdlinePrinted (c : PidCmdline) : Prop :=
  ∃ cmdPath args cmd, c =
    ⟨Procfs.sanitize cmdPath, Procfs.sanitize args, Procfs.sanitize cmd⟩

/-- The data that metrics are generated from is as the kernel prints it, whatever the comm. -/
structure Printed (a : GenArgs) : Prop where
  starttimeMsec : Exposition.isInteger a.starttimeMsec = true
  currStat : StatPrinted a.currStat
  prevStat : ∀ f, f ≠ .comm → Exposition.Plain (a.prevStat.bsf f)
  currStatus : StatusPrinted a.currStatus
  prevStatus : ∀ f, Exposition.Plain ((a.prevStatus.bsf f).getD [])
  cmdline : CmdlinePrinted a.cmdline

structure Sound (w : Writer) (s : PidSample) : Prop extends Fits s where
  name : Exposition.isMetricName (metricName s.metric) = true
  escaped : labelTexts s.metric s.labels.2 =
    (labelValues s.metric s.labels.2).map Exposition.escape
  number : Exposition.isNumber (w.valueText s.value) = true

theorem isLabelName_labelNames (m : PidMetric) : ∀ name ∈ labelNames m, isLabelName name := by
  cases m with
  | statMemory f | statFlt f | statTimePcpu f | statusCtx f => exact forall_mem_nil _
  | statusMemory f =>
    show ∀ name ∈ [utf8 "unit"], isLabelName name = true
    decide
  | _ => decide

theorem isLabelName_pidTidPairs (p : PidTid) : ∀ l ∈ Writer.pidTidPairs p, isLabelName l.1 := by
  unfold Writer.pidTidPairs
  refine forall_mem_cons.mpr ⟨rfl, ?_⟩
  split
  · exact forall_mem_singleton.mpr rfl
  · exact forall_mem_nil _

theorem plain_pidTidPairs (p : PidTid) : ∀ l ∈ Writer.pidTidPairs p, Plain l.2 := by
  unfold Writer.pidTidPairs
  refine forall_mem_cons.mpr ⟨(clean_of_isInteger (isInteger_formatInt _)).plain, ?_⟩
  split
  · exact forall_mem_singleton.mpr (clean_of_isInteger (isInteger_formatInt _)).plain
  · exact forall_mem_nil _

theorem map_escapeLabel_pidTidPairs (p : PidTid) :
    (Writer.pidTidPairs p).map escapeLabel = Writer.pidTidPairs p :=
  (map_congr_left fun l hl =>
    escapeLabel_eq_self (plain_pidTidPairs p l hl)).trans (map_id _)

section

variable {w : Writer} {s : PidSample}

theorem Sound.wellFormed (h : Sound w s) : (w.expectedLine s).WellFormed where
  name := h.name
  ne_nil := cons_ne_nil _ _
  labels := by
    refine forall_mem_cons.mpr ⟨rfl, forall_mem_cons.mpr ⟨rfl, ?_⟩⟩
    refine forall_mem_append.mpr ⟨isLabelName_pidTidPairs _, fun l hl => ?_⟩
    exact isLabelName_labelNames s.metric l.1 (of_mem_zip hl).1
  value := h.number
  ts := isInteger_formatInt s.ts

theorem Sound.textLine_labels (h : Sound w s) (hinst : Plain w.inst)
    (hhostname : Plain w.hostname) :
    (w.expectedLine s).labels.map escapeLabel = (w.textLine s).labels := by
  have hzip : ∀ names values : List Bytes,
      (names.zip values).map escapeLabel = names.zip (values.map escape) := by
    intro names values
    rw [zip_map_right]
    rfl
  show ((instanceLabelName, w.inst) :: (hostnameLabelName, w.hostname) ::
      (Writer.pidTidPairs s.labels.1 ++
        (labelNames s.metric).zip (labelValues s.metric s.labels.2))).map escapeLabel = _
  rw [map_cons, map_cons, map_append, map_escapeLabel_pidTidPairs, hzip, ← h.escaped,
    escapeLabel_eq_self hinst, escapeLabel_eq_self hhostname]
  rfl

theorem Sound.exact (h : Sound w s) (hinst : Clean w.inst) (hhostname : Clean w.hostname) :
    w.Exact s := by
  rw [Writer.Exact, decode_eq_some_iff h.wellFormed, encode_eq_raw,
    h.textLine_labels hinst.plain hhostname.plain,
    w.line_eq_raw hinst.percent hhostname.percent h.toFits]
  rfl

end

section

variable {w : Writer} {a : GenArgs} {m : PidMetric}

theorem sound_of_plain {labels : List Bytes} {v : SampleValue}
    (hm : m ≠ .cmdline ∧ m ≠ .cmdlineComm) (hname : isMetricName (metricName m))
    (hlength : labels.length = (labelNames m).length) (hplain : ∀ l ∈ labels, Plain l)
    (hvalue : valueFits m v) (hnumber : isNumber (w.valueText v)) :
    Sound w (a.sample m labels v) := by
  refine ⟨⟨hlength, hvalue⟩, hname, ?_, hnumber⟩
  have htexts : labelTexts m labels = labels := if_neg hm.2
  have hvalues : labelValues m labels = labels := (if_neg hm.1).trans htexts
  show labelTexts m labels = (labelValues m labels).map escape
  rw [htexts, hvalues]
  exact ((map_congr_left fun l hl => escape_eq_self (hplain l hl)).trans
    (map_id _)).symm

theorem isNumber_flag (on : Bool) : isNumber (w.valueText (.flag on)) := by
  cases on <;> rfl

theorem sound_categorical {changed : Bool} {prev curr : List Bytes}
    (hprev : changed = true → Sound w (a.sample m prev (.flag false)))
    (hcurr : (a.fullMetricsNoPrev || changed) = true → Sound w (a.sample m curr (.flag true))) :
    ∀ s ∈ a.categoricalSamples m changed prev curr, Sound w s := by
  intro s hs
  simp only [GenArgs.categoricalSamples, mem_append, mem_ite_nil_right, mem_singleton] at hs
  obtain ⟨hchanged, rfl⟩ | ⟨hfull, rfl⟩ := hs
  · exact hprev hchanged
  · exact hcurr hfull

section

variable (h : Printed a)
include h

theorem sound_statCategorical {fields : List PidStatField} (hm : m ≠ .cmdline ∧ m ≠ .cmdlineComm)
    (hname : isMetricName (metricName m)) (hlength : fields.length = (labelNames m).length)
    (hcomm : ∀ f ∈ fields, f ≠ .comm) (hvalue : ∀ on, valueFits m (.flag on)) :
    ∀ s ∈ a.statCategoricalSamples m [] fields, Sound w s := by
  have hplain : ∀ stat : PidStat, (∀ f, f ≠ .comm → Plain (stat.bsf f)) →
      ∀ l ∈ fields.map stat.bsf, Plain l := by
    intro stat hstat l hl
    obtain ⟨f, hf, rfl⟩ := mem_map.mp hl
    exact hstat f (hcomm f hf)
  have hsound : ∀ stat : PidStat, (∀ f, f ≠ .comm → Plain (stat.bsf f)) → ∀ on,
      Sound w (a.sample m ([] ++ fields.map stat.bsf) (.flag on)) := fun stat hstat on =>
    sound_of_plain hm hname ((length_map _).trans hlength) (hplain stat hstat) (hvalue on)
      (isNumber_flag on)
  exact sound_categorical (fun _ => hsound _ h.prevStat false)
    fun _ => hsound _ h.currStat.labels true

theorem sound_stateSamples : ∀ s ∈ a.stateSamples, Sound w s :=
  sound_statCategorical h (by decide) (by decide) rfl (by decide) (by decide)

theorem sound_prioritySamples : ∀ s ∈ a.prioritySamples, Sound w s :=
  sound_statCategorical h (by decide) (by decide) rfl (by decide) (by decide)

theorem sound_infoSamples : ∀ s ∈ a.infoSamples, Sound w s :=
  sound_statCategorical h (by decide) (by decide) rfl (by decide) (by decide)

theorem sound_statusInfoSamples : ∀ s ∈ a.statusInfoSamples, Sound w s := by
  have hsound : ∀ status : PidStatus, (∀ f, Plain ((status.bsf f).getD [])) → ∀ on,
      Sound w (a.sample .statusInfo
        (GenArgs.statusInfoFields.map fun f => (status.bsf f).getD []) (.flag on)) := by
    intro status hstatus on
    refine sound_of_plain (by decide) (by decide) rfl (fun l hl => ?_) rfl (isNumber_flag on)
    obtain ⟨f, -, rfl⟩ := mem_map.mp hl
    exact hstatus f
  exact sound_categorical (fun _ => hsound _ h.prevStatus false)
    fun _ => hsound _ h.currStatus.labels true

theorem sound_statValue {f : PidStatField} (hf : f ∈ statValueFields)
    (hm : m ≠ .cmdline ∧ m ≠ .cmdlineComm) (hname : isMetricName (metricName m))
    (hlabels : labelNames m = []) (hvalue : valueFits m (.text (a.currStat.bsf f))) :
    Sound w (a.sample m [] (.text (a.currStat.bsf f))) :=
  sound_of_plain hm hname (by rw [hlabels]) (forall_mem_nil _) hvalue
    (isNumber_of_isInteger (h.currStat.values f hf))

theorem sound_cpuNumSamples : ∀ s ∈ a.cpuNumSamples, Sound w s :=
  forall_mem_singleton.mpr (sound_statValue h (by decide) (by decide) (by decide) rfl rfl)

theorem sound_numThreadsSamples : ∀ s ∈ a.numThreadsSamples, Sound w s := by
  intro s hs
  simp only [GenArgs.numThreadsSamples, mem_ite_nil_right, mem_singleton] at hs
  rw [hs.2]
  exact sound_statValue h (by decide) (by decide) (by decide) rfl rfl

theorem sound_statMemorySamples : ∀ s ∈ a.statMemorySamples, Sound w s := by
  intro s hs
  obtain ⟨f, hf, hs⟩ := mem_flatMap.mp hs
  simp only [mem_ite_nil_right, mem_singleton] at hs
  rw [hs.2]
  simp only [mem_cons, not_mem_nil, or_false] at hf
  obtain rfl | rfl := hf
  all_goals exact sound_statValue h (by decide) (by decide) (by decide) rfl rfl

end

theorem sound_uint (hm : m ≠ .cmdline ∧ m ≠ .cmdlineComm)
    (hname : isMetricName (metricName m)) (hlabels : labelNames m = [])
    (n : UInt64) (hvalue : valueFits m (.uint n)) : Sound w (a.sample m [] (.uint n)) :=
  sound_of_plain hm hname (by rw [hlabels]) (forall_mem_nil _) hvalue
    (isNumber_of_isInteger (isInteger_formatUint _))

theorem sound_rssSamples (pageSize : UInt64) : ∀ s ∈ a.rssSamples pageSize, Sound w s := by
  intro s hs
  simp only [GenArgs.rssSamples, mem_ite_nil_right, mem_singleton] at hs
  rw [hs.2]
  exact sound_uint (by decide) (by decide) rfl _ rfl

theorem sound_deltaSamples (hm : m ≠ .cmdline ∧ m ≠ .cmdlineComm)
    (hname : isMetricName (metricName m)) (hlabels : labelNames m = [])
    (delta : UInt64) (hvalue : valueFits m (.uint delta)) (zero : Bool) :
    ∀ s ∈ a.deltaSamples m delta zero, Sound w s := by
  intro s hs
  simp only [GenArgs.deltaSamples, mem_ite_nil_right, mem_singleton] at hs
  rw [hs.2]
  exact sound_uint hm hname hlabels delta hvalue

theorem sound_fltSamples (zeroDelta : PidStatNumField → Bool) :
    ∀ s ∈ a.fltSamples zeroDelta, Sound w s := by
  intro s hs
  obtain ⟨f, hf, hs⟩ := mem_flatMap.mp hs
  simp only [mem_cons, not_mem_nil, or_false] at hf
  obtain rfl | rfl := hf
  all_goals exact sound_deltaSamples (by decide) (by decide) rfl _ rfl _ s hs

theorem sound_ctxSamples (zeroDelta : PidStatusNumField → Bool) :
    ∀ s ∈ a.ctxSamples zeroDelta, Sound w s := by
  intro s hs
  obtain ⟨f, -, hs⟩ := mem_flatMap.mp hs
  cases f
  all_goals exact sound_deltaSamples (by decide) (by decide) rfl _ rfl _ s hs

theorem sound_pcpuSamples : ∀ s ∈ a.pcpuSamples, Sound w s := by
  have hpct : ∀ (m : PidMetric) (delta : UInt64) (elapsed : Int),
      m ≠ .cmdline ∧ m ≠ .cmdlineComm → isMetricName (metricName m) →
      labelNames m = [] → valueFits m (.pct delta elapsed) →
      Sound w (a.sample m [] (.pct delta elapsed)) := fun m delta elapsed hm hname hlabels hvalue =>
    sound_of_plain hm hname (by rw [hlabels]) (forall_mem_nil _) hvalue (isNumber_format _)
  exact forall_mem_cons.mpr ⟨hpct _ _ _ (by decide) (by decide) rfl rfl,
    forall_mem_cons.mpr ⟨hpct _ _ _ (by decide) (by decide) rfl rfl,
      forall_mem_singleton.mpr (hpct _ _ _ (by decide) (by decide) rfl rfl)⟩⟩

theorem sound_statusMemorySamples (h : Printed a) {fields : List PidStatusField}
    (hfields : ∀ f ∈ fields, f ∈ pidStatusMemoryFields) :
    ∀ s ∈ a.statusMemorySamples fields, Sound w s := by
  have hname : ∀ f ∈ pidStatusMemoryFields,
      isMetricName (metricName (.statusMemory f)) := by
    decide
  intro s hs
  obtain ⟨f, hf, hs⟩ := mem_flatMap.mp hs
  cases hv : a.currStatus.bsf f with
  | none =>
    rw [hv] at hs
    cases hs
  | some v =>
    rw [hv] at hs
    simp only [mem_ite_nil_right, mem_singleton] at hs
    rw [hs.2]
    have hmem := hfields f hf
    exact sound_of_plain ⟨nofun, nofun⟩ (hname f hmem) rfl
      (forall_mem_singleton.mpr (h.currStatus.units f)) rfl
      (isNumber_of_isInteger (h.currStatus.values f hmem v hv))

/-- The comms that are published have nothing to escape: the previous one when it has changed, and
the current one when it has changed or all metrics are published. -/
structure CommsPlain (a : GenArgs) : Prop where
  prev : a.statChanged [.comm] = true → Exposition.Plain (a.prevStat.bsf .comm)
  curr : (a.fullMetricsNoPrev || a.statChanged [.comm]) = true →
    Exposition.Plain (a.currStat.bsf .comm)

theorem sound_statComm (h : Printed a) {comm : Bytes} (hcomm : Plain comm) (on : Bool) :
    Sound w (a.sample .statComm [a.starttimeMsec, comm] (.flag on)) :=
  sound_of_plain (by decide) (by decide) rfl (forall_mem_cons.mpr
    ⟨(clean_of_isInteger h.starttimeMsec).plain, forall_mem_singleton.mpr hcomm⟩) rfl
    (isNumber_flag on)

theorem sound_commSamples (h : Printed a) (hcomms : CommsPlain a) :
    ∀ s ∈ a.commSamples, Sound w s :=
  sound_categorical (fun hchanged => sound_statComm h (hcomms.prev hchanged) false)
    fun hfull => sound_statComm h (hcomms.curr hfull) true

theorem sound_cmdlineComm {comm : Bytes} (hcomm : Plain comm) (on : Bool) :
    Sound w (a.sample .cmdlineComm [comm] (.flag on)) := by
  refine ⟨⟨rfl, rfl⟩, rfl, ?_, isNumber_flag on⟩
  have hplain : Plain (utf8 "[" ++ comm ++ utf8 "]") := by
    intro c hc
    rw [mem_append, mem_append] at hc
    obtain (hc | hc) | hc := hc
    · rw [mem_singleton.mp hc]
      decide
    · exact hcomm c hc
    · rw [mem_singleton.mp hc]
      decide
  show [utf8 "[" ++ comm ++ utf8 "]"] = [escape (utf8 "[" ++ comm ++ utf8 "]")]
  rw [escape_eq_self hplain]

theorem sound_cmdline (h : Printed a) : Sound w (a.sample .cmdline
    [a.cmdline.cmdPath, a.cmdline.args, a.cmdline.cmd] (.flag true)) := by
  refine ⟨⟨rfl, rfl⟩, rfl, ?_, isNumber_flag true⟩
  have hescape : ∀ content, escape (unescape (Procfs.sanitize content)) =
      Procfs.sanitize content := by
    intro content
    -- What the parser keeps is the escaped form of what it has read.
    rw [Procfs.sanitize_eq_escape, unescape_escape]
  obtain ⟨cmdPath, args, cmd, hcmdline⟩ := h.cmdline
  rw [hcmdline]
  show [_, _, _] = [escape (unescape _), escape (unescape _), escape (unescape _)]
  rw [hescape, hescape, hescape]

theorem sound_cmdlineSamples (h : Printed a) (hcomms : CommsPlain a) :
    ∀ s ∈ a.cmdlineSamples, Sound w s := by
  unfold GenArgs.cmdlineSamples
  split
  · exact forall_mem_nil _
  rename_i hfull
  -- Past the first test the metrics are full ones, for which the current comm is published too.
  have hcurr : Plain (a.currStat.bsf .comm) := hcomms.curr (by simp_all)
  split
  · exact forall_mem_singleton.mpr (sound_cmdline h)
  refine forall_mem_append.mpr ⟨?_, forall_mem_singleton.mpr (sound_cmdlineComm hcurr true)⟩
  split
  · rename_i hchanged
    exact forall_mem_singleton.mpr (sound_cmdlineComm (hcomms.prev hchanged) false)
  · exact forall_mem_nil _

theorem mem_ite_nil {α : Type} {l : List α} {Q : α → Prop} (h : ∀ x ∈ l, Q x) (c : Prop)
    [Decidable c] : ∀ x ∈ if c then l else [], Q x := by
  split
  · exact h
  · exact forall_mem_nil _

theorem sound_samples (h : Printed a) (hcomms : CommsPlain a) (cfg : Config)
    (zeroFlt : PidStatNumField → Bool) (zeroCtx : PidStatusNumField → Bool) :
    ∀ s ∈ a.samples cfg zeroFlt zeroCtx, Sound w s := by
  have hmemory : ∀ keep : PidStatusField → Bool,
      ∀ s ∈ a.statusMemorySamples (pidStatusMemoryFields.filter keep), Sound w s := fun keep =>
    sound_statusMemorySamples h fun f hf => (mem_filter.mp hf).1
  unfold GenArgs.samples
  simp only [forall_mem_append]
  refine ⟨⟨⟨⟨⟨⟨sound_stateSamples h, sound_commSamples h hcomms⟩, sound_prioritySamples h⟩,
    sound_cpuNumSamples h⟩, mem_ite_nil (hmemory _) _⟩, mem_ite_nil ?_ _⟩, mem_ite_nil ?_ _⟩
  · simp only [forall_mem_append]
    exact ⟨⟨sound_fltSamples _, sound_pcpuSamples⟩, mem_ite_nil (sound_ctxSamples _) _⟩
  · simp only [forall_mem_append]
    refine ⟨⟨⟨⟨⟨sound_infoSamples h, sound_numThreadsSamples h⟩, sound_rssSamples _⟩,
      sound_statMemorySamples h⟩, mem_ite_nil ?_ _⟩, sound_cmdlineSamples h hcomms⟩
    exact forall_mem_append.mpr ⟨sound_statusInfoSamples h, hmemory _⟩

end

end Lsvmi.ProcPid
