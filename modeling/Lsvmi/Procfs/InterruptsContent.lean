import Lsvmi.Procfs.InterruptsLines

/-!
# What the parser makes of a well-formed /proc/interrupts

The result depends on the content of the file, on the shared part and on what the object holds from
the scan it was used for last.
-/

namespace Lsvmi.Procfs

open Reasoning List Finmap CounterSlice

/-! ## Well-formed contents -/

@[mk_iff] structure IsCpu (w : Bytes) : Prop where
  start : w.take 3 = [67, 80, 85]
  length : 3 < w.length
  digits : ∀ c ∈ w.drop 3, isDigit c = true

instance (w : Bytes) : Decidable (IsCpu w) := decidable_of_iff' _ (isCpu_iff w)

/-- The counters of the line, and 0 for the CPUs that it has no column for. -/
def IrqText.counters (n : Nat) (t : IrqText) : List UInt64 :=
  t.values n ++ List.replicate (n - (t.values n).length) 0

abbrev InterruptsContent := Bytes

namespace InterruptsContent

def header (content : InterruptsContent) : Bytes := firstLine newline content

def cpus (content : InterruptsContent) : List Int64 := (stringsFields content.header).map cpuNumber

def texts (content : InterruptsContent) : List IrqText := irqTexts (afterLine newline content)

def irqs [UnicodeUpper] (content : InterruptsContent) : List Bytes :=
  content.texts.map IrqText.irq

def counters [UnicodeUpper] (content : InterruptsContent) (irq : Bytes) : Option (List UInt64) :=
  (content.texts.find? (·.irq = irq)).map (·.counters content.cpus.length)

end InterruptsContent

/-- A line with the CPUs, and lines with a number for each of them; ERR and MIS have one. -/
@[mk_iff] structure WellFormedInterrupts [UnicodeUpper] (content : InterruptsContent) : Prop where
  isCpu : ∀ w ∈ stringsFields content.header, IsCpu w
  some_cpu : content.cpus ≠ []
  cpus_nodup : content.cpus.Nodup
  irqs_nodup : content.irqs.Nodup
  not_digits : ∀ line ∈ lines newline (afterLine newline content), isDigitsLine line = false
  accepted : ∀ t ∈ content.texts, t.Accepted content.cpus.length
  few : ∀ t ∈ content.texts, irqWithFewerCpuCount t.irq = true →
    (t.values content.cpus.length).length = 1

instance [UnicodeUpper] (content : InterruptsContent) : Decidable (WellFormedInterrupts content) :=
  decidable_of_iff' _ (wellFormedInterrupts_iff content)

variable {content : InterruptsContent} {interrupts interrupts' : Interrupts}
  {info info' : InterruptsInfo} {scanNum : Nat} {t : IrqText} {texts : List IrqText} {irq : Bytes}

theorem IrqText.length_values (n : Nat) (t : IrqText) :
    (t.values n).length = min n t.words.length := by
  rw [values, length_map, length_take]

def IrqText.Full [UnicodeUpper] (n : Nat) (t : IrqText) : Prop :=
  (t.values n).length = if irqWithFewerCpuCount t.irq then 1 else n

theorem WellFormedInterrupts.full [UnicodeUpper] (h : WellFormedInterrupts content)
    (ht : t ∈ content.texts) : t.Full content.cpus.length := by
  unfold IrqText.Full
  cases hfew : irqWithFewerCpuCount t.irq with
  | true => exact h.few t ht hfew
  | false =>
    have hcount := (h.accepted t ht).1.count.resolve_right (by simp [hfew])
    rw [t.length_values, if_neg Bool.false_ne_true]
    exact Nat.min_eq_left hcount

/-! ## The first line -/

structure Interrupts.HasCpus (interrupts : Interrupts) (cpus : List Int64) : Prop where
  numCounters_eq : interrupts.numCounters = cpus.length
  cpuList_eq : interrupts.cpuList = cpuListOf cpus

theorem IsCpu.cpuNum {w : Bytes} (h : IsCpu w) : cpuNum w = .ok (cpuNumber w) := by
  unfold Procfs.cpuNum
  rw [if_neg (Nat.not_le.mpr h.length), invalidDigit_eq_none h.digits]

theorem mapM_cpuNum {words : List Bytes} (h : ∀ w ∈ words, IsCpu w) :
    words.mapM cpuNum = .ok (words.map cpuNumber) := by
  induction words with
  | nil => rfl
  | cons w words ih =>
    rw [forall_mem_cons] at h
    rw [mapM_cons, h.1.cpuNum, ih h.2]
    rfl

open Interrupts

theorem parseHeader_eq [UnicodeUpper] (h : WellFormedInterrupts content) (interrupts : Interrupts)
    (hinfo : newline ∉ info.cpuHeaderLine) :
    interrupts.parseHeader info content =
      if info.cpuHeaderLine = content.header then
        .ok (interrupts, info, afterLine newline content)
      else .ok ({ interrupts with
          numCounters := content.cpus.length, cpuList := cpuListOf content.cpus },
        { info with cpuHeaderLine := content.header, cpuListChanged := true },
        afterLine newline content) := by
  have hcpus : (stringsFields (firstLine newline content)).mapM cpuNum = .ok content.cpus :=
    mapM_cpuNum h.isCpu
  rw [interrupts.parseHeader_line hinfo]
  simp only [updateCpuList, hcpus]
  rfl

/-! ## What the lines leave -/

/-- The counters behind the first one of an IRQ with one column have never been assigned. -/
def Interrupts.SlicesOk (interrupts : Interrupts) : Prop :=
  ∀ irq counters, interrupts.counters.lookup irq = some counters →
    irqWithFewerCpuCount irq = true → ∀ x ∈ counters.backing.drop 1, x = 0

theorem irqCounters_len (interrupts : Interrupts) (irq : Bytes) :
    (interrupts.irqCounters irq).len = interrupts.numCounters := by
  unfold irqCounters resize
  split
  · rfl
  · split <;> rfl

theorem make_drop_eq_zero (n : Nat) : ∀ x ∈ (make n).backing.drop 1, x = 0 :=
  fun _ hx => eq_of_mem_replicate (mem_of_mem_drop hx)

theorem Interrupts.SlicesOk.irqCounters (h : interrupts.SlicesOk)
    {irq : Bytes} (hfew : irqWithFewerCpuCount irq) :
    ∀ x ∈ (interrupts.irqCounters irq).backing.drop 1, x = 0 := by
  unfold Interrupts.irqCounters resize
  split
  · exact make_drop_eq_zero _
  · rename_i counters hlookup
    split
    · exact make_drop_eq_zero _
    · exact h irq counters hlookup hfew

theorem IrqText.Full.write_values [UnicodeUpper] (hfull : t.Full interrupts.numCounters)
    (h : interrupts.SlicesOk) :
    ((interrupts.irqCounters t.irq).write (t.values interrupts.numCounters)).values =
      t.counters interrupts.numCounters := by
  have hle : (t.values interrupts.numCounters).length ≤ interrupts.numCounters := by
    rw [t.length_values]
    exact Nat.min_le_left _ _
  have hcap := (interrupts.irqCounters t.irq).len_le
  unfold CounterSlice.values CounterSlice.write IrqText.counters
  simp only
  rw [irqCounters_len] at hcap ⊢
  rw [take_append, take_of_length_le hle, append_cancel_left_eq, eq_replicate_iff]
  constructor
  · simp only [length_take, length_drop]
    omega
  intro x hx
  unfold IrqText.Full at hfull
  cases hfew : irqWithFewerCpuCount t.irq with
  | true =>
    rw [hfew, if_pos rfl] at hfull
    rw [hfull] at hx
    exact h.irqCounters hfew x (mem_of_mem_take hx)
  | false =>
    rw [hfew, if_neg Bool.false_ne_true] at hfull
    simp [hfull] at hx

theorem Interrupts.SlicesOk.store [UnicodeUpper] (h : interrupts.SlicesOk)
    (hfull : t.Full interrupts.numCounters) :
    (interrupts.store t.irq (t.values interrupts.numCounters)).SlicesOk := by
  intro irq counters hlookup hfew
  by_cases hirq : irq = t.irq
  · subst hirq
    rw [IrqText.Full, hfew, if_pos rfl] at hfull
    rw [Interrupts.store, lookup_insert, Option.some_inj] at hlookup
    subst hlookup
    intro x hx
    simp only [write, hfull, drop_append, mem_append,
      drop_eq_nil_of_le, Nat.le_refl, not_mem_nil, false_or, Nat.sub_self, drop_zero] at hx
    exact h.irqCounters hfew x hx
  · rw [Interrupts.store, lookup_insert_of_ne _ hirq] at hlookup
    exact h irq counters hlookup hfew

theorem Interrupts.SlicesOk.storeAll [UnicodeUpper] (h : interrupts.SlicesOk)
    (hfull : ∀ t ∈ texts, t.Full interrupts.numCounters) (hnodup : (texts.map IrqText.irq).Nodup) :
    (interrupts.storeAll texts).SlicesOk ∧
      ∀ t ∈ texts, ((interrupts.storeAll texts).counters.lookup t.irq).map CounterSlice.values =
        some (t.counters interrupts.numCounters) := by
  induction texts generalizing interrupts with
  | nil => exact ⟨h, nofun⟩
  | cons t texts ih =>
    rw [forall_mem_cons] at hfull
    rw [map_cons, nodup_cons] at hnodup
    obtain ⟨hslices, hfound⟩ := ih (h.store hfull.1) hfull.2 hnodup.2
    refine ⟨hslices, forall_mem_cons.mpr ⟨?_, hfound⟩⟩
    show (((interrupts.store t.irq (t.values interrupts.numCounters)).storeAll
      texts).counters.lookup t.irq).map CounterSlice.values = _
    rw [lookup_storeAll_of_notMem hnodup.1, Interrupts.store, lookup_insert, Option.map_some,
      hfull.1.write_values h]

/-! ## `Parse` -/

/-- The cached line has no end, and the IRQs were found at this scan or an earlier one. -/
structure InterruptsInfo.Ok (info : InterruptsInfo) : Prop where
  header : newline ∉ info.cpuHeaderLine
  scanNum_le : ∀ irq irqInfo, info.irqInfo.lookup irq = some irqInfo →
    irqInfo.scanNum ≤ info.scanNum

/-- What `Parse` leaves of a well-formed content: the counters of the content, and those of the
IRQs that are neither in it nor in the shared part. -/
structure ParsedInterrupts [UnicodeUpper] (content : InterruptsContent) (interrupts : Interrupts)
    (info : InterruptsInfo) (interrupts' : Interrupts) (info' : InterruptsInfo) : Prop where
  hasCpus : interrupts'.HasCpus content.cpus
  slices : interrupts'.SlicesOk
  counters_found : ∀ irq ∈ content.irqs,
    (interrupts'.counters.lookup irq).map CounterSlice.values = content.counters irq
  counters_gone : ∀ irq, irq ∉ content.irqs → irq ∈ info.irqInfo →
    interrupts'.counters.lookup irq = none
  counters_kept : ∀ irq, irq ∉ content.irqs → irq ∉ info.irqInfo →
    interrupts'.counters.lookup irq = interrupts.counters.lookup irq
  infoOk : info'.Ok
  mem_irqInfo : ∀ irq, irq ∈ info'.irqInfo ↔ irq ∈ content.irqs
  header_eq : info'.cpuHeaderLine = content.header
  changed_eq : info'.cpuListChanged = decide (info.cpuHeaderLine ≠ content.header)

section

variable [UnicodeUpper] (h : EnteredInfo scanNum texts info info') (stored : Interrupts)
include h

theorem EnteredInfo.removeOutOfScope_found (hirq : irq ∈ texts.map IrqText.irq) :
    (stored.removeOutOfScope info' scanNum).1.counters.lookup irq = stored.counters.lookup irq ∧
      (stored.removeOutOfScope info' scanNum).2.irqInfo.lookup irq = info'.irqInfo.lookup irq := by
  obtain ⟨irqInfo, hlookup, hscan⟩ := h.found irq hirq
  simp [removeOutOfScope, hlookup, hscan]

-- An IRQ that no line names is left from an earlier scan if it is in the shared part.
theorem EnteredInfo.removeOutOfScope_other (hinfo : info.Ok) (hscan : info.scanNum < scanNum)
    (hirq : irq ∉ texts.map IrqText.irq) :
    (stored.removeOutOfScope info' scanNum).1.counters.lookup irq =
        (if irq ∈ info.irqInfo then none else stored.counters.lookup irq) ∧
      (stored.removeOutOfScope info' scanNum).2.irqInfo.lookup irq = none := by
  have hother := h.others irq hirq
  cases hlookup : info.irqInfo.lookup irq with
  | none =>
    have hmem : irq ∉ info.irqInfo := lookup_eq_none.mp hlookup
    rw [hlookup] at hother
    simp [removeOutOfScope, hother, hmem]
  | some irqInfo =>
    have hmem : irq ∈ info.irqInfo := mem_of_lookup_eq_some hlookup
    have hne : irqInfo.scanNum ≠ scanNum := by
      have := hinfo.scanNum_le irq irqInfo hlookup
      omega
    rw [hlookup] at hother
    simp [removeOutOfScope, hother, hne, hmem]

end

open InterruptsContent

theorem InterruptsContent.counters_of_mem [UnicodeUpper] (hnodup : content.irqs.Nodup)
    (ht : t ∈ content.texts) :
    content.counters t.irq = some (t.counters content.cpus.length) := by
  have hfind : content.texts.find? (·.irq = t.irq) = some t := by
    obtain ⟨before, after, heq⟩ := append_of_mem ht
    rw [find?_eq_some_iff_append]
    refine ⟨by simp, before, after, heq, ?_⟩
    intro other hother
    rw [irqs, heq, map_append, nodup_append] at hnodup
    simpa using hnodup.2.2 _ (mem_map_of_mem hother) t.irq (by simp)
  rw [counters, hfind]
  rfl

theorem InterruptsContent.counters_eq_none_iff [UnicodeUpper] (content : InterruptsContent)
    (irq : Bytes) : content.counters irq = none ↔ irq ∉ content.irqs := by
  rw [counters, Option.map_eq_none_iff, find?_eq_none, irqs, mem_map]
  simp

def InterruptsInfo.begin (info : InterruptsInfo) : InterruptsInfo :=
  { info with irqChanged := false, cpuListChanged := false }

theorem WellFormedInterrupts.header_ne_nil [UnicodeUpper] (h : WellFormedInterrupts content) :
    content.header ≠ [] := by
  intro hnil
  have hcpus := h.some_cpu
  rw [cpus, hnil] at hcpus
  exact hcpus rfl

theorem parse_eq [UnicodeUpper] (h : WellFormedInterrupts content) {text : Bytes}
    (hheader : interrupts.parseHeader info.begin content = .ok (interrupts', info', text)) :
    interrupts.parse info content =
      (parseLines (info.scanNum + 1) text.length 2 interrupts' info' text).map
        fun result => result.1.removeOutOfScope result.2 (info.scanNum + 1) := by
  have hne : content ≠ [] := by
    rintro rfl
    exact h.header_ne_nil rfl
  unfold parse
  rw [if_neg hne]
  show (interrupts.parseHeader info.begin content >>= _) = _
  rw [hheader]
  show (parseLines (info.scanNum + 1) text.length 2 interrupts' info' text >>= _) = _
  cases parseLines (info.scanNum + 1) text.length 2 interrupts' info' text <;> rfl

theorem parseHeader_hasCpus [UnicodeUpper] (h : WellFormedInterrupts content) (hinfo : info.Ok)
    (hcpus : info.cpuHeaderLine = content.header → interrupts.HasCpus content.cpus) :
    ∃ interrupts' info', interrupts.parseHeader info.begin content =
        .ok (interrupts', info', afterLine newline content) ∧ interrupts'.HasCpus content.cpus ∧
      interrupts'.counters = interrupts.counters ∧ info'.irqInfo = info.irqInfo ∧
      info'.scanNum = info.scanNum ∧ info'.cpuHeaderLine = content.header ∧
      info'.cpuListChanged = decide (info.cpuHeaderLine ≠ content.header) := by
  have hnl : newline ∉ info.begin.cpuHeaderLine := hinfo.header
  rw [parseHeader_eq h interrupts hnl]
  by_cases heq : info.cpuHeaderLine = content.header
  · exact ⟨interrupts, info.begin, if_pos heq, hcpus heq, rfl, rfl, rfl, heq, by
      simp [heq, InterruptsInfo.begin]⟩
  · exact ⟨_, _, if_neg heq, ⟨rfl, rfl⟩, rfl, rfl, rfl, rfl, by simp [heq]⟩

theorem EnteredInfo.parsed [UnicodeUpper] (h : WellFormedInterrupts content)
    {interrupts₁ : Interrupts} {info₁ info₂ : InterruptsInfo}
    (he : EnteredInfo scanNum content.texts info₁ info₂) (hhas : interrupts₁.HasCpus content.cpus)
    (hslices : interrupts₁.SlicesOk)
    (hcounters : interrupts₁.counters = interrupts.counters) (hinfo : info₁.Ok)
    (hirqInfo : info₁.irqInfo = info.irqInfo) (hline : info₁.cpuHeaderLine = content.header)
    (hchanged : info₁.cpuListChanged = decide (info.cpuHeaderLine ≠ content.header))
    (hscan : info₁.scanNum < scanNum) :
    ParsedInterrupts content interrupts info
      ((interrupts₁.storeAll content.texts).removeOutOfScope info₂ scanNum).1
      ((interrupts₁.storeAll content.texts).removeOutOfScope info₂ scanNum).2 := by
  have hfull : ∀ t ∈ content.texts, t.Full interrupts₁.numCounters := by
    rw [hhas.numCounters_eq]
    exact fun t ht => h.full ht
  obtain ⟨hslices, hstored⟩ := hslices.storeAll hfull h.irqs_nodup
  obtain ⟨hnum, hlist⟩ := storeAll_cpus interrupts₁ content.texts
  have hfound := fun irq (hirq : irq ∈ content.irqs) =>
    he.removeOutOfScope_found (interrupts₁.storeAll content.texts) hirq
  have hother := fun irq (hirq : irq ∉ content.irqs) =>
    he.removeOutOfScope_other (interrupts₁.storeAll content.texts) hinfo hscan hirq
  refine ⟨⟨hnum.trans hhas.numCounters_eq, hlist.trans hhas.cpuList_eq⟩,
    ?_, ?_, ?_, ?_, ⟨?_, ?_⟩, ?_, he.header_eq.trans hline, he.changed_eq.trans hchanged⟩
  · intro irq counters hlookup
    rw [removeOutOfScope] at hlookup
    exact hslices irq counters (lookup_filterMapEntries_ite.mp hlookup).1
  · intro irq hirq
    obtain ⟨t, ht, rfl⟩ := mem_map.mp hirq
    rw [(hfound _ hirq).1, hstored t ht, counters_of_mem h.irqs_nodup ht, hhas.numCounters_eq]
  · intro irq hirq hmem
    rw [(hother irq hirq).1, hirqInfo, if_pos hmem]
  · intro irq hirq hmem
    rw [(hother irq hirq).1, hirqInfo, if_neg hmem, lookup_storeAll_of_notMem hirq, hcounters]
  · show newline ∉ info₂.cpuHeaderLine
    rw [he.header_eq]
    exact hinfo.header
  · intro irq irqInfo hlookup
    by_cases hirq : irq ∈ content.irqs
    · obtain ⟨irqInfo', hlookup', hscan'⟩ := he.found irq hirq
      rw [(hfound irq hirq).2, hlookup'] at hlookup
      cases hlookup
      exact Nat.le_of_eq hscan'
    · rw [(hother irq hirq).2] at hlookup
      cases hlookup
  · intro irq
    by_cases hirq : irq ∈ content.irqs
    · obtain ⟨irqInfo', hlookup', -⟩ := he.found irq hirq
      rw [← (hfound irq hirq).2] at hlookup'
      exact iff_of_true (mem_of_lookup_eq_some hlookup') hirq
    · exact iff_of_false (lookup_eq_none.mp (hother irq hirq).2) hirq

theorem parse_content [UnicodeUpper] (h : WellFormedInterrupts content)
    (hslices : interrupts.SlicesOk) (hinfo : info.Ok)
    (hcpus : info.cpuHeaderLine = content.header → interrupts.HasCpus content.cpus) :
    ∃ interrupts' info', interrupts.parse info content = .ok (interrupts', info') ∧
      ParsedInterrupts content interrupts info interrupts' info' := by
  obtain ⟨interrupts₁, info₁, hheader, hhas, hcounters, hirqInfo, hscan, hline, hchanged⟩ :=
    parseHeader_hasCpus h hinfo hcpus
  have hslices₁ : interrupts₁.SlicesOk := by
    intro irq counters hlookup
    rw [hcounters] at hlookup
    exact hslices irq counters hlookup
  have hinfo₁ : info₁.Ok := by
    refine ⟨by rw [hline]; exact nl_notMem_firstLine newline content, ?_⟩
    rw [hirqInfo, hscan]
    exact hinfo.scanNum_le
  rw [parse_eq h hheader]
  rcases parseLines_verdict (info.scanNum + 1) _ 2 interrupts₁ info₁ (afterLine newline content)
    (Nat.le_refl _) with ⟨-, info₂, hlines, he⟩ | ⟨t, e, hrejected, -⟩
  · rw [hlines]
    exact ⟨_, _, rfl, EnteredInfo.parsed h he hhas hslices₁ hcounters hinfo₁ hirqInfo hline hchanged
      (by omega)⟩
  · rw [firstRejected, hhas.numCounters_eq] at hrejected
    have hnot := find?_some hrejected
    simp [h.accepted t (mem_of_find?_eq_some hrejected)] at hnot

/-! ## New objects and used ones -/

structure Interrupts.Holds [UnicodeUpper] (interrupts : Interrupts) (content : InterruptsContent) : Prop where
  hasCpus : interrupts.HasCpus content.cpus
  counters_eq : ∀ irq,
    (interrupts.counters.lookup irq).map CounterSlice.values = content.counters irq

theorem Interrupts.Holds.lookup_eq_none_iff [UnicodeUpper] (h : interrupts.Holds content) (irq : Bytes) :
    interrupts.counters.lookup irq = none ↔ irq ∉ content.irqs := by
  rw [← content.counters_eq_none_iff, ← h.counters_eq, Option.map_eq_none_iff]

theorem newInterrupts_slicesOk : newInterrupts.SlicesOk := by
  intro irq counters hlookup
  simp [newInterrupts] at hlookup

theorem newInterruptsInfo_ok : newInterruptsInfo.Ok :=
  ⟨by simp [newInterruptsInfo], by simp [newInterruptsInfo]⟩

theorem InterruptsContent.cpus_eq {content' : InterruptsContent}
    (heq : content.header = content'.header) : content.cpus = content'.cpus := by
  rw [cpus, cpus, heq]

theorem parse_cpus [UnicodeUpper] (h : WellFormedInterrupts content) (hinfo : info.Ok)
    (heq : info.cpuHeaderLine = content.header)
    (hparse : interrupts.parse info content = .ok (interrupts', info')) :
    interrupts'.numCounters = interrupts.numCounters ∧ interrupts'.cpuList = interrupts.cpuList := by
  have hnl : newline ∉ info.begin.cpuHeaderLine := hinfo.header
  have hheader := parseHeader_eq h interrupts hnl
  rw [if_pos (show info.begin.cpuHeaderLine = content.header from heq)] at hheader
  rw [parse_eq h hheader] at hparse
  rcases parseLines_verdict (info.scanNum + 1) _ 2 interrupts info.begin
    (afterLine newline content) (Nat.le_refl _) with ⟨-, info₂, hlines, -⟩ | ⟨_, e, -, hlines, -⟩
  · rw [hlines] at hparse
    cases hparse
    exact storeAll_cpus interrupts _
  · rw [hlines] at hparse
    cases hparse

structure Interrupts.Same (interrupts other : Interrupts) : Prop where
  numCounters_eq : interrupts.numCounters = other.numCounters
  cpuList_eq : interrupts.cpuList = other.cpuList
  counters_eq : ∀ irq, (interrupts.counters.lookup irq).map CounterSlice.values =
    (other.counters.lookup irq).map CounterSlice.values

def Interrupts.ParsesAsNew [UnicodeUpper] (interrupts : Interrupts) (info : InterruptsInfo) (buf : Bytes) : Prop :=
  ∃ parsed info' fresh info'', interrupts.parse info buf = .ok (parsed, info') ∧
    newInterrupts.parse newInterruptsInfo buf = .ok (fresh, info'') ∧ parsed.Same fresh

/-- The object has the CPUs if it is not told about them, and no counters that would stay. -/
structure Interrupts.Fits [UnicodeUpper] (interrupts : Interrupts) (info : InterruptsInfo)
    (content : InterruptsContent) : Prop where
  hasCpus : info.cpuHeaderLine = content.header → interrupts.HasCpus content.cpus
  irqs : ∀ irq, irq ∉ content.irqs → irq ∉ info.irqInfo → interrupts.counters.lookup irq = none

theorem Interrupts.Fits.parse [UnicodeUpper] (hfits : interrupts.Fits info content)
    (h : WellFormedInterrupts content) (hslices : interrupts.SlicesOk) (hinfo : info.Ok) :
    ∃ parsed info', interrupts.parse info content = .ok (parsed, info') ∧
      ParsedInterrupts content interrupts info parsed info' ∧ parsed.Holds content := by
  obtain ⟨parsed, info', hparse, hparsed⟩ := parse_content h hslices hinfo hfits.hasCpus
  refine ⟨parsed, info', hparse, hparsed, hparsed.hasCpus, ?_⟩
  intro irq
  by_cases hirq : irq ∈ content.irqs
  · exact hparsed.counters_found irq hirq
  rw [(content.counters_eq_none_iff irq).mpr hirq, Option.map_eq_none_iff]
  by_cases hmem : irq ∈ info.irqInfo
  · exact hparsed.counters_gone irq hirq hmem
  · rw [hparsed.counters_kept irq hirq hmem]
    exact hfits.irqs irq hirq hmem

theorem parse_new [UnicodeUpper] (h : WellFormedInterrupts content) :
    ∃ parsed info', newInterrupts.parse newInterruptsInfo content = .ok (parsed, info') ∧
      parsed.Holds content := by
  have hfits : newInterrupts.Fits newInterruptsInfo content :=
    ⟨fun heq => absurd heq.symm h.header_ne_nil, fun irq _ _ => by simp [newInterrupts]⟩
  obtain ⟨parsed, info', hparse, -, hholds⟩ :=
    hfits.parse h newInterrupts_slicesOk newInterruptsInfo_ok
  exact ⟨parsed, info', hparse, hholds⟩

theorem parsesAsNew_iff_fits [UnicodeUpper] (h : WellFormedInterrupts content) (hslices : interrupts.SlicesOk)
    (hinfo : info.Ok) : interrupts.ParsesAsNew info content ↔ interrupts.Fits info content := by
  obtain ⟨fresh, info₀, hnew, hfresh⟩ := parse_new h
  constructor
  · rintro ⟨parsed, info', fresh', info₁, hparse, hnew', hsame⟩
    rw [hnew] at hnew'
    cases hnew'
    have hcpus : info.cpuHeaderLine = content.header → interrupts.HasCpus content.cpus := by
      intro heq
      obtain ⟨hnum, hlist⟩ := parse_cpus h hinfo heq hparse
      exact ⟨hnum.symm.trans (hsame.numCounters_eq.trans hfresh.hasCpus.numCounters_eq),
        hlist.symm.trans (hsame.cpuList_eq.trans hfresh.hasCpus.cpuList_eq)⟩
    refine ⟨hcpus, ?_⟩
    intro irq hirq hmem
    obtain ⟨parsed', info₂, hparse', hparsed⟩ := parse_content h hslices hinfo hcpus
    rw [hparse] at hparse'
    cases hparse'
    have heq := hsame.counters_eq irq
    rw [hfresh.counters_eq, (content.counters_eq_none_iff irq).mpr hirq,
      hparsed.counters_kept irq hirq hmem] at heq
    exact Option.map_eq_none_iff.mp heq
  · intro hfits
    obtain ⟨parsed, info', hparse, -, hholds⟩ := hfits.parse h hslices hinfo
    refine ⟨parsed, info', fresh, info₀, hparse, hnew, ?_, ?_, ?_⟩
    · rw [hholds.hasCpus.numCounters_eq, hfresh.hasCpus.numCounters_eq]
    · rw [hholds.hasCpus.cpuList_eq, hfresh.hasCpus.cpuList_eq]
    · intro irq
      rw [hholds.counters_eq, hfresh.counters_eq]

end Lsvmi.Procfs
