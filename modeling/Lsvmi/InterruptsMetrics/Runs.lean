import Lsvmi.InterruptsMetrics.Deltas

/-!
# Scans while CPUs and IRQs come and go

Two objects parse in turn, so that an object holds what it found two scans ago, while the part they
share tells what has changed since the last scan.  Here are the runs in which an object nevertheless
ends up as a new one would.
-/

namespace Lsvmi.InterruptsMetrics

open Procfs Reasoning List ProcInterruptsMetrics Option

variable {last : InterruptsContent} {gen : ProcInterruptsMetrics} {interrupts : Interrupts}

structure Input where
  content : InterruptsContent
  scan : Scan

structure Input.Ok [UnicodeUpper] (input : Input) : Prop where
  interrupts_eq : input.scan.interrupts = some input.content
  wellFormed : WellFormedInterrupts input.content

structure RunState where
  gen : ProcInterruptsMetrics
  last : Option InterruptsContent
  /-- the content of the scan before that one -/
  beforeLast : Option InterruptsContent

def RunState.start : RunState := ⟨newProcInterruptsMetrics, none, none⟩

def nextState [UnicodeUpper] (cfg : Config) (s : RunState) (input : Input) : Option RunState :=
  (execute cfg s.gen input.scan).map fun result => ⟨result.2, some input.content, s.last⟩

def Steps [UnicodeUpper] (cfg : Config) (s : RunState) (input : Input) (s' : RunState) : Prop :=
  nextState cfg s input = some s'

/-- The object ends up as a new one does, and each delta that is published is the difference between
the content of the scan and the one before. -/
def ScanOk [UnicodeUpper] (cfg : Config) (s : RunState) (input : Input) : Prop :=
  s.gen.currProcInterrupts.ParsesAsNew s.gen.info input.content ∧
    ∀ out gen', execute cfg s.gen input.scan = some (out, gen') →
      ∀ sample ∈ out.buf, sample.metric = .delta →
        ∃ last, s.last = some last ∧ IsDelta last input.content sample

/-- Of three contents in a row, the first line stays the same in the last two only if the CPUs were
the same in the first one, and an IRQ of the first one is in one of the last two. -/
def ContentsFit [UnicodeUpper] (beforeLast last now : InterruptsContent) : Prop :=
  (now.header = last.header → beforeLast.cpus = last.cpus) ∧
    ∀ irq ∈ beforeLast.irqs, irq ∈ last.irqs ∨ irq ∈ now.irqs

instance [UnicodeUpper] (beforeLast last now : InterruptsContent) :
    Decidable (ContentsFit beforeLast last now) :=
  inferInstanceAs (Decidable (_ ∧ _))

def HotPlugFits [UnicodeUpper] (s : RunState) (input : Input) : Prop :=
  ∀ last beforeLast, s.last = some last → s.beforeLast = some beforeLast →
    ContentsFit beforeLast last input.content

structure Latest [UnicodeUpper] (gen : ProcInterruptsMetrics) (last : InterruptsContent)
    (prev : Interrupts) : Prop where
  infoOk : gen.info.Ok
  header_eq : gen.info.cpuHeaderLine = last.header
  mem_irqInfo : ∀ irq, irq ∈ gen.info.irqInfo ↔ irq ∈ last.irqs
  prev_eq : gen.prev = some prev
  holds : prev.Holds last
  slices : prev.SlicesOk
  wellFormed : WellFormedInterrupts last

inductive Inv [UnicodeUpper] : RunState → Prop
  | first : Inv .start
  | second {gen : ProcInterruptsMetrics} {last : InterruptsContent} {prev : Interrupts}
    (hlatest : Latest gen last prev) (hcurr : gen.curr = none)
    (hsuffix : gen.deltaMetricsSuffixCache = none) : Inv ⟨gen, some last, none⟩
  | later {gen : ProcInterruptsMetrics} {last beforeLast : InterruptsContent}
    {prev curr : Interrupts} (hlatest : Latest gen last prev) (hcurr : gen.curr = some curr)
    (hholds : curr.Holds beforeLast) (hslices : curr.SlicesOk)
    (hsuffix : gen.deltaMetricsSuffixCache = some last.cpus) :
    Inv ⟨gen, some last, some beforeLast⟩

theorem Inv.infoOk [UnicodeUpper] {s : RunState} (h : Inv s) : s.gen.info.Ok := by
  cases h with
  | first => exact newInterruptsInfo_ok
  | second hlatest _ _ | later hlatest _ _ _ _ => exact hlatest.infoOk

section Object

variable {gen : ProcInterruptsMetrics} {last : InterruptsContent} {prev curr : Interrupts}

theorem currProcInterrupts_of_some (hcurr : gen.curr = some curr) :
    gen.currProcInterrupts = curr := by
  rw [currProcInterrupts, hcurr]

theorem currProcInterrupts_of_none (hcurr : gen.curr = none) (hprev : gen.prev = some prev) :
    gen.currProcInterrupts = prev.clone := by
  rw [currProcInterrupts, hcurr, hprev]

theorem slicesOk_clone (interrupts : Interrupts) : interrupts.clone.SlicesOk := by
  intro irq counters hlookup _
  rw [Interrupts.clone, lookup_filterMapEntries] at hlookup
  obtain ⟨counters', -, hsome⟩ := bind_eq_some_iff.mp hlookup
  cases hsome
  exact make_drop_eq_zero _

theorem Inv.slicesOk [UnicodeUpper] {s : RunState} (h : Inv s) : s.gen.currProcInterrupts.SlicesOk := by
  cases h with
  | first => exact newInterrupts_slicesOk
  | second hlatest hcurr _ =>
    rw [currProcInterrupts_of_none hcurr hlatest.prev_eq]
    exact slicesOk_clone _
  | later _ hcurr _ hslices _ =>
    rw [currProcInterrupts_of_some hcurr]
    exact hslices

theorem Latest.cpus_eq [UnicodeUpper] {content : InterruptsContent}
    (hlatest : Latest gen last prev) (heq : gen.info.cpuHeaderLine = content.header) :
    last.cpus = content.cpus :=
  InterruptsContent.cpus_eq (hlatest.header_eq.symm.trans heq)

end Object

theorem Inv.fits_iff [UnicodeUpper] {s : RunState} {input : Input} (h : Inv s) (hin : input.Ok) :
    s.gen.currProcInterrupts.Fits s.gen.info input.content ↔ HotPlugFits s input := by
  cases h with
  | first =>
    refine iff_of_true ⟨fun heq => absurd heq.symm hin.wellFormed.header_ne_nil, fun irq _ _ => ?_⟩ nofun
    exact Finmap.lookup_empty irq
  | @second gen last prev hlatest hcurr hsuffix =>
    refine iff_of_true ⟨fun heq => ?_, fun irq _ hirq => ?_⟩ nofun
    · rw [currProcInterrupts_of_none hcurr hlatest.prev_eq, ← hlatest.cpus_eq heq]
      exact ⟨hlatest.holds.hasCpus.numCounters_eq, hlatest.holds.hasCpus.cpuList_eq⟩
    · rw [hlatest.mem_irqInfo, ← hlatest.holds.lookup_eq_none_iff] at hirq
      rw [currProcInterrupts_of_none hcurr hlatest.prev_eq, Interrupts.clone,
        lookup_filterMapEntries, hirq]
      rfl
  | @later gen last beforeLast prev curr hlatest hcurr hholds hslices hsuffix =>
    rw [currProcInterrupts_of_some hcurr]
    constructor
    · intro hfits _ _ hlast hbefore
      cases hlast
      cases hbefore
      constructor
      · intro heq
        have heq' := hlatest.header_eq.trans heq.symm
        rw [hlatest.cpus_eq heq']
        rw [← cpus_of_hasCpus hholds.hasCpus, cpus_of_hasCpus (hfits.hasCpus heq')]
      · intro irq hirq
        by_contra hgone
        rw [not_or, ← hlatest.mem_irqInfo] at hgone
        exact (hholds.lookup_eq_none_iff irq).mp (hfits.irqs irq hgone.2 hgone.1) hirq
    · intro hfit
      obtain ⟨hcpus, hirqs⟩ := hfit last beforeLast rfl rfl
      constructor
      · intro heq
        rw [← hlatest.cpus_eq heq, ← hcpus (heq.symm.trans hlatest.header_eq)]
        exact hholds.hasCpus
      · intro irq hirq hgone
        rw [hlatest.mem_irqInfo] at hgone
        rw [hholds.lookup_eq_none_iff]
        exact fun hmem => (hirqs irq hmem).elim hgone hirq

section Scan

variable [UnicodeUpper] {cfg : Config} {s s' : RunState} {input : Input} {out : Out}
  {gen' : ProcInterruptsMetrics}

theorem Inv.execute (h : Inv s) (hin : input.Ok)
    (hfits : s.gen.currProcInterrupts.Fits s.gen.info input.content)
    (hexec : execute cfg s.gen input.scan = some (out, gen')) :
    ∃ curr info, ParsedInterrupts input.content s.gen.currProcInterrupts s.gen.info curr info ∧
      curr.Holds input.content ∧
      Generated { s.gen with info, currTs := input.scan.timeNow } curr out gen' := by
  obtain ⟨curr, info, hparse, hparsed, hholds⟩ := hfits.parse hin.wellFormed h.slicesOk h.infoOk
  simp only [InterruptsMetrics.execute, hin.interrupts_eq, hparse] at hexec
  exact ⟨curr, info, hparsed, hholds, generateMetrics_generated hexec⟩

theorem Latest.unchanged
    {prev curr : Interrupts} {info : InterruptsInfo} (hlatest : Latest gen last prev)
    (hparsed : ParsedInterrupts input.content interrupts gen.info curr info)
    (hchanged : info.cpuListChanged = false) : last.cpus = input.content.cpus := by
  rw [hparsed.changed_eq, decide_eq_false_iff_not, not_not] at hchanged
  exact hlatest.cpus_eq hchanged

theorem Latest.suffixCache_eq
    {prev curr : Interrupts} {info : InterruptsInfo} (hlatest : Latest gen last prev)
    (hparsed : ParsedInterrupts input.content interrupts gen.info curr info)
    (hsuffix : ∀ cached, gen.deltaMetricsSuffixCache = some cached → cached = last.cpus) (ts : Int) :
    suffixCache { gen with info, currTs := ts } curr = input.content.cpus := by
  have hcpus := cpus_of_hasCpus hparsed.hasCpus
  unfold suffixCache
  simp only
  split
  · exact hcpus
  rename_i hchanged
  cases hcached : gen.deltaMetricsSuffixCache with
  | none => exact hcpus
  | some cached =>
    rw [getD_some, hsuffix cached hcached]
    exact hlatest.unchanged hparsed (by simpa using hchanged)

variable (h : Inv s)
include h

theorem Inv.eq_start (hlast : s.last = none) : s = .start := by
  cases h with
  | first => rfl
  | second _ _ _ => cases hlast
  | later _ _ _ _ _ => cases hlast

theorem Inv.latest (hlast : s.last = some last) :
    ∃ prev, Latest s.gen last prev ∧
      ∀ cached, s.gen.deltaMetricsSuffixCache = some cached → cached = last.cpus := by
  cases h with
  | first => cases hlast
  | second hlatest _ hsuffix | later hlatest _ _ _ hsuffix =>
    cases hlast
    exact ⟨_, hlatest, by simp [hsuffix]⟩

theorem Inv.isDelta (hin : input.Ok)
    (hfits : s.gen.currProcInterrupts.Fits s.gen.info input.content)
    (hexec : InterruptsMetrics.execute cfg s.gen input.scan = some (out, gen')) :
    ∀ sample ∈ out.buf, sample.metric = .delta →
      ∃ last, s.last = some last ∧ IsDelta last input.content sample := by
  obtain ⟨curr, info, hparsed, hholds, hgen⟩ := h.execute hin hfits hexec
  intro sample hsample hmetric
  cases hlast : s.last with
  | none =>
    obtain rfl := h.eq_start hlast
    rw [(hgen.first rfl).1] at hsample
    cases hsample
  | some last =>
    obtain ⟨prev, hlatest, hsuffix⟩ := h.latest hlast
    exact ⟨last, rfl, isDelta_of_holds hholds hlatest.holds hin.wellFormed.cpus_nodup
      hlatest.wellFormed.cpus_nodup (hlatest.suffixCache_eq hparsed hsuffix _) (hlatest.unchanged hparsed)
      ((hgen.next _ hlatest.prev_eq).2 sample hsample hmetric)⟩

theorem Inv.scanOk_iff (hin : input.Ok) : ScanOk cfg s input ↔ HotPlugFits s input := by
  rw [← h.fits_iff hin, ← parsesAsNew_iff_fits hin.wellFormed h.slicesOk h.infoOk]
  constructor
  · exact And.left
  · intro hnew
    have hfits := (parsesAsNew_iff_fits hin.wellFormed h.slicesOk h.infoOk).mp hnew
    exact ⟨hnew, fun out gen' hexec => h.isDelta hin hfits hexec⟩

theorem Inv.step (hin : input.Ok) (hfit : HotPlugFits s input) (hstep : Steps cfg s input s') :
    Inv s' := by
  obtain ⟨⟨out, gen'⟩, hexec, rfl⟩ := map_eq_some_iff.mp hstep
  obtain ⟨curr, info, hparsed, hholds, hgen⟩ := h.execute hin ((h.fits_iff hin).mpr hfit) hexec
  have hlatest' : Latest gen' input.content curr := by
    refine ⟨?_, ?_, ?_, hgen.prev_eq, hholds, hparsed.slices, hin.wellFormed⟩
    · rw [hgen.info_eq]
      exact hparsed.infoOk
    · rw [hgen.info_eq]
      exact hparsed.header_eq
    · rw [hgen.info_eq]
      exact hparsed.mem_irqInfo
  cases hlast : s.last with
  | none =>
    obtain rfl := h.eq_start hlast
    exact .second hlatest' hgen.curr_eq (hgen.first rfl).2
  | some last =>
    obtain ⟨prev, hlatest, hsuffix⟩ := h.latest hlast
    refine .later hlatest' (hgen.curr_eq.trans hlatest.prev_eq) hlatest.holds hlatest.slices ?_
    rw [(hgen.next _ hlatest.prev_eq).1, hlatest.suffixCache_eq hparsed hsuffix]

theorem Inv.always_iff {inputs : List Input} (hok : ∀ input ∈ inputs, input.Ok) :
    Always (Steps cfg) (ScanOk cfg) s inputs ↔ Always (Steps cfg) HotPlugFits s inputs :=
  Always.iff_of_invariant (fun _ _ hinv hin => hinv.scanOk_iff hin)
    (fun _ _ _ hinv hin hfit hstep => hinv.step hin hfit hstep) h (Always.of_forall_mem hok _)

end Scan

/-- Every scan of a run leaves the object as a new one would be and publishes only differences
between its content and the one before, just if the contents fit at every scan. -/
theorem scans_as_new_iff_hotplug_fits [UnicodeUpper] (cfg : Config) {inputs : List Input}
    (hok : ∀ input ∈ inputs, input.Ok) :
    Always (Steps cfg) (ScanOk cfg) .start inputs ↔ Always (Steps cfg) HotPlugFits .start inputs :=
  Inv.first.always_iff hok

def Input.ofContent [UnicodeUpper] (timeNow : Int) (content : InterruptsContent) : Input :=
  { content, scan :=
    { interrupts := some content, timeNow, order := content.irqs, cacheOrder := content.irqs
      cycleNum := fun _ => 0 } }

def plainConfig : Config := ⟨15⟩

def pluggedInputs : List Input :=
  [.ofContent 0 (utf8 "CPU0\n1: 5 timer\n"),
    .ofContent 1000 (utf8 "CPU0 CPU1\n1: 6 7 timer\n2: 1 2 disk\n"),
    .ofContent 2000 (utf8 "CPU0\n1: 8 timer\n2: 3 disk\n")]

theorem pluggedInputs_ok : ∀ input ∈ pluggedInputs, input.Ok := by
  intro input hinput
  simp only [pluggedInputs, mem_cons, not_mem_nil, or_false] at hinput
  rcases hinput with rfl | rfl | rfl
  all_goals exact ⟨rfl, by decide +kernel⟩

theorem scans_as_new_iff_hotplug_fits_plugged :
    (∃ s, Run (Steps plainConfig) .start pluggedInputs s) ∧
      Always (Steps plainConfig) (ScanOk plainConfig) .start pluggedInputs := by
  constructor
  · have heval : (pluggedInputs.foldlM (nextState plainConfig) .start).isSome = true := by
      decide +kernel
    obtain ⟨s, hs⟩ := isSome_iff_exists.mp heval
    exact ⟨s, Run.of_foldlM hs⟩
  refine (scans_as_new_iff_hotplug_fits plainConfig pluggedInputs_ok).mpr ⟨nofun, ?_⟩
  intro s₁ h₁
  obtain ⟨_, -, rfl⟩ := map_eq_some_iff.mp h₁
  refine ⟨nofun, ?_⟩
  intro s₂ h₂
  obtain ⟨_, -, rfl⟩ := map_eq_some_iff.mp h₂
  refine ⟨?_, fun _ _ => trivial⟩
  intro last beforeLast hlast hbefore
  cases hlast
  cases hbefore
  decide +kernel

theorem not_always_of_not_contentsFit [UnicodeUpper] {cfg : Config} {inputs : List Input} {input : Input}
    {beforeLast : InterruptsContent} (hok : ∀ i ∈ inputs ++ [input], i.Ok)
    (heval : (inputs.foldlM (nextState cfg) .start).map (fun s => (s.last, s.beforeLast)) =
      some (some last, some beforeLast)) (hnot : ¬ ContentsFit beforeLast last input.content) :
    ¬ Always (Steps cfg) (ScanOk cfg) .start (inputs ++ [input]) := by
  obtain ⟨s, hs, hcontents⟩ := map_eq_some_iff.mp heval
  simp only [Prod.mk.injEq] at hcontents
  intro h
  have hfit := ((Inv.first.always_iff hok).mp h).after_run (Run.of_foldlM hs)
  exact hnot (hfit.1 last beforeLast hcontents.1 hcontents.2)

def newCpuInputs : List Input :=
  [.ofContent 0 (utf8 "CPU0\n1: 5 timer\n"),
    .ofContent 1000 (utf8 "CPU0 CPU1\n1: 6 7 timer\n")]

def sameCpusInput : Input := .ofContent 2000 (utf8 "CPU0 CPU1\n1: 8 9 timer\n")

def goneIrqInputs : List Input :=
  [.ofContent 0 (utf8 "CPU0\n1: 5 timer\n2: 1 disk\n"),
    .ofContent 1000 (utf8 "CPU0\n1: 6 timer\n")]

def sameIrqsInput : Input := .ofContent 2000 (utf8 "CPU0\n1: 7 timer\n")

/-- At the third scan the object of the first one is not told about the new CPU, and keeps the
counters of the IRQ that is gone. -/
theorem old_object_keeps_old_columns :
    ((∀ input ∈ newCpuInputs ++ [sameCpusInput], input.Ok) ∧
      ¬ Always (Steps plainConfig) (ScanOk plainConfig) .start (newCpuInputs ++ [sameCpusInput])) ∧
    (∀ input ∈ goneIrqInputs ++ [sameIrqsInput], input.Ok) ∧
      ¬ Always (Steps plainConfig) (ScanOk plainConfig) .start (goneIrqInputs ++ [sameIrqsInput]) := by
  have hcpu : ∀ input ∈ newCpuInputs ++ [sameCpusInput], input.Ok := by
    intro input hinput
    simp only [newCpuInputs, cons_append, nil_append, mem_cons, not_mem_nil, or_false] at hinput
    rcases hinput with rfl | rfl | rfl <;> exact ⟨rfl, by decide +kernel⟩
  have hirq : ∀ input ∈ goneIrqInputs ++ [sameIrqsInput], input.Ok := by
    intro input hinput
    simp only [goneIrqInputs, cons_append, nil_append, mem_cons, not_mem_nil, or_false] at hinput
    rcases hinput with rfl | rfl | rfl <;> exact ⟨rfl, by decide +kernel⟩
  have hcpuRun : (newCpuInputs.foldlM (nextState plainConfig) .start).map
      (fun s => (s.last, s.beforeLast)) = some
        (some (utf8 "CPU0 CPU1\n1: 6 7 timer\n"), some (utf8 "CPU0\n1: 5 timer\n")) := by
    decide +kernel
  have hirqRun : (goneIrqInputs.foldlM (nextState plainConfig) .start).map
      (fun s => (s.last, s.beforeLast)) = some
        (some (utf8 "CPU0\n1: 6 timer\n"), some (utf8 "CPU0\n1: 5 timer\n2: 1 disk\n")) := by
    decide +kernel
  exact ⟨⟨hcpu, not_always_of_not_contentsFit hcpu hcpuRun (by decide +kernel)⟩, hirq,
    not_always_of_not_contentsFit hirq hirqRun (by decide +kernel)⟩

end Lsvmi.InterruptsMetrics
