import Lsvmi.SoftirqsMetrics.Deltas

/-!
# Runs of the softirqs generator

The two objects of the generator take turns.  Whether the CPUs have changed is told by comparison
with the content before the last one, which was parsed by the same object, while the deltas are
against the last one.
-/

namespace Lsvmi.SoftirqsMetrics

open Procfs Reasoning ProcSoftirqsMetrics Option
open InterruptsMetrics (IrqSample Out)

structure State where
  psirqm : ProcSoftirqsMetrics
  last : Option Bytes

def State.start : State := ⟨newProcSoftirqsMetrics, none⟩

def nextState (cfg : Config) (s : State) (scan : Scan) : Option State :=
  (execute cfg s.psirqm scan).map fun result => ⟨result.2, scan.softirqs⟩

def Steps (cfg : Config) (s : State) (scan : Scan) (s' : State) : Prop :=
  nextState cfg s scan = some s'

def Parsed (s : State) (scan : Scan) : Prop :=
  ∃ buf softirqs, scan.softirqs = some buf ∧
    s.psirqm.currProcSoftirqs.parse buf = some (softirqs, none)

/-- No index is out of range, and the deltas are those between the last content and this one. -/
def ScanOk (cfg : Config) (s : State) (scan : Scan) : Prop :=
  ∃ out psirqm, execute cfg s.psirqm scan = some (out, psirqm) ∧
    ∀ sample ∈ out.buf, sample.metric = .delta → ∃ last buf, s.last = some last ∧
      scan.softirqs = some buf ∧ IsDelta last buf sample

/-- The changes from one content to the next that the generator can follow. -/
structure ChangeFits (psirqm : ProcSoftirqsMetrics) (last buf : Bytes) : Prop where
  /-- the second content has every softirq of the first one -/
  second : psirqm.curr.isNone = true → ∀ irq ∈ contentIrqs last, irq ∈ contentIrqs buf
  /-- where the object has seen the first line before, the columns of the last content start with
  these ones, and the softirqs that are cached have no fewer -/
  same : firstLine newline buf = psirqm.currProcSoftirqs.cpuHeaderLine →
    ∀ irq ∈ contentIrqs last, irq ∈ contentIrqs buf → contentCpus buf <+: contentCpus last ∧
      ∀ irqData ∈ psirqm.irqDataCache.lookup irq,
        (contentCpus buf).length ≤ irqData.zeroDelta.length

instance (psirqm : ProcSoftirqsMetrics) (last buf : Bytes) :
    Decidable (ChangeFits psirqm last buf) :=
  decidable_of_iff (_ ∧ _) ⟨fun h => ⟨h.1, h.2⟩, fun h => ⟨h.second, h.same⟩⟩

def StepFits (s : State) (scan : Scan) : Prop :=
  ∀ last ∈ s.last, ∀ buf ∈ scan.softirqs, ChangeFits s.psirqm last buf

instance (s : State) (scan : Scan) : Decidable (StepFits s scan) :=
  inferInstanceAs (Decidable (∀ last ∈ s.last, ∀ buf ∈ scan.softirqs, ChangeFits s.psirqm last buf))

/-- The previous object holds the last content, the current one an older one, and the cached CPUs
are those of one of them. -/
structure Inv (s : State) : Prop where
  first : s.last = none → s.psirqm.prev = none ∧ s.psirqm.curr = none
  prev : ∀ last, s.last = some last → ∃ prev, s.psirqm.prev = some prev ∧ Holds prev last
  curr : ∀ curr, s.psirqm.curr = some curr → ∃ buf, Holds curr buf
  suffix : ∀ list, s.psirqm.deltaMetricsSuffixCache = some list →
    (∃ prev, s.psirqm.prev = some prev ∧ list = cpus prev) ∨
      ∃ curr, s.psirqm.curr = some curr ∧ list = cpus curr

theorem Inv.start : Inv .start :=
  ⟨fun _ => ⟨rfl, rfl⟩, fun _ h => (by cases h), fun _ h => (by cases h), fun _ h => (by cases h)⟩

section

variable {s : State} {scan : Scan} {buf : Bytes} {softirqs : Softirqs} {prev : Softirqs}

theorem Inv.currProcSoftirqs_ok (h : Inv s) : s.psirqm.currProcSoftirqs.Ok := by
  unfold currProcSoftirqs
  cases hcurr : s.psirqm.curr with
  | some curr =>
    obtain ⟨buf, hholds⟩ := h.curr curr hcurr
    exact hholds.ok
  | none =>
    cases hlast : s.last with
    | none =>
      rw [(h.first hlast).1]
      exact Softirqs.ok_new
    | some last =>
      obtain ⟨prev, hprev, hholds⟩ := h.prev last hlast
      rw [hprev]
      exact hholds.ok.clone

theorem Inv.known (h : Inv s) (hfits : StepFits s scan) (hbuf : scan.softirqs = some buf)
    {irq : Bytes} (hnone : contentCounters buf irq = none) :
    (s.psirqm.currProcSoftirqs.irqScanNum.lookup irq).isSome ∨
      s.psirqm.currProcSoftirqs.counters.lookup irq = none := by
  unfold currProcSoftirqs
  cases hcurr : s.psirqm.curr with
  | some curr =>
    obtain ⟨old, hholds⟩ := h.curr curr hcurr
    simp only
    rw [hholds.found irq]
    cases hold : contentCounters old irq with
    | some counters => exact .inl rfl
    | none =>
      have := hholds.counters irq
      rw [hold, map_eq_none_iff] at this
      exact .inr this
  | none =>
    right
    cases hlast : s.last with
    | none =>
      rw [(h.first hlast).1]
      rfl
    | some last =>
      -- the clone has the softirqs of the first content, but no scan numbers
      obtain ⟨prev, hprev, hholds⟩ := h.prev last hlast
      have hlastNone : contentCounters last irq = none := by
        rw [← not_isSome_iff_eq_none, contentCounters_isSome_iff]
        intro hmem
        have hnow := (hfits last hlast buf hbuf).second (by rw [hcurr]; rfl) irq hmem
        rw [← contentCounters_isSome_iff, hnone] at hnow
        cases hnow
      have hgone := hholds.counters irq
      rw [hlastNone, map_eq_none_iff] at hgone
      rw [hprev]
      simp [Softirqs.clone, hgone]

section

variable (h : Inv s) (haccepted : Softirqs.Accepted s.psirqm.currProcSoftirqs buf softirqs)
  (hprev : s.psirqm.prev = some prev)
include h haccepted hprev

theorem Inv.suffix_of_unchanged (hchanged : softirqs.cpuListChanged = false) :
    ∀ list, s.psirqm.deltaMetricsSuffixCache = some list →
      list = cpus softirqs ∨ list = cpus prev := by
  intro list hlist
  rcases h.suffix list hlist with ⟨prev', hprev', hcpus⟩ | ⟨curr, hcurr, hcpus⟩
  · rw [hprev] at hprev'
    cases hprev'
    exact .inr hcpus
  left
  obtain ⟨old, hholds⟩ := h.curr curr hcurr
  have hobject : s.psirqm.currProcSoftirqs = curr := by
    rw [currProcSoftirqs, hcurr]
  rw [hcpus, cpus_of_ok hholds.ok, cpus_of_ok haccepted.ok, haccepted.unchanged hchanged, hobject]

theorem Inv.suffixCache_cpus :
    s.psirqm.suffixCache softirqs = cpus softirqs ∨
      ∃ prev, s.psirqm.prev = some prev ∧ s.psirqm.suffixCache softirqs = cpus prev := by
  cases hchanged : softirqs.cpuListChanged with
  | true =>
    left
    rw [suffixCache, if_pos hchanged]
  | false =>
    rw [suffixCache, hchanged, if_neg (by decide)]
    cases hlist : s.psirqm.deltaMetricsSuffixCache with
    | none => exact .inl rfl
    | some list =>
      rcases h.suffix_of_unchanged haccepted hprev hchanged list hlist with hcpus | hcpus
      · exact .inl hcpus
      · exact .inr ⟨prev, hprev, hcpus⟩

end

theorem Inv.columnsFit (h : Inv s) (hfits : StepFits s scan) {last : Bytes}
    (hlast : s.last = some last) (hbuf : scan.softirqs = some buf)
    (haccepted : Softirqs.Accepted s.psirqm.currProcSoftirqs buf softirqs)
    (hprev : s.psirqm.prev = some prev) (hcurrHolds : Holds softirqs buf)
    (hprevHolds : Holds prev last) {irq : Bytes} (hirq : InBoth last buf irq) :
    ColumnsFit (s.psirqm.suffixCache softirqs) (prevIndex softirqs prev) (contentCpus last)
        (contentCpus buf) ∧
      (softirqs.cpuListChanged = false →
        ∀ irqData, s.psirqm.irqDataCache.lookup irq = some irqData →
          (contentCpus buf).length ≤ irqData.zeroDelta.length) := by
  have hnow := hcurrHolds.cpus_eq hirq.2
  have hbefore := hprevHolds.cpus_eq hirq.1
  rw [← hnow, ← hbefore]
  -- by CPU if the object has not seen the first line, by index if it has
  cases hchanged : softirqs.cpuListChanged with
  | true => exact ⟨columnsFit_of_changed hchanged, fun hfalse => by cases hfalse⟩
  | false =>
    have hne : buf ≠ [] := by
      intro hnil
      rw [hnil] at hirq
      cases hirq.2
    have hline : firstLine newline buf = s.psirqm.currProcSoftirqs.cpuHeaderLine := by
      simpa using (haccepted.header hne).2.symm.trans hchanged
    obtain ⟨hcolumns, hzero⟩ := (hfits last hlast buf hbuf).same hline irq hirq.1 hirq.2
    rw [← hnow] at hzero
    rw [← hnow, ← hbefore] at hcolumns
    exact ⟨columnsFit_of_unchanged hchanged (h.suffix_of_unchanged haccepted hprev hchanged) hcolumns,
      fun _ => hzero⟩

theorem Inv.flip (h : Inv s) (hholds : Holds softirqs buf) {psirqm : ProcSoftirqsMetrics}
    (hprev : psirqm.prev = some softirqs) (hcurr : psirqm.curr = s.psirqm.prev)
    (hsuffix : ∀ list, psirqm.deltaMetricsSuffixCache = some list → list = cpus softirqs ∨
      ∃ prev, s.psirqm.prev = some prev ∧ list = cpus prev) : Inv ⟨psirqm, some buf⟩ := by
  refine ⟨fun hnone => (by cases hnone), ?_, ?_, ?_⟩
  · intro last hlast
    cases hlast
    exact ⟨softirqs, hprev, hholds⟩
  · intro curr hsome
    cases hlast : s.last with
    | none =>
      rw [hcurr, (h.first hlast).1] at hsome
      cases hsome
    | some last =>
      obtain ⟨prev, hsome', hprevHolds⟩ := h.prev last hlast
      rw [hcurr, hsome'] at hsome
      cases hsome
      exact ⟨last, hprevHolds⟩
  · intro list hlist
    rw [hcurr]
    rcases hsuffix list hlist with hcpus | hcpus
    · exact .inl ⟨softirqs, hprev, hcpus⟩
    · exact .inr hcpus

theorem Inv.execute (cfg : Config) (h : Inv s) (hparsed : Parsed s scan) (hfits : StepFits s scan) :
    ∃ out psirqm, SoftirqsMetrics.execute cfg s.psirqm scan = some (out, psirqm) ∧
      (∀ sample ∈ out.buf, sample.metric = .delta → ∃ last buf, s.last = some last ∧
        scan.softirqs = some buf ∧ IsDelta last buf sample) ∧
      Inv ⟨psirqm, scan.softirqs⟩ := by
  obtain ⟨buf, softirqs, hbuf, hparse⟩ := hparsed
  have haccepted := Softirqs.parse_spec h.currProcSoftirqs_ok hparse
  have hholds : Holds softirqs buf :=
    holds_of_accepted haccepted fun irq hnone => h.known hfits hbuf hnone
  simp only [SoftirqsMetrics.execute, hbuf, hparse]
  -- the first scan has nothing to compare with
  cases hlast : s.last with
  | none =>
    obtain ⟨hprev, hcurr⟩ := h.first hlast
    refine ⟨_, _, generateMetrics_first hprev, fun sample hsample => (by cases hsample),
      h.flip hholds rfl rfl ?_⟩
    intro list hlist
    rcases h.suffix list hlist with hsome | ⟨curr, hsome, -⟩
    · exact .inr hsome
    · rw [hcurr] at hsome
      cases hsome
  | some last =>
    obtain ⟨prev, hprev, hprevHolds⟩ := h.prev last hlast
    have hcolumns {irq : Bytes} (hirq : InBoth last buf irq) :=
      h.columnsFit hfits hlast hbuf haccepted hprev hholds hprevHolds hirq
    obtain ⟨out, irqDataCache, hmetrics, hdeltas⟩ := deltaMetrics_total cfg scan
      { s.psirqm with currTs := scan.timeNow } hholds hprevHolds (fun irq hirq => (hcolumns hirq).1)
      fun hchanged irq hirq => (hcolumns hirq).2 hchanged
    refine ⟨_, _, generateMetrics_next hprev hmetrics, ?_, h.flip hholds rfl rfl ?_⟩
    · intro sample hsample hmetric
      exact ⟨last, buf, rfl, rfl, hdeltas sample hsample hmetric⟩
    · intro list hlist
      cases hlist
      exact h.suffixCache_cpus haccepted hprev

end

/-- In a run whose changes all fit, no index is out of range and every delta is right. -/
theorem deltas_right_of_changes_fit (cfg : Config) {scans : List Scan}
    (h : Always (Steps cfg) (fun s scan => Parsed s scan ∧ StepFits s scan) .start scans) :
    Always (Steps cfg) (ScanOk cfg) .start scans := by
  refine Always.of_invariant (I := Inv) ?_ ?_ Inv.start h
  · intro s scan hinv ⟨hparsed, hfits⟩
    obtain ⟨out, psirqm, hexecute, hdeltas, -⟩ := Inv.execute cfg hinv hparsed hfits
    exact ⟨out, psirqm, hexecute, hdeltas⟩
  intro s scan s' hinv ⟨hparsed, hfits⟩ hstep
  obtain ⟨out, psirqm, hexecute, -, hinv'⟩ := Inv.execute cfg hinv hparsed hfits
  rw [Steps, nextState, hexecute] at hstep
  cases hstep
  exact hinv'

def isParsed (s : State) (scan : Scan) : Bool :=
  scan.softirqs.any fun buf =>
    (s.psirqm.currProcSoftirqs.parse buf).any fun result => result.2.isNone

theorem parsed_of_isParsed {s : State} {scan : Scan} (h : isParsed s scan) : Parsed s scan := by
  simp only [isParsed, any_eq_true, isNone_iff_eq_none] at h
  obtain ⟨buf, hbuf, ⟨softirqs, e⟩, hparse, rfl⟩ := h
  exact ⟨buf, softirqs, hbuf, hparse⟩

def scanOf (content : String) : Scan :=
  { softirqs := some (utf8 content), timeNow := 0, order := contentIrqs (utf8 content)
    cacheOrder := [], cycleNum := fun _ => 1 }

/-- A CPU goes and stays away. -/
theorem deltas_right_of_changes_fit_cpu_gone :
    Always (Steps ⟨15⟩) (ScanOk ⟨15⟩) .start
      [scanOf "CPU0 CPU1\nTIMER: 1 2\n", scanOf "CPU1\nTIMER: 5\n", scanOf "CPU1\nTIMER: 6\n",
        scanOf "CPU1\nTIMER: 6\n"] := by
  refine deltas_right_of_changes_fit ⟨15⟩ (Always.of_checkRun
    (fun s scan => isParsed s scan && decide (StepFits s scan)) ?_ ?_)
  · intro s scan h
    rw [Bool.and_eq_true, decide_eq_true_iff] at h
    exact ⟨parsed_of_isParsed h.1, h.2⟩
  · decide +kernel

def cpuBackScans : List Scan :=
  [scanOf "CPU0 CPU1\nTIMER: 1 2\n", scanOf "CPU0\nTIMER: 5\n", scanOf "CPU0 CPU1\nTIMER: 6 7\n"]

/-- The object that parses the third content has seen its first line before, and there is no second
column in the content before. -/
theorem cpu_back_out_of_range :
    Always (Steps ⟨15⟩) Parsed .start cpuBackScans ∧
      ¬ Always (Steps ⟨15⟩) (ScanOk ⟨15⟩) .start cpuBackScans := by
  constructor
  · exact Always.of_checkRun isParsed (fun _ _ h => parsed_of_isParsed h) (by decide +kernel)
  intro h
  have hruns := Always.foldlM_isSome (f := nextState ⟨15⟩) ?_ h
  · have hfails : (cpuBackScans.foldlM (nextState ⟨15⟩) .start).isSome = false := by
      decide +kernel
    rw [hfails] at hruns
    cases hruns
  · rintro s scan ⟨out, psirqm, hexecute, -⟩
    rw [nextState, hexecute]
    rfl

end Lsvmi.SoftirqsMetrics
