import Lsvmi.InterruptsMetrics.Deltas
import Lsvmi.Procfs.SoftirqsContent
import Lsvmi.SoftirqsMetrics.Generate

/-!
# The deltas of a scan

Where the columns that `generateMetrics` goes by are those of the two contents, no index is out of
range and every delta is the difference between the counters of one softirq and one CPU.
-/

namespace Lsvmi.SoftirqsMetrics

open Procfs Reasoning List
open InterruptsMetrics (IrqSample Out cpuIndex counterPart DeltaOf counterPart_deltas
  getElem?_of_cpuIndex)

variable {psirqm : ProcSoftirqsMetrics} {currCounters prevCounters : List UInt64}
  {suffixCache : List Int64} {state : Out × IrqDataCache} {index : Nat → Option Nat}
  {softirqs : Softirqs} {buf irq : Bytes}

def HasCounter (buf irq : Bytes) (cpu : Int64) (value : UInt64) : Prop :=
  ∃ (counters : List UInt64) (i : Nat), contentCounters buf irq = some counters ∧
    (contentCpus buf)[i]? = some cpu ∧ counters[i]? = some value

/-- The sample is the difference between the counters of one softirq and one CPU in the two
contents. -/
def IsDelta (before now : Bytes) (sample : IrqSample) : Prop :=
  ∃ irq cpu currCounter prevCounter, sample.labels = ([irq], some cpu) ∧
    HasCounter now irq cpu currCounter ∧ HasCounter before irq cpu prevCounter ∧
    sample.value = .uint (currCounter - prevCounter)

def InBoth (before now irq : Bytes) : Prop :=
  irq ∈ contentIrqs before ∧ irq ∈ contentIrqs now

structure Holds (softirqs : Softirqs) (buf : Bytes) : Prop where
  ok : softirqs.Ok
  header : buf ≠ [] → softirqs.cpuHeaderLine = firstLine newline buf
  counters : ∀ irq, (softirqs.counters.lookup irq).map CounterSlice.values = contentCounters buf irq
  found : ∀ irq, (softirqs.irqScanNum.lookup irq).isSome = (contentCounters buf irq).isSome
  columns : ∀ irq counters, contentCounters buf irq = some counters →
    counters.length = (contentCpus buf).length

theorem holds_of_accepted {before : Softirqs} (h : Softirqs.Accepted before buf softirqs)
    (hknown : ∀ irq, contentCounters buf irq = none →
      (before.irqScanNum.lookup irq).isSome ∨ before.counters.lookup irq = none) :
    Holds softirqs buf := by
  refine ⟨h.ok, fun hne => (h.header hne).1, fun irq => ?_, h.found, h.columns⟩
  rw [h.counters irq]
  cases hcontent : contentCounters buf irq with
  | some counters => rfl
  | none =>
    rcases hknown irq hcontent with hfound | hnone
    · rw [if_pos hfound]
      rfl
    · rw [hnone]
      simp

theorem cpus_of_ok (h : softirqs.Ok) : cpus softirqs = headerCpus softirqs.cpuHeaderLine := by
  unfold cpus
  rw [h.cpuList_eq, h.numCounters_eq]
  rcases cpuListOf_cases (headerCpus softirqs.cpuHeaderLine) with ⟨hnone, hrange⟩ | hsome
  · rw [hnone]
    exact hrange
  · rw [hsome]

theorem Holds.cpus_eq (h : Holds softirqs buf)
    (hirq : irq ∈ contentIrqs buf) : cpus softirqs = contentCpus buf := by
  have hne : buf ≠ [] := by
    intro hnil
    rw [hnil] at hirq
    cases hirq
  rw [cpus_of_ok h.ok, h.header hne]
  rfl

theorem Holds.numCounters_eq (h : Holds softirqs buf) (hirq : irq ∈ contentIrqs buf) :
    softirqs.numCounters = (contentCpus buf).length := by
  rw [h.ok.numCounters_eq, ← cpus_of_ok h.ok, h.cpus_eq hirq]

theorem Holds.of_lookup {counters : CounterSlice}
    (h : Holds softirqs buf) (hirq : softirqs.counters.lookup irq = some counters) :
    contentCounters buf irq = some counters.values ∧
      counters.values.length = (contentCpus buf).length := by
  have hcounters := h.counters irq
  rw [hirq, Option.map_some] at hcounters
  exact ⟨hcounters.symm, h.columns irq _ hcounters.symm⟩

/-- The cached CPUs are those of the columns `now`, and the index leads from a column to one of
`before` with the same CPU. -/
structure ColumnsFit (suffixCache : List Int64) (index : Nat → Option Nat) (before now : List Int64) :
    Prop where
  suffix : ∀ (i : Nat) cpu, now[i]? = some cpu → suffixCache[i]? = some cpu
  index : ∀ (i j : Nat) cpu, now[i]? = some cpu → index i = some j → before[j]? = some cpu

theorem ColumnsFit.isDelta {before now : Bytes} {ts : Int} {sample : IrqSample}
    (hfit : ColumnsFit suffixCache index (contentCpus before) (contentCpus now))
    (hcurr : contentCounters now irq = some currCounters)
    (hlength : currCounters.length = (contentCpus now).length)
    (hprev : contentCounters before irq = some prevCounters)
    (h : DeltaOf ts [irq] suffixCache index currCounters prevCounters sample) :
    IsDelta before now sample := by
  obtain ⟨currI, prevI, cpu, currCounter, prevCounter, hcurrVal, hprevI, hprevVal, hcpu, rfl⟩ := h
  have hlt : currI < (contentCpus now).length := by
    rw [← hlength]
    exact (List.getElem?_eq_some_iff.mp hcurrVal).1
  have hnow := List.getElem?_eq_getElem hlt
  have hsame := (hfit.suffix currI _ hnow).symm.trans hcpu
  rw [hsame] at hnow
  exact ⟨irq, cpu, currCounter, prevCounter, rfl, ⟨currCounters, currI, hcurr, hnow, hcurrVal⟩,
    ⟨prevCounters, prevI, hprev, hfit.index currI prevI cpu hnow hprevI, hprevVal⟩, rfl⟩

theorem counterPart_total (ts : Int) (labels : List Bytes) (full : Bool) {before now : List Int64}
    {zeroDelta : List Bool} (hfit : ColumnsFit suffixCache index before now)
    (hcurr : currCounters.length = now.length) (hprev : prevCounters.length = before.length)
    (hzero : now.length ≤ zeroDelta.length) :
    ∃ result, currCounters.zipIdx.foldlM
        (counterPart ts labels full suffixCache index prevCounters) ([], zeroDelta) =
          some result ∧
      now.length ≤ result.2.length := by
  refine foldlM_total (I := fun state : List IrqSample × List Bool => now.length ≤ state.2.length)
    _ hzero ?_
  intro state entry hentry hstate
  have hentry := List.mem_zipIdx_iff_getElem?.mp hentry
  have hlt : entry.2 < now.length := by
    rw [← hcurr]
    exact (List.getElem?_eq_some_iff.mp hentry).1
  have hnow := List.getElem?_eq_getElem hlt
  unfold counterPart
  cases hindex : index entry.2 with
  | none => exact ⟨state, rfl, hstate⟩
  | some prevI =>
    have hprevLt : prevI < prevCounters.length := by
      rw [hprev]
      exact (List.getElem?_eq_some_iff.mp (hfit.index _ _ _ hnow hindex)).1
    have hzeroLt : entry.2 < state.2.length := Nat.lt_of_lt_of_le hlt hstate
    have hsuffix := hfit.suffix _ _ hnow
    simp only [List.getElem?_eq_getElem hprevLt, List.getElem?_eq_getElem hzeroLt, hsuffix,
      bind, Option.bind_some]
    split
    all_goals exact ⟨_, rfl, by rw [List.length_set]; exact hstate⟩

theorem columnsFit_of_changed {curr prev : Softirqs} (hchanged : curr.cpuListChanged) :
    ColumnsFit (psirqm.suffixCache curr) (prevIndex curr prev) (cpus prev) (cpus curr) := by
  refine ⟨fun i cpu hcpu => ?_, fun i j cpu hcpu hj => ?_⟩
  · rw [ProcSoftirqsMetrics.suffixCache, if_pos hchanged]
    exact hcpu
  · rw [prevIndex, if_pos hchanged, currToPrevCounterIndex, hcpu] at hj
    exact getElem?_of_cpuIndex hj

/-- The columns that are matched by index fit when the cached CPUs are those of the current or of
the previous object, and the previous columns start with the current ones. -/
theorem columnsFit_of_unchanged {curr prev : Softirqs} (hchanged : curr.cpuListChanged = false)
    (hcache : ∀ list, psirqm.deltaMetricsSuffixCache = some list →
      list = cpus curr ∨ list = cpus prev) (hsame : cpus curr <+: cpus prev) :
    ColumnsFit (psirqm.suffixCache curr) (prevIndex curr prev) (cpus prev) (cpus curr) := by
  have hprev : ∀ (i : Nat) cpu, (cpus curr)[i]? = some cpu → (cpus prev)[i]? = some cpu := by
    intro i cpu hcpu
    obtain ⟨rest, hrest⟩ := hsame
    rw [← hrest, List.getElem?_append_left (List.getElem?_eq_some_iff.mp hcpu).1]
    exact hcpu
  refine ⟨fun i cpu hcpu => ?_, fun i j cpu hcpu hj => ?_⟩
  · rw [ProcSoftirqsMetrics.suffixCache, hchanged, if_neg (by decide)]
    cases hlist : psirqm.deltaMetricsSuffixCache with
    | none => exact hcpu
    | some list =>
      rw [Option.getD_some]
      rcases hcache list hlist with rfl | rfl
      · exact hcpu
      · exact hprev i cpu hcpu
  · rw [prevIndex, hchanged, if_neg (by decide)] at hj
    cases hj
    exact hprev i cpu hcpu

section

variable {cfg : Config} {scan : Scan} {ts : Int} {curr prev : Softirqs} {before now : Bytes}
  {suffixCache : List Int64}

/-- The part of the state that the loop depends on: the deltas are right, and there is a zero delta
for every counter if they are not made anew. -/
structure LoopOk (curr : Softirqs) (before now : Bytes) (state : Out × IrqDataCache) : Prop where
  deltas : ∀ sample ∈ state.1.buf, sample.metric = .delta → IsDelta before now sample
  zeroDelta : curr.cpuListChanged = false → ∀ irq, InBoth before now irq →
    ∀ irqData, state.2.lookup irq = some irqData →
      (contentCpus now).length ≤ irqData.zeroDelta.length

theorem irqPart_total (hcurr : Holds curr now) (hprev : Holds prev before)
    (hfit : ∀ irq, InBoth before now irq → ColumnsFit suffixCache (prevIndex curr prev)
      (contentCpus before) (contentCpus now)) (hstate : LoopOk curr before now state) (irq : Bytes) :
    ∃ state', irqPart cfg scan ts curr prev suffixCache state irq = some state' ∧
      LoopOk curr before now state' := by
  unfold irqPart
  cases hcurrIrq : curr.counters.lookup irq with
  | none => exact ⟨state, rfl, hstate⟩
  | some currCounters =>
    cases hprevIrq : prev.counters.lookup irq with
    | none => exact ⟨state, rfl, hstate⟩
    | some prevCounters =>
      obtain ⟨hnow, hnowLength⟩ := hcurr.of_lookup hcurrIrq
      obtain ⟨hbefore, hbeforeLength⟩ := hprev.of_lookup hprevIrq
      have hboth : InBoth before now irq := by
        constructor
        · rw [← contentCounters_isSome_iff, hbefore]
          rfl
        · rw [← contentCounters_isSome_iff, hnow]
          rfl
      have hnum := hcurr.numCounters_eq hboth.2
      have hcolumns := hfit irq hboth
      -- the zero deltas of the softirq, new or from the cache
      have hzero : (contentCpus now).length ≤
          (if curr.cpuListChanged then replicate curr.numCounters false
            else (updateIrqData cfg (scan.cycleNum irq) curr.numCounters
              (state.2.lookup irq)).zeroDelta).length := by
        cases hchanged : curr.cpuListChanged with
        | true => simp [hnum]
        | false =>
          cases hentry : state.2.lookup irq with
          | none => simp [updateIrqData, hnum]
          | some irqData => exact hstate.zeroDelta hchanged irq hboth irqData hentry
      obtain ⟨⟨deltas, zeroDelta⟩, hloop, hlength⟩ :=
        counterPart_total ts [irq] (fullMetrics (state.2.lookup irq)) hcolumns hnowLength
          hbeforeLength hzero
      simp only [hloop, bind, Option.bind_some]
      refine ⟨_, rfl, fun sample hsample hmetric => ?_, fun hchanged irq' hirq' irqData hirqData => ?_⟩
      · simp only [Output.emit, mem_append] at hsample
        rcases hsample with hold | hdelta | hinfo
        · exact hstate.deltas sample hold hmetric
        · exact hcolumns.isDelta hnow hnowLength hbefore (counterPart_deltas hloop sample hdelta)
        · split at hinfo
          · obtain rfl := mem_singleton.mp hinfo
            cases hmetric
          · cases hinfo
      · by_cases hsame : irq' = irq
        · subst hsame
          rw [Finmap.lookup_insert] at hirqData
          cases hirqData
          exact hlength
        · rw [Finmap.lookup_insert_of_ne _ hsame] at hirqData
          exact hstate.zeroDelta hchanged irq' hirq' irqData hirqData

theorem cleanUp_deltas {sample : IrqSample}
    (hmetric : sample.metric = .delta) (h : sample ∈ (cleanUp scan ts curr state).1.buf) :
    sample ∈ state.1.buf := by
  unfold cleanUp at h
  split at h
  · rcases mem_append.mp h with h | h
    · exact h
    obtain ⟨irq, -, hsome⟩ := mem_filterMap.mp h
    split at hsome
    · split at hsome
      · cases hsome
        cases hmetric
      · cases hsome
    · cases hsome
  · exact h

theorem deltaMetrics_total (cfg : Config) (scan : Scan) (psirqm : ProcSoftirqsMetrics)
    (hcurr : Holds curr now) (hprev : Holds prev before)
    (hfit : ∀ irq, InBoth before now irq → ColumnsFit (psirqm.suffixCache curr)
      (prevIndex curr prev) (contentCpus before) (contentCpus now))
    (hzero : curr.cpuListChanged = false → ∀ irq, InBoth before now irq →
      ∀ irqData, psirqm.irqDataCache.lookup irq = some irqData →
        (contentCpus now).length ≤ irqData.zeroDelta.length) :
    ∃ out irqDataCache, deltaMetrics cfg scan psirqm curr prev = some (out, { psirqm with
        irqDataCache, deltaMetricsSuffixCache := some (psirqm.suffixCache curr) }) ∧
      ∀ sample ∈ out.buf, sample.metric = .delta → IsDelta before now sample := by
  have hstart : LoopOk curr before now (Output.empty, psirqm.irqDataCache) :=
    ⟨fun sample hsample => (by cases hsample), hzero⟩
  obtain ⟨state, hloop, hstate⟩ := foldlM_total (f := irqPart cfg scan (unixMilli psirqm.currTs)
    curr prev (psirqm.suffixCache curr)) scan.order hstart
    fun state irq _ h => irqPart_total hcurr hprev hfit h irq
  refine ⟨_, _, by simp only [deltaMetrics, hloop]; rfl, fun sample hsample hmetric => ?_⟩
  rcases mem_append.mp hsample with hsample | hsample
  · exact hstate.deltas sample (cleanUp_deltas hmetric hsample) hmetric
  · obtain rfl := mem_singleton.mp hsample
    cases hmetric

def totalMetricsCount (curr : Softirqs) : Nat :=
  curr.counters.keys.card * (curr.numCounters + 1) + 1

theorem generateMetrics_first (hprev : psirqm.prev = none) :
    generateMetrics cfg scan psirqm curr = some (Output.count .empty (totalMetricsCount curr),
      { psirqm with curr := some curr }.flip) := by
  cases psirqm
  cases hprev
  rfl

theorem generateMetrics_next {psirqm' : ProcSoftirqsMetrics} {out : Out}
    (hprev : psirqm.prev = some prev)
    (h : deltaMetrics cfg scan psirqm curr prev = some (out, psirqm')) :
    generateMetrics cfg scan psirqm curr = some (out.count (totalMetricsCount curr),
      { psirqm' with curr := some curr }.flip) := by
  rw [generateMetrics, hprev]
  simp only [h]
  rfl

end

end Lsvmi.SoftirqsMetrics
