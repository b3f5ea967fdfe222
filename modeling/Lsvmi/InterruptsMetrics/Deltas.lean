import Lsvmi.InterruptsMetrics.Generate
import Lsvmi.Procfs.InterruptsContent
import Lsvmi.Reasoning.Runs

/-!
# The deltas of a scan

Where the deltas that `generateMetrics` publishes come from, and that they are the differences
between two contents if the objects hold these.
-/

namespace Lsvmi.InterruptsMetrics

open Procfs Reasoning List Option

variable {interrupts : Interrupts} {list : List Int64} {i : Nat} {cpu : Int64}

def counter [UnicodeUpper] (content : InterruptsContent) (irq : Bytes) (cpu : Int64) : Option UInt64 :=
  (content.counters irq).bind fun counters => (cpuIndex content.cpus cpu).bind (counters[·]?)

/-- The sample is the difference between the counters of one IRQ and one CPU in the two contents. -/
def IsDelta [UnicodeUpper] (before now : InterruptsContent) (sample : IrqSample) : Prop :=
  ∃ irq dev cpu currCounter prevCounter, sample.labels = ([irq, dev], some cpu) ∧
    counter now irq cpu = some currCounter ∧ counter before irq cpu = some prevCounter ∧
    sample.value = .uint (currCounter - prevCounter)

theorem cpus_of_hasCpus (h : interrupts.HasCpus list) : cpus interrupts = list := by
  unfold cpus
  rw [h.cpuList_eq, h.numCounters_eq]
  rcases cpuListOf_cases list with ⟨hnone, hrange⟩ | hsome
  · rw [hnone]
    exact hrange
  · rw [hsome]

theorem getElem?_of_cpuIndex (h : cpuIndex list cpu = some i) : list[i]? = some cpu := by
  obtain ⟨before, after, heq, -⟩ := lookup_eq_some_iff.mp h
  have hmem : (cpu, i) ∈ list.zipIdx := mem_reverse.mp (by rw [heq]; simp)
  exact mem_zipIdx_iff_getElem?.mp hmem

theorem cpuIndex_getElem? (hnodup : list.Nodup)
    (h : list[i]? = some cpu) : cpuIndex list cpu = some i := by
  have hmem : (cpu, i) ∈ list.zipIdx.reverse :=
    List.mem_reverse.mpr (List.mem_zipIdx_iff_getElem?.mpr h)
  cases hindex : cpuIndex list cpu with
  | none => exact absurd (List.lookup_eq_none_iff.mp hindex _ hmem) (by simp)
  | some j =>
    have hj := getElem?_of_cpuIndex hindex
    obtain ⟨hjlt, hjval⟩ := List.getElem?_eq_some_iff.mp hj
    obtain ⟨hilt, hival⟩ := List.getElem?_eq_some_iff.mp h
    rw [(hnodup.getElem_inj_iff).mp (hjval.trans hival.symm)]

def DeltaOf (ts : Int) (labels : List Bytes) (suffixCache : List Int64)
    (prevIndex : Nat → Option Nat) (currCounters prevCounters : List UInt64) (sample : IrqSample) :
    Prop :=
  ∃ currI prevI cpu currCounter prevCounter, currCounters[currI]? = some currCounter ∧
    prevIndex currI = some prevI ∧ prevCounters[prevI]? = some prevCounter ∧
    suffixCache[currI]? = some cpu ∧
    sample = ⟨.delta, (labels, some cpu), .uint (currCounter - prevCounter), ts⟩

theorem counterPart_deltas {ts : Int} {labels : List Bytes} {full : Bool} {suffixCache : List Int64}
    {prevIndex : Nat → Option Nat} {currCounters prevCounters : List UInt64} {zeroDelta : List Bool}
    {result : List IrqSample × List Bool} (h : currCounters.zipIdx.foldlM
      (counterPart ts labels full suffixCache prevIndex prevCounters) ([], zeroDelta) =
        some result) :
    ∀ sample ∈ result.1,
      DeltaOf ts labels suffixCache prevIndex currCounters prevCounters sample := by
  refine foldlM_invariant (I := fun state => ∀ sample ∈ state.1,
    DeltaOf ts labels suffixCache prevIndex currCounters prevCounters sample) h nofun ?_
  intro state entry hentry state' hstate hstep
  have hcurr := mem_zipIdx_iff_getElem?.mp hentry
  unfold counterPart at hstep
  split at hstep
  · cases hstep
    exact hstate
  rename_i prevI hprevI
  simp only [bind, bind_eq_some_iff] at hstep
  obtain ⟨prevCounter, hprev, wasZero, -, samples, hsamples, hresult⟩ := hstep
  cases hresult
  intro sample hsample
  rcases mem_append.mp hsample with hold | hnew
  · exact hstate sample hold
  split at hsamples
  · obtain ⟨cpu, hcpu, rfl⟩ := map_eq_some_iff.mp hsamples
    obtain rfl := mem_singleton.mp hnew
    exact ⟨entry.2, prevI, cpu, entry.1, prevCounter, hcurr, hprevI, hprev, hcpu, rfl⟩
  · cases hsamples
    cases hnew

def DeltaIn (ts : Int) (suffixCache : List Int64) (prevIndex : Nat → Option Nat)
    (curr prev : Interrupts) (sample : IrqSample) : Prop :=
  ∃ irq dev currCounters prevCounters, curr.counters.lookup irq = some currCounters ∧
    prev.counters.lookup irq = some prevCounters ∧
    DeltaOf ts [irq, dev] suffixCache prevIndex currCounters.values prevCounters.values sample

section

variable {cfg : Config} {scan : Scan} {ts : Int} {curr prev : Interrupts} {info : InterruptsInfo}
  {suffixCache : List Int64} {prevIndex : Nat → Option Nat}

theorem annulled_metric (irq : Bytes) (irqInfo : InterruptsIrqInfo)
    (entry : Option ProcInterruptsMetricsIrqData) :
    ∀ sample ∈ annulled ts irq irqInfo entry, sample.metric = .info := by
  unfold annulled
  split
  · simp
  · split <;> simp [infoSample]

theorem irqPart_deltas {state state' : Out × IrqDataCache} {irq : Bytes}
    (h : irqPart cfg scan ts curr prev info suffixCache prevIndex state irq = some state') :
    ∀ sample ∈ state'.1.buf, sample.metric = .delta →
      sample ∈ state.1.buf ∨ DeltaIn ts suffixCache prevIndex curr prev sample := by
  intro sample hsample hmetric
  unfold irqPart at h
  split at h
  · rename_i currCounters prevCounters hcurr hprev
    simp only [bind, bind_eq_some_iff] at h
    obtain ⟨irqInfo, -, ⟨deltas, zeroDelta⟩, hdeltas, hresult⟩ := h
    cases hresult
    simp only [Output.emit, mem_append] at hsample
    rcases hsample with hold | hdelta | hinfo
    · exact .inl hold
    · exact .inr ⟨irq, _, currCounters, prevCounters, hcurr, hprev,
        counterPart_deltas hdeltas sample hdelta⟩
    split at hinfo
    · rcases mem_append.mp hinfo with hinfo | hinfo
      · rw [annulled_metric _ _ _ sample hinfo] at hmetric
        cases hmetric
      · obtain rfl := mem_singleton.mp hinfo
        cases hmetric
    · cases hinfo
  · cases h
    exact .inl hsample

theorem cleanUp_deltas {state : Out × IrqDataCache} {sample : IrqSample}
    (hmetric : sample.metric = .delta) (h : sample ∈ (cleanUp scan ts curr info state).1.buf) :
    sample ∈ state.1.buf := by
  unfold cleanUp at h
  split at h
  · rcases mem_append.mp h with h | h
    · exact h
    obtain ⟨irq, -, hsome⟩ := mem_filterMap.mp h
    split at hsome
    · split at hsome
      · cases hsome
        cases hmetric
      · cases hsome
    · cases hsome
  · exact h

variable {pim pim' : ProcInterruptsMetrics} {out : Out}

theorem deltaMetrics_deltas (h : deltaMetrics cfg scan pim curr prev = some (out, pim')) :
    ∀ sample ∈ out.buf, sample.metric = .delta → DeltaIn (unixMilli pim.currTs)
      (pim.suffixCache curr) (pim.prevIndex curr prev) curr prev sample := by
  obtain ⟨state, hloop, hresult⟩ := bind_eq_some_iff.mp h
  cases hresult
  intro sample hsample hmetric
  have hloopDeltas : ∀ sample ∈ state.1.buf, sample.metric = .delta →
      DeltaIn (unixMilli pim.currTs) (pim.suffixCache curr) (pim.prevIndex curr prev) curr prev
        sample := by
    refine foldlM_invariant (I := fun state : Out × IrqDataCache => ∀ sample ∈ state.1.buf,
      sample.metric = .delta → DeltaIn (unixMilli pim.currTs) (pim.suffixCache curr)
        (pim.prevIndex curr prev) curr prev sample) hloop nofun ?_
    intro state irq _ state' hstate hstep sample hsample hmetric
    rcases irqPart_deltas hstep sample hsample hmetric with hold | hnew
    · exact hstate sample hold hmetric
    · exact hnew
  rcases mem_append.mp hsample with hsample | hsample
  · exact hloopDeltas sample (cleanUp_deltas hmetric hsample) hmetric
  · obtain rfl := mem_singleton.mp hsample
    cases hmetric

structure Generated (pim : ProcInterruptsMetrics) (curr : Interrupts) (out : Out)
    (pim' : ProcInterruptsMetrics) : Prop where
  curr_eq : pim'.curr = pim.prev
  prev_eq : pim'.prev = some curr
  info_eq : pim'.info = pim.info
  first : pim.prev = none →
    out.buf = [] ∧ pim'.deltaMetricsSuffixCache = pim.deltaMetricsSuffixCache
  next : ∀ prev, pim.prev = some prev →
    pim'.deltaMetricsSuffixCache = some (pim.suffixCache curr) ∧
    ∀ sample ∈ out.buf, sample.metric = .delta → DeltaIn (unixMilli pim.currTs)
      (pim.suffixCache curr) (pim.prevIndex curr prev) curr prev sample

theorem generateMetrics_generated (h : generateMetrics cfg scan pim curr = some (out, pim')) :
    Generated pim curr out pim' := by
  unfold generateMetrics at h
  obtain ⟨⟨out₁, pim₁⟩, hmetrics, hresult⟩ := map_eq_some_iff.mp h
  cases hresult
  cases hprev : pim.prev with
  | none =>
    rw [hprev] at hmetrics
    cases hmetrics
    refine ⟨rfl, rfl, rfl, fun _ => ⟨rfl, rfl⟩, ?_⟩
    intro prev hsome
    rw [hprev] at hsome
    cases hsome
  | some prev =>
    rw [hprev] at hmetrics
    have hdeltas := deltaMetrics_deltas hmetrics
    obtain ⟨state, -, hstate⟩ := bind_eq_some_iff.mp hmetrics
    cases hstate
    refine ⟨rfl, rfl, rfl, ?_, ?_⟩
    · intro hnone
      rw [hprev] at hnone
      cases hnone
    · intro prev' hprev'
      rw [hprev] at hprev'
      cases hprev'
      exact ⟨rfl, hdeltas⟩

end

theorem counter_of_getElem? [UnicodeUpper] {content : InterruptsContent} (hholds : interrupts.Holds content)
    (hnodup : content.cpus.Nodup) {irq : Bytes} {counters : CounterSlice}
    (hirq : interrupts.counters.lookup irq = some counters) {value : UInt64}
    (hcpu : content.cpus[i]? = some cpu) (hvalue : counters.values[i]? = some value) :
    counter content irq cpu = some value := by
  have hcounters := hholds.counters_eq irq
  rw [hirq, map_some] at hcounters
  rw [counter, ← hcounters, bind_some, cpuIndex_getElem? hnodup hcpu, bind_some, hvalue]

theorem isDelta_of_holds [UnicodeUpper] {pim : ProcInterruptsMetrics} {curr prev : Interrupts}
    {before now : InterruptsContent} (hcurr : curr.Holds now) (hprev : prev.Holds before)
    (hnow : now.cpus.Nodup) (hbefore : before.cpus.Nodup) (hsuffix : pim.suffixCache curr = now.cpus)
    (hsame : pim.info.cpuListChanged = false → before.cpus = now.cpus) {sample : IrqSample}
    (h : DeltaIn (unixMilli pim.currTs) (pim.suffixCache curr) (pim.prevIndex curr prev) curr prev
      sample) : IsDelta before now sample := by
  obtain ⟨irq, dev, currCounters, prevCounters, hcurrIrq, hprevIrq, currI, prevI, cpu, currCounter,
    prevCounter, hcurrVal, hprevI, hprevVal, hcpu, rfl⟩ := h
  rw [hsuffix] at hcpu
  have hprevCpu : before.cpus[prevI]? = some cpu := by
    unfold ProcInterruptsMetrics.prevIndex at hprevI
    split at hprevI
    · rw [currToPrevCounterIndex, cpus_of_hasCpus hcurr.hasCpus, hcpu, bind_some,
        cpus_of_hasCpus hprev.hasCpus] at hprevI
      exact getElem?_of_cpuIndex hprevI
    · rename_i hchanged
      cases hprevI
      rw [hsame (by simpa using hchanged)]
      exact hcpu
  exact ⟨irq, dev, cpu, currCounter, prevCounter, rfl,
    counter_of_getElem? hcurr hnow hcurrIrq hcpu hcurrVal,
    counter_of_getElem? hprev hbefore hprevIrq hprevCpu hprevVal, rfl⟩

end Lsvmi.InterruptsMetrics
