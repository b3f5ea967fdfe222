import Mathlib.Algebra.BigOperators.Ring.Finset
import Lsvmi.CycleNum
import Lsvmi.Reasoning.Runs
import Lsvmi.StatMetrics.Generate

/-!
# The counts of the /proc/stat metrics

The total has the metrics of the CPUs and of `all`, but not those of the averages.  Whether it bounds
the number of metrics for every full metrics factor depends on the CPUs of the scans only.
-/

namespace Lsvmi.StatMetrics

open Procfs Reasoning Finset List

variable {samples : List StatSample} {entry : Option CpuInfo}

abbrev CpuMap := Finmap fun _ : Int64 => CpuStats

structure CpuPopulation extends Population Int64 CpuStats where
  maxNumCpus : Nat

def CpuPopulation.start : CpuPopulation := { Population.start with maxNumCpus := 1 }

def CpuPopulation.next (pop : CpuPopulation) (scan : Scan) : CpuPopulation :=
  { pop.toPopulation.next (fun n m => decide (n > m)) scan.procStat.cpu with
    maxNumCpus := max pop.maxNumCpus scan.procStat.numCpus }

def CpuPopulation.gone (pop : CpuPopulation) (scan : Scan) : Finset Int64 :=
  pop.toPopulation.gone (fun n m => decide (n > m)) scan.procStat.cpu

/-- No CPU is gone. -/
def Unchanged (prev : Option CpuMap) (curr : CpuMap) : Prop :=
  ∀ p, prev = some p → p.keys ⊆ curr.keys

def CountBounded (f : Int) (psm : ProcStatMetrics) (scan : Scan) : Prop :=
  Unchanged (psm.prev.map Stat.cpu) scan.procStat.cpu →
    (generateMetrics f psm scan).1.actualMetricsCount ≤
      (generateMetrics f psm scan).1.totalMetricsCount

def cpuMetrics (numCpus : Nat) (cpus : Finset Int64) : Nat :=
  (cpus.card + if statCpuAll ∈ cpus ∧ numCpus > 0 then 1 else 0) * 11

/-- The CPUs of the previous scan, with the averages and one metric for each CPU that is removed
late, are at most the most CPUs that were found and `all`. -/
def CpuPopulation.Fits (pop : CpuPopulation) (scan : Scan) : Prop :=
  Unchanged pop.prev scan.procStat.cpu →
    (pop.prev.elim 0 fun p => cpuMetrics scan.procStat.numCpus p.keys) + (pop.gone scan).card +
        (if statCpuAll ∈ pop.gone scan then 1 else 0) ≤
      (max pop.maxNumCpus scan.procStat.numCpus + 1) * 11

def CpuPopulation.Visits (pop : CpuPopulation) (scan : Scan) : Prop :=
  pop.toPopulation.Visits scan.procStat.cpu scan.order scan.removeOrder

section

variable {f : Int} {scan : Scan} {ts elapsed : Int} {prev : Stat} {cpu : Int64}

theorem cpuPart_isSome (f : Int) (scan : Scan) (ts elapsed : Int) (prev : Stat) (cpu : Int64)
    (entry : Option CpuInfo) :
    (cpuPart f scan ts elapsed prev cpu entry).isSome ↔
      cpu ∈ scan.procStat.cpu ∧ cpu ∈ prev.cpu := by
  unfold cpuPart
  rw [← Finmap.lookup_isSome, ← Finmap.lookup_isSome]
  cases scan.procStat.cpu.lookup cpu <;> cases prev.cpu.lookup cpu <;> simp

theorem length_with_avg (numCpus : Nat) (cpu : Int64) (sample avg : StatSample) :
    (sample :: if hasAvg numCpus cpu then [avg] else []).length =
      1 + (hasAvg numCpus cpu).toNat := by
  cases hasAvg numCpus cpu <;> rfl

theorem pcpuPart_length (ts elapsed : Int) (numCpus : Nat) (cpu : Int64) (fullMetrics : Bool)
    (curr prev : CpuStats) (zeroPcpu : Nat → Bool) (index : Nat) :
    (pcpuPart ts elapsed numCpus cpu fullMetrics curr prev zeroPcpu index).1.length ≤
        1 + (hasAvg numCpus cpu).toNat ∧
      (fullMetrics →
        (pcpuPart ts elapsed numCpus cpu fullMetrics curr prev zeroPcpu index).1.length =
          1 + (hasAvg numCpus cpu).toNat) := by
  unfold pcpuPart
  simp only
  split
  · rw [length_with_avg]
    exact ⟨Nat.le_refl _, fun _ => rfl⟩
  · rename_i hdue
    refine ⟨Nat.zero_le _, fun hfull => absurd ?_ hdue⟩
    rw [hfull, Bool.or_true, Bool.true_or]

theorem cpuPart_length {cpuInfo : CpuInfo}
    (h : cpuPart f scan ts elapsed prev cpu entry = some (samples, cpuInfo)) :
    samples.length ≤ 11 * (1 + (hasAvg scan.procStat.numCpus cpu).toNat) ∧
      ((entry.all fun cpuInfo => cpuInfo.cycleNum == 0) = true →
        samples.length = 11 * (1 + (hasAvg scan.procStat.numCpus cpu).toNat)) := by
  unfold cpuPart at h
  split at h
  · rename_i curr prev' _ _
    cases h
    rw [length_append]
    generalize (entry.all fun cpuInfo => cpuInfo.cycleNum == 0) = fullMetrics
    have hparts := pcpuPart_length ts elapsed scan.procStat.numCpus cpu fullMetrics curr prev'
      (entry.getD ⟨initialCycleNum (scan.cycleNum cpu) f, fun _ => false⟩).zeroPcpu
    have hup : (upPart ts scan.procStat.numCpus cpu).length = _ := length_with_avg _ _ _ _
    constructor
    · have hle := length_flatMap_le (l := range statCpuNumStats) fun index _ => (hparts index).1
      have hite := length_ite_le (fullMetrics) (upPart ts scan.procStat.numCpus cpu)
      rw [length_range, statCpuNumStats] at hle
      rw [hup] at hite
      simp only [statCpuNumStats] at *
      omega
    · intro hfull
      have heq := length_flatMap_eq (l := range statCpuNumStats)
        fun index _ => (hparts index).2 hfull
      rw [length_range, statCpuNumStats] at heq
      simp only [statCpuNumStats] at *
      rw [heq, if_pos hfull, hup]
      omega
  · cases h

theorem cpuPart_cycleNum {cpuInfo : CpuInfo}
    (hf : f ≤ 1) (hentry : ∀ cpuInfo, entry = some cpuInfo → cpuInfo.cycleNum = 0)
    (h : cpuPart f scan ts elapsed prev cpu entry = some (samples, cpuInfo)) :
    cpuInfo.cycleNum = 0 := by
  unfold cpuPart at h
  split at h
  · cases h
    show nextCycleNum (entry.getD _).cycleNum f = 0
    have hzero : (entry.getD
        ⟨initialCycleNum (scan.cycleNum cpu) f, fun _ => false⟩).cycleNum = 0 := by
      cases entry with
      | none => exact initialCycleNum_of_le_one hf _
      | some cpuInfo => exact hentry cpuInfo rfl
    rw [hzero, nextCycleNum_of_le_one hf]
  · cases h

theorem sum_hasAvg (numCpus : Nat) (cpus : Finset Int64) :
    ∑ cpu ∈ cpus, 11 * (1 + (hasAvg numCpus cpu).toNat) = cpuMetrics numCpus cpus := by
  have havg : ∀ cpu ∈ cpus, (hasAvg numCpus cpu).toNat =
      if cpu = statCpuAll then (if numCpus > 0 then 1 else 0) else 0 := by
    intro cpu _
    unfold hasAvg
    by_cases hcpu : cpu = statCpuAll <;> by_cases hnum : numCpus > 0 <;> simp [hcpu, hnum]
  rw [← mul_sum, sum_add_distrib, sum_congr rfl havg, sum_ite_eq',
    sum_const_nat fun _ _ => rfl, cpuMetrics, Nat.mul_one, Nat.mul_comm, ← ite_and]

theorem otherPart_length (psm : ProcStatMetrics) (scan : Scan) (ts elapsed : Int) (prev : Stat) :
    (otherPart psm scan ts elapsed prev).length ≤ 11 ∧
      (psm.otherCycleNum = 0 → (otherPart psm scan ts elapsed prev).length = 11) := by
  unfold otherPart
  simp only [length_append, length_singleton]
  constructor
  · have hdeltas : (deltaIndexes.flatMap fun index => deltaPart ts
        (psm.btime.isNone || psm.otherCycleNum == 0) scan.procStat prev psm.otherZeroDelta
        index).length ≤ 6 * 1 := length_flatMap_le fun index _ => length_ite_le _ _
    have hvalues : (valueIndexes.flatMap fun index => valuePart ts
        (psm.btime.isNone || psm.otherCycleNum == 0) scan.procStat prev index).length ≤ 2 * 1 :=
      length_flatMap_le fun index _ => length_ite_le _ _
    show _ ≤ 6 * 1 + 2 * 1 + 2 + 1
    exact Nat.add_le_add (Nat.add_le_add (Nat.add_le_add hdeltas hvalues) (length_ite_le _ _))
      (Nat.le_refl 1)
  · intro hcycle
    simp [deltaIndexes, valueIndexes, deltaPart, valuePart, hcycle]

end

structure Follows (f : Int) (psm : ProcStatMetrics) (pop : CpuPopulation) : Prop where
  prev_eq : psm.prev.map Stat.cpu = pop.prev
  keys_eq : psm.cpuInfo.keys = pop.entries
  first : pop.prev = none → pop.entries = ∅
  max_eq : psm.maxNumCpus = pop.maxNumCpus
  total_eq : psm.totalMetricsCount = totalFor psm.maxNumCpus
  full : f ≤ 1 → psm.otherCycleNum = 0 ∧
    ∀ cpu cpuInfo, psm.cpuInfo.lookup cpu = some cpuInfo → cpuInfo.cycleNum = 0

theorem start_follows (f cycleNum : Int) : Follows f (newProcStatMetrics f cycleNum) .start where
  prev_eq := rfl
  keys_eq := rfl
  first := fun _ => rfl
  max_eq := rfl
  total_eq := rfl
  full := fun hf => ⟨initialCycleNum_of_le_one hf _, fun cpu cpuInfo h => by cases h⟩

section

variable {f : Int} {psm : ProcStatMetrics} {pop : CpuPopulation} {scan : Scan} {prev : Stat}

theorem Follows.countCpus (h : Follows f psm pop) (numCpus : Nat) :
    Follows f (psm.countCpus numCpus) { pop with maxNumCpus := max pop.maxNumCpus numCpus } := by
  unfold ProcStatMetrics.countCpus
  split
  · rename_i hmore
    refine ⟨h.prev_eq, h.keys_eq, h.first, ?_, rfl, h.full⟩
    show numCpus = max pop.maxNumCpus numCpus
    rw [← h.max_eq]
    omega
  · rename_i hmore
    refine ⟨h.prev_eq, h.keys_eq, h.first, ?_, h.total_eq, h.full⟩
    show psm.maxNumCpus = max pop.maxNumCpus numCpus
    rw [← h.max_eq]
    omega

def visitCpus (f : Int) (psm : ProcStatMetrics) (scan : Scan) (prev : Stat) :
    List StatSample × CpuInfoMap :=
  scan.order.foldl (visit (cpuPart f scan (unixMilli scan.timeNow) (scan.timeNow - psm.prevTs) prev))
    ([], psm.cpuInfo)

section

variable (h : Follows f psm pop)
include h

theorem Follows.prev_of_some (hprev : psm.prev = some prev) : pop.prev = some prev.cpu := by
  rw [← h.prev_eq, hprev]
  rfl

theorem Follows.keys_visitCpus (hvisits : pop.Visits scan) (hprev : psm.prev = some prev) :
    (visitCpus f psm scan prev).2.keys = pop.made scan.procStat.cpu :=
  hvisits.keys_made (h.prev_of_some hprev) h.keys_eq (cpuPart_isSome f scan _ _ prev) []

theorem Follows.deltas_count (hvisits : pop.Visits scan) (hprev : psm.prev = some prev) :
    (psm.deltas f scan prev).1.actualMetricsCount =
      ∑ cpu ∈ scan.procStat.cpu.keys ∩ prev.cpu.keys, (written (cpuPart f scan
        (unixMilli scan.timeNow) (scan.timeNow - psm.prevTs) prev) psm.cpuInfo cpu).length +
      ((pop.gone scan).card + if statCpuAll ∈ pop.gone scan then 1 else 0) +
      (otherPart psm scan (unixMilli scan.timeNow) (scan.timeNow - psm.prevTs) prev).length := by
  have hmade := h.keys_visitCpus hvisits hprev
  obtain ⟨hnodup, hgone⟩ := hvisits.goneKeys_eq (h.prev_of_some hprev) (fun n m => decide (n > m)) hmade
  have hwritten : (visitCpus f psm scan prev).1.length = _ :=
    hvisits.length_written (cpuPart_isSome f scan _ _ prev)
  have hlength : ∀ cpu, (downPart (unixMilli scan.timeNow) cpu).length =
      1 + if cpu = statCpuAll then 1 else 0 := by
    intro cpu
    unfold downPart
    split <;> rfl
  have hdown := length_flatMap_of_nodup hnodup (downPart (unixMilli scan.timeNow))
  rw [hgone, sum_congr rfl fun cpu _ => hlength cpu, sum_add_distrib,
    sum_ite_eq', sum_const_nat fun _ _ => rfl, Nat.mul_one] at hdown
  rw [← hwritten]
  unfold CpuPopulation.gone
  rw [← hdown]
  simp only [ProcStatMetrics.deltas, Output.emit, Output.empty, Nat.zero_add]
  rfl

theorem Follows.written_length {cpu : Int64} (hmem : cpu ∈ scan.procStat.cpu.keys ∩ prev.cpu.keys)
    (ts elapsed : Int) :
    (written (cpuPart f scan ts elapsed prev) psm.cpuInfo cpu).length ≤
        11 * (1 + (hasAvg scan.procStat.numCpus cpu).toNat) ∧
      (f ≤ 1 → (written (cpuPart f scan ts elapsed prev) psm.cpuInfo cpu).length =
        11 * (1 + (hasAvg scan.procStat.numCpus cpu).toNat)) := by
  rw [mem_inter, Finmap.mem_keys, Finmap.mem_keys] at hmem
  obtain ⟨⟨samples, cpuInfo⟩, hpart⟩ := Option.isSome_iff_exists.mp
    ((cpuPart_isSome f scan ts elapsed prev cpu (psm.cpuInfo.lookup cpu)).mpr hmem)
  have hlength := cpuPart_length hpart
  rw [written, hpart]
  refine ⟨hlength.1, fun hf => hlength.2 ?_⟩
  cases hentry : psm.cpuInfo.lookup cpu with
  | none => rfl
  | some cpuInfo => exact beq_iff_eq.mpr ((h.full hf).2 cpu cpuInfo hentry)

theorem Follows.step (hvisits : pop.Visits scan) :
    Follows f (generateMetrics f psm scan).2 (pop.next scan) := by
  have hcount := h.countCpus scan.procStat.numCpus
  unfold generateMetrics
  generalize psm.countCpus scan.procStat.numCpus = psm' at hcount ⊢
  simp only
  cases hprev : psm'.prev with
  | none =>
    have hpop := hcount.prev_eq
    rw [hprev] at hpop
    have hentries := hcount.first hpop.symm
    refine ⟨rfl, ?_, fun hnone => ?_, hcount.max_eq, hcount.total_eq, hcount.full⟩
    · show psm'.cpuInfo.keys = pop.made _ \ pop.gone scan
      rw [hcount.keys_eq, Population.made_first hpop.symm hentries, empty_sdiff]
      exact hentries
    · cases hnone
  | some prev =>
    have hmade := hcount.keys_visitCpus hvisits hprev
    refine ⟨rfl, keys_dropGone (fun n m => decide (n > m)) hmade, fun hnone => ?_, hcount.max_eq,
      hcount.total_eq, fun hf => ?_⟩
    · cases hnone
    obtain ⟨hother, hcpus⟩ := hcount.full hf
    constructor
    · show nextCycleNum psm'.otherCycleNum f = 0
      rw [hother, nextCycleNum_of_le_one hf]
    · intro cpu cpuInfo hinfo
      refine foldl_visit_invariant (P := fun cpuInfo => cpuInfo.cycleNum = 0) hcpus ?_
        (lookup_of_dropGone hinfo)
      exact fun k e out v he hv => cpuPart_cycleNum hf he hv

theorem Follows.deltas_bound (hvisits : pop.Visits scan) (hprev : psm.prev = some prev)
    (hsub : prev.cpu.keys ⊆ scan.procStat.cpu.keys) :
    (psm.deltas f scan prev).1.actualMetricsCount ≤
        cpuMetrics scan.procStat.numCpus prev.cpu.keys + (pop.gone scan).card +
          (if statCpuAll ∈ pop.gone scan then 1 else 0) + 11 ∧
      (f ≤ 1 → (psm.deltas f scan prev).1.actualMetricsCount =
        cpuMetrics scan.procStat.numCpus prev.cpu.keys + (pop.gone scan).card +
          (if statCpuAll ∈ pop.gone scan then 1 else 0) + 11) := by
  have hother := otherPart_length psm scan (unixMilli scan.timeNow) (scan.timeNow - psm.prevTs) prev
  have hlength : ∀ cpu ∈ prev.cpu.keys, _ := fun cpu hcpu =>
    h.written_length (mem_inter.mpr ⟨hsub hcpu, hcpu⟩) (unixMilli scan.timeNow)
      (scan.timeNow - psm.prevTs)
  rw [h.deltas_count hvisits hprev, inter_eq_right.mpr hsub, ← sum_hasAvg]
  constructor
  · have hsum := sum_le_sum fun cpu hcpu => (hlength cpu hcpu).1
    have hother := hother.1
    omega
  · intro hf
    have hother := hother.2 (h.full hf).1
    rw [sum_congr rfl fun cpu hcpu => (hlength cpu hcpu).2 hf, hother]
    omega

end

theorem totalFor_eq (maxNumCpus : Nat) : totalFor maxNumCpus = (maxNumCpus + 1) * 11 + 11 := rfl

theorem Follows.countBounded (h : Follows f psm pop) (hvisits : pop.Visits scan) :
    (pop.Fits scan → CountBounded f psm scan) ∧
      (f ≤ 1 → CountBounded f psm scan → pop.Fits scan) := by
  unfold CpuPopulation.Fits CountBounded
  rw [h.prev_eq]
  have hcount := h.countCpus scan.procStat.numCpus
  have htotal := hcount.total_eq
  rw [hcount.max_eq, totalFor_eq] at htotal
  unfold generateMetrics
  generalize psm.countCpus scan.procStat.numCpus = psm' at hcount htotal ⊢
  have hpop : psm'.prev.map Stat.cpu = pop.prev := hcount.prev_eq
  simp only [Output.count]
  cases hprev : psm'.prev with
  | none =>
    rw [hprev, Option.map_none] at hpop
    have hgone : pop.gone scan ⊆ ∅ := by
      rw [← Population.made_first hpop.symm (hcount.first hpop.symm) scan.procStat.cpu]
      exact Population.gone_subset _ _ _
    refine ⟨fun _ _ => Nat.zero_le _, fun _ _ _ => ?_⟩
    rw [subset_empty.mp hgone, ← hpop]
    exact Nat.zero_le _
  | some prev =>
    rw [show pop.prev = some prev.cpu from hcount.prev_of_some hprev, htotal]
    -- what the population asks for
    let need := cpuMetrics scan.procStat.numCpus prev.cpu.keys + (pop.gone scan).card +
      if statCpuAll ∈ pop.gone scan then 1 else 0
    have hbound (hunchanged : Unchanged (some prev.cpu) scan.procStat.cpu) :
        (psm'.deltas f scan prev).1.actualMetricsCount ≤ need + 11 ∧
          (f ≤ 1 → (psm'.deltas f scan prev).1.actualMetricsCount = need + 11) :=
      hcount.deltas_bound hvisits hprev (hunchanged prev.cpu rfl)
    refine ⟨fun hfits hunchanged => ?_, fun hf hbounded hunchanged => ?_⟩
    · have hle := (hbound hunchanged).1
      have hneed : need ≤ (max pop.maxNumCpus scan.procStat.numCpus + 1) * 11 := hfits hunchanged
      show (psm'.deltas f scan prev).1.actualMetricsCount ≤
        0 + ((max pop.maxNumCpus scan.procStat.numCpus + 1) * 11 + 11)
      omega
    · have heq := (hbound hunchanged).2 hf
      have hle : (psm'.deltas f scan prev).1.actualMetricsCount ≤
        0 + ((max pop.maxNumCpus scan.procStat.numCpus + 1) * 11 + 11) := hbounded hunchanged
      show need ≤ (max pop.maxNumCpus scan.procStat.numCpus + 1) * 11
      omega

end

theorem counts_bounded_iff (cycleNum : Int) (scans : List Scan)
    (hvisits : Always (fun pop scan pop' => pop.next scan = pop') CpuPopulation.Visits .start scans) :
    (∀ f, Always (fun psm scan psm' => (generateMetrics f psm scan).2 = psm') (CountBounded f)
        (newProcStatMetrics f cycleNum) scans) ↔
      Always (fun pop scan pop' => pop.next scan = pop') CpuPopulation.Fits .start scans := by
  -- all metrics are due at every scan with the factor 1
  apply Always.forall_iff 1 (R := Follows) _ _ _ (fun f => start_follows f cycleNum) hvisits
  · exact fun f psm pop scan h hvisit => h.step hvisit
  · exact fun f psm pop scan h hvisit => (h.countBounded hvisit).1
  · exact fun psm pop scan h hvisit => (h.countBounded hvisit).2 (Int.le_refl 1)

end Lsvmi.StatMetrics
