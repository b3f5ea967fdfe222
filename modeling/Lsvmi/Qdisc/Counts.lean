import Lsvmi.CycleNum
import Lsvmi.Qdisc.Generate
import Lsvmi.Reasoning.Runs

/-!
# The counts of the qdisc metrics

The total is computed at the second scan and kept.  Whether it bounds the number of metrics for every
full metrics factor depends on the qdiscs of the scans only.
-/

namespace Lsvmi.Qdisc

open Reasoning Output Option Finset Finmap

variable {entry : Option QdiscMetricsInfo} {samples : List QdiscSample}

/-- What the counts depend on. -/
structure QdiscPopulation extends Population QdiscInfoKey QdiscInfo where
  /-- the number of qdiscs when the total was computed -/
  counted : Option Nat

def QdiscPopulation.start : QdiscPopulation := { Population.start with counted := none }

def QdiscPopulation.next (pop : QdiscPopulation) (scan : Scan) : QdiscPopulation :=
  { pop.toPopulation.next (· != ·) scan.info with
    counted := if pop.prev.isSome then some (pop.counted.getD scan.info.keys.card) else pop.counted }

/-- No qdisc is gone and none has other labels. -/
def Unchanged (prev : Option Info) (curr : Info) : Prop :=
  ∀ p, prev = some p → p.keys ⊆ curr.keys ∧ ∀ qiKey currQi prevQi,
    curr.lookup qiKey = some currQi → p.lookup qiKey = some prevQi →
      labelsChanged currQi prevQi = false

def CountBounded (f : Int) (qm : QdiscMetrics) (scan : Scan) : Prop :=
  Unchanged qm.prev scan.info →
    (generateMetrics f qm scan).1.actualMetricsCount ≤ (generateMetrics f qm scan).1.totalMetricsCount

/-- The qdiscs of the previous scan, with one more metric for each qdisc that is removed late, are at
most the ones that were counted. -/
def QdiscPopulation.Fits (pop : QdiscPopulation) (scan : Scan) : Prop :=
  Unchanged pop.prev scan.info →
    (pop.prev.elim 0 fun p => p.keys.card) * 11 + (pop.gone (· != ·) scan.info).card ≤
      pop.counted.getD scan.info.keys.card * 11

def QdiscPopulation.Visits (pop : QdiscPopulation) (scan : Scan) : Prop :=
  pop.toPopulation.Visits scan.info scan.order scan.removeOrder

section

variable {f : Int} {scan : Scan} {ts elapsed : Int} {prev : Info} {qiKey : QdiscInfoKey}

theorem qdiscPart_isSome (f : Int) (scan : Scan) (ts elapsed : Int) (prev : Info)
    (qiKey : QdiscInfoKey) (entry : Option QdiscMetricsInfo) :
    (qdiscPart f scan ts elapsed prev qiKey entry).isSome ↔
      qiKey ∈ scan.info ∧ qiKey ∈ prev := by
  unfold qdiscPart
  rw [← lookup_isSome, ← lookup_isSome]
  cases scan.info.lookup qiKey <;> cases prev.lookup qiKey <;> simp

theorem qdiscPart_length {currQi prevQi : QdiscInfo} {qmi : QdiscMetricsInfo}
    (hcurr : scan.info.lookup qiKey = some currQi) (hprev : prev.lookup qiKey = some prevQi)
    (hlabels : labelsChanged currQi prevQi = false)
    (h : qdiscPart f scan ts elapsed prev qiKey entry = some (samples, qmi)) :
    samples.length ≤ 11 ∧
      ((entry.all fun qmi => qmi.cycleNum == 0) = true → samples.length = 11) := by
  unfold qdiscPart at h
  rw [hcurr, hprev] at h
  have hnone : (entry.filter fun _ => labelsChanged currQi prevQi) = none := by
    cases entry <;> simp [hlabels]
  have hsame : (entry.filter fun _ => !labelsChanged currQi prevQi) = entry := by
    cases entry <;> simp [hlabels]
  simp only [hnone, hsame, some.injEq, Prod.mk.injEq] at h
  obtain ⟨rfl, -⟩ := h
  simp only [toList_none, List.map_nil, List.nil_append, List.length_append]
  generalize (entry.all fun qmi => qmi.cycleNum == 0) = fullMetrics
  generalize entry.getD (newQdiscMetricsInfo f (scan.cycleNum qiKey) currQi) = qmi
  constructor
  · have huint32Deltas : (uint32Deltas.flatMap (uint32DeltaPart ts qmi.labels fullMetrics currQi prevQi
        qmi.uint32ZeroDelta)).length ≤ 4 * 1 := length_flatMap_le fun i _ => length_ite_le _ _
    have huint32Values : (uint32Values.flatMap
        (uint32Part ts qmi.labels fullMetrics currQi prevQi)).length ≤ 2 * 1 :=
      length_flatMap_le fun i _ => length_ite_le _ _
    have huint64Deltas : (uint64Deltas.flatMap (uint64DeltaPart ts elapsed qmi.labels fullMetrics currQi
        prevQi qmi.uint64ZeroDelta)).length ≤ 4 * 1 := length_flatMap_le fun i _ => length_ite_le _ _
    have huint64Values : (uint64Values.flatMap
        (uint64Part ts qmi.labels fullMetrics currQi prevQi)).length ≤ 0 * 1 :=
      length_flatMap_le fun i _ => length_ite_le _ _
    have hpresent := length_ite_le (fullMetrics)
      [(⟨.present, qmi.labels, .flag true, ts⟩ : QdiscSample)]
    rw [List.length_singleton] at hpresent
    omega
  · intro hfull
    simp [uint32DeltaPart, uint32Part, uint64DeltaPart, uint32Deltas, uint32Values, uint64Deltas,
      uint64Values, hfull]

theorem qdiscPart_cycleNum {qmi : QdiscMetricsInfo} (hf : f ≤ 1)
    (hentry : ∀ qmi, entry = some qmi → qmi.cycleNum = 0)
    (h : qdiscPart f scan ts elapsed prev qiKey entry = some (samples, qmi)) : qmi.cycleNum = 0 := by
  unfold qdiscPart at h
  split at h
  · rename_i currQi prevQi _ _
    cases h
    show nextCycleNum ((entry.filter fun _ => !labelsChanged currQi prevQi).getD _).cycleNum f = 0
    have hzero : ((entry.filter fun _ => !labelsChanged currQi prevQi).getD
        (newQdiscMetricsInfo f (scan.cycleNum qiKey) currQi)).cycleNum = 0 := by
      cases hfilter : entry.filter fun _ => !labelsChanged currQi prevQi with
      | none => exact initialCycleNum_of_le_one hf _
      | some qmi => exact hentry qmi (eq_some_of_filter_eq_some hfilter)
    rw [hzero, nextCycleNum_of_le_one hf]
  · cases h

end

section

variable {f : Int} {qm : QdiscMetrics} {pop : QdiscPopulation} {scan : Scan} {prev : Info}

structure Follows (f : Int) (qm : QdiscMetrics) (pop : QdiscPopulation) : Prop where
  prev_eq : qm.prev = pop.prev
  keys_eq : qm.qdiscMetricsInfoMap.keys = pop.entries
  first : pop.prev = none → pop.entries = ∅ ∧ pop.counted = none
  total_eq : qm.totalMetricsCount = pop.counted.elim 0 fun n => n * 11 + 1
  full : f ≤ 1 → ∀ qiKey qmi, qm.qdiscMetricsInfoMap.lookup qiKey = some qmi → qmi.cycleNum = 0

theorem start_follows (f : Int) : Follows f newQdiscMetrics .start where
  prev_eq := rfl
  keys_eq := rfl
  first := fun _ => ⟨rfl, rfl⟩
  total_eq := rfl
  full := fun _ qiKey qmi h => by cases h

def visitQdiscs (f : Int) (qm : QdiscMetrics) (scan : Scan) (prev : Info) :
    List QdiscSample × QdiscMetricsInfoMap :=
  scan.order.foldl (visit (qdiscPart f scan (unixMilli scan.timeNow) (scan.timeNow - qm.prevTs) prev))
    ([], qm.qdiscMetricsInfoMap)

variable (h : Follows f qm pop)
include h

theorem Follows.keys_visitQdiscs (hvisits : pop.Visits scan) (hprev : qm.prev = some prev) :
    (visitQdiscs f qm scan prev).2.keys = pop.made scan.info :=
  hvisits.keys_made (h.prev_eq.symm.trans hprev) h.keys_eq (qdiscPart_isSome f scan _ _ prev) []

theorem Follows.actual_eq (hvisits : pop.Visits scan) (hprev : qm.prev = some prev) :
    (generateMetrics f qm scan).1.actualMetricsCount =
      ∑ qiKey ∈ scan.info.keys ∩ prev.keys, (written (qdiscPart f scan (unixMilli scan.timeNow)
        (scan.timeNow - qm.prevTs) prev) qm.qdiscMetricsInfoMap qiKey).length +
      (pop.gone (· != ·) scan.info).card + 1 := by
  have hmade := h.keys_visitQdiscs hvisits hprev
  obtain ⟨hnodup, hgone⟩ := hvisits.goneKeys_eq (h.prev_eq.symm.trans hprev) (· != ·) hmade
  have hwritten : (visitQdiscs f qm scan prev).1.length = _ :=
    hvisits.length_written (qdiscPart_isSome f scan _ _ prev)
  have hdown : ((goneKeys _ scan.info scan.removeOrder).flatMap
      (gonePart (unixMilli scan.timeNow) (visitQdiscs f qm scan prev).2)).length = _ * 1 :=
    length_flatMap_eq fun qiKey hqiKey => by
      rw [← List.mem_toFinset, hgone] at hqiKey
      have hmem : qiKey ∈ (visitQdiscs f qm scan prev).2 := by
        rw [← mem_keys, hmade]
        exact Population.gone_subset _ _ _ hqiKey
      obtain ⟨qmi, hqmi⟩ := mem_iff.mp hmem
      rw [gonePart, hqmi]
      rfl
  rw [Nat.mul_one, ← List.toFinset_card_of_nodup hnodup, hgone] at hdown
  rw [← hwritten, ← hdown]
  simp only [generateMetrics, hprev, count, emit, empty, Nat.zero_add]
  rfl

theorem Follows.total_of_some (scan : Scan) (hprev : qm.prev = some prev) :
    (generateMetrics f qm scan).1.totalMetricsCount =
      pop.counted.getD scan.info.keys.card * 11 + 1 := by
  have htotal := h.total_eq
  simp only [generateMetrics, hprev, count, emit, empty, Nat.zero_add]
  cases hcounted : pop.counted with
  | none =>
    rw [hcounted, elim_none] at htotal
    rw [if_pos htotal]
    rfl
  | some n =>
    rw [hcounted, elim_some] at htotal
    rw [if_neg (by omega), htotal]
    rfl

theorem Follows.step (hvisits : pop.Visits scan) :
    Follows f (generateMetrics f qm scan).2 (pop.next scan) := by
  cases hprev : qm.prev with
  | none =>
    have hpop : pop.prev = none := h.prev_eq.symm.trans hprev
    obtain ⟨hentries, hcounted⟩ := h.first hpop
    have hkeys := h.keys_eq
    have htotal := h.total_eq
    rw [hentries] at hkeys
    simp only [generateMetrics, hprev]
    refine ⟨rfl, ?_, fun hnone => ?_, ?_, h.full⟩
    · show qm.qdiscMetricsInfoMap.keys = pop.made scan.info \ pop.gone _ scan.info
      rw [hkeys, Population.made_first hpop hentries, empty_sdiff]
    · cases hnone
    · show qm.totalMetricsCount = (if pop.prev.isSome then _ else pop.counted).elim 0 _
      rw [htotal, hpop]
      rfl
  | some prev =>
    have hpop : pop.prev = some prev := h.prev_eq.symm.trans hprev
    have htotal := h.total_of_some scan hprev
    have hmade := h.keys_visitQdiscs hvisits hprev
    simp only [generateMetrics, hprev, count, emit, empty, Nat.zero_add] at htotal ⊢
    refine ⟨rfl, keys_dropGone (· != ·) hmade, fun hnone => ?_, ?_, fun hf qiKey qmi hqmi => ?_⟩
    · cases hnone
    · show _ = (if pop.prev.isSome then _ else pop.counted).elim 0 _
      rw [htotal, hpop]
      rfl
    · refine foldl_visit_invariant (P := fun qmi => qmi.cycleNum = 0) (h.full hf) ?_
        (lookup_of_dropGone hqmi)
      exact fun k e out v he hv => qdiscPart_cycleNum hf he hv

theorem Follows.written_length (hprev : qm.prev = some prev)
    (hunchanged : Unchanged qm.prev scan.info) {qiKey : QdiscInfoKey}
    (hmem : qiKey ∈ scan.info.keys ∩ prev.keys) :
    (written (qdiscPart f scan (unixMilli scan.timeNow) (scan.timeNow - qm.prevTs) prev)
        qm.qdiscMetricsInfoMap qiKey).length ≤ 11 ∧
      (f ≤ 1 → (written (qdiscPart f scan (unixMilli scan.timeNow) (scan.timeNow - qm.prevTs) prev)
        qm.qdiscMetricsInfoMap qiKey).length = 11) := by
  rw [mem_inter, mem_keys, mem_keys] at hmem
  obtain ⟨currQi, hcurr⟩ := mem_iff.mp hmem.1
  obtain ⟨prevQi, hprevQi⟩ := mem_iff.mp hmem.2
  obtain ⟨⟨samples, qmi⟩, hpart⟩ := isSome_iff_exists.mp ((qdiscPart_isSome f scan
    (unixMilli scan.timeNow) (scan.timeNow - qm.prevTs) prev qiKey
    (qm.qdiscMetricsInfoMap.lookup qiKey)).mpr hmem)
  have hlength := qdiscPart_length hcurr hprevQi
    ((hunchanged prev hprev).2 qiKey currQi prevQi hcurr hprevQi) hpart
  rw [written, hpart]
  refine ⟨hlength.1, fun hf => hlength.2 ?_⟩
  cases hentry : qm.qdiscMetricsInfoMap.lookup qiKey with
  | none => rfl
  | some qmi => exact beq_iff_eq.mpr (h.full hf qiKey qmi hentry)

theorem Follows.countBounded (hvisits : pop.Visits scan) :
    (pop.Fits scan → CountBounded f qm scan) ∧ (f ≤ 1 → CountBounded f qm scan → pop.Fits scan) := by
  unfold QdiscPopulation.Fits CountBounded
  rw [← h.prev_eq]
  cases hprev : qm.prev with
  | none =>
    have hpop : pop.prev = none := h.prev_eq.symm.trans hprev
    have hgone := Population.gone_subset (· != ·) pop.toPopulation scan.info
    rw [Population.made_first hpop (h.first hpop).1, subset_empty] at hgone
    refine ⟨fun _ _ => ?_, fun _ _ _ => ?_⟩
    · simp only [generateMetrics, hprev]
      exact Nat.le_refl 0
    · rw [hgone, elim_none, card_empty, Nat.zero_mul]
      exact Nat.zero_le _
  | some prev =>
    rw [← hprev, h.actual_eq hvisits hprev, h.total_of_some scan hprev, hprev, elim_some, ← hprev]
    have hboth : Unchanged qm.prev scan.info → scan.info.keys ∩ prev.keys = prev.keys :=
      fun hunchanged => inter_eq_right.mpr (hunchanged prev hprev).1
    refine ⟨fun hfits hunchanged => ?_, fun hf hbounded hunchanged => ?_⟩
    · have hfits := hfits hunchanged
      have hsum := (sum_le_sum fun qiKey hqiKey =>
        (h.written_length hprev hunchanged hqiKey).1).trans_eq (sum_const_nat fun _ _ => rfl)
      rw [hboth hunchanged] at hsum
      rw [hboth hunchanged]
      omega
    · have hbounded := hbounded hunchanged
      have hsum := sum_const_nat fun qiKey hqiKey =>
        (h.written_length hprev hunchanged hqiKey).2 hf
      rw [hboth hunchanged] at hsum
      rw [hboth hunchanged] at hbounded
      omega

end

theorem counts_bounded_iff (scans : List Scan)
    (hvisits : Always (fun pop scan pop' => pop.next scan = pop') QdiscPopulation.Visits .start scans) :
    (∀ f, Always (fun qm scan qm' => (generateMetrics f qm scan).2 = qm') (CountBounded f)
        newQdiscMetrics scans) ↔
      Always (fun pop scan pop' => pop.next scan = pop') QdiscPopulation.Fits .start scans := by
  -- all metrics are due at every scan with the factor 1
  apply Always.forall_iff 1 (R := Follows) _ _ _ start_follows hvisits
  · exact fun f qm pop scan h hvisit => h.step hvisit
  · exact fun f qm pop scan h hvisit => (h.countBounded hvisit).1
  · exact fun qm pop scan h hvisit => (h.countBounded hvisit).2 (Int.le_refl 1)

end Lsvmi.Qdisc
