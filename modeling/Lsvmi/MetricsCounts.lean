import Lsvmi.Qdisc.Counts
import Lsvmi.StatMetrics.Counts

/-!
# Actual and total metrics counts

The total that `generateMetrics` returns is meant to be the most metrics that a scan can have.  The
generators for /proc/stat and for the qdiscs are compared with it here.
-/

namespace Lsvmi

open Reasoning

/-- Over the runs of both generators, the counts are bounded by the totals for every full metrics
factor if and only if the populations of the scans fit. -/
theorem counts_bounded_iff_fits (cycleNum : Int) {statScans : List StatMetrics.Scan}
    (hstat : Always (fun pop scan pop' => pop.next scan = pop') StatMetrics.CpuPopulation.Visits
      .start statScans) {qdiscScans : List Qdisc.Scan}
    (hqdisc : Always (fun pop scan pop' => pop.next scan = pop') Qdisc.QdiscPopulation.Visits
      .start qdiscScans) :
    ((∀ f, Always (fun psm scan psm' => (StatMetrics.generateMetrics f psm scan).2 = psm')
        (StatMetrics.CountBounded f) (StatMetrics.newProcStatMetrics f cycleNum) statScans) ↔
      Always (fun pop scan pop' => pop.next scan = pop') StatMetrics.CpuPopulation.Fits .start
        statScans) ∧
    ((∀ f, Always (fun qm scan qm' => (Qdisc.generateMetrics f qm scan).2 = qm')
        (Qdisc.CountBounded f) Qdisc.newQdiscMetrics qdiscScans) ↔
      Always (fun pop scan pop' => pop.next scan = pop') Qdisc.QdiscPopulation.Fits .start
        qdiscScans) :=
  ⟨StatMetrics.counts_bounded_iff cycleNum statScans hstat,
    Qdisc.counts_bounded_iff qdiscScans hqdisc⟩

def cpuScan (cpus entries : List Int64) : StatMetrics.Scan :=
  let found := Procfs.statCpuAll :: cpus
  { procStat :=
      { Procfs.newStat with
        cpu := found.foldl (fun m cpu => m.insert cpu (.replicate _ 0)) ∅, numCpus := cpus.length }
    timeNow := 0, sinceNow := 0, order := found, removeOrder := Procfs.statCpuAll :: entries
    cycleNum := fun _ => 0 }

def qdiscScan (handles entries : List UInt32) : Qdisc.Scan :=
  let key (handle : UInt32) : Qdisc.QdiscInfoKey := ⟨1, handle⟩
  { info := handles.foldl (fun m handle => m.insert (key handle) (.new (utf8 "eth0"))) ∅
    timeNow := 0, order := handles.map key, removeOrder := entries.map key, cycleNum := fun _ => 0 }

/-- With a CPU that is added at the second scan, and with a qdisc that stays, the totals are large
enough. -/
theorem counts_bounded_cpu_added :
    (∀ f, Always (fun psm scan psm' => (StatMetrics.generateMetrics f psm scan).2 = psm')
      (StatMetrics.CountBounded f) (StatMetrics.newProcStatMetrics f 0)
      [cpuScan [0] [], cpuScan [0, 1] [0]]) ∧
    ∀ f, Always (fun qm scan qm' => (Qdisc.generateMetrics f qm scan).2 = qm')
      (Qdisc.CountBounded f) Qdisc.newQdiscMetrics [qdiscScan [1] [], qdiscScan [1] [1]] := by
  have hstat : Always (fun pop scan pop' => pop.next scan = pop')
      StatMetrics.CpuPopulation.Visits .start [cpuScan [0] [], cpuScan [0, 1] [0]] := by
    refine ⟨⟨by decide, by decide +kernel, by decide, fun h => by cases h⟩, ?_⟩
    rintro _ rfl
    exact ⟨⟨by decide, by decide +kernel, by decide, fun _ => by decide +kernel⟩,
      fun _ _ => trivial⟩
  have hqdisc : Always (fun pop scan pop' => pop.next scan = pop')
      Qdisc.QdiscPopulation.Visits .start [qdiscScan [1] [], qdiscScan [1] [1]] := by
    refine ⟨⟨by decide, by decide +kernel, by decide, fun h => by cases h⟩, ?_⟩
    rintro _ rfl
    exact ⟨⟨by decide, by decide +kernel, by decide, fun _ => by decide +kernel⟩,
      fun _ _ => trivial⟩
  have hiff := counts_bounded_iff_fits 0 hstat hqdisc
  constructor
  · refine hiff.1.mpr ⟨fun _ => by decide +kernel, ?_⟩
    rintro _ rfl
    exact ⟨fun _ => by decide +kernel, fun _ _ => trivial⟩
  · refine hiff.2.mpr ⟨fun _ => by decide +kernel, ?_⟩
    rintro _ rfl
    exact ⟨fun _ => by decide +kernel, fun _ _ => trivial⟩

/-- The second scan of the same CPU has 44 metrics, and the total is 33.  A qdisc that is added at the
third scan is not in the total. -/
theorem counts_exceed_total :
    (¬ ∀ (f cycleNum : Int) (scans : List StatMetrics.Scan),
      Always (fun pop scan pop' => pop.next scan = pop') StatMetrics.CpuPopulation.Visits .start scans →
        Always (fun psm scan psm' => (StatMetrics.generateMetrics f psm scan).2 = psm')
          (StatMetrics.CountBounded f) (StatMetrics.newProcStatMetrics f cycleNum) scans) ∧
    ¬ ∀ (f : Int) (scans : List Qdisc.Scan),
      Always (fun pop scan pop' => pop.next scan = pop') Qdisc.QdiscPopulation.Visits .start scans →
        Always (fun qm scan qm' => (Qdisc.generateMetrics f qm scan).2 = qm') (Qdisc.CountBounded f)
          Qdisc.newQdiscMetrics scans := by
  constructor
  · intro h
    have hvisits : Always (fun pop scan pop' => pop.next scan = pop')
        StatMetrics.CpuPopulation.Visits .start [cpuScan [0] [], cpuScan [0] [0]] := by
      refine ⟨⟨by decide, by decide +kernel, by decide, fun h => by cases h⟩, ?_⟩
      rintro _ rfl
      exact ⟨⟨by decide, by decide +kernel, by decide, fun _ => by decide +kernel⟩, fun _ _ => trivial⟩
    have hcount := ((h 1 0 _ hvisits).2 _ rfl).1 fun p hp => by
      cases hp
      exact Finset.Subset.refl _
    exact absurd hcount (by decide +kernel)
  · intro h
    have hvisits : Always (fun pop scan pop' => pop.next scan = pop')
        Qdisc.QdiscPopulation.Visits .start
        [qdiscScan [1] [], qdiscScan [1] [1], qdiscScan [1, 2] [1], qdiscScan [1, 2] [1, 2]] := by
      refine ⟨⟨by decide, by decide +kernel, by decide, fun h => by cases h⟩, ?_⟩
      rintro _ rfl
      refine ⟨⟨by decide, by decide +kernel, by decide, fun _ => by decide +kernel⟩, ?_⟩
      rintro _ rfl
      refine ⟨⟨by decide, by decide +kernel, by decide, fun _ => by decide +kernel⟩, ?_⟩
      rintro _ rfl
      exact ⟨⟨by decide, by decide +kernel, by decide, fun _ => by decide +kernel⟩, fun _ _ => trivial⟩
    have hcount := ((((((h 1 _ hvisits).2 _ rfl).2 _ rfl).2 _ rfl)).1 fun p hp => by
      cases hp
      refine ⟨Finset.Subset.refl _, fun qiKey currQi prevQi hcurr hprev => ?_⟩
      rw [Option.some.inj (hcurr.symm.trans hprev)]
      simp [Qdisc.labelsChanged])
    exact absurd hcount (by decide +kernel)

open Qdisc

/-- The range loops visit the maps in another order. -/
structure Qdisc.Scan.Reordered (scan scan' : Scan) : Prop where
  nodup : scan.order.Nodup
  order : scan.order.Perm scan'.order
  removeOrder : scan.removeOrder.Perm scan'.removeOrder
  rest : scan' = { scan with order := scan'.order, removeOrder := scan'.removeOrder }

theorem generateMetrics_reordered {scan scan' : Scan} (h : scan.Reordered scan') (f : Int)
    (qm : QdiscMetrics) : (generateMetrics f qm scan).2 = (generateMetrics f qm scan').2 ∧
      (generateMetrics f qm scan).1.buf.Perm (generateMetrics f qm scan').1.buf := by
  rw [h.rest]
  unfold generateMetrics
  cases qm.prev with
  | none => exact ⟨rfl, .refl _⟩
  | some prev =>
    obtain ⟨hbuf, hinfos⟩ := foldl_visit_perm h.nodup h.order ([], qm.qdiscMetricsInfoMap)
      (f := qdiscPart f scan (unixMilli scan.timeNow) (scan.timeNow - qm.prevTs) prev)
    simp only [hinfos]
    exact ⟨rfl, (hbuf.append ((goneKeys_perm _ _ h.removeOrder).flatMap_right _)).append_right _⟩

/-- What a run publishes at its end is the same up to the order of the lines, in whatever order its
range loops visit the maps.  The initial cycle number of a qdisc is given with the scan, though: the
counter that it comes from hands out its values in the order of the visits. -/
theorem qdisc_metrics_reordered (f : Int) (qm : QdiscMetrics) (scans scans' : List Scan)
    (h : scans.Forall₂ Scan.Reordered scans') {scan scan' : Scan} (hscan : scan.Reordered scan') :
    let next := fun qm scan => (generateMetrics f qm scan).2
    (generateMetrics f (scans.foldl next qm) scan).1.buf.Perm
      (generateMetrics f (scans'.foldl next qm) scan').1.buf := by
  intro next
  induction h generalizing qm with
  | nil => exact (generateMetrics_reordered hscan f qm).2
  | @cons a b _ _ hfirst _ ih =>
    have hnext : next qm a = next qm b := (generateMetrics_reordered hfirst f qm).1
    rw [List.foldl_cons, List.foldl_cons, hnext]
    exact ih _

theorem qdisc_metrics_reordered_two_qdiscs :
    let scan := qdiscScan [1, 2] []
    let scan' := { scan with order := scan.order.reverse }
    (generateMetrics 1 (generateMetrics 1 newQdiscMetrics scan).2 scan).1.buf.Perm
      (generateMetrics 1 (generateMetrics 1 newQdiscMetrics scan').2 scan').1.buf := by
  intro scan scan'
  have h : scan.Reordered scan' := ⟨by decide, scan.order.reverse_perm.symm, .refl _, rfl⟩
  exact qdisc_metrics_reordered 1 newQdiscMetrics [scan] [scan'] (.cons h .nil) h

end Lsvmi
