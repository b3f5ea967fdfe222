import Lsvmi.InterruptsMetrics.Deltas
import Lsvmi.SoftirqsMetrics.Generate

/-!
# `updateCpuList`

The generators of the interrupts and the softirqs metrics keep the CPU of each column and match the
columns of two scans by CPU.  Both have the same loops over the CPU lists of the two objects; no list
means that the CPUs are the numbers of the columns.
-/

namespace Lsvmi

open Procfs Reasoning List
open InterruptsMetrics (ProcInterruptsMetrics newProcInterruptsMetrics cpuIndex
  getElem?_of_cpuIndex cpuIndex_getElem?)
open SoftirqsMetrics (ProcSoftirqsMetrics newProcSoftirqsMetrics)

def counterCpus (cpuList : Option (List Int64)) (numCounters : Nat) : List (Int64 × Nat) :=
  match cpuList with
  | none => (List.range numCounters).map fun i => (Int64.ofNat i, i)
  | some cpuList => cpuList.zipIdx

abbrev CounterIndexMap := Finmap fun _ : Nat => Nat

def prevCpuNumToCounterIndexMap (prev : List (Int64 × Nat)) : Finmap fun _ : Int64 => Nat :=
  prev.foldl (fun m entry => m.insert entry.1 entry.2) ∅

def currToPrevCounterIndexMap (prevMap : Finmap fun _ : Int64 => Nat) (curr : List (Int64 × Nat)) :
    CounterIndexMap :=
  curr.foldl (fun m entry => match prevMap.lookup entry.1 with
    | some prevI => m.insert entry.2 prevI
    | none => m) ∅

/-- The map that is returned, and the CPUs of the suffix cache. -/
def updateCpuList (currCpuList : Option (List Int64)) (currNumCounters : Nat)
    (prevCpuList : Option (List Int64)) (prevNumCounters : Nat) : CounterIndexMap × List Int64 :=
  let curr := counterCpus currCpuList currNumCounters
  let prev := counterCpus prevCpuList prevNumCounters
  (currToPrevCounterIndexMap (prevCpuNumToCounterIndexMap prev) curr, curr.map Prod.fst)

def InterruptsMetrics.ProcInterruptsMetrics.updateCpuList (pim : ProcInterruptsMetrics)
    (curr prev : Interrupts) : CounterIndexMap × ProcInterruptsMetrics :=
  let (indexMap, suffixCache) :=
    Lsvmi.updateCpuList curr.cpuList curr.numCounters prev.cpuList prev.numCounters
  (indexMap, { pim with deltaMetricsSuffixCache := some suffixCache })

def SoftirqsMetrics.ProcSoftirqsMetrics.updateCpuList (psirqm : ProcSoftirqsMetrics)
    (curr prev : Softirqs) : CounterIndexMap × ProcSoftirqsMetrics :=
  let (indexMap, suffixCache) :=
    Lsvmi.updateCpuList curr.cpuList curr.numCounters prev.cpuList prev.numCounters
  (indexMap, { psirqm with deltaMetricsSuffixCache := some suffixCache })

def Represents (cpuList : Option (List Int64)) (numCounters : Nat) (cpus : List Int64) : Prop :=
  match cpuList with
  | none => (List.range numCounters).map Int64.ofNat = cpus
  | some cpuList => cpuList = cpus

variable {cpuList cpuList' : Option (List Int64)} {numCounters numCounters' : Nat}
  {cpus prevCpus : List Int64}

theorem Represents.counterCpus_eq (h : Represents cpuList numCounters cpus) :
    counterCpus cpuList numCounters = cpus.zipIdx := by
  cases cpuList with
  | none =>
    cases h
    apply ext_getElem?
    intro i
    by_cases hi : i < numCounters <;> simp [counterCpus, hi]
  | some cpuList =>
    cases h
    rfl

theorem lookup_prevCpuNumToCounterIndexMap (prevCpus : List Int64) (cpu : Int64) :
    (prevCpuNumToCounterIndexMap prevCpus.zipIdx).lookup cpu = cpuIndex prevCpus cpu := by
  rw [prevCpuNumToCounterIndexMap, lookup_foldl_insert, Finmap.lookup_empty, Option.or_none,
    replay_eq_lookup, cpuIndex]

theorem lookup_currToPrevCounterIndexMap (prevMap : Finmap fun _ : Int64 => Nat)
    (cpus : List Int64) (i : Nat) :
    (currToPrevCounterIndexMap prevMap cpus.zipIdx).lookup i = cpus[i]?.bind prevMap.lookup := by
  induction cpus using reverseRecOn with
  | nil => rfl
  | append_singleton cpus cpu ih =>
    -- the last CPU is entered for its own index only
    have hconcat : (cpus ++ [cpu]).zipIdx = cpus.zipIdx ++ [(cpu, cpus.length)] := by
      simp [zipIdx_append]
    rw [currToPrevCounterIndexMap] at ih ⊢
    rw [hconcat, foldl_append, foldl_cons, foldl_nil]
    by_cases hi : i = cpus.length
    · subst hi
      have hnone : cpus[cpus.length]? = none := getElem?_eq_none (Nat.le_refl _)
      rw [hnone, Option.bind_none] at ih
      cases hprev : prevMap.lookup cpu with
      | none => simpa [hprev] using ih
      | some prevI => simp [hprev]
    · have hget : (cpus ++ [cpu])[i]? = cpus[i]? := by
        rcases Nat.lt_or_gt_of_ne hi with hlt | hgt
        · exact getElem?_append_left hlt
        · rw [getElem?_eq_none (by rw [length_append]; exact hgt),
            getElem?_eq_none (Nat.le_of_lt hgt)]
      rw [hget, ← ih]
      cases prevMap.lookup cpu with
      | none => rfl
      | some prevI => exact Finmap.lookup_insert_of_ne _ hi

theorem updateCpuList_eq (h : Represents cpuList numCounters cpus)
    (h' : Represents cpuList' numCounters' prevCpus) :
    (∀ i, (updateCpuList cpuList numCounters cpuList' numCounters').1.lookup i =
        cpus[i]?.bind (cpuIndex prevCpus)) ∧
      (updateCpuList cpuList numCounters cpuList' numCounters').2 = cpus := by
  rw [updateCpuList, h.counterCpus_eq, h'.counterCpus_eq]
  refine ⟨fun i => ?_, by simp⟩
  rw [lookup_currToPrevCounterIndexMap]
  congr 1
  exact funext (lookup_prevCpuNumToCounterIndexMap prevCpus)

theorem represents_interrupts (interrupts : Interrupts) :
    Represents interrupts.cpuList interrupts.numCounters (InterruptsMetrics.cpus interrupts) := by
  unfold Represents InterruptsMetrics.cpus
  cases interrupts.cpuList <;> rfl

theorem represents_softirqs (softirqs : Softirqs) :
    Represents softirqs.cpuList softirqs.numCounters (SoftirqsMetrics.cpus softirqs) := by
  unfold Represents SoftirqsMetrics.cpus
  cases softirqs.cpuList <;> rfl

-- What the generators compute with is what the loops leave.
theorem InterruptsMetrics.updateCpuList_lookup (pim : ProcInterruptsMetrics)
    (curr prev : Interrupts) (i : Nat) :
    (pim.updateCpuList curr prev).1.lookup i =
      InterruptsMetrics.currToPrevCounterIndex curr prev i :=
  (updateCpuList_eq (represents_interrupts curr) (represents_interrupts prev)).1 i

theorem SoftirqsMetrics.updateCpuList_lookup (psirqm : ProcSoftirqsMetrics)
    (curr prev : Softirqs) (i : Nat) :
    (psirqm.updateCpuList curr prev).1.lookup i =
      SoftirqsMetrics.currToPrevCounterIndex curr prev i :=
  (updateCpuList_eq (represents_softirqs curr) (represents_softirqs prev)).1 i

theorem bind_cpuIndex_eq_some_iff (hprev : prevCpus.Nodup) (i j : Nat) :
    cpus[i]?.bind (cpuIndex prevCpus) = some j ↔
      ∃ cpu, cpus[i]? = some cpu ∧ prevCpus[j]? = some cpu := by
  rw [Option.bind_eq_some_iff]
  exact exists_congr fun cpu => and_congr_right fun _ =>
    ⟨getElem?_of_cpuIndex, cpuIndex_getElem? hprev⟩

/-- For any two lists of CPUs, the map leads from a counter to the one of the same CPU, and the suffix
cache has the CPU of every counter. -/
theorem updateCpuList_matches_cpus (currCpus : List Int64) {prevCpus : List Int64}
    (hprev : prevCpus.Nodup) :
    (∀ (pim : ProcInterruptsMetrics) (curr prev : Interrupts),
      Represents curr.cpuList curr.numCounters currCpus →
      Represents prev.cpuList prev.numCounters prevCpus →
      (∀ i j, (pim.updateCpuList curr prev).1.lookup i = some j ↔
        ∃ cpu, currCpus[i]? = some cpu ∧ prevCpus[j]? = some cpu) ∧
      (pim.updateCpuList curr prev).2.deltaMetricsSuffixCache = some currCpus) ∧
    ∀ (psirqm : ProcSoftirqsMetrics) (curr prev : Softirqs),
      Represents curr.cpuList curr.numCounters currCpus →
      Represents prev.cpuList prev.numCounters prevCpus →
      (∀ i j, (psirqm.updateCpuList curr prev).1.lookup i = some j ↔
        ∃ cpu, currCpus[i]? = some cpu ∧ prevCpus[j]? = some cpu) ∧
      (psirqm.updateCpuList curr prev).2.deltaMetricsSuffixCache = some currCpus := by
  refine ⟨fun pim curr prev h h' => ?_, fun psirqm curr prev h h' => ?_⟩
  all_goals
    obtain ⟨hmap, hsuffix⟩ := updateCpuList_eq h h'
    exact ⟨fun i j => (hmap i).symm ▸ bind_cpuIndex_eq_some_iff hprev i j, congrArg some hsuffix⟩

theorem updateCpuList_matches_cpus_one_gone :
    let curr : Interrupts := { newInterrupts with cpuList := some [0, 2], numCounters := 2 }
    let prev : Interrupts := { newInterrupts with numCounters := 3 }
    let currSoftirqs : Softirqs := { newSoftirqs with cpuList := some [0, 2], numCounters := 2 }
    let prevSoftirqs : Softirqs := { newSoftirqs with numCounters := 3 }
    (newProcInterruptsMetrics.updateCpuList curr prev).1.lookup 1 = some 2 ∧
      (newProcSoftirqsMetrics.updateCpuList currSoftirqs prevSoftirqs).1.lookup 1 = some 2 := by
  intro curr prev currSoftirqs prevSoftirqs
  have hnodup : ([0, 1, 2] : List Int64).Nodup := by decide
  obtain ⟨h, hsoftirqs⟩ := updateCpuList_matches_cpus [0, 2] hnodup
  exact ⟨((h _ curr prev rfl rfl).1 1 2).mpr ⟨2, rfl, rfl⟩,
    ((hsoftirqs _ currSoftirqs prevSoftirqs rfl rfl).1 1 2).mpr ⟨2, rfl, rfl⟩⟩

end Lsvmi
