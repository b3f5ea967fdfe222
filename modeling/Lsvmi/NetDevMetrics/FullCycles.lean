import Lsvmi.CycleNum
import Lsvmi.NetDevMetrics.Generate
import Lsvmi.Reasoning.Cycles

/-!
# The full metrics cycles of a device

A device that stays has its cycle number advanced at every call, and all its metrics are published
each time it is 0.
-/

namespace Lsvmi.NetDevMetrics

open Reasoning List Option

variable {devInfo : ProcNetDevInfo} {pndm : ProcNetDevMetrics}

structure Scan.Ordered (scan : Scan) : Prop where
  nodup : scan.order.Nodup
  mem_iff : ∀ dev, dev ∈ scan.order ↔ dev ∈ scan.devStats

structure Stays (dev : Bytes) (pndm : ProcNetDevMetrics) (scan : Scan) : Prop where
  mem_devInfoMap : dev ∈ pndm.devInfoMap
  mem_curr : dev ∈ scan.devStats
  mem_prev : ∃ prev, pndm.prev = some prev ∧ dev ∈ prev

def publishesAll (out : Out) (dev : Bytes) : Bool :=
  (NetDevStat.all.all fun i => out.buf.any fun s => s.metric = .stat i && s.labels = [dev]) &&
    out.buf.any fun s => s.metric = .present && s.labels = [dev] && s.value = .flag true

def fullFor (fullMetricsFactor : Int) (dev : Bytes) (pndm : ProcNetDevMetrics) (scan : Scan) : Bool :=
  ((pndm.devInfoMap.lookup dev).any fun devInfo => devInfo.cycleNum == 0) &&
    publishesAll (generateMetrics fullMetricsFactor pndm scan).1 dev

def nextMetrics (fullMetricsFactor : Int) (pndm : ProcNetDevMetrics) (scan : Scan) :
    Option ProcNetDevMetrics :=
  some (generateMetrics fullMetricsFactor pndm scan).2

def CyclesOk (fullMetricsFactor : Int) (devInfoMap : DevInfoMap) : Prop :=
  ∀ dev devInfo, devInfoMap.lookup dev = some devInfo →
    0 ≤ devInfo.cycleNum ∧ devInfo.cycleNum < cycleLength fullMetricsFactor

section

variable {f : Int} {scan : Scan} {ts elapsed : Int} {prev : DevStats} {loop : Loop} {dev : Bytes}
  {pndm : ProcNetDevMetrics}

def Loop.visited (loop : Loop) : List NetDevSample × DevInfoMap := (loop.out.buf, loop.devInfoMap)

theorem devPart_visited (f : Int) (scan : Scan) (ts elapsed : Int) (prev : DevStats) (loop : Loop)
    (dev : Bytes) :
    (devPart f scan ts elapsed prev loop dev).visited =
      visit (devEntry f scan ts elapsed prev) loop.visited dev := by
  unfold devPart visit Loop.visited
  simp only
  cases devEntry f scan ts elapsed prev dev (loop.devInfoMap.lookup dev) <;> rfl

theorem foldl_devPart_visited (f : Int) (scan : Scan) (ts elapsed : Int) (prev : DevStats)
    (order : List Bytes) (loop : Loop) :
    (order.foldl (devPart f scan ts elapsed prev) loop).visited =
      order.foldl (visit (devEntry f scan ts elapsed prev)) loop.visited := by
  refine (foldl_hom Loop.visited fun loop dev => ?_).symm
  exact (devPart_visited f scan ts elapsed prev loop dev).symm

theorem devEntry_of_mem (f : Int) (ts elapsed : Int) (hcurr : dev ∈ scan.devStats)
    (hprev : dev ∈ prev) (entry : Option ProcNetDevInfo) :
    ∃ samples devInfo, devEntry f scan ts elapsed prev dev entry = some (samples, devInfo) := by
  obtain ⟨currDevStats, hcurr⟩ := isSome_iff_exists.mp (Finmap.lookup_isSome.mpr hcurr)
  obtain ⟨prevDevStats, hprev⟩ := isSome_iff_exists.mp (Finmap.lookup_isSome.mpr hprev)
  simp only [devEntry, hcurr, hprev]
  exact ⟨_, _, rfl⟩

section

variable {entry : Option ProcNetDevInfo} {samples : List NetDevSample} {devInfo : ProcNetDevInfo}
  (h : devEntry f scan ts elapsed prev dev entry = some (samples, devInfo))

include h

theorem devEntry_cycleNum :
    devInfo.cycleNum = nextCycleNum (entry.getD (newDevInfo f scan dev)).cycleNum f := by
  unfold devEntry at h
  split at h
  · cases h
    rfl
  · cases h

theorem devEntry_samples : ∀ s ∈ samples,
    s.labels = [dev] ∧ (s.metric = .present → s.value = .flag true) := by
  unfold devEntry at h
  split at h
  · cases h
    intro s hs
    cases mem_append.mp hs with
    | inl hs =>
      obtain ⟨i, -, hs⟩ := mem_flatMap.mp hs
      unfold statPart at hs
      simp only at hs
      split at hs
      · rw [mem_singleton.mp hs]
        exact ⟨rfl, nofun⟩
      · cases hs
    | inr hs =>
      split at hs
      · rw [mem_singleton.mp hs]
        exact ⟨rfl, fun _ => rfl⟩
      · cases hs
  · cases h

theorem devEntry_full (hfull : (entry.all fun devInfo => devInfo.cycleNum == 0)) :
    (∀ i, ∃ s ∈ samples, s.metric = .stat i) ∧
      (⟨.present, [dev], .flag true, ts⟩ : NetDevSample) ∈ samples := by
  unfold devEntry at h
  split at h
  · rename_i currDevStats prevDevStats _ _
    cases h
    rw [hfull]
    refine ⟨fun i => ?_, mem_append_right _ mem_cons_self⟩
    refine ⟨⟨.stat i, [dev], deltaValue i (currDevStats i - prevDevStats i) elapsed, ts⟩, ?_, rfl⟩
    refine mem_append_left _ (mem_flatMap.mpr ⟨i, NetDevStat.mem_all i, ?_⟩)
    simp [statPart]
  · cases h

end

def goneDevs (scan : Scan) (devInfoMap : DevInfoMap) : List Bytes :=
  if devInfoMap.keys.card > scan.devStats.keys.card then
    scan.removeOrder.filter fun dev => (scan.devStats.lookup dev).isNone
  else []

theorem removeOutOfScope_buf (scan : Scan) (ts : Int) (loop : Loop) :
    (removeOutOfScope scan ts loop).out.buf = loop.out.buf ++
      (goneDevs scan loop.devInfoMap).map fun dev => ⟨.present, [dev], .flag false, ts⟩ := by
  unfold removeOutOfScope goneDevs
  split
  · rfl
  · exact (append_nil _).symm

theorem removeOutOfScope_lookup
    (h : (removeOutOfScope scan ts loop).devInfoMap.lookup dev = some devInfo) :
    loop.devInfoMap.lookup dev = some devInfo := by
  unfold removeOutOfScope at h
  split at h
  · exact (lookup_filterMapEntries_ite.mp h).1
  · exact h

def visitDevs (f : Int) (pndm : ProcNetDevMetrics) (scan : Scan) (prev : DevStats) :
    List NetDevSample × DevInfoMap :=
  scan.order.foldl (visit (devEntry f scan (unixMilli scan.timeNow) (scan.timeNow - pndm.prevTs)
    prev)) ([], pndm.devInfoMap)

theorem generateMetrics_buf (hnodup : scan.order.Nodup) (hprev : pndm.prev = some prev) :
    (generateMetrics f pndm scan).1.buf =
      scan.order.flatMap (written (devEntry f scan (unixMilli scan.timeNow)
        (scan.timeNow - pndm.prevTs) prev) pndm.devInfoMap) ++
      (goneDevs scan (visitDevs f pndm scan prev).2).map
        (fun dev => ⟨.present, [dev], .flag false, unixMilli scan.timeNow⟩) ++
      [⟨.interval, [], .seconds (scan.timeNow - pndm.prevTs), unixMilli scan.timeNow⟩] := by
  let start : Loop := ⟨Output.empty, pndm.devInfoMap, false⟩
  let loop := scan.order.foldl (devPart f scan (unixMilli scan.timeNow)
    (scan.timeNow - pndm.prevTs) prev) start
  have hvisited : loop.visited = visitDevs f pndm scan prev := foldl_devPart_visited f scan
    (unixMilli scan.timeNow) (scan.timeNow - pndm.prevTs) prev scan.order start
  have hloop : loop.out.buf = scan.order.flatMap (written (devEntry f scan
      (unixMilli scan.timeNow) (scan.timeNow - pndm.prevTs) prev) pndm.devInfoMap) := by
    have hbuf : loop.visited.1 = _ := congrArg Prod.fst hvisited
    rw [visitDevs, foldl_visit_fst hnodup] at hbuf
    exact hbuf
  have hmap : loop.devInfoMap = (visitDevs f pndm scan prev).2 := congrArg Prod.snd hvisited
  simp only [generateMetrics, hprev]
  rw [← hloop, ← hmap, ← removeOutOfScope_buf]
  rfl

theorem generateMetrics_lookup (hprev : pndm.prev = some prev)
    (h : (generateMetrics f pndm scan).2.devInfoMap.lookup dev = some devInfo) :
    (visitDevs f pndm scan prev).2.lookup dev = some devInfo := by
  simp only [generateMetrics, hprev] at h
  have hlookup := removeOutOfScope_lookup h
  have hvisited := congrArg Prod.snd (foldl_devPart_visited f scan (unixMilli scan.timeNow)
    (scan.timeNow - pndm.prevTs) prev scan.order ⟨Output.empty, pndm.devInfoMap, false⟩)
  rw [← hlookup]
  exact congrArg (Finmap.lookup dev) hvisited.symm

section

variable (h : Stays dev pndm scan) (hord : scan.Ordered)
include h hord

theorem Stays.publishesAll_of_full
    (hfull : ((pndm.devInfoMap.lookup dev).all fun devInfo => devInfo.cycleNum == 0) = true) :
    publishesAll (generateMetrics f pndm scan).1 dev := by
  obtain ⟨prev, hprev, hmem⟩ := h.mem_prev
  obtain ⟨samples, devInfo, hentry⟩ := devEntry_of_mem f (unixMilli scan.timeNow)
    (scan.timeNow - pndm.prevTs) h.mem_curr hmem (pndm.devInfoMap.lookup dev)
  have hbuf := generateMetrics_buf (f := f) hord.nodup hprev
  have hsub : ∀ s ∈ samples, s ∈ (generateMetrics f pndm scan).1.buf := by
    intro s hs
    rw [hbuf]
    refine mem_append_left _ (mem_append_left _ (mem_flatMap.mpr ⟨dev, ?_, ?_⟩))
    · exact (hord.mem_iff dev).mpr h.mem_curr
    · rw [written, hentry]
      exact hs
  obtain ⟨hstats, hpresent⟩ := devEntry_full hentry hfull
  refine Bool.and_eq_true_iff.mpr ⟨all_eq_true.mpr fun i _ => ?_, ?_⟩
  · obtain ⟨s, hs, hmetric⟩ := hstats i
    refine any_eq_true.mpr ⟨s, hsub s hs, ?_⟩
    simp [hmetric, (devEntry_samples hentry s hs).1]
  · exact any_eq_true.mpr ⟨_, hsub _ hpresent, by simp⟩

theorem Stays.fullFor_iff (hdevInfo : pndm.devInfoMap.lookup dev = some devInfo) :
    fullFor f dev pndm scan ↔ devInfo.cycleNum = 0 := by
  unfold fullFor
  rw [hdevInfo]
  constructor
  · intro hfull
    exact beq_iff_eq.mp (Bool.and_eq_true_iff.mp hfull).1
  intro hzero
  have hfull : ((pndm.devInfoMap.lookup dev).all fun devInfo => devInfo.cycleNum == 0) := by
    rw [hdevInfo]
    exact beq_iff_eq.mpr hzero
  rw [h.publishesAll_of_full hord hfull, Bool.and_true]
  exact beq_iff_eq.mpr hzero

theorem Stays.cycleNum_eq {devInfo' : ProcNetDevInfo}
    (hdevInfo : pndm.devInfoMap.lookup dev = some devInfo)
    (hnext : (generateMetrics f pndm scan).2.devInfoMap.lookup dev = some devInfo') :
    devInfo'.cycleNum = nextCycleNum devInfo.cycleNum f := by
  obtain ⟨prev, hprev, hmem⟩ := h.mem_prev
  have hlookup := generateMetrics_lookup hprev hnext
  obtain ⟨samples, devInfo'', hentry⟩ := devEntry_of_mem f (unixMilli scan.timeNow)
    (scan.timeNow - pndm.prevTs) h.mem_curr hmem (pndm.devInfoMap.lookup dev)
  rw [visitDevs, foldl_visit_lookup hord.nodup ((hord.mem_iff dev).mpr h.mem_curr),
    hentry] at hlookup
  obtain rfl : devInfo'' = devInfo' := some.inj hlookup
  rw [devEntry_cycleNum hentry, hdevInfo]
  rfl

end

theorem CyclesOk.step (h : CyclesOk f pndm.devInfoMap) (hord : scan.Ordered)
    (hcounter : ∀ dev, IsCounterValue (scan.cycleNum dev)) :
    CyclesOk f (generateMetrics f pndm scan).2.devInfoMap := by
  cases hprev : pndm.prev with
  | none =>
    simp only [generateMetrics, hprev]
    exact h
  | some prev =>
    intro dev devInfo hlookup
    have hvisited := generateMetrics_lookup hprev hlookup
    by_cases hdev : dev ∈ scan.order
    · rw [visitDevs, foldl_visit_lookup hord.nodup hdev] at hvisited
      cases hentry : devEntry f scan (unixMilli scan.timeNow) (scan.timeNow - pndm.prevTs) prev dev
          (pndm.devInfoMap.lookup dev) with
      | none =>
        rw [hentry] at hvisited
        exact h dev devInfo hvisited
      | some e =>
        rw [hentry] at hvisited
        obtain rfl : e.2 = devInfo := some.inj hvisited
        rw [devEntry_cycleNum hentry]
        refine nextCycleNum_lt ?_
        cases hold : pndm.devInfoMap.lookup dev with
        | none => exact initialCycleNum_lt (hcounter dev)
        | some devInfo => exact h dev devInfo hold
    · rw [visitDevs, foldl_visit_lookup_of_notMem hdev] at hvisited
      exact h dev devInfo hvisited

end

/-- A call of `generateMetrics` with the map orders and counter values that a run has. -/
structure Scan.Ok (scan : Scan) : Prop extends scan.Ordered where
  counter : ∀ dev, IsCounterValue (scan.cycleNum dev)

theorem cyclesOk_of_run {f : Int} {scans : List Scan}
    (hrun : scans.foldlM (nextMetrics f) newProcNetDevMetrics = some pndm)
    (hok : ∀ scan ∈ scans, scan.Ok) : CyclesOk f pndm.devInfoMap := by
  refine foldlM_invariant (I := fun pndm => CyclesOk f pndm.devInfoMap) hrun ?_ ?_
  · exact fun dev devInfo h => nomatch h
  · intro pndm scan hscan pndm' hinv hstep
    cases hstep
    exact hinv.step (hok scan hscan).toOrdered (hok scan hscan).counter

theorem exists_run (f : Int) (scans : List Scan) (pndm : ProcNetDevMetrics) :
    ∃ pndm', scans.foldlM (nextMetrics f) pndm = some pndm' := by
  induction scans generalizing pndm with
  | nil => exact ⟨pndm, rfl⟩
  | cons scan scans ih => exact ih (generateMetrics f pndm scan).2

/-- Among as many calls as the cycle is long, in all of which the device stays, exactly one publishes
all its metrics because its cycle is at the start. -/
theorem hits_fullFor {f : Int} {scans window : List Scan} {dev : Bytes}
    (hrun : scans.foldlM (nextMetrics f) newProcNetDevMetrics = some pndm)
    (hscans : ∀ scan ∈ scans, scan.Ok) (hord : ∀ scan ∈ window, scan.Ordered)
    (hstays : Always (fun pndm scan pndm' => nextMetrics f pndm scan = some pndm') (Stays dev) pndm
      window) (hlen : window.length = cycleLength f) :
    hits (nextMetrics f) (fullFor f dev) pndm window = 1 := by
  obtain ⟨pndm', hwindow⟩ := exists_run f window pndm
  let I : Nat → ProcNetDevMetrics → Prop := fun n pndm =>
    ∀ devInfo, pndm.devInfoMap.lookup dev = some devInfo →
      devInfo.cycleNum = (n % cycleLength f : Nat)
  let H : ProcNetDevMetrics → Scan → Prop := fun pndm scan => Stays dev pndm scan ∧ scan.Ordered
  have hstart : ∃ n, I n pndm := by
    cases hlookup : pndm.devInfoMap.lookup dev with
    | none => exact ⟨0, fun devInfo h => nomatch hlookup.symm.trans h⟩
    | some devInfo =>
      obtain ⟨hlo, hhi⟩ := cyclesOk_of_run hrun hscans dev devInfo hlookup
      refine ⟨devInfo.cycleNum.toNat, fun devInfo' h => ?_⟩
      obtain rfl : devInfo = devInfo' := some.inj (hlookup.symm.trans h)
      rw [Nat.mod_eq_of_lt (by omega)]
      omega
  have hentry : ∀ pndm scan, Stays dev pndm scan →
      ∃ devInfo, pndm.devInfoMap.lookup dev = some devInfo := fun pndm scan h =>
    isSome_iff_exists.mp (Finmap.lookup_isSome.mpr h.mem_devInfoMap)
  obtain ⟨n, hn⟩ := hstart
  refine hits_eq_one (I := I) (H := H) ?_ ?_ hn hwindow
    (hstays.and (Always.of_forall_mem hord pndm)) (cycleLength_pos f) hlen
  · intro n pndm scan hI hH
    obtain ⟨devInfo, hdevInfo⟩ := hentry pndm scan hH.1
    rw [hH.1.fullFor_iff hH.2 hdevInfo, hI devInfo hdevInfo, Nat.dvd_iff_mod_eq_zero]
    exact Int.natCast_eq_zero
  · intro n pndm scan pndm' hI hH hstep devInfo' hdevInfo'
    obtain ⟨devInfo, hdevInfo⟩ := hentry pndm scan hH.1
    cases hstep
    rw [hH.1.cycleNum_eq hH.2 hdevInfo hdevInfo', hI devInfo hdevInfo, nextCycleNum_mod]

end Lsvmi.NetDevMetrics
