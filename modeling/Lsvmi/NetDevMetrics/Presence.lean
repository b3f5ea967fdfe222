import Lsvmi.NetDevMetrics.FullCycles
import Lsvmi.Published

/-!
# The presence of the devices

The devices that are published as present are those of `devInfoMap`.  An entry is made for a device
of two scans in a row, and an entry whose device is gone is removed only if there are more entries
than devices.
-/

namespace Lsvmi.NetDevMetrics

open Reasoning Finmap Finset

abbrev PublishedNetDev := Published ProcNetDevMetrics NetDevMetric (List Bytes)

def publishMetrics (fullMetricsFactor : Int) (p : PublishedNetDev) (scan : Scan) :
    Option PublishedNetDev :=
  publish (fun pndm scan => some (generateMetrics fullMetricsFactor pndm scan)) p scan

def PublishedNetDev.Present (p : PublishedNetDev) (dev : Bytes) : Prop :=
  lastPublished p.samples .present [dev] = some (.flag true)

/-- After the call, the devices that are published as present are devices of the scan. -/
def PresentAreCurrent (fullMetricsFactor : Int) (p : PublishedNetDev) (scan : Scan) : Prop :=
  ∀ p', publishMetrics fullMetricsFactor p scan = some p' → ∀ dev, p'.Present dev → dev ∈ scan.devStats

structure LoopsOk (p : PublishedNetDev) (scan : Scan) : Prop extends scan.Ordered where
  mem_removeOrder : ∀ dev, dev ∈ scan.removeOrder ↔
    dev ∈ p.state.devInfoMap ∨ dev ∈ scan.devStats ∧ ∃ prev, p.state.prev = some prev ∧ dev ∈ prev

/-- Of the devices `a ∩ b` of two scans in a row, none is gone at the next scan `c`, or more than
there are new ones. -/
def GoneFit (a b c : Finset Bytes) : Prop := a ∩ b ⊆ c ∨ (c \ b).card < ((a ∩ b) \ c).card

instance (a b c : Finset Bytes) : Decidable (GoneFit a b c) :=
  inferInstanceAs (Decidable (_ ∨ _))

def AllGoneFit : Finset Bytes → Finset Bytes → List Scan → Prop
  | _, _, [] => True
  | a, b, scan :: scans =>
    GoneFit a b scan.devStats.keys ∧ AllGoneFit b scan.devStats.keys scans

instance decidableAllGoneFit : (a b : Finset Bytes) → (scans : List Scan) →
    Decidable (AllGoneFit a b scans)
  | _, _, [] => inferInstanceAs (Decidable True)
  | _, b, scan :: scans =>
    have := decidableAllGoneFit b scan.devStats.keys scans
    inferInstanceAs (Decidable (_ ∧ _))

section

variable {f : Int} {scan : Scan} {prev : DevStats} {dev : Bytes} {pndm : ProcNetDevMetrics}

theorem devEntry_isSome (f : Int) (scan : Scan) (ts elapsed : Int) (prev : DevStats) (dev : Bytes)
    (entry : Option ProcNetDevInfo) :
    (devEntry f scan ts elapsed prev dev entry).isSome ↔ dev ∈ scan.devStats ∧ dev ∈ prev := by
  rw [← lookup_isSome, ← lookup_isSome]
  unfold devEntry
  cases scan.devStats.lookup dev <;> cases prev.lookup dev <;> simp

theorem mem_visitDevs (hord : scan.Ordered) (dev : Bytes) :
    dev ∈ (visitDevs f pndm scan prev).2 ↔
      dev ∈ pndm.devInfoMap ∨ dev ∈ scan.devStats ∧ dev ∈ prev := by
  rw [visitDevs, mem_foldl_visit hord.nodup, devEntry_isSome, hord.mem_iff]
  tauto

def Removes (f : Int) (pndm : ProcNetDevMetrics) (scan : Scan) (prev : DevStats) : Prop :=
  (visitDevs f pndm scan prev).2.keys.card > scan.devStats.keys.card

theorem generateMetrics_mem (hprev : pndm.prev = some prev) (dev : Bytes) :
    dev ∈ (generateMetrics f pndm scan).2.devInfoMap ↔
      dev ∈ (visitDevs f pndm scan prev).2 ∧ (Removes f pndm scan prev → dev ∈ scan.devStats) := by
  have hvisited := congrArg Prod.snd (foldl_devPart_visited f scan (unixMilli scan.timeNow)
    (scan.timeNow - pndm.prevTs) prev scan.order ⟨Output.empty, pndm.devInfoMap, false⟩)
  change _ = (visitDevs f pndm scan prev).2 at hvisited
  simp only [generateMetrics, hprev]
  unfold Removes
  rw [← hvisited]
  simp only [Loop.visited, removeOutOfScope]
  split
  · rename_i hcard
    rw [← lookup_isSome, lookup_filterMapEntries, ← lookup_isSome, ← lookup_isSome]
    cases lookup dev _ <;> cases lookup dev scan.devStats <;> simp [hcard]
  · rename_i hcard
    simp [hcard]

theorem mem_goneDevs (f : Int) (pndm : ProcNetDevMetrics) (scan : Scan) (prev : DevStats)
    (dev : Bytes) :
    dev ∈ goneDevs scan (visitDevs f pndm scan prev).2 ↔
      Removes f pndm scan prev ∧ dev ∈ scan.removeOrder ∧ dev ∉ scan.devStats := by
  unfold goneDevs Removes
  split
  · rename_i hcard
    simp [hcard, ← lookup_eq_none]
  · rename_i hcard
    simp [hcard]

variable (hord : scan.Ordered) (hprev : pndm.prev = some prev)
include hord hprev

theorem present_samples {s : NetDevSample} (hs : s ∈ (generateMetrics f pndm scan).1.buf)
    (hmetric : s.metric = .present) (hlabels : s.labels = [dev]) :
    s.value = .flag true ∧ dev ∈ scan.devStats ∧ dev ∈ prev ∨
      s.value = .flag false ∧ dev ∈ goneDevs scan (visitDevs f pndm scan prev).2 := by
  rw [generateMetrics_buf hord.nodup hprev, List.append_assoc] at hs
  rcases List.mem_append.mp hs with hs | hs
  · left
    obtain ⟨dev', -, hs⟩ := List.mem_flatMap.mp hs
    unfold written at hs
    cases hentry : devEntry f scan (unixMilli scan.timeNow) (scan.timeNow - pndm.prevTs) prev dev'
        (pndm.devInfoMap.lookup dev') with
    | none =>
      rw [hentry] at hs
      cases hs
    | some e =>
      rw [hentry] at hs
      have hsome := (devEntry_isSome _ _ _ _ _ _ _).mp (Option.isSome_iff_exists.mpr ⟨e, hentry⟩)
      obtain ⟨hdev, hvalue⟩ := devEntry_samples hentry s hs
      cases hdev.symm.trans hlabels
      exact ⟨hvalue hmetric, hsome⟩
  · right
    rcases List.mem_append.mp hs with hs | hs
    · obtain ⟨dev', hdev', rfl⟩ := List.mem_map.mp hs
      cases hlabels
      exact ⟨rfl, hdev'⟩
    · rw [List.mem_singleton.mp hs] at hmetric
      cases hmetric

theorem present_of_new (hcurr : dev ∈ scan.devStats) (hmem : dev ∈ prev)
    (hnew : dev ∉ pndm.devInfoMap) :
    ∃ s ∈ (generateMetrics f pndm scan).1.buf, s.metric = .present ∧ s.labels = [dev] := by
  obtain ⟨samples, devInfo, hentry⟩ := devEntry_of_mem f (unixMilli scan.timeNow)
    (scan.timeNow - pndm.prevTs) hcurr hmem (pndm.devInfoMap.lookup dev)
  have hnone := lookup_eq_none.mpr hnew
  have hpresent := (devEntry_full hentry (by rw [hnone]; rfl)).2
  refine ⟨⟨.present, [dev], .flag true, unixMilli scan.timeNow⟩, ?_, rfl, rfl⟩
  rw [generateMetrics_buf hord.nodup hprev, List.append_assoc]
  refine List.mem_append_left _ (List.mem_flatMap.mpr ⟨dev, (hord.mem_iff dev).mpr hcurr, ?_⟩)
  rw [written, hentry]
  exact hpresent

theorem present_after (hremove : ∀ dev, dev ∈ scan.removeOrder ↔
      dev ∈ pndm.devInfoMap ∨ dev ∈ scan.devStats ∧ dev ∈ prev) {last : Option SampleValue}
    (hlast : last = some (.flag true) ↔ dev ∈ pndm.devInfoMap) :
    (lastPublished (generateMetrics f pndm scan).1.buf .present [dev]).or last = some (.flag true) ↔
      dev ∈ (generateMetrics f pndm scan).2.devInfoMap := by
  rw [generateMetrics_mem hprev, mem_visitDevs hord]
  by_cases hcurr : dev ∈ scan.devStats
  · -- A device of the scan: what is published says that it is present.
    have hnotGone : dev ∉ goneDevs scan (visitDevs f pndm scan prev).2 := by
      rw [mem_goneDevs]
      exact fun h => h.2.2 hcurr
    have hvalue : ∀ s ∈ (generateMetrics f pndm scan).1.buf, s.metric = .present →
        s.labels = [dev] → s.value = .flag true := fun s hs hmetric hlabels =>
      ((present_samples hord hprev hs hmetric hlabels).resolve_right fun h => hnotGone h.2).1
    by_cases hsample : ∃ s ∈ (generateMetrics f pndm scan).1.buf,
        s.metric = .present ∧ s.labels = [dev]
    · rw [lastPublished_eq_some hsample hvalue]
      obtain ⟨s, hs, hmetric, hlabels⟩ := hsample
      have hboth := (present_samples hord hprev hs hmetric hlabels).resolve_right
        fun h => hnotGone h.2
      simp [hboth.2]
    · rw [lastPublished_eq_none fun s hs hmetric hlabels => hsample ⟨s, hs, hmetric, hlabels⟩,
        Option.none_or, hlast]
      have hold : dev ∈ prev → dev ∈ pndm.devInfoMap := fun hmem => by
        by_contra hnew
        exact hsample (present_of_new hord hprev hcurr hmem hnew)
      tauto
  · by_cases hgone : dev ∈ goneDevs scan (visitDevs f pndm scan prev).2
    · have hvalue : ∀ s ∈ (generateMetrics f pndm scan).1.buf, s.metric = .present →
          s.labels = [dev] → s.value = .flag false := fun s hs hmetric hlabels =>
        ((present_samples hord hprev hs hmetric hlabels).resolve_left fun h => hcurr h.2.1).1
      have hsample : ∃ s ∈ (generateMetrics f pndm scan).1.buf,
          s.metric = .present ∧ s.labels = [dev] := by
        refine ⟨⟨.present, [dev], .flag false, unixMilli scan.timeNow⟩, ?_, rfl, rfl⟩
        rw [generateMetrics_buf hord.nodup hprev]
        exact List.mem_append_left _ (List.mem_append_right _ (List.mem_map.mpr ⟨dev, hgone, rfl⟩))
      rw [lastPublished_eq_some hsample hvalue]
      have hremoves := ((mem_goneDevs _ _ _ _ _).mp hgone).1
      simp [hcurr, hremoves]
    · have hnone : lastPublished (generateMetrics f pndm scan).1.buf .present [dev] = none :=
        lastPublished_eq_none fun s hs hmetric hlabels =>
          (present_samples hord hprev hs hmetric hlabels).elim (fun h => hcurr h.2.1)
            fun h => hgone h.2
      rw [hnone, Option.none_or, hlast]
      rw [mem_goneDevs, hremove] at hgone
      tauto

end

/-- The entries after a scan `c`, for those of the devices of the two scans `a` and `b` before. -/
def entriesAfter (a b c : Finset Bytes) : Finset Bytes :=
  if (a ∩ b ∪ c ∩ b).card > c.card then (a ∩ b ∪ c ∩ b) ∩ c else a ∩ b ∪ c ∩ b

theorem card_entries (a b c : Finset Bytes) :
    (a ∩ b ∪ c ∩ b).card > c.card ↔ (c \ b).card < ((a ∩ b) \ c).card := by
  have hsplit : a ∩ b ∪ c ∩ b = (a ∩ b) \ c ∪ c ∩ b := by
    ext dev
    simp only [Finset.mem_union, Finset.mem_inter, Finset.mem_sdiff]
    tauto
  have hdisj : Disjoint ((a ∩ b) \ c) (c ∩ b) :=
    Finset.disjoint_left.mpr fun dev hdev hc =>
      (Finset.mem_sdiff.mp hdev).2 (Finset.mem_inter.mp hc).1
  have hcard := Finset.card_inter_add_card_sdiff c b
  rw [hsplit, Finset.card_union_of_disjoint hdisj]
  omega

theorem entriesAfter_subset_iff (a b c : Finset Bytes) : entriesAfter a b c ⊆ c ↔ GoneFit a b c := by
  unfold entriesAfter GoneFit
  rw [← card_entries]
  split
  · rename_i hcard
    exact iff_of_true inter_subset_right (.inr hcard)
  · rename_i hcard
    rw [or_iff_left hcard, union_subset_iff, and_iff_left inter_subset_left]

theorem entriesAfter_of_goneFit {a b c : Finset Bytes} (h : GoneFit a b c) :
    entriesAfter a b c = b ∩ c := by
  have hsub := (entriesAfter_subset_iff a b c).mpr h
  unfold entriesAfter at hsub ⊢
  ext dev
  split
  · simp only [Finset.mem_union, Finset.mem_inter]
    tauto
  rename_i hcard
  rw [if_neg hcard] at hsub
  have hdev := @hsub dev
  simp only [Finset.mem_union, Finset.mem_inter] at hdev ⊢
  tauto

structure After (a b : Finset Bytes) (p : PublishedNetDev) : Prop where
  present_iff : ∀ dev, p.Present dev ↔ dev ∈ p.state.devInfoMap
  keys_eq : p.state.devInfoMap.keys = a ∩ b
  mem_prev : ∀ dev, dev ∈ b ↔ ∃ prev, p.state.prev = some prev ∧ dev ∈ prev

theorem after_nothing : After ∅ ∅ (unpublished newProcNetDevMetrics) where
  present_iff := fun dev => iff_of_false (fun h => nomatch h) (notMem_empty)
  keys_eq := rfl
  mem_prev := fun dev => by simp [unpublished, newProcNetDevMetrics]

section

variable {f : Int} {a b : Finset Bytes} {p p' : PublishedNetDev} {scan : Scan} (h : After a b p)
  (hloops : LoopsOk p scan)
include h hloops

theorem After.present_step (hstep : publishMetrics f p scan = some p') :
    (∀ dev, p'.Present dev ↔ dev ∈ p'.state.devInfoMap) ∧
      p'.state.devInfoMap.keys = entriesAfter a b scan.devStats.keys ∧
      p'.state.prev = some scan.devStats := by
  cases hstep
  cases hprev : p.state.prev with
  | none =>
    -- Nothing is known yet.
    have hb : b = ∅ := eq_empty_of_forall_notMem fun dev hdev => by
      simpa [hprev] using (h.mem_prev dev).mp hdev
    have hkeys := h.keys_eq
    simp only [generateMetrics, hprev, PublishedNetDev.Present, Output.empty, List.append_nil]
    refine ⟨h.present_iff, ?_, trivial⟩
    rw [hkeys, hb]
    simp [entriesAfter]
  | some prev =>
    have hb : ∀ dev, dev ∈ b ↔ dev ∈ prev := fun dev => by simpa [hprev] using h.mem_prev dev
    have hremove : ∀ dev, dev ∈ scan.removeOrder ↔
        dev ∈ p.state.devInfoMap ∨ dev ∈ scan.devStats ∧ dev ∈ prev := fun dev => by
      simpa [hprev] using hloops.mem_removeOrder dev
    have hvisited : (visitDevs f p.state scan prev).2.keys = a ∩ b ∪ scan.devStats.keys ∩ b := by
      ext dev
      rw [mem_keys, mem_visitDevs hloops.toOrdered, ← mem_keys, h.keys_eq]
      simp [hb, mem_keys]
    refine ⟨fun dev => ?_, ?_, ?_⟩
    · show lastPublished (p.samples ++ _) _ _ = _ ↔ _
      rw [lastPublished_append]
      exact present_after hloops.toOrdered hprev hremove (h.present_iff dev)
    · ext dev
      show dev ∈ (generateMetrics f p.state scan).2.devInfoMap.keys ↔ _
      rw [mem_keys, generateMetrics_mem hprev, ← mem_keys, Removes, hvisited, entriesAfter]
      split
      · rename_i hcard
        simp [hcard, mem_keys]
      · rename_i hcard
        simp [hcard]
    · simp only [generateMetrics, hprev]

theorem After.step (hfit : GoneFit a b scan.devStats.keys)
    (hstep : publishMetrics f p scan = some p') : After b scan.devStats.keys p' := by
  obtain ⟨hpresent, hkeys, hprev⟩ := h.present_step hloops hstep
  refine ⟨hpresent, hkeys.trans (entriesAfter_of_goneFit hfit), fun dev => ?_⟩
  simp [hprev, mem_keys]

theorem After.isCurrent_iff : PresentAreCurrent f p scan ↔ GoneFit a b scan.devStats.keys := by
  obtain ⟨hpresent, hkeys, -⟩ := h.present_step (f := f) hloops rfl
  rw [← entriesAfter_subset_iff, ← hkeys]
  unfold PresentAreCurrent
  constructor
  · intro hcurrent dev hdev
    exact mem_keys.mpr (hcurrent _ rfl dev ((hpresent dev).mpr (mem_keys.mp hdev)))
  · intro hsub p' hstep dev hdev
    cases hstep
    exact mem_keys.mp (hsub (mem_keys.mpr ((hpresent dev).mp hdev)))

end

/-- In a run over any scans, the devices that are published as present are always devices of the
current scan if and only if at every scan none of the devices of both scans before it is gone, or more
of them than there are devices that the scan before did not have. -/
theorem presentAreCurrent_iff (fullMetricsFactor : Int) (scans : List Scan)
    (hloops : Always (fun p scan p' => publishMetrics fullMetricsFactor p scan = some p') LoopsOk
      (unpublished newProcNetDevMetrics) scans) :
    Always (fun p scan p' => publishMetrics fullMetricsFactor p scan = some p')
      (PresentAreCurrent fullMetricsFactor) (unpublished newProcNetDevMetrics) scans ↔
        AllGoneFit ∅ ∅ scans := by
  suffices hrun : ∀ p a b, After a b p →
      Always (fun p scan p' => publishMetrics fullMetricsFactor p scan = some p') LoopsOk p scans →
      (Always (fun p scan p' => publishMetrics fullMetricsFactor p scan = some p')
        (PresentAreCurrent fullMetricsFactor) p scans ↔ AllGoneFit a b scans) from
    hrun _ _ _ after_nothing hloops
  clear hloops
  induction scans with
  | nil => exact fun p a b _ _ => Iff.rfl
  | cons scan scans ih =>
    intro p a b h hloops
    unfold Always AllGoneFit
    rw [h.isCurrent_iff hloops.1]
    refine and_congr_right fun hfit => ?_
    constructor
    · exact fun hrest => (ih _ _ _ (h.step hloops.1 hfit rfl) (hloops.2 _ rfl)).mp (hrest _ rfl)
    · intro hrest p' hstep
      exact (ih p' _ _ (h.step hloops.1 hfit hstep) (hloops.2 p' hstep)).mpr hrest

def loopsOk (p : PublishedNetDev) (scan : Scan) : Bool :=
  scan.order.Nodup ∧ scan.order.toFinset = scan.devStats.keys ∧
    scan.removeOrder.toFinset = p.state.devInfoMap.keys ∪
      scan.devStats.keys ∩ (p.state.prev.elim ∅ Finmap.keys)

theorem LoopsOk.of_loopsOk {p : PublishedNetDev} {scan : Scan} (h : loopsOk p scan) :
    LoopsOk p scan := by
  obtain ⟨hnodup, horder, hremove⟩ := of_decide_eq_true h
  refine ⟨⟨hnodup, fun dev => ?_⟩, fun dev => ?_⟩
  · rw [← List.mem_toFinset, horder, mem_keys]
  · rw [← List.mem_toFinset, hremove]
    cases p.state.prev <;> simp [mem_keys]

def scanOf (devs removeOrder : List Bytes) : Scan :=
  ⟨devs.foldl (fun devStats dev => devStats.insert dev fun _ => 0) ∅, 0, devs, removeOrder, fun _ => 0⟩

def oneGone : List Scan :=
  [scanOf [[0], [1]] [], scanOf [[0], [1]] [[0], [1]], scanOf [[0]] [[0], [1]]]

def oneReplaced : List Scan :=
  [scanOf [[0], [1]] [], scanOf [[0], [1]] [[0], [1]], scanOf [[0], [2]] [[0], [1]]]

theorem presentAreCurrent_one_gone :
    Always (fun p scan p' => publishMetrics 1 p scan = some p') (PresentAreCurrent 1)
      (unpublished newProcNetDevMetrics) oneGone := by
  refine (presentAreCurrent_iff 1 oneGone ?_).mpr ?_
  · exact Always.of_checkRun loopsOk (fun _ _ => LoopsOk.of_loopsOk) (by decide +kernel)
  · decide +kernel

/-- The device that is replaced by another one stays published as present. -/
theorem replaced_device_present :
    ¬ ∀ (fullMetricsFactor : Int) (scans : List Scan),
      Always (fun p scan p' => publishMetrics fullMetricsFactor p scan = some p') LoopsOk
        (unpublished newProcNetDevMetrics) scans →
      Always (fun p scan p' => publishMetrics fullMetricsFactor p scan = some p')
        (PresentAreCurrent fullMetricsFactor) (unpublished newProcNetDevMetrics) scans := by
  intro h
  have hloops : Always (fun p scan p' => publishMetrics 1 p scan = some p') LoopsOk
      (unpublished newProcNetDevMetrics) oneReplaced :=
    Always.of_checkRun loopsOk (fun _ _ => LoopsOk.of_loopsOk) (by decide +kernel)
  have hthird := (((h 1 oneReplaced hloops).2 _ rfl).2 _ rfl).1 _ rfl [1] (by
    unfold PublishedNetDev.Present
    decide +kernel)
  rw [← lookup_isSome] at hthird
  revert hthird
  decide +kernel

end Lsvmi.NetDevMetrics
