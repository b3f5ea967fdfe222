import Lsvmi.DiskstatsMetrics.Generate

/-!
# The samples of a disk

What a scan publishes for each disk.  The loop over the disks handles each of them as if it were
the only one, and what comes behind the loop publishes no statistics.
-/

namespace Lsvmi.DiskstatsMetrics

open Procfs Reasoning List Option

variable {sample : DiskSample} {currStats prevStats : List UInt32} {zeroDelta : Nat → Bool}

section Loop

variable (cfg : Config) (scan : Scan) (ts elapsed : Int) (curr prev : Diskstats)

def diskSamples (infos : MetricsInfoMap) (majMin : Bytes) : List DiskSample :=
  ((diskEntry cfg scan ts elapsed curr prev majMin (infos.lookup majMin)).map Prod.fst).getD []

theorem foldl_diskPart_visit (order : List Bytes) (state : Out × MetricsInfoMap) :
    order.foldl (visit (diskEntry cfg scan ts elapsed curr prev)) (state.1.buf, state.2) =
      ((order.foldl (diskPart cfg scan ts elapsed curr prev) state).1.buf,
        (order.foldl (diskPart cfg scan ts elapsed curr prev) state).2) := by
  apply foldl_hom fun state : Out × MetricsInfoMap => (state.1.buf, state.2)
  intro state majMin
  simp only [visit, diskPart]
  cases diskEntry cfg scan ts elapsed curr prev majMin (state.2.lookup majMin) <;> rfl

variable {cfg scan ts elapsed curr prev}

theorem diskEntry_isSome (majMin : Bytes) (entry : Option ProcDiskstatsMetricsInfo) :
    (diskEntry cfg scan ts elapsed curr prev majMin entry).isSome ↔
      majMin ∈ curr.devInfoMap ∧ majMin ∈ prev.devInfoMap := by
  rw [← Finmap.lookup_isSome, ← Finmap.lookup_isSome]
  unfold diskEntry
  cases curr.devInfoMap.lookup majMin <;> cases prev.devInfoMap.lookup majMin <;> simp

theorem foldl_diskPart {order : List Bytes} (hnodup : order.Nodup) (state : Out × MetricsInfoMap) :
    (order.foldl (diskPart cfg scan ts elapsed curr prev) state).1.buf =
        state.1.buf ++ order.flatMap (diskSamples cfg scan ts elapsed curr prev state.2) ∧
      ∀ k, k ∈ (order.foldl (diskPart cfg scan ts elapsed curr prev) state).2 ↔
        k ∈ state.2 ∨ (k ∈ order ∧ k ∈ curr.devInfoMap ∧ k ∈ prev.devInfoMap) := by
  have hvisit := foldl_diskPart_visit cfg scan ts elapsed curr prev order state
  obtain ⟨hbuf, hinfos⟩ := Prod.mk.inj hvisit.symm
  constructor
  · rw [hbuf, foldl_visit_fst hnodup]
    rfl
  · intro k
    rw [hinfos, mem_foldl_visit hnodup, diskEntry_isSome]

theorem updateInfo_annulled (cycleNum : Int) (nameChanged : Bool) (majMin diskName : Bytes)
    (entry : Option ProcDiskstatsMetricsInfo) :
    ∀ sample ∈ (updateInfo cfg ts cycleNum nameChanged majMin diskName entry).2.2,
      sample.metric = .info ∧ sample.labels.head? = some majMin := by
  unfold updateInfo
  split
  · simp
  · split <;> simp

theorem updateInfo_fullData {entry : Option ProcDiskstatsMetricsInfo}
    (h : ∀ info, entry = some info → info.cycleNum = 0) (cycleNum : Int) (nameChanged : Bool)
    (majMin diskName : Bytes) :
    (updateInfo cfg ts cycleNum nameChanged majMin diskName entry).2.1 := by
  unfold updateInfo
  split
  · rfl
  · split
    · rfl
    · simpa using h _ rfl

theorem statPart_metric {labels : List Bytes} {fullData : Bool} {i : Nat}
    (h : sample ∈ (statPart ts elapsed labels fullData currStats prevStats zeroDelta i).1) :
    sample.metric = .stat i ∧ sample.labels = labels ∧ (isGauge i = false →
      sample.value = deltaValue i (currStats.getD i 0 - prevStats.getD i 0) elapsed) := by
  unfold statPart at h
  simp only at h
  split at h
  · rename_i hgauge
    split at h
    · obtain rfl := mem_singleton.mp h
      exact ⟨rfl, rfl, fun hc => absurd (hc.symm.trans hgauge) Bool.false_ne_true⟩
    · cases h
  · split at h
    · obtain rfl := mem_singleton.mp h
      exact ⟨rfl, rfl, fun _ => rfl⟩
    · cases h

theorem mem_statPart {labels : List Bytes} {fullData : Bool} {i : Nat} (hi : isGauge i = false)
    (h : fullData ∨ currStats.getD i 0 - prevStats.getD i 0 ≠ 0) :
    ⟨.stat i, labels, deltaValue i (currStats.getD i 0 - prevStats.getD i 0) elapsed, ts⟩ ∈
      (statPart ts elapsed labels fullData currStats prevStats zeroDelta i).1 := by
  unfold statPart
  simp only [hi, Bool.false_eq_true, if_false]
  rw [if_pos]
  · exact mem_singleton.mpr rfl
  · rcases h with h | h
    · simp [h]
    · rw [bne_iff_ne.mpr h, Bool.or_true, Bool.true_or]

variable {infos : MetricsInfoMap} {majMin : Bytes} {currDevInfo prevDevInfo : DiskstatsDevInfo}
  {i : Nat}

theorem diskSamples_spec (h : sample ∈ diskSamples cfg scan ts elapsed curr prev infos majMin) :
    sample.labels.head? = some majMin ∧ sample.metric ≠ .mountinfo ∧
      ∀ currDevInfo prevDevInfo i, curr.devInfoMap.lookup majMin = some currDevInfo →
        prev.devInfoMap.lookup majMin = some prevDevInfo → isGauge i = false →
        sample.metric = .stat i → sample.value =
          deltaValue i (currDevInfo.stats.getD i 0 - prevDevInfo.stats.getD i 0) elapsed := by
  unfold diskSamples diskEntry at h
  split at h
  · rename_i hcurr hprev
    simp only [map_some, getD_some, mem_append, mem_flatMap] at h
    rcases h with (h | ⟨i', -, h⟩) | h
    · obtain ⟨hmetric, hhead⟩ := updateInfo_annulled _ _ _ _ _ _ h
      rw [hmetric]
      exact ⟨hhead, nofun, nofun⟩
    · obtain ⟨hmetric, hlabels, hvalue⟩ := statPart_metric h
      rw [hmetric, hlabels, hcurr, hprev]
      refine ⟨rfl, nofun, ?_⟩
      rintro _ _ _ ⟨⟩ ⟨⟩ hi ⟨⟩
      exact hvalue hi
    · split at h
      · obtain rfl := mem_singleton.mp h
        exact ⟨rfl, nofun, nofun⟩
      · cases h
  · cases h

variable (cfg scan ts elapsed) in
theorem exists_diskSamples (hcurr : curr.devInfoMap.lookup majMin = some currDevInfo)
    (hprev : prev.devInfoMap.lookup majMin = some prevDevInfo) (hi : isGauge i = false)
    (hlt : i < diskstatsValueFieldsNum)
    (h : currDevInfo.stats.getD i 0 - prevDevInfo.stats.getD i 0 ≠ 0 ∨
      ∀ info, infos.lookup majMin = some info → info.cycleNum = 0) :
    ∃ sample ∈ diskSamples cfg scan ts elapsed curr prev infos majMin, sample.metric = .stat i := by
  unfold diskSamples diskEntry
  simp only [hcurr, hprev, map_some, getD_some]
  refine ⟨_, mem_append_left _ (mem_append_right _
    (mem_flatMap.mpr ⟨i, mem_range.mpr hlt, mem_statPart hi ?_⟩)), rfl⟩
  rcases h with hdelta | hfull
  · exact .inr hdelta
  · exact .inl (updateInfo_fullData hfull _ _ _ _)

end Loop

theorem mem_emit_of_stat {out : Out} {samples : List DiskSample} {i : Nat}
    (hmetric : sample.metric = .stat i) (h : ∀ other ∈ samples, other.metric ≠ .stat i) :
    sample ∈ (out.emit samples).buf ↔ sample ∈ out.buf := by
  show sample ∈ out.buf ++ samples ↔ _
  rw [mem_append, or_iff_left]
  exact fun hmem => h sample hmem hmetric

theorem mountinfoSamples_metric (ts : Int) (lines : List MountinfoLine) (on : Bool) (i : Nat) :
    ∀ sample ∈ mountinfoSamples ts lines on, sample.metric ≠ .stat i := by
  intro sample h
  obtain ⟨line, -, rfl⟩ := mem_map.mp h
  simp

section

variable (cfg : Config) (ts : Int) (curr : Diskstats) (pdsm : ProcDiskstatsMetrics) (out : Out)
include cfg ts curr pdsm out

theorem mountinfoPart_buf {i : Nat} (hmetric : sample.metric = .stat i) :
    sample ∈ (mountinfoPart cfg ts curr pdsm out).1.buf ↔ sample ∈ out.buf := by
  have hemit : ∀ (out : Out) lines on,
      sample ∈ (out.emit (mountinfoSamples ts lines on)).buf ↔ sample ∈ out.buf :=
    fun out lines on => mem_emit_of_stat hmetric (mountinfoSamples_metric ts lines on i)
  unfold mountinfoPart
  split
  · split
    · exact Iff.rfl
    · exact hemit out _ _
  · simp only [Output.count]
    split
    · exact (hemit _ _ _).trans (hemit out _ _)
    · exact hemit out _ _

theorem mountinfoPart_frame : (mountinfoPart cfg ts curr pdsm out).2.prev = pdsm.prev := by
  unfold mountinfoPart
  split
  · split <;> rfl
  · rfl

end

theorem parseMountinfo_frame (pdsm : ProcDiskstatsMetrics) (scan : Scan) (curr : Diskstats) :
    (pdsm.parseMountinfo scan curr).prev = pdsm.prev ∧
    (pdsm.parseMountinfo scan curr).prevTs = pdsm.prevTs ∧
    (pdsm.parseMountinfo scan curr).diskstatsMetricsInfo = pdsm.diskstatsMetricsInfo := by
  unfold ProcDiskstatsMetrics.parseMountinfo
  split
  · exact ⟨rfl, rfl, rfl⟩
  split
  · split
    · split <;> exact ⟨rfl, rfl, rfl⟩
    · exact ⟨rfl, rfl, rfl⟩
  · split <;> exact ⟨rfl, rfl, rfl⟩

end Lsvmi.DiskstatsMetrics
