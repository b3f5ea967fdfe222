import Lsvmi.Published
import Lsvmi.Reasoning.Runs
import Lsvmi.Statfs.Generate

/-!
# Runs of the statfs generator

An entry is made for a mount, is kept as long as `statfs` succeeds for it and mountinfo has the mount,
and is removed otherwise.  What has been published last is what the last scan has found.
-/

namespace Lsvmi.Statfs

open Procfs Reasoning Option Finmap Function

variable {last : Option SampleValue} {metric : StatfsMetric}

/-! ## What is reported -/

def sizeKb (blocks bsize : UInt64) : UInt64 :=
  .ofNat (blocks.toNat * bsize.toNat % 18446744073709551616 / 1000)

theorem sizeKb_eq (blocks bsize : UInt64) : blocks * bsize / 1000 = sizeKb blocks bsize := by
  have hlt := Nat.mod_lt (blocks.toNat * bsize.toNat) (show 0 < 18446744073709551616 by decide)
  apply UInt64.toNat_inj.mp
  rw [UInt64.toNat_div, UInt64.toNat_mul, sizeKb, UInt64.toNat_ofNat_of_lt']
  · rfl
  · show _ < 18446744073709551616
    omega

/-- The values of a `statfs` result that are published, apart from the percentages. -/
def StatfsT.reported (statfs : StatfsT) : StatfsMetric → Option UInt64
  | .bsize => some statfs.bsize.toUInt64
  | .blocks => some statfs.blocks
  | .bfree => some statfs.bfree
  | .bavail => some statfs.bavail
  | .files => some statfs.files
  | .ffree => some statfs.ffree
  | .totalSize => some (sizeKb statfs.blocks statfs.bsize.toUInt64)
  | .freeSize => some (sizeKb statfs.bfree statfs.bsize.toUInt64)
  | .availSize => some (sizeKb statfs.bavail statfs.bsize.toUInt64)
  | .freePct | .availPct | .present | .interval => none

/-! ## The samples of an entry -/

theorem any_ite {α : Type} (c : Prop) [Decidable c] (l : List α) (test : α → Bool) :
    (if c then l else []).any test = (decide c && l.any test) := by
  by_cases hc : c <;> simp [hc]

section

variable {ts cycleNum : Int} {labels : Bytes} {curr : StatfsT} {prev : Option StatfsT}

open StatfsT

theorem statfsSamples_spec {s : StatfsSample} (hs : s ∈ statfsSamples ts labels cycleNum curr prev) :
    s.labels = labels ∧ (s.metric = .present → s.value = .flag true) ∧
      ∀ v, curr.reported s.metric = some v → s.value = .uint v := by
  simp only [statfsSamples, List.mem_append, sizeKb_eq] at hs
  rcases hs with (((((((hs | hs) | hs) | hs) | hs) | hs) | hs) | hs) | hs
  all_goals
    split at hs
    · simp only [List.mem_cons, List.not_mem_nil, or_false] at hs
      first
        | (obtain rfl := hs; simp [reported])
        | (rcases hs with rfl | rfl <;> simp [reported])
    · cases hs

def writes (samples : List StatfsSample) (metric : StatfsMetric) : Bool :=
  samples.any fun s => s.metric = metric

theorem statfsSamples_first (ts : Int) (labels : Bytes) (cycleNum : Int) (curr : StatfsT)
    (metric : StatfsMetric) (h : metric ≠ .interval) :
    writes (statfsSamples ts labels cycleNum curr none) metric := by
  cases metric <;> first | rfl | exact absurd rfl h

theorem statfsSamples_next {v : UInt64} (ts : Int) (labels : Bytes)
    (cycleNum : Int) (p : StatfsT) (hv : curr.reported metric = some v) :
    writes (statfsSamples ts labels cycleNum curr (some p)) metric ∨
      p.reported metric = some v := by
  by_cases hall : (cycleNum == 0 || curr.bsize.toUInt64 != p.bsize.toUInt64)
  · left
    cases metric <;> first | simp [statfsSamples, writes, hall]; done | cases hv
  rw [Bool.not_eq_true] at hall
  have hbsize := bne_eq_false_iff_eq.mp (Bool.or_eq_false_iff.mp hall).2
  rw [← hv]
  -- a value is written if the field that it comes from has changed
  have hwritten (field : StatfsT → UInt64) (hchanged : field curr ≠ field p →
      writes (statfsSamples ts labels cycleNum curr (some p)) metric)
      (hsame : field curr = field p → p.reported metric = curr.reported metric) :
      writes (statfsSamples ts labels cycleNum curr (some p)) metric ∨
        p.reported metric = curr.reported metric := by
    by_cases hfield : field curr = field p
    · exact .inr (hsame hfield)
    · exact .inl (hchanged hfield)
  cases metric with
  | bsize => exact .inr (by rw [reported, reported, hbsize])
  | blocks | totalSize =>
    apply hwritten blocks
    · intro hne
      simp [statfsSamples, writes, hall, hne]
    · intro heq
      simp [reported, heq, hbsize]
  | bfree | freeSize =>
    apply hwritten bfree
    · intro hne
      simp [statfsSamples, writes, any_ite, hall, hne]
    · intro heq
      simp [reported, heq, hbsize]
  | bavail | availSize =>
    apply hwritten bavail
    · intro hne
      simp [statfsSamples, writes, any_ite, hall, hne]
    · intro heq
      simp [reported, heq, hbsize]
  | files =>
    apply hwritten files
    · intro hne
      simp [statfsSamples, writes, any_ite, hall, hne]
    · intro heq
      simp [reported, heq]
  | ffree =>
    apply hwritten ffree
    · intro hne
      simp [statfsSamples, writes, any_ite, hall, hne]
    · intro heq
      simp [reported, heq]
  | freePct | availPct | present | interval => cases hv

theorem lastPublished_statfsSamples {v : UInt64} (hv : curr.reported metric = some v)
    (hlast : ∀ p, prev = some p → p.reported metric = some v → last = some (.uint v)) :
    (lastPublished (statfsSamples ts labels cycleNum curr prev) metric labels).or last =
      some (.uint v) := by
  have hvalue : ∀ s ∈ statfsSamples ts labels cycleNum curr prev, s.metric = metric →
      s.labels = labels → s.value = .uint v := by
    intro s hs hmetric _
    exact (statfsSamples_spec hs).2.2 v (hmetric ▸ hv)
  by_cases hwrites : writes (statfsSamples ts labels cycleNum curr prev) metric
  · obtain ⟨s, hs, hmetric⟩ := List.any_eq_true.mp hwrites
    have hmem : ∃ s ∈ statfsSamples ts labels cycleNum curr prev, s.metric = metric ∧
        s.labels = labels := ⟨s, hs, of_decide_eq_true hmetric, (statfsSamples_spec hs).1⟩
    rw [lastPublished_eq_some hmem hvalue, some_or]
  have hnone : lastPublished (statfsSamples ts labels cycleNum curr prev) metric labels = none := by
    apply lastPublished_eq_none
    intro s hs hmetric _
    exact hwrites (List.any_eq_true.mpr ⟨s, hs, decide_eq_true hmetric⟩)
  rw [hnone, none_or]
  cases prev with
  | none =>
    refine absurd (statfsSamples_first ts labels cycleNum curr metric ?_) hwrites
    rintro rfl
    cases hv
  | some p =>
    exact hlast p rfl ((statfsSamples_next ts labels cycleNum p hv).resolve_left hwrites)

theorem lastPublished_present (hlast : prev ≠ none → last = some (.flag true)) :
    (lastPublished (statfsSamples ts labels cycleNum curr prev) .present labels).or last =
      some (.flag true) := by
  by_cases hmem : ∃ s ∈ statfsSamples ts labels cycleNum curr prev,
      s.metric = .present ∧ s.labels = labels
  · rw [lastPublished_eq_some hmem fun s hs hmetric _ => (statfsSamples_spec hs).2.1 hmetric,
      some_or]
  rw [lastPublished_eq_none fun s hs hmetric hlabels => hmem ⟨s, hs, hmetric, hlabels⟩, none_or]
  apply hlast
  rintro rfl
  obtain ⟨s, hs, hmetric⟩ := List.any_eq_true.mp
    (statfsSamples_first ts labels cycleNum curr .present (by decide))
  exact hmem ⟨s, hs, of_decide_eq_true hmetric, (statfsSamples_spec hs).1⟩

end

/-! ## The entries of a call -/

/-- The buffers of an entry; an entry that is made later has none yet. -/
def StatfsInfoMap.buffers (infos : StatfsInfoMap) (mountinfo : StatfsMountinfo) :
    Bool → Option StatfsT :=
  ((infos.lookup mountinfo).map StatfsInfo.statfsBuf).getD fun _ => none

theorem mountinfoPart_buffers (cfg : Config) (call : Call) (scanNum : Int)
    (state : List Bytes × StatfsInfoMap) (parsedLine : MountinfoParsedLine)
    (mountinfo : StatfsMountinfo) :
    (mountinfoPart cfg call scanNum state parsedLine).2.buffers mountinfo =
        state.2.buffers mountinfo ∧
      (mountinfo ∈ state.2 → mountinfo ∈ (mountinfoPart cfg call scanNum state parsedLine).2) := by
  unfold mountinfoPart
  simp only
  split
  · exact ⟨rfl, id⟩
  split
  · exact ⟨rfl, id⟩
  simp only [StatfsInfoMap.buffers]
  generalize (⟨parsedLine.getD 9 [], parsedLine.getD 8 [], parsedLine.getD 4 []⟩ :
    StatfsMountinfo) = key
  constructor
  · by_cases hkey : mountinfo = key
    · subst hkey
      rw [lookup_insert]
      cases state.2.lookup mountinfo <;> rfl
    · rw [lookup_insert_of_ne _ hkey]
  · exact fun hmem => (mem_insert).mpr (.inr hmem)

theorem foldl_mountinfoPart_buffers (cfg : Config) (call : Call) (scanNum : Int)
    (parsedLines : List MountinfoParsedLine) (state : List Bytes × StatfsInfoMap)
    (mountinfo : StatfsMountinfo) :
    (parsedLines.foldl (mountinfoPart cfg call scanNum) state).2.buffers mountinfo =
        state.2.buffers mountinfo ∧
      (mountinfo ∈ state.2 →
        mountinfo ∈ (parsedLines.foldl (mountinfoPart cfg call scanNum) state).2) := by
  induction parsedLines generalizing state with
  | nil => exact ⟨rfl, id⟩
  | cons parsedLine parsedLines ih =>
    obtain ⟨hbuffers, hmem⟩ := mountinfoPart_buffers cfg call scanNum state parsedLine mountinfo
    obtain ⟨hbuffers', hmem'⟩ := ih (mountinfoPart cfg call scanNum state parsedLine)
    exact ⟨hbuffers'.trans hbuffers, fun h => hmem' (hmem h)⟩

theorem statfsPart_cases (call : Call) (scanNum : Int) (currIndex mountinfoChanged : Bool)
    (mountinfo : StatfsMountinfo) (info : StatfsInfo) :
    (statfsPart call scanNum currIndex mountinfoChanged mountinfo info).scanNum ≠ scanNum ∨
      ∃ statfs, call.statfs mountinfo = some statfs ∧
        statfsPart call scanNum currIndex mountinfoChanged mountinfo info =
          { info with statfsBuf := update info.statfsBuf currIndex (some statfs), scanNum } := by
  unfold statfsPart
  split
  · rename_i hleft
    exact .inl (bne_iff_ne.mp (Bool.and_eq_true_iff.mp hleft).2)
  cases hstatfs : call.statfs mountinfo with
  | none =>
    left
    show scanNum - 1 ≠ scanNum
    omega
  | some statfs => exact .inr ⟨statfs, rfl, rfl⟩

section

variable {cfg : Config} {sfsm : StatfsMetrics} {call : Call} {procMountinfo : Mountinfo}
  {mountinfo : StatfsMountinfo} {info : StatfsInfo}

theorem collect_lookup
    (h : (sfsm.collect cfg call procMountinfo).statfsInfo.lookup mountinfo = some info) :
    info.scanNum ≠ sfsm.scanNum + 1 ∨
      ∃ statfs, call.statfs mountinfo = some statfs ∧ info.scanNum = sfsm.scanNum + 1 ∧
        info.statfsBuf sfsm.currIndex = some statfs ∧
        info.statfsBuf (!sfsm.currIndex) = sfsm.statfsInfo.buffers mountinfo !sfsm.currIndex := by
  unfold StatfsMetrics.collect at h
  simp only [lookup_filterMapEntries] at h
  obtain ⟨info', hlookup, hinfo⟩ := bind_eq_some_iff.mp h
  have hinfo := some.inj hinfo
  have hbuffers : info'.statfsBuf = sfsm.statfsInfo.buffers mountinfo := by
    split at hlookup
    · rw [← (foldl_mountinfoPart_buffers cfg call (sfsm.scanNum + 1) procMountinfo.parsedLines
        ([], sfsm.statfsInfo) mountinfo).1, StatfsInfoMap.buffers, hlookup]
      rfl
    · rw [StatfsInfoMap.buffers, hlookup]
      rfl
  rcases statfsPart_cases call (sfsm.scanNum + 1) sfsm.currIndex
    (sfsm.procMountinfo.isNone || procMountinfo.changed) mountinfo info' with hout | ⟨statfs, hstatfs, heq⟩
  · exact .inl (hinfo ▸ hout)
  right
  rw [← hinfo, heq]
  refine ⟨statfs, hstatfs, rfl, update_self _ _ _, ?_⟩
  show update info'.statfsBuf sfsm.currIndex (some statfs) (!sfsm.currIndex) = _
  rw [update_of_ne (Bool.not_ne_self _), hbuffers]

theorem mem_collect (hmem : mountinfo ∈ sfsm.statfsInfo) :
    mountinfo ∈ (sfsm.collect cfg call procMountinfo).statfsInfo := by
  have hmade : mountinfo ∈ if sfsm.procMountinfo.isNone || procMountinfo.changed then
      (procMountinfo.parsedLines.foldl (mountinfoPart cfg call (sfsm.scanNum + 1))
        ([], sfsm.statfsInfo)).2 else sfsm.statfsInfo := by
    split
    · exact (foldl_mountinfoPart_buffers cfg call (sfsm.scanNum + 1) procMountinfo.parsedLines
        ([], sfsm.statfsInfo) mountinfo).2 hmem
    · exact hmem
  obtain ⟨info, hinfo⟩ := mem_iff.mp hmade
  apply mem_of_lookup_eq_some
  unfold StatfsMetrics.collect
  rw [lookup_filterMapEntries, hinfo]
  rfl

end

/-! ## The samples of a call -/

section

variable {f ts scanNum : Int} {currIndex : Bool} {infos : StatfsInfoMap} {mountinfo : StatfsMountinfo}

theorem swept_labels {s : StatfsSample}
    (hs : s ∈ swept (entryPart f ts scanNum currIndex) infos mountinfo) :
    s.labels = mountinfo.labels := by
  unfold swept at hs
  cases hlookup : infos.lookup mountinfo with
  | none =>
    rw [hlookup] at hs
    cases hs
  | some info =>
    rw [hlookup, bind_some] at hs
    unfold entryPart at hs
    split at hs
    · rw [List.mem_singleton.mp hs]
    cases hbuf : info.statfsBuf currIndex with
    | none =>
      rw [hbuf] at hs
      cases hs
    | some curr =>
      rw [hbuf] at hs
      exact (statfsSamples_spec hs).1

end

def StatfsMetrics.part (f : Int) (sfsm : StatfsMetrics) :
    StatfsMountinfo → StatfsInfo → Option (List StatfsSample × Option StatfsInfo) :=
  entryPart f (unixMilli (sfsm.statfsTs sfsm.currIndex)) sfsm.scanNum sfsm.currIndex

section

variable (f : Int) (sfsm : StatfsMetrics) (mountinfo : StatfsMountinfo) {info : StatfsInfo}

theorem part_gone (h : info.scanNum ≠ sfsm.scanNum) :
    sfsm.part f mountinfo info =
      some ([⟨.present, mountinfo.labels, .flag false, unixMilli (sfsm.statfsTs sfsm.currIndex)⟩],
        none) := by
  rw [StatfsMetrics.part, entryPart, if_pos h]

theorem part_kept {curr : StatfsT} (h : info.scanNum = sfsm.scanNum)
    (hcurr : info.statfsBuf sfsm.currIndex = some curr) :
    sfsm.part f mountinfo info =
      some (statfsSamples (unixMilli (sfsm.statfsTs sfsm.currIndex)) mountinfo.labels info.cycleNum curr
          (info.statfsBuf !sfsm.currIndex),
        some { info with cycleNum := nextCycleNum info.cycleNum f }) := by
  rw [StatfsMetrics.part, entryPart, if_neg (not_not.mpr h), hcurr]

end

theorem generateMetrics_eq {f : Int} {order : List StatfsMountinfo} {sfsm : StatfsMetrics}
    (hnodup : order.Nodup) (htotal : ∀ mountinfo ∈ order, ∀ info,
      sfsm.statfsInfo.lookup mountinfo = some info → (sfsm.part f mountinfo info).isSome) :
    ∃ out infos interval, generateMetrics f order sfsm =
        some (out, { sfsm with statfsInfo := infos, currIndex := !sfsm.currIndex }) ∧
      out.buf = order.flatMap (swept (sfsm.part f) sfsm.statfsInfo) ++ interval ∧
      (∀ s ∈ interval, s.metric = .interval) ∧
      ∀ mountinfo, infos.lookup mountinfo =
        if mountinfo ∈ order then remains (sfsm.part f) sfsm.statfsInfo mountinfo
        else sfsm.statfsInfo.lookup mountinfo := by
  obtain ⟨infos, hfold, hlookup⟩ := foldlM_sweep ((Output.empty : Out), sfsm.statfsInfo)
    Output.emit_nil hnodup htotal
  have hbuf := Output.foldl_emit_buf (swept (sfsm.part f) sfsm.statfsInfo) order Output.empty
  unfold generateMetrics
  unfold StatfsMetrics.part at *
  simp only [hfold]
  by_cases hfirst : sfsm.firstTime
  · refine ⟨_, infos, [], rfl, ?_, by simp, hlookup⟩
    simpa [hfirst, Output.count, Output.empty] using hbuf
  refine ⟨_, infos, [⟨.interval, [], .seconds (sfsm.statfsTs sfsm.currIndex -
    sfsm.statfsTs !sfsm.currIndex), unixMilli (sfsm.statfsTs sfsm.currIndex)⟩], rfl, ?_, by simp,
    hlookup⟩
  rw [if_neg hfirst]
  exact congrArg (· ++ [_]) hbuf

/-! ## Runs -/

abbrev PublishedStatfs := Published StatfsMetrics StatfsMetric Bytes

def publishStatfs (cfg : Config) (p : PublishedStatfs) (call : Call) : Option PublishedStatfs :=
  publish (fun sfsm call => (execute cfg sfsm call).toOption) p call

/-- The content of mountinfo is parsed successfully, if it is read, and the loop that writes the
metrics visits each entry once. -/
def CallOk (cfg : Config) (p : PublishedStatfs) (call : Call) : Prop :=
  ∃ procMountinfo, p.state.readMountinfo call.mountinfo = .ok procMountinfo ∧ call.order.Nodup ∧
    ∀ mountinfo, mountinfo ∈ call.order ↔
      mountinfo ∈ (p.state.collect cfg call procMountinfo).statfsInfo

/-- The label sets that are published as present are the ones of the entries. -/
def PresentAreEntries (p : PublishedStatfs) : Prop :=
  ∀ labels, lastPublished p.samples .present labels = some (.flag true) ↔
    ∃ mountinfo ∈ p.state.statfsInfo, mountinfo.labels = labels

def Reports (p : PublishedStatfs) (mountinfo : StatfsMountinfo) (statfs : StatfsT) : Prop :=
  ∀ metric v, statfs.reported metric = some v →
    lastPublished p.samples metric mountinfo.labels = some (.uint v)

/-- `Execute` returns true, and after it the presence metrics show the entries and the other ones the
results of `statfs`. -/
def ShowsResults (cfg : Config) (p : PublishedStatfs) (call : Call) : Prop :=
  ∃ p', publishStatfs cfg p call = some p' ∧ PresentAreEntries p' ∧
    ∀ mountinfo ∈ p'.state.statfsInfo, ∃ statfs, call.statfs mountinfo = some statfs ∧
      Reports p' mountinfo statfs

def LabelsDiffer (call : Call) : Prop :=
  ∀ mountinfo ∈ call.order, ∀ mountinfo' ∈ call.order, mountinfo.labels = mountinfo'.labels →
    mountinfo = mountinfo'

structure StatfsInv (p : PublishedStatfs) : Prop where
  present : PresentAreEntries p
  reports : ∀ mountinfo info, p.state.statfsInfo.lookup mountinfo = some info →
    ∃ statfs, info.statfsBuf (!p.state.currIndex) = some statfs ∧ Reports p mountinfo statfs

theorem unpublished_statfsInv (mountinfoCycleNum : Int) :
    StatfsInv (unpublished (newStatfsMetrics mountinfoCycleNum)) where
  present := fun labels => iff_of_false (fun h => by cases h) fun ⟨_, hmem, _⟩ => notMem_empty hmem
  reports := fun mountinfo info h => by cases h

section

variable {cfg : Config} {p p' : PublishedStatfs} {call : Call}

theorem publishStatfs_eq {procMountinfo : Mountinfo}
    (hread : p.state.readMountinfo call.mountinfo = .ok procMountinfo) (hnodup : call.order.Nodup)
    (hmem : ∀ mountinfo, mountinfo ∈ call.order ↔
      mountinfo ∈ (p.state.collect cfg call procMountinfo).statfsInfo) (hdiffer : LabelsDiffer call) :
    let sfsm := p.state.collect cfg call procMountinfo
    ∃ p', publishStatfs cfg p call = some p' ∧ p'.state.currIndex = !p.state.currIndex ∧
      (∀ mountinfo, p'.state.statfsInfo.lookup mountinfo =
        remains (sfsm.part cfg.fullMetricsFactor) sfsm.statfsInfo mountinfo) ∧
      (∀ mountinfo ∈ call.order, ∀ metric ≠ .interval,
        lastPublished p'.samples metric mountinfo.labels =
          (lastPublished (swept (sfsm.part cfg.fullMetricsFactor) sfsm.statfsInfo mountinfo) metric
            mountinfo.labels).or (lastPublished p.samples metric mountinfo.labels)) ∧
      ∀ labels, (∀ mountinfo ∈ call.order, mountinfo.labels ≠ labels) →
        lastPublished p'.samples .present labels = lastPublished p.samples .present labels := by
  intro sfsm
  have htotal : ∀ mountinfo ∈ call.order, ∀ info, sfsm.statfsInfo.lookup mountinfo = some info →
      (sfsm.part cfg.fullMetricsFactor mountinfo info).isSome := by
    intro mountinfo _ info hinfo
    rcases collect_lookup hinfo with hout | ⟨statfs, -, hscan, hcurr, -⟩
    · rw [part_gone _ sfsm mountinfo hout]
      rfl
    · rw [part_kept _ sfsm mountinfo hscan hcurr]
      rfl
  obtain ⟨out, infos, interval, hgen, hbuf, hinterval, hlookup⟩ := generateMetrics_eq hnodup htotal
  have hexec : execute cfg p.state call =
      .ok (out, { sfsm with statfsInfo := infos, currIndex := !sfsm.currIndex }) := by
    unfold execute
    rw [hread]
    simp only
    rw [hgen]
  have habsent : ∀ mountinfo ∉ call.order, sfsm.statfsInfo.lookup mountinfo = none :=
    fun mountinfo hnotMem => lookup_eq_none.mpr fun hin => hnotMem ((hmem mountinfo).mpr hin)
  have hlast : ∀ metric ≠ .interval, ∀ labels, lastPublished (p.samples ++ out.buf) metric labels =
      (lastPublished (call.order.flatMap (swept (sfsm.part cfg.fullMetricsFactor) sfsm.statfsInfo))
        metric labels).or (lastPublished p.samples metric labels) := by
    intro metric hmetric labels
    have hnone : lastPublished interval metric labels = none :=
      lastPublished_eq_none fun s hs heq => absurd (heq.symm.trans (hinterval s hs)) hmetric
    rw [lastPublished_append, hbuf, lastPublished_append, hnone, none_or]
  refine ⟨⟨{ sfsm with statfsInfo := infos, currIndex := !sfsm.currIndex }, p.samples ++ out.buf⟩, ?_,
    rfl, fun mountinfo => ?_, fun mountinfo hin metric hmetric => ?_, fun labels hlabels => ?_⟩
  · rw [publishStatfs, publish, hexec]
    rfl
  · show infos.lookup mountinfo = _
    rw [hlookup]
    split
    · rfl
    · rename_i hnotMem
      rw [habsent mountinfo hnotMem, (sweep_absent (habsent mountinfo hnotMem)).2]
  · rw [hlast metric hmetric, lastPublished_flatMap hnodup hin]
    exact fun m hm hne s hs _ heq => hne (hdiffer m hm mountinfo hin ((swept_labels hs).symm.trans heq))
  · rw [hlast .present (by decide), lastPublished_eq_none, none_or]
    intro s hs _ heq
    obtain ⟨m, hm, hs⟩ := List.mem_flatMap.mp hs
    exact hlabels m hm ((swept_labels hs).symm.trans heq)

/-- What a call does for an entry: it is gone, or it has the result of `statfs`, which is what has been
published. -/
def Handled (call : Call) (currIndex : Bool) (p' : PublishedStatfs) (mountinfo : StatfsMountinfo) :
    Prop :=
  p'.state.statfsInfo.lookup mountinfo = none ∧
      lastPublished p'.samples .present mountinfo.labels ≠ some (.flag true) ∨
    ∃ statfs info, p'.state.statfsInfo.lookup mountinfo = some info ∧
      call.statfs mountinfo = some statfs ∧ info.statfsBuf currIndex = some statfs ∧
      lastPublished p'.samples .present mountinfo.labels = some (.flag true) ∧
      Reports p' mountinfo statfs

variable (h : StatfsInv p) (hcall : CallOk cfg p call) (hdiffer : LabelsDiffer call)
include h hcall hdiffer

theorem StatfsInv.handled :
    ∃ p', publishStatfs cfg p call = some p' ∧ p'.state.currIndex = !p.state.currIndex ∧
      (∀ mountinfo ∈ call.order, Handled call p.state.currIndex p' mountinfo) ∧
      (∀ mountinfo, mountinfo ∈ p.state.statfsInfo ∨ mountinfo ∈ p'.state.statfsInfo →
        mountinfo ∈ call.order) ∧
      ∀ labels, (∀ mountinfo ∈ call.order, mountinfo.labels ≠ labels) →
        lastPublished p'.samples .present labels = lastPublished p.samples .present labels := by
  obtain ⟨procMountinfo, hread, hnodup, hmem⟩ := hcall
  obtain ⟨p', hp', hindex, hlookup, hlast, hothers⟩ := publishStatfs_eq hread hnodup hmem hdiffer
  refine ⟨p', hp', hindex, fun mountinfo hin => ?_, fun mountinfo hentry => ?_, hothers⟩
  · have hpresent := hlast mountinfo hin .present (by decide)
    obtain ⟨info, hinfo⟩ := mem_iff.mp ((hmem mountinfo).mp hin)
    rcases collect_lookup hinfo with hout | ⟨statfs, hstatfs, hscan, hcurr, hprev⟩
    · left
      obtain ⟨hswept, hremains⟩ := sweep_entry hinfo (part_gone cfg.fullMetricsFactor
        (p.state.collect cfg call procMountinfo) mountinfo hout)
      rw [hlookup, hremains, hpresent, hswept, lastPublished_singleton, if_pos ⟨rfl, rfl⟩, some_or]
      refine ⟨rfl, fun hon => ?_⟩
      cases hon
    · right
      obtain ⟨hswept, hremains⟩ := sweep_entry hinfo (part_kept cfg.fullMetricsFactor
        (p.state.collect cfg call procMountinfo) mountinfo hscan hcurr)
      -- the other buffer is the one of the scan before, for which all has been published
      have hbefore : ∀ prev, info.statfsBuf (!p.state.currIndex) = some prev →
          mountinfo ∈ p.state.statfsInfo ∧ Reports p mountinfo prev := by
        intro prev hprev'
        rw [hprev, StatfsInfoMap.buffers] at hprev'
        cases hold : p.state.statfsInfo.lookup mountinfo with
        | none =>
          rw [hold] at hprev'
          cases hprev'
        | some info' =>
          rw [hold] at hprev'
          obtain ⟨statfs', hbuf, hreports⟩ := h.reports mountinfo info' hold
          obtain rfl := some.inj (hbuf.symm.trans hprev')
          exact ⟨mem_of_lookup_eq_some hold, hreports⟩
      refine ⟨statfs, _, (hlookup mountinfo).trans hremains, hstatfs, hcurr, ?_, ?_⟩
      · rw [hpresent, hswept]
        apply lastPublished_present
        intro hne
        obtain ⟨prev, hprev'⟩ := ne_none_iff_exists'.mp hne
        exact (h.present _).mpr ⟨mountinfo, (hbefore prev hprev').1, rfl⟩
      · intro metric v hv
        rw [hlast mountinfo hin metric (by rintro rfl; cases hv), hswept]
        apply lastPublished_statfsSamples hv
        intro prev hprev' hv'
        exact (hbefore prev hprev').2 metric v hv'
  · by_contra hnotMem
    have habsent := lookup_eq_none.mpr (mt (hmem mountinfo).mpr hnotMem)
    rcases hentry with hold | hnew
    · exact hnotMem ((hmem mountinfo).mpr (mem_collect hold))
    · rw [← lookup_isSome, hlookup, (sweep_absent habsent).2] at hnew
      cases hnew

theorem StatfsInv.step :
    ShowsResults cfg p call ∧ ∀ p', publishStatfs cfg p call = some p' → StatfsInv p' := by
  obtain ⟨p', hp', hindex, hhandled, hentries, hothers⟩ := h.handled hcall hdiffer
  have hkept : ∀ mountinfo info, p'.state.statfsInfo.lookup mountinfo = some info →
      ∃ statfs, call.statfs mountinfo = some statfs ∧
        info.statfsBuf (!p'.state.currIndex) = some statfs ∧ Reports p' mountinfo statfs := by
    intro mountinfo info hinfo
    rcases hhandled mountinfo (hentries mountinfo (.inr (mem_of_lookup_eq_some hinfo))) with
      ⟨hnone, -⟩ | ⟨statfs, info', hinfo', hstatfs, hbuf, -, hreports⟩
    · cases hnone.symm.trans hinfo
    · obtain rfl := some.inj (hinfo'.symm.trans hinfo)
      exact ⟨statfs, hstatfs, by rwa [hindex, Bool.not_not], hreports⟩
  have hpresent : PresentAreEntries p' := by
    intro labels
    by_cases hin : ∃ mountinfo ∈ call.order, mountinfo.labels = labels
    · obtain ⟨mountinfo, hin, rfl⟩ := hin
      rcases hhandled mountinfo hin with ⟨hnone, hoff⟩ | ⟨statfs, info, hinfo, -, -, hon, -⟩
      · refine iff_of_false hoff ?_
        rintro ⟨other, hother, heq⟩
        rw [hdiffer other (hentries other (.inr hother)) mountinfo hin heq] at hother
        exact lookup_eq_none.mp hnone hother
      · exact iff_of_true hon ⟨mountinfo, mem_of_lookup_eq_some hinfo, rfl⟩
    · rw [hothers labels fun mountinfo hmem heq => hin ⟨mountinfo, hmem, heq⟩, h.present]
      constructor
      · rintro ⟨mountinfo, hmem, heq⟩
        exact absurd ⟨mountinfo, hentries mountinfo (.inl hmem), heq⟩ hin
      · rintro ⟨mountinfo, hmem, heq⟩
        exact absurd ⟨mountinfo, hentries mountinfo (.inr hmem), heq⟩ hin
  refine ⟨⟨p', hp', hpresent, fun mountinfo hmem => ?_⟩, fun p'' hp'' => ?_⟩
  · obtain ⟨info, hinfo⟩ := mem_iff.mp hmem
    obtain ⟨statfs, hstatfs, -, hreports⟩ := hkept mountinfo info hinfo
    exact ⟨statfs, hstatfs, hreports⟩
  · obtain rfl := some.inj (hp'.symm.trans hp'')
    exact ⟨hpresent, fun mountinfo info hinfo => (hkept mountinfo info hinfo).imp fun _ => And.right⟩

end

/-- The labels are told apart by the names if there is no quote in those of the file system and its
type. -/
theorem LabelsDiffer.of_names {call : Call}
    (h : ∀ mountinfo ∈ call.order, 34 ∉ mountinfo.fs ∧ 34 ∉ mountinfo.fsType) :
    LabelsDiffer call := by
  rintro ⟨fs, fsType, mountPoint⟩ hin ⟨fs', fsType', mountPoint'⟩ hin' heq
  have htext : ∀ fs fsType mountPoint : Bytes, StatfsMountinfo.labels ⟨fs, fsType, mountPoint⟩ =
      utf8 "fs=\"" ++ (fs ++ 34 :: (utf8 ",fs_type=\"" ++ (fsType ++ 34 ::
        (utf8 ",mount_point=\"" ++ (mountPoint ++ utf8 "\""))))) := by
    intro fs fsType mountPoint
    rw [StatfsMountinfo.labels, show utf8 "\",fs_type=\"" = 34 :: utf8 ",fs_type=\"" by decide +kernel,
      show utf8 "\",mount_point=\"" = 34 :: utf8 ",mount_point=\"" by decide +kernel]
    simp only [List.append_assoc, List.cons_append]
  have hname : ∀ {name name' rest rest' : Bytes}, 34 ∉ name → 34 ∉ name' →
      name ++ 34 :: rest = name' ++ 34 :: rest' → name = name' ∧ rest = rest' := by
    intro name name' rest rest' hname hname' heq
    have hfirst := congrArg (firstLine 34) heq
    have hafter := congrArg (afterLine 34) heq
    rw [firstLine_append_nl hname, firstLine_append_nl hname'] at hfirst
    rw [afterLine_append_nl hname, afterLine_append_nl hname'] at hafter
    exact ⟨hfirst, hafter⟩
  rw [htext, htext, List.append_cancel_left_eq] at heq
  obtain ⟨hfs, htype⟩ := hname (h _ hin).1 (h _ hin').1 heq
  rw [List.append_cancel_left_eq] at htype
  obtain ⟨htype, hpoint⟩ := hname (h _ hin).2 (h _ hin').2 htype
  rw [List.append_cancel_left_eq, List.append_cancel_right_eq] at hpoint
  cases hfs
  cases htype
  rw [hpoint]

/-- As long as the labels of the entries differ, each call returns true and what has been published
after it is what it has found. -/
theorem showsResults_always (cfg : Config) (mountinfoCycleNum : Int) (calls : List Call)
    (hcalls : Always (fun p call p' => publishStatfs cfg p call = some p')
      (fun p call => CallOk cfg p call ∧ LabelsDiffer call)
      (unpublished (newStatfsMetrics mountinfoCycleNum)) calls) :
    Always (fun p call p' => publishStatfs cfg p call = some p') (ShowsResults cfg)
      (unpublished (newStatfsMetrics mountinfoCycleNum)) calls := by
  refine Always.of_invariant (I := StatfsInv) (fun p call h hcall => (h.step hcall.1 hcall.2).1)
    (fun p call p' h hcall hp' => (h.step hcall.1 hcall.2).2 p' hp') (unpublished_statfsInv _) hcalls

def checkCall (cfg : Config) (p : PublishedStatfs) (call : Call) : Bool :=
  (p.state.readMountinfo call.mountinfo).toOption.any fun procMountinfo => call.order.Nodup ∧
    call.order.toFinset = (p.state.collect cfg call procMountinfo).statfsInfo.keys

theorem callOk_of_checkCall {cfg : Config} {p : PublishedStatfs} {call : Call}
    (h : checkCall cfg p call) : CallOk cfg p call := by
  unfold checkCall at h
  cases hread : p.state.readMountinfo call.mountinfo with
  | error stop =>
    rw [hread] at h
    cases h
  | ok procMountinfo =>
    rw [hread] at h
    obtain ⟨hnodup, hkeys⟩ := of_decide_eq_true h
    refine ⟨procMountinfo, hread, hnodup, fun mountinfo => ?_⟩
    rw [← List.mem_toFinset, hkeys, mem_keys]

def mountedRoot : StatfsMountinfo := ⟨utf8 "/dev/sda", utf8 "ext4", utf8 "/mnt"⟩

def mountedHome : StatfsMountinfo := ⟨utf8 "home", utf8 "ext4", utf8 "/home\"s"⟩

def mountsCall (content : Bytes) (order : List StatfsMountinfo) (statfs : Option StatfsT) : Call :=
  { mountinfo := some content
    statfs := fun _ => statfs, timeNow := 0, order, cycleNum := fun _ => 0 }

def rootCall (statfs : Option StatfsT) : Call :=
  mountsCall (utf8 "36 35 8:0 / /mnt rw - ext4 /dev/sda rw\n37 35 8:1 / /home\"s rw - ext4 home rw\n")
    [mountedRoot, mountedHome] statfs

/-- Two mounts are found, have less space at the next call, cannot be reached and are found again. -/
theorem showsResults_two_mounts :
    Always (fun p call p' => publishStatfs ⟨[], [], 12⟩ p call = some p') (ShowsResults ⟨[], [], 12⟩)
      (unpublished (newStatfsMetrics 0))
      [rootCall (some ⟨4096, 100, 50, 40, 10, 5⟩), rootCall (some ⟨4096, 100, 49, 39, 10, 5⟩),
        rootCall none, rootCall (some ⟨4096, 100, 49, 39, 10, 5⟩)] := by
  refine showsResults_always _ _ _ (Always.of_checkRun (fun p call =>
    checkCall ⟨[], [], 12⟩ p call && call.order.all fun m => 34 ∉ m.fs ∧ 34 ∉ m.fsType) ?_
    (by decide +kernel))
  intro p call htest
  obtain ⟨hcall, hnames⟩ := Bool.and_eq_true_iff.mp htest
  exact ⟨callOk_of_checkCall hcall, .of_names (by simpa using hnames)⟩

def quotedMount : StatfsMountinfo :=
  ⟨utf8 "s", utf8 "ext4", utf8 "/a\",fs_type=\"ext4\",mount_point=\"/b"⟩

def quotedFs : StatfsMountinfo :=
  ⟨utf8 "s\",fs_type=\"ext4\",mount_point=\"/a", utf8 "ext4", utf8 "/b"⟩

def quotedFsLine : Bytes := utf8 "37 35 8:1 / /b rw - ext4 s\",fs_type=\"ext4\",mount_point=\"/a rw\n"

/-- Two mounts with the same labels: when one of them goes, it takes the presence of the other with
it. -/
theorem presence_lost_with_other_mount :
    let statfs := some ⟨4096, 100, 50, 40, 10, 5⟩
    let calls := [mountsCall (utf8
          "36 35 8:0 / /a\",fs_type=\"ext4\",mount_point=\"/b rw - ext4 s rw\n" ++ quotedFsLine)
        [quotedMount, quotedFs] statfs, mountsCall quotedFsLine [quotedMount, quotedFs] statfs]
    Always (fun p call p' => publishStatfs ⟨[], [], 12⟩ p call = some p') (CallOk ⟨[], [], 12⟩)
        (unpublished (newStatfsMetrics 11)) calls ∧
      (calls.foldlM (publishStatfs ⟨[], [], 12⟩) (unpublished (newStatfsMetrics 11))).map (fun p =>
        (p.state.statfsInfo.keys, lastPublished p.samples .present quotedFs.labels)) =
          some ({quotedFs}, some (.flag false)) :=
  ⟨Always.of_checkRun (checkCall ⟨[], [], 12⟩) (fun _ _ => callOk_of_checkCall) (by decide +kernel),
    by decide +kernel⟩

end Lsvmi.Statfs
