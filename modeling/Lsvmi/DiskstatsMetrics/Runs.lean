import Lsvmi.DiskstatsMetrics.Samples
import Lsvmi.Reasoning.Runs

/-!
# Scans of a changing set of disks

The loop at the end of `generateMetrics` is there to forget the disks that are gone, but it deletes
from the map of the current scan, which is the previous state of the next one.  Here are the runs in
which that does no harm.
-/

namespace Lsvmi.DiskstatsMetrics

open Procfs Reasoning List

variable {prev curr : Diskstats} {gen' gen : ProcDiskstatsMetrics} {before : List DiskLine}

theorem cleanUp_devInfoMap_eq_iff (infos : MetricsInfoMap) (curr : Diskstats) :
    (cleanUp infos curr).devInfoMap = curr.devInfoMap ↔
      infos.keys.card = curr.devInfoMap.keys.card ∨ Disjoint infos.keys curr.devInfoMap.keys := by
  unfold cleanUp
  by_cases hcard : infos.keys.card = curr.devInfoMap.keys.card
  · simp [hcard]
  rw [if_pos hcard, or_iff_right hcard, Finset.disjoint_left]
  constructor
  · intro heq k hinfo hcurr
    rw [Finmap.mem_keys] at hinfo hcurr
    obtain ⟨devInfo, hk⟩ := Finmap.mem_iff.mp hcurr
    rw [← heq] at hk
    exact (lookup_filterMapEntries_ite.mp hk).2 (Finmap.lookup_isSome.mpr hinfo)
  · intro hdisj
    apply Finmap.ext_lookup
    intro k
    rw [lookup_filterMapEntries]
    cases hk : curr.devInfoMap.lookup k with
    | none => rfl
    | some devInfo =>
      have hcurr := Finmap.mem_keys.mpr (Finmap.mem_of_lookup_eq_some hk)
      rw [Option.bind_some, if_neg]
      rw [Finmap.lookup_isSome]
      exact fun hinfo => hdisj (Finmap.mem_keys.mpr hinfo) hcurr

theorem cleanUp_eq {infos : MetricsInfoMap}
    (h : (cleanUp infos curr).devInfoMap = curr.devInfoMap) : cleanUp infos curr = curr := by
  unfold cleanUp at h ⊢
  split
  · rename_i hcard
    rw [if_pos hcard] at h
    simp only at h ⊢
    rw [h]
  · rfl

/-- What `generateMetrics` makes of the object `curr`, with `prev` in the other slot. -/
structure Handled (cfg : Config) (scan : Scan) (pdsm : ProcDiskstatsMetrics) (curr prev : Diskstats)
    (out : Out) (pdsm' : ProcDiskstatsMetrics) : Prop where
  curr_eq : pdsm'.curr = some prev
  prev_eq : pdsm'.prev = some (cleanUp pdsm'.diskstatsMetricsInfo curr)
  mem_infos : ∀ k, k ∈ pdsm'.diskstatsMetricsInfo ↔
    k ∈ pdsm.diskstatsMetricsInfo ∨ (k ∈ scan.order ∧ k ∈ curr.devInfoMap ∧ k ∈ prev.devInfoMap)
  mem_buf : ∀ sample i, sample.metric = .stat i → (sample ∈ out.buf ↔
    ∃ majMin ∈ scan.order, sample ∈ diskSamples cfg scan (unixMilli pdsm.currTs)
      (pdsm.currTs - pdsm.prevTs) curr prev pdsm.diskstatsMetricsInfo majMin)

theorem generateMetrics_loop (cfg : Config) {scan : Scan} {pdsm : ProcDiskstatsMetrics}
    (horder : scan.order.Nodup) (hprev : pdsm.prev = some prev) :
    ∃ (out : Out) (infos : MetricsInfoMap),
      out.buf = scan.order.flatMap (diskSamples cfg scan (unixMilli pdsm.currTs)
        (pdsm.currTs - pdsm.prevTs) curr prev pdsm.diskstatsMetricsInfo) ∧
      (∀ k, k ∈ infos ↔ k ∈ pdsm.diskstatsMetricsInfo ∨
        (k ∈ scan.order ∧ k ∈ curr.devInfoMap ∧ k ∈ prev.devInfoMap)) ∧
      generateMetrics cfg scan pdsm curr =
        ((mountinfoPart cfg (unixMilli pdsm.currTs) curr pdsm out).1.emit
          [⟨.interval, [], .seconds (pdsm.currTs - pdsm.prevTs), unixMilli pdsm.currTs⟩],
        { (mountinfoPart cfg (unixMilli pdsm.currTs) curr pdsm out).2 with
          curr := some (cleanUp infos curr), diskstatsMetricsInfo := infos }.flip) := by
  obtain ⟨hbuf, hinfos⟩ := foldl_diskPart horder (Output.empty, pdsm.diskstatsMetricsInfo)
  refine ⟨_, _, hbuf, hinfos, ?_⟩
  unfold generateMetrics
  rw [hprev]

theorem generateMetrics_handled (cfg : Config) {scan : Scan} (horder : scan.order.Nodup)
    (pdsm : ProcDiskstatsMetrics) (curr : Diskstats) (hprev : pdsm.prev = some prev) :
    Handled cfg scan pdsm curr prev (generateMetrics cfg scan pdsm curr).1
      (generateMetrics cfg scan pdsm curr).2 := by
  obtain ⟨out, infos, hbuf, hinfos, hgen⟩ := generateMetrics_loop cfg horder hprev
  rw [hgen]
  refine ⟨?_, rfl, hinfos, fun sample i hmetric => ?_⟩
  · exact (mountinfoPart_frame cfg _ curr pdsm out).trans hprev
  · rw [mem_emit_of_stat hmetric (by simp), mountinfoPart_buf cfg _ curr pdsm out hmetric, hbuf]
    exact mem_flatMap

section Execute

variable {cfg : Config} {gen : ProcDiskstatsMetrics} {scan : Scan} {buf : Bytes} {curr : Diskstats}

theorem execute_of_parse (scan : Scan) (hbuf : scan.diskstats = some buf)
    (hparse : (gen.currProcDiskstats cfg).parseBuf buf = .ok curr) :
    execute cfg gen scan = some (generateMetrics cfg scan
      { gen.parseMountinfo scan curr with currTs := scan.timeNow } curr) := by
  simp only [execute, hbuf, hparse]

variable (hbuf : scan.diskstats = some buf)
  (hparse : (gen.currProcDiskstats cfg).parseBuf buf = .ok curr)
include hbuf hparse

theorem execute_first (hprev : gen.prev = none) :
    ∃ out gen', execute cfg gen scan = some (out, gen') ∧ gen'.curr = none ∧
      gen'.prev = some curr ∧ gen'.diskstatsMetricsInfo = gen.diskstatsMetricsInfo := by
  obtain ⟨hprev', -, hinfos⟩ := parseMountinfo_frame gen scan curr
  rw [hprev] at hprev'
  let pdsm := { gen.parseMountinfo scan curr with currTs := scan.timeNow }
  have hexec : execute cfg gen scan = some (Output.empty, { pdsm with curr := some curr }.flip) := by
    simp only [execute_of_parse scan hbuf hparse, generateMetrics, hprev']
    rw [← hprev']
  exact ⟨_, _, hexec, hprev', rfl, hinfos⟩

theorem execute_next (hprev : gen.prev = some prev) (horder : scan.order.Nodup) :
    ∃ out gen', execute cfg gen scan = some (out, gen') ∧
      Handled cfg scan { gen with currTs := scan.timeNow } curr prev out gen' := by
  obtain ⟨hprev', hprevTs, hinfos⟩ := parseMountinfo_frame gen scan curr
  let pdsm := { gen.parseMountinfo scan curr with currTs := scan.timeNow }
  have h := generateMetrics_handled cfg horder pdsm curr (hprev'.trans hprev)
  have hexec := execute_of_parse scan hbuf hparse
  generalize generateMetrics cfg scan pdsm curr = result at h hexec
  refine ⟨_, _, hexec, h.curr_eq, h.prev_eq, ?_, ?_⟩
  · simpa only [pdsm, hinfos] using h.mem_infos
  · simpa only [pdsm, hinfos, hprevTs] using h.mem_buf

end Execute

structure Input where
  lines : List DiskLine
  buf : Bytes
  scan : Scan

structure Input.Ok (input : Input) : Prop where
  diskstats_eq : input.scan.diskstats = some input.buf
  wellFormed : WellFormedDiskstats input.lines input.buf
  order_perm : input.scan.order.Perm (input.lines.map DiskLine.majorMinor)

structure RunState where
  gen : ProcDiskstatsMetrics
  last : Option (List DiskLine)

def RunState.start (mountinfoCycleNum : Int) : RunState :=
  ⟨newProcDiskstatsMetrics mountinfoCycleNum, none⟩

def nextState (cfg : Config) (s : RunState) (input : Input) : Option RunState :=
  (execute cfg s.gen input.scan).map fun result => ⟨result.2, some input.lines⟩

def Steps (cfg : Config) (s : RunState) (input : Input) (s' : RunState) : Prop :=
  nextState cfg s input = some s'

def disks (lines : List DiskLine) : Finset Bytes := (lines.map DiskLine.majorMinor).toFinset

def FullCycle (gen : ProcDiskstatsMetrics) (majMin : Bytes) : Prop :=
  ∀ info, gen.diskstatsMetricsInfo.lookup majMin = some info → info.cycleNum = 0

/-- Each counter of a disk in both contents is published as the difference between the two. -/
def DeltasFrom (cfg : Config) (gen : ProcDiskstatsMetrics) (timeNow : Int) (buf : List DiskSample)
    (before now : List DiskLine) : Prop :=
  ∀ line ∈ now, ∀ line' ∈ before, line'.majorMinor = line.majorMinor →
    ∀ i word word', isGauge i = false → line.values[i]? = some word →
      line'.values[i]? = some word' →
      let delta := Diskstats.fieldValue cfg.jiffiesToMillisec i word -
        Diskstats.fieldValue cfg.jiffiesToMillisec i word'
      (∀ sample ∈ buf, sample.metric = .stat i → sample.labels.head? = some line.majorMinor →
        sample.value = deltaValue i delta (timeNow - gen.prevTs)) ∧
      (delta ≠ 0 ∨ FullCycle gen line.majorMinor →
        ∃ sample ∈ buf, sample.metric = .stat i ∧ sample.labels.head? = some line.majorMinor)

/-- The scan keeps the map it parsed, publishes the deltas and keeps no entry for other disks. -/
def ScanOk (cfg : Config) (s : RunState) (input : Input) : Prop :=
  ∃ curr out gen', (s.gen.currProcDiskstats cfg).parseBuf input.buf = .ok curr ∧
    execute cfg s.gen input.scan = some (out, gen') ∧
    gen'.prev.map Diskstats.devInfoMap = some curr.devInfoMap ∧
    (∀ before, s.last = some before →
      DeltasFrom cfg s.gen input.scan.timeNow out.buf before input.lines) ∧
    gen'.diskstatsMetricsInfo.keys ⊆ disks input.lines

/-- No disk that has an entry is gone, and none is new unless all are and there are no entries. -/
def DisksFit (s : RunState) (input : Input) : Prop :=
  ∀ before, s.last = some before → s.gen.diskstatsMetricsInfo.keys ⊆ disks input.lines ∧
    (disks input.lines ⊆ disks before ∨
      s.gen.diskstatsMetricsInfo.keys = ∅ ∧ Disjoint (disks input.lines) (disks before))

structure Holds (cfg : Config) (lines : List DiskLine) (diskstats : Diskstats) : Prop where
  ok : diskstats.Ok
  jiffies_eq : diskstats.jiffiesToMillisec = cfg.jiffiesToMillisec
  keys_eq : diskstats.devInfoMap.keys = disks lines
  reflects : ∀ line ∈ lines, ∃ devInfo,
    diskstats.devInfoMap.lookup line.majorMinor = some devInfo ∧
      Diskstats.Reflects cfg.jiffiesToMillisec line devInfo

structure Inv (cfg : Config) (s : RunState) : Prop where
  curr_ok : ∀ curr, s.gen.curr = some curr →
    curr.Ok ∧ curr.jiffiesToMillisec = cfg.jiffiesToMillisec
  first : s.last = none → s.gen.prev = none ∧ s.gen.diskstatsMetricsInfo = ∅
  next : ∀ before, s.last = some before → ∃ prev, s.gen.prev = some prev ∧ Holds cfg before prev ∧
    s.gen.diskstatsMetricsInfo.keys ⊆ disks before

theorem start_inv (cfg : Config) (mountinfoCycleNum : Int) :
    Inv cfg (.start mountinfoCycleNum) where
  curr_ok := nofun
  first := fun _ => ⟨rfl, rfl⟩
  next := nofun

section

variable {cfg : Config} {s s' : RunState} {input : Input}

theorem Inv.parse (h : Inv cfg s) (hin : input.Ok) :
    ∃ curr, (s.gen.currProcDiskstats cfg).parseBuf input.buf = .ok curr ∧
      Holds cfg input.lines curr := by
  have hobj : (s.gen.currProcDiskstats cfg).Ok ∧
      (s.gen.currProcDiskstats cfg).jiffiesToMillisec = cfg.jiffiesToMillisec := by
    unfold ProcDiskstatsMetrics.currProcDiskstats
    split
    · rename_i curr hcurr
      exact h.curr_ok curr hcurr
    · rename_i prev hcurr hprev
      cases hlast : s.last with
      | none =>
        rw [(h.first hlast).1] at hprev
        cases hprev
      | some before =>
        obtain ⟨prev', hprev', hholds, -⟩ := h.next before hlast
        rw [hprev'] at hprev
        cases hprev
        exact ⟨hholds.ok.clone, hholds.jiffies_eq⟩
    · exact ⟨Diskstats.newDiskstats_ok _, rfl⟩
  obtain ⟨curr, hparse, hok, hj, hmem, hreflects⟩ :=
    Diskstats.parseBuf_wellFormed hobj.1 hin.wellFormed
  rw [hobj.2] at hj hreflects
  refine ⟨curr, hparse, hok, hj, ?_, hreflects⟩
  ext k
  rw [Finmap.mem_keys, hmem, disks, mem_toFinset]

theorem Handled.deltasFrom {out : Out}
    (h : Handled cfg input.scan { gen with currTs := input.scan.timeNow } curr prev out gen')
    (hcurr : Holds cfg input.lines curr) (hprev : Holds cfg before prev) (hin : input.Ok) :
    DeltasFrom cfg gen input.scan.timeNow out.buf before input.lines := by
  intro line hline line' hline' hdisk i word word' hi hword hword'
  obtain ⟨currDevInfo, hcurrInfo, hcurrStats⟩ := hcurr.reflects line hline
  obtain ⟨prevDevInfo, hprevInfo, hprevStats⟩ := hprev.reflects line' hline'
  rw [hdisk] at hprevInfo
  have hcurrVal := hcurrStats.stats_eq i word hword
  have hprevVal := hprevStats.stats_eq i word' hword'
  have hlt : i < diskstatsValueFieldsNum := by
    rw [← hcurrStats.length_eq]
    exact (List.getElem?_eq_some_iff.mp hcurrVal).1
  have hdelta : currDevInfo.stats.getD i 0 - prevDevInfo.stats.getD i 0 =
      Diskstats.fieldValue cfg.jiffiesToMillisec i word -
        Diskstats.fieldValue cfg.jiffiesToMillisec i word' := by
    rw [getD_eq_getElem?_getD, getD_eq_getElem?_getD, hcurrVal, hprevVal]
    rfl
  rw [← hdelta]
  constructor
  · intro sample hsample hmetric hlabel
    obtain ⟨majMin, -, hmem⟩ := (h.mem_buf sample i hmetric).mp hsample
    obtain ⟨hhead, -, hvalue⟩ := diskSamples_spec hmem
    cases hlabel.symm.trans hhead
    exact hvalue _ _ i hcurrInfo hprevInfo hi hmetric
  · intro hpublish
    obtain ⟨sample, hmem, hmetric⟩ := exists_diskSamples cfg input.scan
      (unixMilli input.scan.timeNow) (input.scan.timeNow - gen.prevTs) hcurrInfo hprevInfo hi hlt
      hpublish
    have horder := hin.order_perm.mem_iff.mpr (mem_map_of_mem hline)
    exact ⟨sample, (h.mem_buf sample i hmetric).mpr ⟨_, horder, hmem⟩, hmetric,
      (diskSamples_spec hmem).1⟩

theorem Handled.keys_eq {out : Out}
    (h : Handled cfg input.scan { gen with currTs := input.scan.timeNow } curr prev out gen')
    (hcurr : Holds cfg input.lines curr) (hprev : Holds cfg before prev) (hin : input.Ok) :
    gen'.diskstatsMetricsInfo.keys =
      gen.diskstatsMetricsInfo.keys ∪ (disks input.lines ∩ disks before) := by
  ext k
  have horder : k ∈ input.scan.order ↔ k ∈ disks input.lines := by
    rw [hin.order_perm.mem_iff, disks, mem_toFinset]
  rw [Finmap.mem_keys, h.mem_infos, ← Finmap.mem_keys, ← Finmap.mem_keys, ← Finmap.mem_keys,
    hcurr.keys_eq, hprev.keys_eq, horder, Finset.mem_union, Finset.mem_inter]
  tauto

theorem entries_fit_iff {K D P : Finset Bytes} (hK : K ⊆ P) :
    ((K ∪ D ∩ P).card = D.card ∨ Disjoint (K ∪ D ∩ P) D) ∧ K ∪ D ∩ P ⊆ D ↔
      K ⊆ D ∧ (D ⊆ P ∨ K = ∅ ∧ Disjoint D P) := by
  constructor
  · rintro ⟨hcase, hsub⟩
    refine ⟨Finset.union_subset_left hsub, ?_⟩
    rcases hcase with hcard | hdisj
    · left
      rw [← Finset.eq_of_subset_of_card_le hsub (Nat.le_of_eq hcard.symm)]
      exact Finset.union_subset hK Finset.inter_subset_right
    right
    have hempty : K ∪ D ∩ P = ∅ := Finset.disjoint_self_iff_empty _ |>.mp (hdisj.mono_right hsub)
    rw [Finset.union_eq_empty] at hempty
    exact ⟨hempty.1, Finset.disjoint_iff_inter_eq_empty.mpr hempty.2⟩
  · rintro ⟨hKD, hDP | ⟨rfl, hdisj⟩⟩
    · have heq : K ∪ D ∩ P = D := by
        rw [Finset.inter_eq_left.mpr hDP, Finset.union_eq_right.mpr hKD]
      rw [heq]
      exact ⟨.inl rfl, subset_rfl⟩
    · rw [Finset.disjoint_iff_inter_eq_empty.mp hdisj]
      exact ⟨.inr (by simp), by simp⟩

theorem Inv.scanOk_iff (h : Inv cfg s) (hin : input.Ok) : ScanOk cfg s input ↔ DisksFit s input := by
  obtain ⟨curr, hparse, hcurr⟩ := h.parse hin
  cases hlast : s.last with
  | none =>
    obtain ⟨hprev, hinfos⟩ := h.first hlast
    obtain ⟨out, gen', hexec, -, hprev', hinfos'⟩ := execute_first hin.diskstats_eq hparse hprev
    unfold ScanOk DisksFit
    simp [hparse, hexec, hlast, hprev', hinfos', hinfos]
  | some before =>
    obtain ⟨prev, hprev, hholds, hsub⟩ := h.next before hlast
    obtain ⟨out, gen', hexec, hhandled⟩ := execute_next hin.diskstats_eq hparse hprev
      (hin.order_perm.nodup_iff.mpr hin.wellFormed.nodup)
    have hkeys := hhandled.keys_eq hcurr hholds hin
    have hframe : gen'.prev.map Diskstats.devInfoMap = some curr.devInfoMap ↔
        (gen'.diskstatsMetricsInfo.keys.card = (disks input.lines).card ∨
          Disjoint gen'.diskstatsMetricsInfo.keys (disks input.lines)) := by
      rw [hhandled.prev_eq, Option.map_some, Option.some_inj, cleanUp_devInfoMap_eq_iff,
        hcurr.keys_eq]
    have hfit := entries_fit_iff (D := disks input.lines) hsub
    rw [← hkeys, ← hframe] at hfit
    unfold ScanOk DisksFit
    simpa [hparse, hexec, hlast, hhandled.deltasFrom hcurr hholds hin] using hfit

theorem Inv.step (h : Inv cfg s) (hin : input.Ok) (hfit : DisksFit s input)
    (hstep : Steps cfg s input s') : Inv cfg s' := by
  obtain ⟨curr, out, gen', hparse, hexec, hkept, -, hstale⟩ := (h.scanOk_iff hin).mpr hfit
  obtain ⟨curr₁, hparse₁, hcurr⟩ := h.parse hin
  rw [Steps, nextState, hexec] at hstep
  rw [hparse] at hparse₁
  cases hparse₁
  cases hstep
  have hslots : gen'.prev = some curr ∧ ∀ old, gen'.curr = some old →
      ∃ before, Holds cfg before old := by
    cases hlast : s.last with
    | none =>
      obtain ⟨out₂, gen₂, hexec₂, hcurr₂, hprev₂, -⟩ :=
        execute_first hin.diskstats_eq hparse (h.first hlast).1
      rw [hexec] at hexec₂
      cases hexec₂
      exact ⟨hprev₂, fun old hold => by rw [hcurr₂] at hold; cases hold⟩
    | some before =>
      obtain ⟨prev, hprev, hholds, -⟩ := h.next before hlast
      obtain ⟨out₂, gen₂, hexec₂, hhandled⟩ := execute_next hin.diskstats_eq hparse hprev
        (hin.order_perm.nodup_iff.mpr hin.wellFormed.nodup)
      rw [hexec] at hexec₂
      cases hexec₂
      constructor
      · rw [hhandled.prev_eq, Option.map_some, Option.some_inj] at hkept
        rw [hhandled.prev_eq, cleanUp_eq hkept]
      · intro old hold
        rw [hhandled.curr_eq] at hold
        cases hold
        exact ⟨before, hholds⟩
  refine ⟨?_, nofun, ?_⟩
  · intro old hold
    obtain ⟨before, hbefore⟩ := hslots.2 old hold
    exact ⟨hbefore.ok, hbefore.jiffies_eq⟩
  · intro lines hlines
    cases hlines
    exact ⟨curr, hslots.1, hcurr, hstale⟩

end

/-- The disks fit, and every scan is right, as long as all the contents have the same disks. -/
theorem always_of_fixed_disks (cfg : Config) (mountinfoCycleNum : Int) (D : Finset Bytes)
    {inputs : List Input} (hok : ∀ input ∈ inputs, input.Ok ∧ disks input.lines = D) :
    Always (Steps cfg) (fun s input => DisksFit s input ∧ ScanOk cfg s input)
      (.start mountinfoCycleNum) inputs := by
  let I : RunState → Prop := fun s => Inv cfg s ∧ ∀ before, s.last = some before → disks before = D
  have hfit : ∀ s input, I s → input.Ok ∧ disks input.lines = D → DisksFit s input := by
    rintro s input ⟨hinv, hlast⟩ ⟨-, hD⟩ before hbefore
    obtain ⟨-, -, -, hsub⟩ := hinv.next before hbefore
    rw [hlast before hbefore] at hsub ⊢
    rw [hD]
    exact ⟨hsub, .inl subset_rfl⟩
  refine Always.of_invariant (I := I) (fun s input hI hin => ?_) ?_
    ⟨start_inv cfg mountinfoCycleNum, nofun⟩ (Always.of_forall_mem hok _)
  · have hdisks := hfit s input hI hin
    exact ⟨hdisks, (hI.1.scanOk_iff hin.1).mpr hdisks⟩
  intro s input s' hI hin hstep
  refine ⟨hI.1.step hin.1 (hfit s input hI hin) hstep, ?_⟩
  intro before hbefore
  obtain ⟨result, -, rfl⟩ := Option.map_eq_some_iff.mp hstep
  cases hbefore
  exact hin.2

/-- Every scan of a run keeps the map it parsed, publishes the deltas between its content and the
one before and keeps no entry for a disk that is gone, just if the disks fit at every scan. -/
theorem scans_ok_iff_disks_fit (cfg : Config) (mountinfoCycleNum : Int) {inputs : List Input}
    (hok : ∀ input ∈ inputs, input.Ok) :
    Always (Steps cfg) (ScanOk cfg) (.start mountinfoCycleNum) inputs ↔
      Always (Steps cfg) DisksFit (.start mountinfoCycleNum) inputs :=
  Always.iff_of_invariant (fun _ _ hinv hin => hinv.scanOk_iff hin)
    (fun _ _ _ hinv hin hfit hstep => hinv.step hin hfit hstep) (start_inv cfg mountinfoCycleNum)
    (Always.of_forall_mem hok _)

def Input.ofLines (timeNow : Int) (lines : List DiskLine) : Input :=
  let buf := lines.flatMap fun line => line.words.flatMap (· ++ [32]) ++ [newline]
  { lines, buf, scan :=
    { diskstats := some buf, mountinfo := none, timeNow, order := lines.map DiskLine.majorMinor
      cycleNum := fun _ => 0 } }

theorem Input.ofLines_ok {timeNow : Int} {disks : List DiskLine}
    (hwords : (Reasoning.lines newline (ofLines timeNow disks).buf).map (fields isWhitespace) =
      disks.map DiskLine.words)
    (hok : ∀ disk ∈ disks, disk.Ok) (hnodup : (disks.map DiskLine.majorMinor).Nodup) :
    (Input.ofLines timeNow disks).Ok :=
  ⟨rfl, ⟨hwords, hok, hnodup⟩, .refl _⟩

def sdLine (minor reads : UInt8) : DiskLine :=
  ⟨[56], [minor], [115, 100, minor], [reads] :: List.replicate 9 [48]⟩

def plainConfig : Config := ⟨15, 0⟩

theorem scans_ok_iff_disks_fit_one_disk :
    Always (Steps plainConfig) (ScanOk plainConfig) (.start 0)
      [.ofLines 0 [sdLine 48 49], .ofLines 1000 [sdLine 48 51]] := by
  have hok : ∀ input ∈ [Input.ofLines 0 [sdLine 48 49], .ofLines 1000 [sdLine 48 51]],
      input.Ok ∧ disks input.lines = disks [sdLine 48 49] := by
    intro input hinput
    simp only [mem_cons, not_mem_nil, or_false] at hinput
    rcases hinput with rfl | rfl
    all_goals exact ⟨Input.ofLines_ok (by decide) (by decide +kernel) (by decide), rfl⟩
  exact (scans_ok_iff_disks_fit plainConfig 0 fun input hinput => (hok input hinput).1).mpr
    (Always.of_invariant (I := fun _ => True) (fun _ _ _ h => h.1) (fun _ _ _ _ _ _ => trivial)
      trivial (always_of_fixed_disks plainConfig 0 _ hok))

/-- A second disk comes at the second scan, and the first one reads before the third. -/
def newDiskInputs : List Input :=
  [.ofLines 0 [sdLine 48 49], .ofLines 1000 [sdLine 48 49, sdLine 49 49],
    .ofLines 2000 [sdLine 48 51, sdLine 49 49]]

/-- The clean-up of the second scan deletes the first disk, and the third one has no delta for it. -/
theorem new_disk_loses_old_one : (∀ input ∈ newDiskInputs, input.Ok) ∧
    ¬ Always (Steps plainConfig) (ScanOk plainConfig) (.start 0) newDiskInputs := by
  constructor
  · intro input hinput
    simp only [newDiskInputs, mem_cons, not_mem_nil, or_false] at hinput
    rcases hinput with rfl | rfl | rfl
    all_goals exact Input.ofLines_ok (by decide) (by decide +kernel) (by decide)
  rintro ⟨⟨_, out₁, gen₁, -, hexec₁, -⟩, h⟩
  obtain ⟨⟨_, out₂, gen₂, -, hexec₂, -⟩, h⟩ :=
    h ⟨gen₁, _⟩ (Option.map_eq_some_iff.mpr ⟨_, hexec₁, rfl⟩)
  obtain ⟨⟨_, out₃, gen₃, -, hexec₃, -, hdeltas, -⟩, -⟩ :=
    h ⟨gen₂, _⟩ (Option.map_eq_some_iff.mpr ⟨_, hexec₂, rfl⟩)
  have heval : ((newDiskInputs.foldlM (fun state input => execute plainConfig state.2 input.scan)
      ((Output.empty : Out), newProcDiskstatsMetrics 0)).map fun state =>
        state.1.buf.any fun sample =>
          sample.metric = .stat 0 && sample.labels.head? = some [56, 58, 48]) = some false := by
    decide +kernel
  have hlost : ∀ sample ∈ out₃.buf, sample.metric = .stat 0 →
      sample.labels.head? ≠ some [56, 58, 48] := by
    simp only [RunState.start] at hexec₁
    simpa [newDiskInputs, hexec₁, hexec₂, hexec₃] using heval
  obtain ⟨sample, hmem, hmetric, hlabel⟩ := (hdeltas _ rfl (sdLine 48 51) (by simp [Input.ofLines])
    (sdLine 48 49) (by simp [Input.ofLines]) rfl 0 _ _ rfl rfl rfl).2 (.inl (by decide))
  exact hlost sample hmem hmetric hlabel

end Lsvmi.DiskstatsMetrics
