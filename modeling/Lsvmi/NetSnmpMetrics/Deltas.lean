import Lsvmi.NetSnmpMetrics.Generate
import Lsvmi.Procfs.NetSnmpContent
import Lsvmi.Published
import Lsvmi.Reasoning.Runs

/-!
# The last published deltas

A delta is not published when it is zero and the one before was zero.  What was published last for
a counter is then always its delta at the last scan.
-/

namespace Lsvmi.NetSnmpMetrics

open Procfs Reasoning List ProcNetSnmpMetrics Option

variable {index : Nat}

structure ObjectOk (netSnmp : NetSnmp) : Prop where
  lineInfo : netSnmp.LineInfoOk
  values : netSnmp.values.length = netSnmpNumValues

/-- The object has the values of the variables that are in the content. -/
def HoldsContent (netSnmp : NetSnmp) (buf : Bytes) : Prop :=
  ∀ v i x, variableIndex v = some i → replay (contentValues buf) v = some x →
    netSnmp.values.getD i 0 = x

theorem ObjectOk.parse {netSnmp : NetSnmp} (h : ObjectOk netSnmp) {buf : Bytes}
    (hok : (netSnmp.parse buf).2 = none) :
    ObjectOk (netSnmp.parse buf).1 ∧ HoldsContent (netSnmp.parse buf).1 buf := by
  obtain ⟨hinfo, hvalues⟩ := NetSnmp.parse_spec h.lineInfo buf
  replace hvalues := hvalues hok
  refine ⟨⟨hinfo, ?_⟩, fun v i x hi hx => ?_⟩
  · rw [hvalues, length_foldl_storeAt, h.values]
  have hlt : i < netSnmp.values.length := by
    rw [h.values]
    exact variableIndex_lt hi
  rw [hvalues, getD_eq_getElem?_getD, getElem?_foldl_storeAt variableIndex_inj hi hlt hx]
  rfl

def lastValue (samples : List NetSnmpSample) (metric : NetSnmpMetric) : Option SampleValue :=
  lastPublished samples metric ()

section

variable {ts : Int} {fullCycle zeroDelta : Nat → Bool} {currValues : List UInt32}
  {prevValues : Option (List UInt32)}

theorem metric_of_mem_statPart {s : NetSnmpSample}
    (h : s ∈ (statPart ts fullCycle zeroDelta currValues prevValues index).1) :
    s.metric = .stat index := by
  simp only [statPart] at h
  split at h
  · split at h
    · rw [mem_singleton.mp h]
    · cases h
  split at h
  · cases h
  · split at h
    · rw [mem_singleton.mp h]
    · cases h

theorem statPart_delta {prev : List UInt32} {last : Option SampleValue}
    (h : isNonDelta index = false) (hzero : zeroDelta index → last = some (.uint 0)) :
    (lastValue (statPart ts fullCycle zeroDelta currValues (some prev) index).1
        (.stat index)).or last =
      some (.uint (currValues.getD index 0 - prev.getD index 0).toUInt64) ∧
    (statPart ts fullCycle zeroDelta currValues (some prev) index).2 =
      (currValues.getD index 0 - prev.getD index 0 == 0) := by
  simp only [statPart, h, Bool.false_eq_true, if_false, map_some]
  refine ⟨?_, trivial⟩
  split
  · simp [lastValue, lastPublished_singleton]
  -- it is skipped: it is zero, and so is the last value
  rename_i hskipped
  simp only [Bool.or_eq_true, bne_iff_ne, ne_eq, Bool.not_eq_eq_eq_not, Bool.not_true, not_or,
    Decidable.not_not, Bool.not_eq_false] at hskipped
  obtain ⟨⟨hdelta, -⟩, hremembered⟩ := hskipped
  rw [hdelta, hzero hremembered]
  rfl

end

theorem lastValue_generateMetrics (fullMetricsFactor : Int) (pnsm : ProcNetSnmpMetrics)
    (curr : NetSnmp) (samples : List NetSnmpSample) (hindex : index < curr.values.length) :
    lastValue (samples ++ (generateMetrics fullMetricsFactor pnsm curr).1.buf) (.stat index) =
      (lastValue (pnsm.part curr index).1 (.stat index)).or (lastValue samples (.stat index)) := by
  have hbuf : ∃ interval, (∀ s ∈ interval, s.metric ≠ .stat index) ∧
      (generateMetrics fullMetricsFactor pnsm curr).1.buf =
        ((range curr.values.length).flatMap fun i => (pnsm.part curr i).1) ++ interval := by
    cases hprev : pnsm.prev with
    | none =>
      exact ⟨[], by simp, by simp [generateMetrics, Output.emit, Output.empty, Output.count, hprev]⟩
    | some prev =>
      refine ⟨[⟨.interval, (), .seconds (pnsm.currTs - pnsm.prevTs), unixMilli pnsm.currTs⟩], ?_, ?_⟩
      · intro s hs
        simp [mem_singleton.mp hs]
      · simp [generateMetrics, Output.emit, Output.empty, Output.count, hprev]
  obtain ⟨interval, hinterval, hbuf⟩ := hbuf
  rw [hbuf, lastValue, lastPublished_index hindex ?_ hinterval]
  · rfl
  · intro i hne s hs
    simp [metric_of_mem_statPart hs, hne]

structure State where
  pnsm : ProcNetSnmpMetrics
  samples : List NetSnmpSample

def start (fullMetricsFactor : Int) (counters : Nat → Int) : State :=
  ⟨newProcNetSnmpMetrics fullMetricsFactor counters, []⟩

def step (fullMetricsFactor : Int) (s : State) (scan : Scan) : Option State :=
  (execute fullMetricsFactor s.pnsm scan).map fun r => ⟨r.2, s.samples ++ r.1.buf⟩

structure Inv (s : State) : Prop where
  curr : ∀ curr, s.pnsm.curr = some curr → ObjectOk curr
  prev : ∀ prev, s.pnsm.prev = some prev → ObjectOk prev
  zeroDelta : ∀ index, s.pnsm.zeroDelta.getD index false = true →
    isNonDelta index = false ∧ lastValue s.samples (.stat index) = some (.uint 0)

theorem inv_start (fullMetricsFactor : Int) (counters : Nat → Int) :
    Inv (start fullMetricsFactor counters) := by
  refine ⟨nofun, nofun, fun index h => ?_⟩
  have hfalse := getElem?_getD_replicate_default_eq false netSnmpNumValues index
  exact absurd (hfalse.symm.trans h) Bool.false_ne_true

section

variable (fullMetricsFactor : Int) (pnsm : ProcNetSnmpMetrics) {curr : NetSnmp}
  {samples : List NetSnmpSample}

theorem lastValue_delta (hcurr : ObjectOk curr) {prev : NetSnmp} (hprev : pnsm.prev = some prev)
    (hindex : index < netSnmpNumValues) (hdelta : isNonDelta index = false)
    (hzero : pnsm.zeroDelta.getD index false →
      lastValue samples (.stat index) = some (.uint 0)) :
    lastValue (samples ++ (generateMetrics fullMetricsFactor pnsm curr).1.buf) (.stat index) =
        some (.uint (curr.values.getD index 0 - prev.values.getD index 0).toUInt64) ∧
      (pnsm.part curr index).2 = (curr.values.getD index 0 - prev.values.getD index 0 == 0) := by
  rw [lastValue_generateMetrics _ _ _ _ (by rwa [hcurr.values]), part, hprev]
  exact statPart_delta hdelta hzero

theorem zeroDelta_generateMetrics (hcurr : ObjectOk curr)
    (hzero : ∀ index, pnsm.zeroDelta.getD index false →
      isNonDelta index = false ∧ lastValue samples (.stat index) = some (.uint 0))
    (h : (generateMetrics fullMetricsFactor pnsm curr).2.zeroDelta.getD index false) :
    isNonDelta index = false ∧
      lastValue (samples ++ (generateMetrics fullMetricsFactor pnsm curr).1.buf) (.stat index) =
        some (.uint 0) := by
  have hlist : (generateMetrics fullMetricsFactor pnsm curr).2.zeroDelta =
      (range curr.values.length).map fun i => (pnsm.part curr i).2 := rfl
  by_cases hindex : index < curr.values.length
  · have hpart : (pnsm.part curr index).2 := by
      rwa [hlist, getD_eq_getElem?_getD, getElem?_map, getElem?_range hindex] at h
    cases hnon : isNonDelta index with
    | true =>
      -- no zero is remembered for the values that are not deltas
      have hsame : (pnsm.part curr index).2 = pnsm.zeroDelta.getD index false := by
        simp [part, statPart, hnon]
      have hnone := (hzero index (hsame.symm.trans hpart)).1
      exact absurd (hnone.symm.trans hnon) Bool.false_ne_true
    | false =>
      refine ⟨rfl, ?_⟩
      cases hprev : pnsm.prev with
      | none =>
        have hfirst : pnsm.part curr index = ([], pnsm.zeroDelta.getD index false) := by
          simp [part, hprev, statPart, hnon]
        rw [hfirst] at hpart
        rw [lastValue_generateMetrics _ _ _ _ hindex, hfirst]
        exact (hzero index hpart).2
      | some prev =>
        rw [hcurr.values] at hindex
        obtain ⟨hlast, hflag⟩ := lastValue_delta fullMetricsFactor pnsm hcurr hprev hindex hnon
          fun h => (hzero index h).2
        rw [hflag, beq_iff_eq] at hpart
        rw [hlast, hpart]
        rfl
  · rw [hlist, getD_eq_getElem?_getD, getElem?_map, getElem?_eq_none (by simpa using hindex)] at h
    cases h

end

section

variable {s : State}

theorem objectOk_currProcNetSnmp (h : Inv s) : ObjectOk s.pnsm.currProcNetSnmp := by
  cases hcurr : s.pnsm.curr with
  | some curr =>
    simp only [currProcNetSnmp, hcurr]
    exact h.curr curr hcurr
  | none =>
    cases hprev : s.pnsm.prev with
    | some prev =>
      simp only [currProcNetSnmp, hcurr, hprev]
      obtain ⟨hinfo, hvalues⟩ := h.prev prev hprev
      exact ⟨hinfo.clone false, by simp [NetSnmp.clone, hvalues]⟩
    | none =>
      simp only [currProcNetSnmp, hcurr, hprev]
      exact ⟨NetSnmp.lineInfoOk_new, rfl⟩

theorem updatedPrev_spec (h : Inv s) {curr : NetSnmp} (hcurr : ObjectOk curr) :
    (∀ prev, s.pnsm.updatedPrev curr = some prev → ObjectOk prev) ∧
      (s.pnsm.updatedPrev curr).map NetSnmp.values = s.pnsm.prev.map NetSnmp.values := by
  unfold updatedPrev
  split
  · constructor
    · intro prev hprev
      obtain ⟨old, hold, rfl⟩ := Option.map_eq_some_iff.mp hprev
      exact ⟨hcurr.lineInfo.updateInfo old, (h.prev old hold).values⟩
    · rw [Option.map_map]
      rfl
  · exact ⟨h.prev, rfl⟩

/-- What a scan leaves behind: the object that has parsed is in the previous slot, the other one has
the values it had, and the last values are the deltas. -/
structure Scanned (s : State) (buf : Bytes) (s' : State) : Prop where
  inv : Inv s'
  last : ∃ curr, s'.pnsm.prev = some curr ∧ HoldsContent curr buf ∧
    ∀ prev, s.pnsm.prev = some prev → ∀ index < netSnmpNumValues, isNonDelta index = false →
      lastValue s'.samples (.stat index) =
        some (.uint (curr.values.getD index 0 - prev.values.getD index 0).toUInt64)

theorem scanned_of_step {fullMetricsFactor : Int} {s' : State} {scan : Scan} (h : Inv s)
    (hstep : step fullMetricsFactor s scan = some s') :
    ∃ buf, scan.netSnmp = some buf ∧ Scanned s buf s' := by
  obtain ⟨r, hexecute, rfl⟩ := map_eq_some_iff.mp hstep
  cases hbuf : scan.netSnmp with
  | none =>
    rw [execute, hbuf] at hexecute
    cases hexecute
  | some buf =>
    refine ⟨buf, rfl, ?_⟩
    have hobject := objectOk_currProcNetSnmp h
    rcases hparse : s.pnsm.currProcNetSnmp.parse buf with ⟨curr, _ | e⟩
    · obtain ⟨hcurr, hcontent⟩ := hobject.parse (congrArg Prod.snd hparse)
      rw [hparse] at hcurr hcontent
      obtain ⟨hprev, hvalues⟩ := updatedPrev_spec h hcurr
      simp only [execute, hbuf, hparse, some.injEq] at hexecute
      subst hexecute
      refine ⟨⟨hprev, ?_, ?_⟩, curr, rfl, hcontent, ?_⟩
      · intro last hlast
        cases hlast
        exact hcurr
      · intro index hflag
        exact zeroDelta_generateMetrics fullMetricsFactor
          { s.pnsm with prev := s.pnsm.updatedPrev curr, currTs := scan.timeNow } hcurr
          h.zeroDelta hflag
      intro prev hold index hindex hdelta
      rw [hold, map_some, map_eq_some_iff] at hvalues
      obtain ⟨prev', hprev', hsame⟩ := hvalues
      rw [← hsame]
      exact (lastValue_delta fullMetricsFactor
        { s.pnsm with prev := s.pnsm.updatedPrev curr, currTs := scan.timeNow } hcurr hprev'
        hindex hdelta fun hz => (h.zeroDelta index hz).2).1
    · simp only [execute, hbuf, hparse] at hexecute
      cases hexecute

end

/-- At every scan but the first, the last published value of a variable that is in this content and
in the one before is its delta modulo 2^32. -/
theorem last_published_delta (fullMetricsFactor : Int) (counters : Nat → Int) {scans : List Scan}
    {scan₁ scan₂ : Scan} {buf₁ buf₂ : Bytes} {s : State}
    (hrun : Run (fun s scan s' => step fullMetricsFactor s scan = some s')
      (start fullMetricsFactor counters) (scans ++ [scan₁] ++ [scan₂]) s)
    (hbuf₁ : scan₁.netSnmp = some buf₁) (hbuf₂ : scan₂.netSnmp = some buf₂)
    (hnodup₁ : ((contentValues buf₁).map Prod.fst).Nodup)
    (hnodup₂ : ((contentValues buf₂).map Prod.fst).Nodup)
    {proto name : Bytes} {index : Nat} (hindex : netSnmpIndexMap proto name = some index)
    (hdelta : isNonDelta index = false) {v₁ v₂ : UInt32}
    (hv₁ : ((proto, name), v₁) ∈ contentValues buf₁)
    (hv₂ : ((proto, name), v₂) ∈ contentValues buf₂) :
    lastValue s.samples (.stat index) = some (.uint (v₂ - v₁).toUInt64) := by
  obtain ⟨s₁, hrun₁, hstep₂⟩ := hrun.of_concat
  obtain ⟨s₀, hrun₀, hstep₁⟩ := hrun₁.of_concat
  have hinv : Inv s₀ := by
    refine hrun₀.invariant (inv_start fullMetricsFactor counters) fun _ _ _ h hstep => ?_
    obtain ⟨_, _, hscanned⟩ := scanned_of_step h hstep
    exact hscanned.inv
  obtain ⟨buf, hbuf, hinv₁, prev, hprev, hprevContent, -⟩ := scanned_of_step hinv hstep₁
  rw [hbuf₁] at hbuf
  cases hbuf
  obtain ⟨buf, hbuf, -, curr, -, hcurrContent, hlast⟩ := scanned_of_step hinv₁ hstep₂
  rw [hbuf₂] at hbuf
  cases hbuf
  rw [hlast prev hprev index (variableIndex_lt (v := (proto, name)) hindex) hdelta,
    hcurrContent (proto, name) index v₂ hindex (replay_of_nodup hnodup₂ hv₂),
    hprevContent (proto, name) index v₁ hindex (replay_of_nodup hnodup₁ hv₁)]

/-- A header line appears and another one changes, while the counter wraps around. -/
theorem last_published_delta_new_header :
    ∃ s, Run (fun s scan s' => step 15 s scan = some s') (start 15 fun _ => 1)
        ([] ++ [⟨some (utf8 "Tcp: InSegs\nTcp: 4294967295\n"), 0⟩] ++
          [⟨some (utf8 "Ip: InReceives\nIp: 7\nTcp: OutSegs InSegs\nTcp: 2 3\n"), 1⟩]) s ∧
      lastValue s.samples (.stat 57) = some (.uint (3 - 4294967295 : UInt32).toUInt64) := by
  obtain ⟨s, hrun, -⟩ : ∃ s, Run (fun s scan s' => step 15 s scan = some s') (start 15 fun _ => 1)
      ([] ++ [⟨some (utf8 "Tcp: InSegs\nTcp: 4294967295\n"), 0⟩] ++
        [⟨some (utf8 "Ip: InReceives\nIp: 7\nTcp: OutSegs InSegs\nTcp: 2 3\n"), 1⟩]) s ∧
      (fun _ => true) s = true := Run.exists_of_any (by decide +kernel)
  have hindex : netSnmpIndexMap (utf8 "Tcp") (utf8 "InSegs") = some 57 := by decide +kernel
  have hv₁ : ((utf8 "Tcp", utf8 "InSegs"), 4294967295) ∈
      contentValues (utf8 "Tcp: InSegs\nTcp: 4294967295\n") := by
    decide +kernel
  have hv₂ : ((utf8 "Tcp", utf8 "InSegs"), 3) ∈
      contentValues (utf8 "Ip: InReceives\nIp: 7\nTcp: OutSegs InSegs\nTcp: 2 3\n") := by
    decide +kernel
  exact ⟨s, hrun, last_published_delta 15 _ hrun rfl rfl (by decide +kernel) (by decide +kernel)
    hindex rfl hv₁ hv₂⟩

end Lsvmi.NetSnmpMetrics
