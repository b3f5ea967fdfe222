import Mathlib.Algebra.Group.Nat.Defs
import Mathlib.Algebra.Ring.Int.Defs
import Lsvmi.NetSnmp6Metrics.Generate
import Lsvmi.Procfs.NetSnmp6Names
import Lsvmi.Published
import Lsvmi.Reasoning.Runs

/-!
# The deltas of 32-bit counters

`NewNetSnmp6` and `Clone` copy the flags for 32-bit counters the wrong way round: the shared table
is cleared, and no object ever has a flag.  A counter that wraps around between two scans is then
taken for a 64-bit one.
-/

namespace Lsvmi.NetSnmp6Metrics

open Procfs Procfs.NetSnmp6 Reasoning Option List

variable (fullMetricsFactor : Int)

theorem netSnmp6IndexMap_lt {name : Bytes} {i : Nat} (h : netSnmp6IndexMap name = some i) :
    i < netSnmp6NumValues := by
  obtain ⟨hlt, -⟩ := idxOf?_eq_some_iff.mp h
  rw [length_map] at hlt
  exact hlt

theorem netSnmp6IndexMap_inj (name name' : Bytes) (i : Nat) (h : netSnmp6IndexMap name = some i)
    (h' : netSnmp6IndexMap name' = some i) : name = name' := by
  obtain ⟨_, hname, -⟩ := idxOf?_eq_some_iff.mp h
  obtain ⟨_, hname', -⟩ := idxOf?_eq_some_iff.mp h'
  exact hname.symm.trans hname'

def HoldsValues (values : List UInt64) (vs : List (Bytes × UInt64)) : Prop :=
  ∀ name i v, netSnmp6IndexMap name = some i → replay vs name = some v → values.getD i 0 = v

theorem holdsValues_foldl {values : List UInt64} (hlength : values.length = netSnmp6NumValues)
    (vs : List (Bytes × UInt64)) : HoldsValues (vs.foldl storeVariable values) vs := by
  intro name i v hi hv
  have hlt : i < values.length := by
    rw [hlength]
    exact netSnmp6IndexMap_lt hi
  rw [getD_eq_getElem?_getD, storeVariable, getElem?_foldl_storeAt netSnmp6IndexMap_inj hi hlt hv]
  rfl

/-- An object of the generator: it has no flags. -/
structure ObjectOk (netSnmp6 : NetSnmp6) : Prop where
  remembers : ∃ contents, Remembers netSnmp6 contents
  isUint32 : netSnmp6.isUint32 = List.replicate netSnmp6NumValues false

theorem ObjectOk.clone {netSnmp6 : NetSnmp6} (h : ObjectOk netSnmp6) :
    ObjectOk (netSnmp6.clone false).1 ∧ ObjectOk (netSnmp6.clone false).2 := by
  obtain ⟨contents, hremembers⟩ := h.remembers
  refine ⟨⟨⟨contents, hremembers.clone false⟩, ?_⟩, ⟨contents, hremembers.1, hremembers.2⟩, ?_⟩
  · simp [NetSnmp6.clone, h.isUint32]
  · simp [NetSnmp6.clone, copySlice, h.isUint32]

theorem ObjectOk.parse {netSnmp6 : NetSnmp6} (h : ObjectOk netSnmp6) {buf : Bytes}
    (hok : (netSnmp6.parse buf).2 = none) :
    ObjectOk (netSnmp6.parse buf).1 ∧
      HoldsValues (netSnmp6.parse buf).1.values (readContent buf).read := by
  obtain ⟨contents, hremembers⟩ := h.remembers
  refine ⟨⟨⟨contents ++ [buf], hremembers.parse (length_of_parse hok)⟩, ?_⟩, ?_⟩
  · rw [(parse_keeps netSnmp6 buf).isUint32, h.isUint32]
  · rw [hremembers.parse_values hok]
    exact holdsValues_foldl hremembers.values _

structure Objects (pnsm6 : ProcNetSnmp6Metrics) : Prop where
  curr : ∀ curr, pnsm6.curr = some curr → ObjectOk curr
  prev : ∀ prev, pnsm6.prev = some prev → ObjectOk prev

theorem prepare_spec {pnsm6 : ProcNetSnmp6Metrics} (h : Objects pnsm6) :
    ObjectOk pnsm6.prepare.1 ∧ (∀ prev, pnsm6.prepare.2.prev = some prev → ObjectOk prev) ∧
      pnsm6.prepare.2.prev.map NetSnmp6.values = pnsm6.prev.map NetSnmp6.values ∧
      pnsm6.prepare.2.zeroDelta = pnsm6.zeroDelta := by
  cases hcurr : pnsm6.curr with
  | some curr =>
    simp only [ProcNetSnmp6Metrics.prepare, hcurr]
    exact ⟨h.curr curr hcurr, h.prev, trivial, trivial⟩
  | none =>
    cases hprev : pnsm6.prev with
    | some prev =>
      simp only [ProcNetSnmp6Metrics.prepare, hcurr, hprev]
      obtain ⟨hclone, hold⟩ := (h.prev prev hprev).clone
      exact ⟨hclone, fun prev' h => some.inj h ▸ hold, rfl, trivial⟩
    | none =>
      simp only [ProcNetSnmp6Metrics.prepare, hcurr, hprev]
      exact ⟨⟨⟨[], remembers_new _⟩, rfl⟩, nofun, trivial, trivial⟩

theorem generateMetrics_slots (pnsm6 : ProcNetSnmp6Metrics) (curr : NetSnmp6) :
    (generateMetrics fullMetricsFactor pnsm6 curr).2.prev = some curr ∧
      (generateMetrics fullMetricsFactor pnsm6 curr).2.curr = pnsm6.prev := by
  cases hprev : pnsm6.prev with
  | none | some prev => simp [generateMetrics, hprev, ProcNetSnmp6Metrics.next, ProcNetSnmp6Metrics.flip]

theorem delta_of_no_flags {curr : NetSnmp6} (h : ObjectOk curr) (prev : NetSnmp6) (index : Nat) :
    delta curr prev index = curr.values.getD index 0 - prev.values.getD index 0 := by
  have hflag : curr.isUint32.getD index false = false := by
    rw [h.isUint32]
    exact getElem?_getD_replicate_default_eq _ _ index
  simp only [delta, hflag, Bool.false_and, Bool.false_eq_true, if_false]

/-- What was published last for the index is the delta `d`, or the rate that is computed from it. -/
def LastDelta (samples : List NetSnmp6Sample) (index : Nat) (d : UInt64) : Prop :=
  ∃ elapsed, lastPublished samples (.stat index) () = some (deltaValue index d elapsed)

section

variable {pnsm6 : ProcNetSnmp6Metrics} {curr prev : NetSnmp6} {samples : List NetSnmp6Sample}
  {index : Nat}

theorem LastDelta.unique {d d' : UInt64} (h : LastDelta samples index d)
    (h' : LastDelta samples index d') : d = d' := by
  obtain ⟨elapsed, h⟩ := h
  obtain ⟨elapsed', h'⟩ := h'
  have heq := some.inj (h.symm.trans h')
  unfold deltaValue at heq
  split at heq <;> cases heq <;> rfl

theorem statSamples_last (ts elapsed : Int)
    (hzero : pnsm6.zeroDelta.getD index false → LastDelta samples index 0) :
    ∃ e, (lastPublished (statSamples pnsm6 curr prev ts elapsed index) (.stat index) ()).or
      (lastPublished samples (.stat index) ()) =
        some (deltaValue index (delta curr prev index) e) := by
  simp only [statSamples]
  split
  · exact ⟨elapsed, by simp [lastPublished_singleton]⟩
  -- it is skipped: it is zero, and so is the last one
  rename_i hskipped
  simp only [Bool.or_eq_true, bne_iff_ne, ne_eq, Bool.not_eq_eq_eq_not, Bool.not_true, not_or,
    Decidable.not_not, Bool.not_eq_false] at hskipped
  obtain ⟨⟨hdelta, -⟩, hremembered⟩ := hskipped
  rw [hdelta]
  exact hzero hremembered

theorem metric_of_mem_statSamples {ts elapsed : Int} {s : NetSnmp6Sample}
    (h : s ∈ statSamples pnsm6 curr prev ts elapsed index) : s.metric = .stat index := by
  simp only [statSamples] at h
  split at h
  · rw [mem_singleton.mp h]
  · cases h

theorem lastDelta_generateMetrics (hprev : pnsm6.prev = some prev)
    (hindex : index < curr.values.length)
    (hzero : pnsm6.zeroDelta.getD index false → LastDelta samples index 0) :
    LastDelta (samples ++ (generateMetrics fullMetricsFactor pnsm6 curr).1.buf) index
      (delta curr prev index) := by
  have hbuf : (generateMetrics fullMetricsFactor pnsm6 curr).1.buf =
      (range curr.values.length).flatMap (statSamples { pnsm6 with curr := some curr } curr prev
        (unixMilli pnsm6.currTs) (pnsm6.currTs - pnsm6.prevTs)) ++
      [⟨.interval, (), .seconds (pnsm6.currTs - pnsm6.prevTs), unixMilli pnsm6.currTs⟩] := by
    simp [generateMetrics, hprev, Output.emit, Output.empty, Output.count]
  unfold LastDelta
  rw [hbuf, lastPublished_index hindex]
  · exact statSamples_last _ _ hzero
  · intro i hne s hs
    simp [metric_of_mem_statSamples hs, hne]
  · simp

theorem zeroDelta_generateMetrics
    (hzero : ∀ index, pnsm6.zeroDelta.getD index false → LastDelta samples index 0)
    (h : (generateMetrics fullMetricsFactor pnsm6 curr).2.zeroDelta.getD index false) :
    LastDelta (samples ++ (generateMetrics fullMetricsFactor pnsm6 curr).1.buf) index 0 := by
  cases hprev : pnsm6.prev with
  | none =>
    -- the first scan publishes nothing
    simp only [generateMetrics, hprev] at h ⊢
    rw [show (Output.count Output.empty _).buf = ([] : List NetSnmp6Sample) from rfl, append_nil]
    exact hzero index h
  | some prev =>
    have hlist : (generateMetrics fullMetricsFactor pnsm6 curr).2.zeroDelta =
        (range curr.values.length).map fun index => delta curr prev index == 0 := by
      simp only [generateMetrics, hprev]
      rfl
    rw [hlist, getD_eq_getElem?_getD, getElem?_map] at h
    by_cases hindex : index < curr.values.length
    · rw [getElem?_range hindex, map_some, getD_some, beq_iff_eq] at h
      have hlast := lastDelta_generateMetrics fullMetricsFactor hprev hindex (hzero index)
      rwa [h] at hlast
    · rw [getElem?_eq_none (by simpa using hindex)] at h
      cases h

end

abbrev State := Published ProcNetSnmp6Metrics NetSnmp6Metric Unit

def start (fullMetricsFactor : Int) (counters : Nat → Int) : State :=
  unpublished (newProcNetSnmp6Metrics fullMetricsFactor counters)

structure Inv (p : State) : Prop where
  objects : Objects p.state
  zeroDelta : ∀ index, p.state.zeroDelta.getD index false → LastDelta p.samples index 0

theorem inv_start (counters : Nat → Int) : Inv (start fullMetricsFactor counters) := by
  refine ⟨⟨nofun, nofun⟩, fun index h => ?_⟩
  have hfalse := getElem?_getD_replicate_default_eq false netSnmp6NumValues index
  exact absurd (hfalse.symm.trans h) Bool.false_ne_true

/-- The object that has parsed is in the previous slot after a scan, and what was published last are
the differences of its values and of those that were in that slot before. -/
theorem step_spec {fullMetricsFactor : Int} {p p' : State} {scan : Scan} (h : Inv p)
    (hstep : publish (execute fullMetricsFactor) p scan = some p') :
    Inv p' ∧ ∃ buf curr, scan.netSnmp6 = some buf ∧ p'.state.prev = some curr ∧
      HoldsValues curr.values (readContent buf).read ∧
      ∀ prev, p.state.prev = some prev → ∀ index < netSnmp6NumValues,
        LastDelta p'.samples index (curr.values.getD index 0 - prev.values.getD index 0) := by
  obtain ⟨r, hexecute, rfl⟩ := map_eq_some_iff.mp hstep
  obtain ⟨hobject, hprev, hsame, hzero⟩ := prepare_spec h.objects
  cases hbuf : scan.netSnmp6 with
  | none =>
    rw [execute, hbuf] at hexecute
    cases hexecute
  | some buf =>
    rcases hparse : p.state.prepare.1.parse buf with ⟨curr, _ | e⟩
    · obtain ⟨hcurr, hvalues⟩ := hobject.parse (congrArg Prod.snd hparse)
      rw [hparse] at hcurr hvalues
      simp only [execute, hbuf, hparse, some.injEq] at hexecute
      subst hexecute
      replace hzero := hzero.symm ▸ h.zeroDelta
      obtain ⟨_, hremembers⟩ := hcurr.remembers
      obtain ⟨hslot, hslot'⟩ := generateMetrics_slots fullMetricsFactor
        { p.state.prepare.2 with currTs := scan.timeNow } curr
      refine ⟨⟨⟨fun other hother => hprev other (hslot'.symm.trans hother), ?_⟩, fun index =>
        zeroDelta_generateMetrics fullMetricsFactor hzero⟩, buf, curr, rfl, hslot, hvalues, ?_⟩
      · intro last hlast
        rw [hslot] at hlast
        cases hlast
        exact hcurr
      · intro prev hold index hindex
        rw [hold, map_some, map_eq_some_iff] at hsame
        obtain ⟨other, hother, hsame⟩ := hsame
        rw [← hsame, ← delta_of_no_flags hcurr]
        exact lastDelta_generateMetrics fullMetricsFactor hother (hremembers.values.symm ▸ hindex)
          (hzero index)
    · simp only [execute, hbuf, hparse] at hexecute
      cases hexecute

/-- The 64-bit difference of 32-bit counters is the 32-bit one exactly when the counter has not
wrapped around. -/
theorem sub_toNat_eq_iff {curr prev : UInt64} (hcurr : curr.toNat < 2 ^ 32)
    (hprev : prev.toNat < 2 ^ 32) :
    ((curr - prev).toNat : Int) = ((curr.toNat : Int) - prev.toNat) % 2 ^ 32 ↔ prev ≤ curr := by
  rw [UInt64.toNat_sub, UInt64.le_iff_toNat_le]
  omega

/-- The delta that was published last for a counter, after two scans in a row at which it is below
2^32, is the difference modulo 2^32 exactly when the counter has not become smaller; the declaration
as a 32-bit counter makes no difference. -/
theorem uint32_delta_iff (fullMetricsFactor : Int) (counters : Nat → Int) {scans : List Scan}
    {scan₁ scan₂ : Scan} {buf₁ buf₂ : Bytes} {p : State}
    (hrun : Run (fun p scan p' => publish (execute fullMetricsFactor) p scan = some p')
      (start fullMetricsFactor counters) (scans ++ [scan₁] ++ [scan₂]) p)
    (hbuf₁ : scan₁.netSnmp6 = some buf₁) (hbuf₂ : scan₂.netSnmp6 = some buf₂)
    {name : Bytes} {index : Nat} (hindex : netSnmp6IndexMap name = some index)
    {prev curr : UInt64} (hprev : replay (readContent buf₁).read name = some prev)
    (hcurr : replay (readContent buf₂).read name = some curr)
    (hprevLt : prev.toNat < 2 ^ 32) (hcurrLt : curr.toNat < 2 ^ 32) :
    (∃ d, LastDelta p.samples index d ∧
        (d.toNat : Int) = ((curr.toNat : Int) - prev.toNat) % 2 ^ 32) ↔
      prev ≤ curr := by
  obtain ⟨p₁, hrun₁, hstep₂⟩ := hrun.of_concat
  obtain ⟨p₀, hrun₀, hstep₁⟩ := hrun₁.of_concat
  have hinv₀ : Inv p₀ := hrun₀.invariant (inv_start fullMetricsFactor counters)
    fun _ _ _ h hstep => (step_spec h hstep).1
  obtain ⟨hinv₁, buf, first, hbuf, hfirst, hvalues₁, -⟩ := step_spec hinv₀ hstep₁
  rw [hbuf₁] at hbuf
  cases hbuf
  obtain ⟨-, buf, second, hbuf, -, hvalues₂, hlast⟩ := step_spec hinv₁ hstep₂
  rw [hbuf₂] at hbuf
  cases hbuf
  have hdelta := hlast first hfirst index (netSnmp6IndexMap_lt hindex)
  rw [hvalues₁ name index prev hindex hprev, hvalues₂ name index curr hindex hcurr] at hdelta
  rw [← sub_toNat_eq_iff hcurrLt hprevLt]
  constructor
  · rintro ⟨d, hd, hmod⟩
    rwa [hd.unique hdelta] at hmod
  · exact fun hmod => ⟨_, hdelta, hmod⟩

/-- A declared counter that goes on counting. -/
theorem uint32_delta_growing :
    netSnmp6IsUint32[32]? = some true ∧
      ∃ p, Run (fun p scan p' => publish (execute 15) p scan = some p') (start 15 fun _ => 0)
          ([] ++ [⟨some (utf8 "Icmp6InMsgs 1\n"), 0⟩] ++
            [⟨some (utf8 "Icmp6InMsgs 4294967295\n"), 1⟩]) p ∧
        ∃ d, LastDelta p.samples 32 d ∧
          (d.toNat : Int) =
            (((4294967295 : UInt64).toNat : Int) - (1 : UInt64).toNat) % 2 ^ 32 := by
  obtain ⟨p, hrun, -⟩ : ∃ p, Run (fun p scan p' => publish (execute 15) p scan = some p')
      (start 15 fun _ => 0) ([] ++ [⟨some (utf8 "Icmp6InMsgs 1\n"), 0⟩] ++
        [⟨some (utf8 "Icmp6InMsgs 4294967295\n"), 1⟩]) p ∧ (fun _ => true) p = true :=
    Run.exists_of_any (by decide +kernel)
  have hindex : netSnmp6IndexMap (utf8 "Icmp6InMsgs") = some 32 := by decide +kernel
  have hprev : replay (readContent (utf8 "Icmp6InMsgs 1\n")).read (utf8 "Icmp6InMsgs") =
      some 1 := by
    decide +kernel
  have hcurr : replay (readContent (utf8 "Icmp6InMsgs 4294967295\n")).read
      (utf8 "Icmp6InMsgs") = some 4294967295 := by
    decide +kernel
  refine ⟨rfl, p, hrun, ?_⟩
  exact (uint32_delta_iff 15 _ hrun rfl rfl hindex hprev hcurr (by decide) (by decide)).mpr
    (by decide)

/-- A declared counter that wraps around from its largest value to 0 has the delta
2^64 - 4294967295 instead of 1. -/
theorem uint32_delta_wrapped :
    netSnmp6IsUint32[32]? = some true ∧
      ∃ p, Run (fun p scan p' => publish (execute 15) p scan = some p') (start 15 fun _ => 0)
          [⟨some (utf8 "Icmp6InMsgs 4294967295\n"), 0⟩, ⟨some (utf8 "Icmp6InMsgs 0\n"), 1⟩] p ∧
        lastPublished p.samples (.stat 32) () = some (.uint 18446744069414584321) ∧
        ((0 : UInt64).toNat - (4294967295 : UInt64).toNat : Int) % 2 ^ 32 = 1 := by
  obtain ⟨p, hrun, hlast⟩ : ∃ p, Run (fun p scan p' => publish (execute 15) p scan = some p')
      (start 15 fun _ => 0)
      [⟨some (utf8 "Icmp6InMsgs 4294967295\n"), 0⟩, ⟨some (utf8 "Icmp6InMsgs 0\n"), 1⟩] p ∧
      (fun p : State => lastPublished p.samples (.stat 32) () ==
        some (.uint 18446744069414584321)) p = true := Run.exists_of_any (by decide +kernel)
  exact ⟨rfl, p, hrun, by simpa using hlast, by decide⟩

end Lsvmi.NetSnmp6Metrics
