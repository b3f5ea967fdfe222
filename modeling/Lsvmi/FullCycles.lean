import Lsvmi.NetDevMetrics.FullCycles
import Lsvmi.ProcPid.FullCycles

/-!
# Full metrics cycles

With `F` the full metrics factor, or 1 if that is less, whatever goes on being scanned has a full
metrics cycle exactly once in every `F` scans.
-/

namespace Lsvmi

open Reasoning ProcPid NetDevMetrics Finmap List

theorem cycleLength_eq {f : Int} {n : Nat} (h : (n : Int) = max f 1) : n = cycleLength f := by
  unfold cycleLength
  omega

/-- Every window of `F` scans has one full metrics cycle, for a PID, TID that is scanned again by each
`Execute` call of the window, where the other calls generate no metrics or partial ones for it, and
for a network device that stays through each `generateMetrics` call of it. -/
theorem one_full_cycle_in_window (f : Int) :
    (∀ (cfg : ProcPid.Config) (calls window : List ProcPid.Call) (r r' : ProcPid.RunState)
        (p : ProcPid.PidTid), cfg.fullMetricsFactor = f →
      Run (ProcPid.Executes cfg) ProcPid.newRun calls r →
      (∀ call ∈ calls, ∀ p, IsCounterValue (call.cycleNum p)) →
      (∀ call ∈ window, call.Distinct) →
      window.foldlM (ProcPid.nextRun cfg) r = some r' →
      Always (fun r call r' => ProcPid.nextRun cfg r call = some r') (ProcPid.Rescans cfg p) r
        window →
      (window.length : Int) = max f 1 →
      hits (ProcPid.nextRun cfg) (ProcPid.generatesFull cfg p) r window = 1 ∧
      Always (fun r call r' => ProcPid.nextRun cfg r call = some r') (fun r call =>
        ProcPid.generatesFull cfg p r call ∨ ProcPid.GeneratesPartial cfg p r call) r window) ∧
    (∀ (scans window : List NetDevMetrics.Scan) (pndm : NetDevMetrics.ProcNetDevMetrics)
        (dev : Bytes),
      scans.foldlM (NetDevMetrics.nextMetrics f) NetDevMetrics.newProcNetDevMetrics = some pndm →
      (∀ scan ∈ scans, scan.Ok) →
      (∀ scan ∈ window, scan.Ordered) →
      Always (fun pndm scan pndm' => NetDevMetrics.nextMetrics f pndm scan = some pndm')
        (NetDevMetrics.Stays dev) pndm window →
      (window.length : Int) = max f 1 →
      hits (NetDevMetrics.nextMetrics f) (NetDevMetrics.fullFor f dev) pndm window = 1) := by
  constructor
  · intro cfg calls window r r' p hf hrun hcounter hdist hwindow hscans hlen
    subst hf
    exact hits_generatesFull hrun hcounter hdist hwindow hscans (cycleLength_eq hlen)
  · intro scans window pndm dev hrun hscans hord hstays hlen
    exact hits_fullFor hrun hscans hord hstays (cycleLength_eq hlen)

def pidFactorTwo : ProcPid.Config := { ProcPid.plainConfig with fullMetricsFactor := 2 }

def pidCall : ProcPid.Call := ProcPid.plainCall [⟨1, 0⟩]

def devScan : NetDevMetrics.Scan :=
  ⟨(∅ : NetDevMetrics.DevStats).insert (utf8 "lo") fun _ => 0, 0, [utf8 "lo"], [utf8 "lo"], fun _ => 0⟩

theorem devScan_ok : devScan.Ok where
  nodup := List.nodup_singleton _
  mem_iff dev := by
    unfold devScan
    rw [mem_insert, List.mem_singleton]
    exact (or_iff_left notMem_empty).symm
  counter _ := ⟨[], rfl⟩

theorem one_full_cycle_factor_two :
    (∃ r r', Run (ProcPid.Executes pidFactorTwo) ProcPid.newRun [pidCall] r ∧
      [pidCall, pidCall].foldlM (ProcPid.nextRun pidFactorTwo) r = some r' ∧
      hits (ProcPid.nextRun pidFactorTwo) (ProcPid.generatesFull pidFactorTwo ⟨1, 0⟩) r
        [pidCall, pidCall] = 1) ∧
    ∃ pndm, [devScan, devScan].foldlM (NetDevMetrics.nextMetrics 2)
        NetDevMetrics.newProcNetDevMetrics = some pndm ∧
      hits (NetDevMetrics.nextMetrics 2) (NetDevMetrics.fullFor 2 (utf8 "lo")) pndm
        [devScan, devScan] = 1 := by
  constructor
  · have hrun : ∃ r r₁ r₂, nextRun pidFactorTwo newRun pidCall = some r ∧
        nextRun pidFactorTwo r pidCall = some r₁ ∧
        nextRun pidFactorTwo r₁ pidCall = some r₂ ∧
        fate pidFactorTwo pidCall r.pm ⟨1, 0⟩ = .refreshed 0 ∧
        fate pidFactorTwo pidCall r₁.pm ⟨1, 0⟩ = .refreshed 0 :=
      ⟨_, _, _, rfl, rfl, rfl, rfl, rfl⟩
    obtain ⟨r, r₁, r₂, hr, hr₁, hr₂, hfate, hfate₁⟩ := hrun
    have hreached : Run (Executes pidFactorTwo) newRun [pidCall] r :=
      .cons (executes_of_nextRun hr) .start
    have hwindow : [pidCall, pidCall].foldlM (nextRun pidFactorTwo) r = some r₂ := by
      simp only [foldlM_cons, foldlM_nil, hr₁, hr₂, Option.bind_eq_bind, Option.bind_some]
      rfl
    have hlisted : ∃ ps, pidCall.pidTidList = some ps ∧ (⟨1, 0⟩ : PidTid) ∈ ps :=
      ⟨_, rfl, mem_singleton_self _⟩
    have hscans : Always (fun r call r' => nextRun pidFactorTwo r call = some r')
        (Rescans pidFactorTwo ⟨1, 0⟩) r [pidCall, pidCall] := by
      refine ⟨⟨hlisted, 0, hfate⟩, fun r' hr' => ?_⟩
      obtain rfl : r₁ = r' := Option.some.inj (hr₁.symm.trans hr')
      exact ⟨⟨hlisted, 0, hfate₁⟩, fun _ _ => trivial⟩
    refine ⟨r, r₂, hreached, hwindow, ?_⟩
    refine ((one_full_cycle_in_window 2).1 pidFactorTwo [pidCall] _ r r₂ _ rfl hreached ?_ ?_ hwindow
      hscans rfl).1
    · exact fun call hcall p => ⟨[], by rw [mem_singleton.mp hcall]; rfl⟩
    intro call hcall ps hps
    have hcall : call = pidCall := by simpa using hcall
    rw [hcall] at hps
    cases hps
    exact nodup_singleton _
  · have hrun : ∃ pndm, [devScan, devScan].foldlM (nextMetrics 2)
        newProcNetDevMetrics = some pndm ∧
        Stays (utf8 "lo") pndm devScan ∧
        Stays (utf8 "lo") (generateMetrics 2 pndm devScan).2 devScan :=
      ⟨_, rfl, ⟨lookup_isSome.mp rfl, lookup_isSome.mp rfl, _, rfl,
        lookup_isSome.mp rfl⟩, ⟨lookup_isSome.mp rfl, lookup_isSome.mp rfl, _,
        rfl, lookup_isSome.mp rfl⟩⟩
    obtain ⟨pndm, hpndm, hstays, hstays₁⟩ := hrun
    have hall : ∀ scan ∈ [devScan, devScan], scan = devScan := by simp
    refine ⟨pndm, hpndm, (one_full_cycle_in_window 2).2 _ _ pndm _ hpndm ?_ ?_ ?_ rfl⟩
    · exact fun scan hscan => hall scan hscan ▸ devScan_ok
    · exact fun scan hscan => hall scan hscan ▸ devScan_ok.toOrdered
    · refine ⟨hstays, fun pndm' h => ?_⟩
      cases h
      exact ⟨hstays₁, fun _ _ => trivial⟩

namespace InitialCycleNum

def gets (f : Int) : Nat → InitialCycleNum → List Int
  | 0, _ => []
  | n + 1, icm => (icm.get f).1 :: gets f n (icm.get f).2

variable {icm : InitialCycleNum} {c f : Nat} (h : icm.cycleNum.toInt = c) (hf : 1 < f)
include h hf

theorem get_eq (hc : c + 1 < 9223372036854775808) :
    (icm.get f).1 = (c % f : Nat) ∧ (icm.get f).2.cycleNum.toInt = (c + 1 : Nat) := by
  have hnext : (icm.cycleNum + 1).toInt = (c + 1 : Nat) := by
    rw [Int64.toInt_add, h, show (1 : Int64).toInt = 1 from rfl, Int.bmod]
    omega
  have hpos : ¬ icm.cycleNum + 1 < 0 := by
    rw [Int64.lt_iff_toInt_lt, hnext]
    exact Int.not_lt.mpr (Int.natCast_nonneg _)
  rw [get, if_neg (by omega), h]
  simp only [if_neg hpos]
  exact ⟨rfl, hnext⟩

theorem gets_eq {n : Nat} (hc : c + n < 9223372036854775808) :
    gets f n icm = (range' c n).map fun k => ((k % f : Nat) : Int) := by
  induction n generalizing icm c with
  | zero => rfl
  | succ n ih =>
    obtain ⟨hget, hnext⟩ := get_eq h hf (by omega)
    rw [gets, hget, ih hnext (by omega), range'_succ, map_cons]

end InitialCycleNum

theorem iterate_nextCycleNum {f : Nat} (hf : 1 < f) (k n : Nat) :
    (nextCycleNum · f)^[k] (n % f : Nat) = ((k + n) % f : Nat) := by
  have hlength : cycleLength f = f := (cycleLength_eq (by omega)).symm
  induction k with
  | zero => rw [Nat.zero_add, Function.iterate_zero_apply]
  | succ k ih =>
    have hnext := nextCycleNum_mod (k + n) f
    rw [hlength] at hnext
    rw [Function.iterate_succ_apply', ih, hnext, Nat.add_right_comm]

/-- `f` entries that are made in a row start with different cycle numbers, and go on that way: at every
scan one of them has its full metrics cycle. -/
theorem initial_cycles_spread (factors : List Int) (f k : Nat) (hf : 1 < f)
    (hroom : (InitialCycleNum.after factors).cycleNum.toInt + f < 9223372036854775808) :
    (((InitialCycleNum.after factors).gets f f).map (nextCycleNum · f)^[k]).Perm
      ((range f).map Int.ofNat) := by
  obtain ⟨c, hc⟩ := Int.eq_ofNat_of_zero_le
    (Int64.le_iff_toInt_le.mp (InitialCycleNum.after_nonneg factors))
  have hk : (nextCycleNum · f)^[k] ∘ (fun n : Nat => ((n % f : Nat) : Int)) =
      Int.ofNat ∘ (· % f) ∘ (k + ·) := funext (iterate_nextCycleNum hf k)
  have hmod := Nat.multiset_Ico_map_mod (k + c) f
  change ((range' (k + c) (k + c + f - (k + c))).map (· % f) : Multiset Nat) = _ at hmod
  rw [Nat.add_sub_cancel_left] at hmod
  rw [InitialCycleNum.gets_eq hc hf (by omega), map_map, hk, ← map_map, ← map_map, map_add_range']
  exact (Multiset.coe_eq_coe.mp hmod).map _

theorem initial_cycles_spread_factor_two :
    (((InitialCycleNum.after [3, 2]).gets 2 2).map (nextCycleNum · 2)^[3]).Perm [0, 1] :=
  initial_cycles_spread [3, 2] 2 3 (by decide) (by decide)

end Lsvmi
