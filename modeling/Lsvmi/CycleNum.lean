import Mathlib.Algebra.Ring.Int.Defs
import Mathlib.Data.Nat.Cast.Defs
import Lsvmi.Metrics

/-!
# Cycle numbers

Every group of metrics has a cycle number that is advanced at each scan, modulo the full metrics
factor; at 0 the metrics are published whether they have changed or not.  The first value comes
from a counter that all the generators share.
-/

namespace Lsvmi

variable {f : Int}

structure InitialCycleNum where
  cycleNum : Int64

namespace InitialCycleNum

/-- `InitialCycleNum.Get`: what it returns, and the counter after it. -/
def get (icm : InitialCycleNum) (fullMetricsFactor : Int) : Int × InitialCycleNum :=
  if fullMetricsFactor ≤ 1 then (0, icm)
  else
    let next := icm.cycleNum + 1
    -- the largest int is followed by 0
    (icm.cycleNum.toInt.tmod fullMetricsFactor, ⟨if next < 0 then 0 else next⟩)

def after (factors : List Int) : InitialCycleNum := factors.foldl (fun icm f => (icm.get f).2) ⟨0⟩

theorem get_nonneg {icm : InitialCycleNum} (h : 0 ≤ icm.cycleNum) (fullMetricsFactor : Int) :
    0 ≤ (icm.get fullMetricsFactor).2.cycleNum := by
  unfold get
  split
  · exact h
  show 0 ≤ if icm.cycleNum + 1 < 0 then (0 : Int64) else icm.cycleNum + 1
  split
  · exact Int64.le_refl 0
  · rename_i hnext
    exact Int64.not_lt.mp hnext

theorem after_nonneg (factors : List Int) : 0 ≤ (after factors).cycleNum := by
  suffices hfold : ∀ icm : InitialCycleNum, 0 ≤ icm.cycleNum →
      0 ≤ (factors.foldl (fun icm f => (icm.get f).2) icm).cycleNum from hfold _ (Int64.le_refl 0)
  induction factors with
  | nil => exact fun icm h => h
  | cons f factors ih => exact fun icm h => ih _ (get_nonneg h f)

end InitialCycleNum

def IsCounterValue (n : Int) : Prop :=
  ∃ factors, n = (InitialCycleNum.after factors).cycleNum.toInt

def cycleLength (fullMetricsFactor : Int) : Nat := (max fullMetricsFactor 1).toNat

theorem cycleLength_pos (f : Int) : 0 < cycleLength f := by
  unfold cycleLength
  omega

theorem initialCycleNum_lt {n : Int} (hn : IsCounterValue n) :
    0 ≤ initialCycleNum n f ∧ initialCycleNum n f < cycleLength f := by
  obtain ⟨factors, rfl⟩ := hn
  have hnonneg := Int64.le_iff_toInt_le.mp (InitialCycleNum.after_nonneg factors)
  unfold initialCycleNum cycleLength
  by_cases hf : f ≤ 1
  · rw [if_pos hf]
    omega
  have hpos : 0 < f := by omega
  rw [if_neg hf, Int.tmod_eq_emod_of_nonneg hnonneg]
  have hlo := Int.emod_nonneg (InitialCycleNum.after factors).cycleNum.toInt (Int.ne_of_gt hpos)
  have hhi := Int.emod_lt_of_pos (InitialCycleNum.after factors).cycleNum.toInt hpos
  omega

theorem nextCycleNum_lt {c : Int} (h : 0 ≤ c ∧ c < cycleLength f) :
    0 ≤ nextCycleNum c f ∧ nextCycleNum c f < cycleLength f := by
  have hpos := cycleLength_pos f
  unfold nextCycleNum
  unfold cycleLength at *
  split <;> omega

theorem initialCycleNum_of_le_one (hf : f ≤ 1) (n : Int) : initialCycleNum n f = 0 := by
  rw [initialCycleNum, if_pos hf]

theorem nextCycleNum_of_le_one (hf : f ≤ 1) : nextCycleNum 0 f = 0 := by
  rw [nextCycleNum, if_pos (by omega)]

/-- The cycle number is the number of scans so far, counted from the right start, modulo the
length of the cycle. -/
theorem nextCycleNum_mod (n : Nat) (f : Int) :
    nextCycleNum (n % cycleLength f : Nat) f = ((n + 1) % cycleLength f : Nat) := by
  have hpos := cycleLength_pos f
  have hlt := Nat.mod_lt n hpos
  rw [← Nat.mod_add_mod]
  unfold nextCycleNum
  by_cases hlast : n % cycleLength f + 1 = cycleLength f
  · have hge : ((n % cycleLength f : Nat) : Int) + 1 ≥ f := by
      unfold cycleLength at *
      omega
    rw [if_pos hge, hlast, Nat.mod_self]
    rfl
  · have hnext : n % cycleLength f + 1 < cycleLength f := by omega
    have hge : ¬ ((n % cycleLength f : Nat) : Int) + 1 ≥ f := by
      unfold cycleLength at *
      omega
    rw [if_neg hge, Nat.mod_eq_of_lt hnext]
    push_cast
    rfl

end Lsvmi
