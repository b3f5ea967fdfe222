import Mathlib.Data.Nat.Periodic
import Lsvmi.Reasoning.Runs

/-!
# Cycles

A system keeps a counter that goes round in a cycle, and something happens each time it is at the
start.  Any window of as many steps as the cycle is long sees that happen exactly once.
-/

namespace Lsvmi.Reasoning

open Finset

theorem card_multiples_window {F : Nat} (hF : 0 < F) (n : Nat) :
    ((Ico n (n + F)).filter (F ∣ ·)).card = 1 := by
  have hperiodic : Function.Periodic (F ∣ ·) F := fun k => propext Nat.dvd_add_self_right
  rw [Nat.filter_Ico_card_eq_of_periodic n F (F ∣ ·) hperiodic, Nat.count_eq_card_filter_range,
    card_eq_one]
  refine ⟨0, ?_⟩
  ext k
  rw [mem_filter, mem_range, mem_singleton]
  constructor
  · intro h
    exact Nat.eq_zero_of_dvd_of_lt h.2 h.1
  · intro h
    rw [h]
    exact ⟨hF, Nat.dvd_zero F⟩

theorem card_multiples_succ (F n k : Nat) :
    ((Ico n (n + (k + 1))).filter (F ∣ ·)).card =
      (if F ∣ n then 1 else 0) + ((Ico (n + 1) (n + 1 + k)).filter (F ∣ ·)).card := by
  have hlt : n < n + (k + 1) := by omega
  rw [← insert_Ico_add_one_left_eq_Ico hlt, filter_insert, Nat.add_right_comm, Nat.add_assoc]
  by_cases hn : F ∣ n
  · rw [if_pos hn, if_pos hn, card_insert_of_notMem (by simp), Nat.add_comm]
  · rw [if_neg hn, if_neg hn, Nat.zero_add]

section

variable {S C : Type*} (step : S → C → Option S) (hit : S → C → Bool)

def hits : S → List C → Nat
  | _, [] => 0
  | s, c :: cs => (if hit s c then 1 else 0) + (step s c).elim 0 fun s' => hits s' cs

variable {step hit} {F : Nat} {I : Nat → S → Prop} {H : S → C → Prop} {s s' : S} {cs : List C}
  {n : Nat} (hhit : ∀ n s c, I n s → H s c → (hit s c ↔ F ∣ n))
  (hnext : ∀ n s c s', I n s → H s c → step s c = some s' → I (n + 1) s')
  (hs : I n s) (hrun : cs.foldlM step s = some s')
  (hH : Always (fun s c s' => step s c = some s') H s cs)
include hhit hnext hs hrun hH

/-- `I n s` says that the counter of `s` is at place `n` of a count that wraps around at `F`. -/
theorem hits_eq_card : hits step hit s cs = ((Ico n (n + cs.length)).filter (F ∣ ·)).card := by
  induction cs generalizing s n with
  | nil => simp [hits]
  | cons c cs ih =>
    rw [List.foldlM_cons] at hrun
    obtain ⟨s₁, hs₁, hrest⟩ := Option.bind_eq_some_iff.mp hrun
    have hone := hhit n s c hs hH.1
    rw [List.length_cons, card_multiples_succ, ← ih (hnext n s c s₁ hs hH.1 hs₁) hrest (hH.2 s₁ hs₁),
      hits, hs₁]
    simp only [hone, Option.elim_some]

/-- A window of the length of the cycle is hit exactly once. -/
theorem hits_eq_one (hF : 0 < F) (hlen : cs.length = F) : hits step hit s cs = 1 := by
  rw [hits_eq_card hhit hnext hs hrun hH, hlen]
  exact card_multiples_window hF n

end

end Lsvmi.Reasoning
