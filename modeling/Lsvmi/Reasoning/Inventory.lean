import Mathlib.Algebra.BigOperators.Group.Finset.Basic
import Mathlib.Algebra.Order.BigOperators.Group.Multiset
import Mathlib.Algebra.Order.BigOperators.Group.Finset
import Mathlib.Data.Fintype.BigOperators

/-!
# Things kept in places

A conservation argument: every step of a system moves one thing from a place to another, or brings
one in.  What is in all the places together then changes only by what was brought in, and as long as
no thing is there twice, each is in exactly one place.
-/

namespace Lsvmi.Reasoning

open Finset Multiset Function

variable {P α : Type*} [Fintype P] [DecidableEq P] {f f' : P → Multiset α} {p q : P} {a : α}

def inventory (f : P → Multiset α) : Multiset α := ∑ p, f p

structure Transfer (f f' : P → Multiset α) (p q : P) (a : α) : Prop where
  ne : p ≠ q
  source : f p = a ::ₘ f' p
  target : f' q = a ::ₘ f q
  frame : ∀ x, x ≠ p → x ≠ q → f' x = f x

structure Arrival (f f' : P → Multiset α) (q : P) (a : α) : Prop where
  target : f' q = a ::ₘ f q
  frame : ∀ x, x ≠ q → f' x = f x

theorem Arrival.inventory_eq (h : Arrival f f' q a) : inventory f' = a ::ₘ inventory f := by
  have hrest : ∑ x ∈ univ.erase q, f' x = ∑ x ∈ univ.erase q, f x :=
    sum_congr rfl fun x hx => h.frame x (ne_of_mem_erase hx)
  unfold inventory
  rw [← add_sum_erase _ f' (mem_univ q), ← add_sum_erase _ f (mem_univ q),
    hrest, h.target, cons_add]

/-- Seen from `p`, a transfer is the reverse of an arrival. -/
theorem Transfer.inventory_eq (h : Transfer f f' p q a) : inventory f' = inventory f := by
  -- In between the thing is nowhere.
  let g : P → Multiset α := fun x => if x = p then f' p else f x
  have hgp : g p = f' p := if_pos rfl
  have hg : ∀ x, x ≠ p → g x = f x := fun x hx => if_neg hx
  have hout : Arrival g f p a := by
    refine ⟨?_, fun x hx => (hg x hx).symm⟩
    rw [h.source, hgp]
  have hin : Arrival g f' q a := by
    constructor
    · rw [h.target, hg q h.ne.symm]
    · intro x hx
      by_cases hxp : x = p
      · rw [hxp, hgp]
      · rw [h.frame x hxp hx, hg x hxp]
  rw [hin.inventory_eq, hout.inventory_eq]

omit [DecidableEq P] in
theorem mem_inventory {f : P → Multiset α} : a ∈ inventory f ↔ ∃ p, a ∈ f p := by
  unfold inventory
  simp [mem_sum]

/-- With no thing there twice, everything is in exactly one place and once there. -/
theorem existsUnique_place [DecidableEq α] (hnodup : (inventory f).Nodup) (ha : a ∈ inventory f) :
    ∃ p, (f p).count a = 1 ∧ ∀ q, q ≠ p → a ∉ f q := by
  obtain ⟨p, hp⟩ := mem_inventory.mp ha
  have hone := count_eq_one_of_mem hnodup ha
  have hsum : (f p).count a + ∑ q ∈ univ.erase p, (f q).count a = 1 := by
    rw [add_sum_erase _ (fun q => (f q).count a) (mem_univ p), ← count_sum', ← inventory, hone]
  have hpos : 0 < (f p).count a := count_pos.mpr hp
  refine ⟨p, by omega, fun q hq hmem => ?_⟩
  have hle : (f q).count a ≤ ∑ q ∈ univ.erase p, (f q).count a :=
    single_le_sum (f := fun q => (f q).count a) (fun _ _ => Nat.zero_le _)
      (mem_erase.mpr ⟨hq, mem_univ q⟩)
  have := count_pos.mpr hmem
  omega

theorem place_unique [DecidableEq α] (hnodup : (inventory f).Nodup) (hp : a ∈ f p) (hq : a ∈ f q) :
    p = q := by
  obtain ⟨r, -, hr⟩ := existsUnique_place hnodup (mem_inventory.mpr ⟨p, hp⟩)
  have hpr : p = r := by
    by_contra hne
    exact hr p hne hp
  have hqr : q = r := by
    by_contra hne
    exact hr q hne hq
  rw [hpr, hqr]

omit [DecidableEq P] in
theorem card_inventory (f : P → Multiset α) : (inventory f).card = ∑ p, (f p).card := by
  unfold inventory
  exact map_sum cardHom f univ

omit [Fintype P] in
/-- A sum over some places, with what is at `p` set apart: the rest is the same in a sum that differs
from it at `p` only. -/
theorem exists_sum_rest {M : Type*} [AddCommMonoid M] {places : Finset P} (hp : p ∈ places)
    (c : P → M) :
    ∃ rest, ∑ q ∈ places, c q = c p + rest ∧
      ∀ c' : P → M, (∀ q, q ≠ p → c' q = c q) → ∑ q ∈ places, c' q = c' p + rest := by
  refine ⟨∑ q ∈ places.erase p, c q, ?_, fun c' hframe => ?_⟩
  · rw [add_sum_erase _ c hp]
  · rw [← add_sum_erase _ c' hp]
    congr 1
    exact sum_congr rfl fun q hq => hframe q (ne_of_mem_erase hq)

theorem exists_sum_update {β M : Type*} [AddCommMonoid M] (g : β → M) (f : P → β) (p : P) :
    ∃ rest, ∑ q, g (f q) = g (f p) + rest ∧ ∀ b, ∑ q, g (update f p b q) = g b + rest := by
  obtain ⟨rest, hsum, hrest⟩ := exists_sum_rest (mem_univ p) fun q => g (f q)
  refine ⟨rest, hsum, fun b => ?_⟩
  rw [hrest (fun q => g (update f p b q))
    fun q hq => by rw [update_of_ne hq], update_self]

theorem sum_update_eq {β M : Type*} [AddCommMonoid M] {g : β → M} {f : P → β} {p : P} {b : β}
    (h : g b = g (f p)) : ∑ q, g (update f p b q) = ∑ q, g (f q) := by
  obtain ⟨rest, hsum, hupdate⟩ := exists_sum_update g f p
  rw [hupdate, hsum, h]

end Lsvmi.Reasoning
