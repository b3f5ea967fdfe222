import Mathlib.Algebra.Order.BigOperators.Group.Finset
import Lsvmi.Reasoning.FiniteMap

/-!
# Entries that follow a population

A map is given anew at every turn.  An entry is made for a key that two maps in a row have, and the
entries of keys that are gone are removed when the number of the entries calls for it.
-/

namespace Lsvmi.Reasoning

open List Finset

variable {K V E O : Type*} [DecidableEq K]

/-- The keys that it finds gone, in the order in which it visits them. -/
def goneKeys (removes : Bool) (curr : Finmap fun _ : K => V) (order : List K) : List K :=
  if removes then order.filter fun k => (curr.lookup k).isNone else []

def dropGone (removes : Bool) (curr : Finmap fun _ : K => V) (entries : Finmap fun _ : K => E) :
    Finmap fun _ : K => E :=
  if removes then
    filterMapEntries (fun k e => if (curr.lookup k).isNone then none else some e) entries
  else entries

theorem goneKeys_perm (removes : Bool) (curr : Finmap fun _ : K => V) {order order' : List K}
    (h : order.Perm order') : (goneKeys removes curr order).Perm (goneKeys removes curr order') := by
  unfold goneKeys
  split
  · exact h.filter _
  · rfl

theorem lookup_of_dropGone {removes : Bool} {curr : Finmap fun _ : K => V}
    {entries : Finmap fun _ : K => E} {k : K} {e : E}
    (h : (dropGone removes curr entries).lookup k = some e) : entries.lookup k = some e := by
  unfold dropGone at h
  split at h
  · exact (lookup_filterMapEntries_ite.mp h).1
  · exact h

structure Population (K V : Type*) [DecidableEq K] where
  prev : Option (Finmap fun _ : K => V)
  entries : Finset K

def Population.start : Population K V := ⟨none, ∅⟩

section

variable (removes : Nat → Nat → Bool) (pop : Population K V) (curr : Finmap fun _ : K => V)

def Population.made : Finset K :=
  pop.entries ∪ pop.prev.elim ∅ fun prev => curr.keys ∩ prev.keys

/-- The entries that are removed, for what the numbers of entries and keys call for. -/
def Population.gone : Finset K :=
  if removes (pop.made curr).card curr.keys.card then pop.made curr \ curr.keys else ∅

def Population.next : Population K V := ⟨some curr, pop.made curr \ pop.gone removes curr⟩

/-- The loops visit each key of the map and each entry once; there are none for the first map. -/
structure Population.Visits (order removeOrder : List K) : Prop where
  order_nodup : order.Nodup
  order_eq : order.toFinset = curr.keys
  removeOrder_nodup : removeOrder.Nodup
  removeOrder_eq : pop.prev.isSome = true → removeOrder.toFinset = pop.made curr

end

theorem length_flatMap_le {I : Type*} {g : I → List O} {l : List I} {n : Nat}
    (h : ∀ i ∈ l, (g i).length ≤ n) : (l.flatMap g).length ≤ l.length * n := by
  rw [length_flatMap]
  simpa using sum_le_card_nsmul (l.map fun i => (g i).length) n (by simpa using h)

theorem length_flatMap_eq {I : Type*} {g : I → List O} {l : List I} {n : Nat}
    (h : ∀ i ∈ l, (g i).length = n) : (l.flatMap g).length = l.length * n := by
  rw [length_flatMap]
  simpa using sum_eq_card_nsmul (l.map fun i => (g i).length) n (by simpa using h)

theorem length_ite_le (c : Prop) [Decidable c] (l : List O) :
    (if c then l else []).length ≤ l.length := by
  split
  · exact Nat.le_refl _
  · exact Nat.zero_le _

theorem length_flatMap_of_nodup {ks : List K} (hnodup : ks.Nodup) (g : K → List O) :
    (ks.flatMap g).length = ∑ k ∈ ks.toFinset, (g k).length := by
  rw [length_flatMap, sum_toFinset _ hnodup]

section

variable {pop : Population K V} {curr prev : Finmap fun _ : K => V}
  {order removeOrder : List K} {f : K → Option E → Option (List O × E)}
  {m : Finmap fun _ : K => E}

open Population

theorem Population.made_first (hprev : pop.prev = none) (hentries : pop.entries = ∅)
    (curr : Finmap fun _ : K => V) : pop.made curr = ∅ := by
  rw [made, hentries, hprev]
  rfl

theorem Population.gone_subset (removes : Nat → Nat → Bool) (pop : Population K V)
    (curr : Finmap fun _ : K => V) : pop.gone removes curr ⊆ pop.made curr := by
  unfold gone
  split
  · exact sdiff_subset
  · exact empty_subset _

section

variable (h : pop.Visits curr order removeOrder)
include h

theorem Population.Visits.keys_made (hprev : pop.prev = some prev) (hm : m.keys = pop.entries)
    (hf : ∀ k e, (f k e).isSome ↔ k ∈ curr ∧ k ∈ prev) (out : List O) :
    (order.foldl (visit f) (out, m)).2.keys = pop.made curr := by
  ext k
  have horder : k ∈ order ↔ k ∈ curr := by
    rw [← mem_toFinset, h.order_eq, Finmap.mem_keys]
  rw [Finmap.mem_keys, mem_foldl_visit h.order_nodup, hf, horder, made, hprev, ← hm]
  simp only [Option.elim_some, mem_union, mem_inter, Finmap.mem_keys]
  tauto

theorem Population.Visits.length_written (hf : ∀ k e, (f k e).isSome ↔ k ∈ curr ∧ k ∈ prev) :
    (order.foldl (visit f) ([], m)).1.length =
      ∑ k ∈ curr.keys ∩ prev.keys, (written f m k).length := by
  rw [foldl_visit_fst h.order_nodup, nil_append, length_flatMap_of_nodup h.order_nodup, h.order_eq]
  symm
  apply sum_subset inter_subset_left
  intro k hk hnot
  have hnone : f k (m.lookup k) = none := by
    rw [← Option.not_isSome_iff_eq_none, hf]
    intro hboth
    exact hnot (mem_inter.mpr ⟨hk, Finmap.mem_keys.mpr hboth.2⟩)
  rw [written, hnone]
  rfl

theorem Population.Visits.goneKeys_eq (hprev : pop.prev = some prev) (removes : Nat → Nat → Bool)
    (hm : m.keys = pop.made curr) :
    (goneKeys (removes m.keys.card curr.keys.card) curr removeOrder).Nodup ∧
      (goneKeys (removes m.keys.card curr.keys.card) curr removeOrder).toFinset =
        pop.gone removes curr := by
  unfold goneKeys gone
  rw [hm]
  split
  · refine ⟨h.removeOrder_nodup.filter _, ?_⟩
    ext k
    rw [mem_toFinset, mem_filter, ← mem_toFinset, h.removeOrder_eq (by rw [hprev]; rfl),
      mem_sdiff, Finmap.mem_keys, Option.isNone_iff_eq_none, Finmap.lookup_eq_none]
  · exact ⟨nodup_nil, rfl⟩

end

theorem keys_dropGone (removes : Nat → Nat → Bool) (hm : m.keys = pop.made curr) :
    (dropGone (removes m.keys.card curr.keys.card) curr m).keys = (pop.next removes curr).entries := by
  unfold dropGone Population.next gone
  rw [hm]
  split
  · ext k
    rw [Finmap.mem_keys, ← Finmap.lookup_isSome, lookup_filterMapEntries, mem_sdiff,
      mem_sdiff, ← hm, Finmap.mem_keys, Finmap.mem_keys, ← Finmap.lookup_isSome,
      ← Finmap.lookup_isSome]
    cases m.lookup k <;> cases curr.lookup k <;> simp
  · rw [sdiff_empty, hm]

end

end Lsvmi.Reasoning
