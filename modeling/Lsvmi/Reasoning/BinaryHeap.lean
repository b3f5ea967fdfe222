import Mathlib.Order.WithBot
import Mathlib.Data.List.Perm.Basic

/-!
# Binary heaps in a slice

The heap operations of Go's `container/heap`: `push` appends and sifts up, `pop` swaps the root with
the last element, sifts down in front of it and cuts it off.  The order is proved on the function
from indices to keys, which is `⊤` beyond the end of the slice, so that no bound is carried around.
-/

namespace Lsvmi.Reasoning.BinaryHeap

open List

variable {i j : Nat} {α κ : Type*} [LinearOrder κ] (key : α → κ)

def swap (l : List α) (i j : Nat) : List α :=
  match l[i]?, l[j]? with
  | some a, some b => (l.set i b).set j a
  | _, _ => l

def less (l : List α) (i j : Nat) : Bool :=
  match l[i]?, l[j]? with
  | some a, some b => decide (key a < key b)
  | _, _ => false

def parent (j : Nat) : Nat := (j - 1) / 2

def up : Nat → Nat → List α → List α
  | 0, _, l => l
  | fuel + 1, j, l =>
    if parent j = j || !less key l j (parent j) then l
    else up fuel (parent j) (swap l (parent j) j)

/-- The child that a sift down from `i` compares with. -/
def smallerChild (l : List α) (i : Nat) : Nat :=
  if less key l (2 * i + 2) (2 * i + 1) then 2 * i + 2 else 2 * i + 1

def down : Nat → Nat → List α → List α
  | 0, _, l => l
  | fuel + 1, i, l =>
    if l.length ≤ 2 * i + 1 then l
    else if !less key l (smallerChild key l i) i then l
    else down fuel (smallerChild key l i) (swap l i (smallerChild key l i))

def push (l : List α) (x : α) : List α := up key (l.length + 1) l.length (l ++ [x])

/-- `none` for an empty heap, where the source panics. -/
def pop (l : List α) : Option (α × List α) :=
  match l.head? with
  | none => none
  | some x => some (x, down key l.length 0 ((swap l 0 (l.length - 1)).take (l.length - 1)))

/-- The key at an index, `⊤` beyond the end. -/
def keyAt (l : List α) (i : Nat) : WithTop κ :=
  match l[i]? with
  | some a => key a
  | none => ⊤

def IsHeap (f : Nat → WithTop κ) : Prop := ∀ j, f (parent j) ≤ f j

theorem parent_lt (hj : parent j ≠ j) : parent j < j := by
  unfold parent at *
  omega

theorem parent_eq_iff : parent j = i ↔ (j = 0 ∧ i = 0) ∨ j = 2 * i + 1 ∨ j = 2 * i + 2 := by
  unfold parent
  omega

variable {f : Nat → WithTop κ}

theorem IsHeap.root_le (h : IsHeap f) (j : Nat) : f 0 ≤ f j := by
  induction j using Nat.strong_induction_on with
  | _ j ih =>
    by_cases hj : parent j = j
    · have : j = 0 := by
        unfold parent at hj
        omega
      rw [this]
    · exact (ih _ (parent_lt hj)).trans (h j)

variable {key} {l : List α}

omit [LinearOrder κ] in
theorem keyAt_of_some {a : α} (h : l[i]? = some a) : keyAt key l i = key a := by
  unfold keyAt
  rw [h]

omit [LinearOrder κ] in
theorem keyAt_of_ge (h : l.length ≤ i) : keyAt key l i = ⊤ := by
  unfold keyAt
  rw [getElem?_eq_none h]

theorem less_iff (hj : j < l.length) : less key l i j ↔ keyAt key l i < keyAt key l j := by
  have hlj : l[j]? = some l[j] := getElem?_eq_getElem hj
  unfold less
  by_cases hi : i < l.length
  · have hli : l[i]? = some l[i] := getElem?_eq_getElem hi
    rw [keyAt_of_some hli, keyAt_of_some hlj, hli, hlj]
    simp
  · rw [keyAt_of_ge (by omega), getElem?_eq_none (by omega)]
    simp

theorem swap_eq (hi : i < l.length) (hj : j < l.length) :
    swap l i j = (l.set i l[j]).set j l[i] := by
  unfold swap
  rw [getElem?_eq_getElem hi, getElem?_eq_getElem hj]

theorem swap_perm (l : List α) (i j : Nat) : (swap l i j).Perm l := by
  by_cases hi : i < l.length
  · by_cases hj : j < l.length
    · rw [swap_eq hi hj]
      exact set_set_perm hi hj
    unfold swap
    rw [getElem?_eq_none (Nat.le_of_not_lt hj)]
    split
    · simp_all
    · rfl
  · unfold swap
    rw [getElem?_eq_none (Nat.le_of_not_lt hi)]

theorem swap_length (l : List α) (i j : Nat) : (swap l i j).length = l.length :=
  (swap_perm l i j).length_eq

omit [LinearOrder κ] in
theorem keyAt_swap (hi : i < l.length) (hj : j < l.length) :
    keyAt key (swap l i j) =
      fun k => if k = j then keyAt key l i else if k = i then keyAt key l j else keyAt key l k := by
  funext k
  have hli : keyAt key l i = key l[i] := keyAt_of_some (getElem?_eq_getElem hi)
  have hlj : keyAt key l j = key l[j] := keyAt_of_some (getElem?_eq_getElem hj)
  rw [swap_eq hi hj]
  by_cases hkj : k = j
  · subst hkj
    rw [if_pos rfl, hli]
    apply keyAt_of_some
    rw [getElem?_set_self (by simpa using hj)]
  rw [if_neg hkj]
  by_cases hki : k = i
  · subst hki
    rw [if_pos rfl, hlj]
    apply keyAt_of_some
    rw [getElem?_set_ne (Ne.symm hkj), getElem?_set_self hi]
  · rw [if_neg hki]
    unfold keyAt
    rw [getElem?_set_ne (Ne.symm hkj), getElem?_set_ne (Ne.symm hki)]

/-- In order but for the edge into `j`, with the parent of `j` below the children of `j`. -/
structure UpReady (f : Nat → WithTop κ) (j : Nat) : Prop where
  order : ∀ k, k ≠ j → f (parent k) ≤ f k
  above : parent j ≠ j → ∀ c, parent c = j → f (parent j) ≤ f c

theorem UpReady.isHeap (h : UpReady f j) (hj : parent j = j ∨ f (parent j) ≤ f j) : IsHeap f := by
  intro k
  by_cases hk : k = j
  · subst hk
    rcases hj with hj | hj
    · rw [hj]
    · exact hj
  · exact h.order k hk

theorem UpReady.swap (h : UpReady f j) (hj : parent j ≠ j) (hlt : f j < f (parent j)) :
    UpReady (fun k => if k = j then f (parent j) else if k = parent j then f j else f k)
      (parent j) := by
  constructor
  · intro k hk
    by_cases hkj : k = j
    · subst hkj
      simp [hj, hlt.le]
    simp only [if_neg hkj, if_neg hk]
    by_cases hpj : parent k = j
    · rw [if_pos hpj]
      exact h.above hj k hpj
    rw [if_neg hpj]
    by_cases hpp : parent k = parent j
    · rw [if_pos hpp]
      have := h.order k hkj
      rw [hpp] at this
      exact hlt.le.trans this
    · rw [if_neg hpp]
      exact h.order k hkj
  · intro hroot c hc
    have hgrand := h.order _ hj
    have hne : parent (parent j) ≠ j := by
      have := parent_lt hj
      have := parent_lt hroot
      omega
    have hcp : c ≠ parent j := by
      rintro rfl
      exact hroot hc
    simp only [if_neg hne, if_neg hroot, if_neg hcp]
    by_cases hcj : c = j
    · rw [if_pos hcj]
      exact hgrand
    · rw [if_neg hcj]
      have := h.order c hcj
      rw [hc] at this
      exact hgrand.trans this

theorem up_perm (fuel j : Nat) (l : List α) : (up key fuel j l).Perm l := by
  induction fuel generalizing j l with
  | zero => exact Perm.refl l
  | succ fuel ih =>
    unfold up
    split
    · exact Perm.refl l
    · exact (ih _ _).trans (swap_perm _ _ _)

theorem up_isHeap (fuel j : Nat) (l : List α) (hj : j < l.length) (hfuel : j < fuel)
    (h : UpReady (keyAt key l) j) : IsHeap (keyAt key (up key fuel j l)) := by
  induction fuel generalizing j l with
  | zero => omega
  | succ fuel ih =>
    unfold up
    by_cases hroot : parent j = j
    · rw [if_pos (by simp [hroot])]
      exact h.isHeap (.inl hroot)
    have hp := parent_lt hroot
    by_cases hless : less key l j (parent j)
    · have hlt := (less_iff (by omega)).mp hless
      rw [if_neg (by simp [hroot, hless])]
      apply ih
      · rw [swap_length]
        omega
      · omega
      · rw [keyAt_swap (by omega) hj]
        exact h.swap hroot hlt
    · rw [if_pos (by simp [hless])]
      rw [less_iff (by omega), not_lt] at hless
      exact h.isHeap (.inr hless)

/-- In order but for the edges out of `i`, with the parent of `i` below the children of `i`. -/
structure DownReady (f : Nat → WithTop κ) (i : Nat) : Prop where
  order : ∀ k, parent k ≠ i → f (parent k) ≤ f k
  above : parent i ≠ i → ∀ c, parent c = i → f (parent i) ≤ f c

theorem DownReady.isHeap (h : DownReady f i) (hi : ∀ c, parent c = i → f i ≤ f c) : IsHeap f := by
  intro k
  by_cases hk : parent k = i
  · rw [hk]
    exact hi k hk
  · exact h.order k hk

theorem DownReady.swap (h : DownReady f i) (hj : parent j = i)
    (hne : j ≠ i) (hmin : ∀ c, parent c = i → c ≠ i → f j ≤ f c) (hlt : f j < f i) :
    DownReady (fun k => if k = j then f i else if k = i then f j else f k) j := by
  have hij : i < j := by
    have := parent_lt (j := j) (by omega)
    omega
  constructor
  · intro k hk
    simp only [if_neg hk]
    by_cases hkj : k = j
    · subst hkj
      simp [hj, hlt.le]
    rw [if_neg hkj]
    by_cases hki : k = i
    · subst hki
      by_cases hroot : parent k = k
      · simp [hroot]
      · simp only [if_neg hroot, if_true]
        exact h.above hroot j hj
    · rw [if_neg hki]
      by_cases hpk : parent k = i
      · rw [if_pos hpk]
        exact hmin k hpk hki
      · rw [if_neg hpk]
        exact h.order k hpk
  · intro _ c hc
    have hcj : c ≠ j := by
      rintro rfl
      omega
    have hci : c ≠ i := by
      rintro rfl
      unfold parent at hc
      omega
    simp only [hj, if_neg hcj, if_neg hci, if_neg (Ne.symm hne), if_true]
    have := h.order c (by omega)
    rwa [hc] at this

theorem smallerChild_spec (key : α → κ) (hi : 2 * i + 1 < l.length) :
    parent (smallerChild key l i) = i ∧ smallerChild key l i < l.length ∧
      smallerChild key l i ≠ i ∧
      ∀ c, parent c = i → c ≠ i → keyAt key l (smallerChild key l i) ≤ keyAt key l c := by
  unfold smallerChild
  by_cases hless : less key l (2 * i + 2) (2 * i + 1)
  · have hlt := (less_iff hi).mp hless
    have hlen : 2 * i + 2 < l.length := by
      by_contra hge
      rw [keyAt_of_ge (by omega)] at hlt
      exact not_top_lt hlt
    rw [if_pos hless]
    refine ⟨parent_eq_iff.mpr (by omega), hlen, by omega, fun c hc hci => ?_⟩
    rcases parent_eq_iff.mp hc with ⟨h0, h1⟩ | h1 | h1
    · omega
    · rw [h1]
      exact hlt.le
    · rw [h1]
  · rw [if_neg hless]
    rw [less_iff hi, not_lt] at hless
    refine ⟨parent_eq_iff.mpr (by omega), hi, by omega, fun c hc hci => ?_⟩
    rcases parent_eq_iff.mp hc with ⟨h0, h1⟩ | h1 | h1
    · omega
    · rw [h1]
    · rw [h1]
      exact hless

theorem down_perm (fuel i : Nat) (l : List α) : (down key fuel i l).Perm l := by
  induction fuel generalizing i l with
  | zero => exact Perm.refl l
  | succ fuel ih =>
    unfold down
    split
    · exact Perm.refl l
    split
    · exact Perm.refl l
    · exact (ih _ _).trans (swap_perm _ _ _)

theorem down_isHeap (fuel i : Nat) (l : List α) (hfuel : l.length ≤ i + fuel)
    (h : DownReady (keyAt key l) i) : IsHeap (keyAt key (down key fuel i l)) := by
  have hleaf : ∀ (i : Nat) (l : List α), l.length ≤ 2 * i + 1 → ∀ c, parent c = i →
      keyAt key l i ≤ keyAt key l c := by
    intro i l hlen c hc
    rcases parent_eq_iff.mp hc with ⟨h0, h1⟩ | h1 | h1
    · rw [h0, h1]
    all_goals
      rw [keyAt_of_ge (by omega : l.length ≤ c)]
      exact le_top
  induction fuel generalizing i l with
  | zero => exact h.isHeap (hleaf i l (by omega))
  | succ fuel ih =>
    unfold down
    by_cases hlen : l.length ≤ 2 * i + 1
    · rw [if_pos hlen]
      exact h.isHeap (hleaf i l hlen)
    rw [if_neg hlen]
    obtain ⟨hpar, hlt, hne, hmin⟩ := smallerChild_spec key (not_le.mp hlen)
    by_cases hless : less key l (smallerChild key l i) i
    · rw [if_neg (by simp [hless])]
      apply ih
      · rw [swap_length]
        have := parent_lt (j := smallerChild key l i) (by omega)
        omega
      · rw [keyAt_swap (by omega) hlt]
        exact h.swap hpar hne hmin ((less_iff (by omega)).mp hless)
    · rw [if_pos (by simp [hless])]
      rw [less_iff (by omega), not_lt] at hless
      refine h.isHeap fun c hc => ?_
      by_cases hci : c = i
      · rw [hci]
      · exact hless.trans (hmin c hc hci)

theorem push_perm (l : List α) (x : α) : (push key l x).Perm (x :: l) :=
  (up_perm _ _ _).trans (perm_append_singleton x l)

theorem push_isHeap (h : IsHeap (keyAt key l)) (x : α) : IsHeap (keyAt key (push key l x)) := by
  -- Nothing below the new element yet, and the other edges are those of `l`.
  have hold : ∀ k, k ≠ l.length → keyAt key (l ++ [x]) k = keyAt key l k := by
    intro k hk
    by_cases hlt : k < l.length
    · unfold keyAt
      rw [getElem?_append_left hlt]
    · rw [keyAt_of_ge (by simp; omega), keyAt_of_ge (by omega)]
  apply up_isHeap
  · simp
  · omega
  constructor
  · intro k hk
    by_cases hp : parent k = l.length
    · have hgt : l.length < k := by
        have := parent_lt (j := k) (by omega)
        omega
      rw [hold k hk, keyAt_of_ge hgt.le]
      exact le_top
    · rw [hold k hk, hold _ hp]
      exact h k
  · intro hroot c hc
    have hgt : l.length < c := by
      by_cases hcc : parent c = c
      · rw [hcc] at hc
        rw [hc] at hcc
        exact absurd hcc hroot
      · have := parent_lt hcc
        omega
    rw [hold c (by omega), keyAt_of_ge hgt.le]
    exact le_top

theorem head_le_of_isHeap (h : IsHeap (keyAt key l)) {x : α} (hx : l.head? = some x) :
    ∀ y ∈ l, key x ≤ key y := by
  intro y hy
  obtain ⟨i, hi⟩ := mem_iff_getElem?.mp hy
  have hle := h.root_le i
  rw [keyAt_of_some (by rwa [← head?_eq_getElem?]), keyAt_of_some hi] at hle
  exact WithTop.coe_le_coe.mp hle

theorem swap_last {x : α} (hx : l.head? = some x) :
    swap l 0 (l.length - 1) = (swap l 0 (l.length - 1)).take (l.length - 1) ++ [x] := by
  have hlen : 0 < l.length := length_pos_iff.mpr (by rintro rfl; cases hx)
  have hlast : (swap l 0 (l.length - 1))[l.length - 1]? = some x := by
    rw [swap_eq hlen (by omega), getElem?_set_self (by simp; omega)]
    rw [head?_eq_getElem?, getElem?_eq_getElem hlen] at hx
    exact hx
  have hdrop : (swap l 0 (l.length - 1)).drop (l.length - 1) = [x] := by
    rw [drop_eq_getElem?_toList_append, hlast, drop_eq_nil_of_le]
    · rfl
    · rw [swap_length]
      omega
  rw [← hdrop, take_append_drop]

theorem pop_perm {rest : List α} {x : α} (h : pop key l = some (x, rest)) : l.Perm (x :: rest) := by
  unfold pop at h
  split at h
  · cases h
  rename_i y hy
  simp only [Option.some.injEq, Prod.mk.injEq] at h
  rw [← h.1, ← h.2]
  have hperm := swap_perm l 0 (l.length - 1)
  rw [swap_last hy] at hperm
  refine hperm.symm.trans ((perm_append_singleton y _).trans ?_)
  exact Perm.cons y (down_perm _ _ _).symm

theorem pop_spec (h : IsHeap (keyAt key l)) {x : α} (hx : l.head? = some x) :
    ∃ rest, pop key l = some (x, rest) ∧ IsHeap (keyAt key rest) ∧ ∀ y ∈ l, key x ≤ key y := by
  have hlen : 0 < l.length := length_pos_iff.mpr (by rintro rfl; cases hx)
  refine ⟨_, by unfold pop; rw [hx], ?_, head_le_of_isHeap h hx⟩
  have hkeep : ∀ k, k ≠ 0 → k < l.length - 1 →
      keyAt key ((swap l 0 (l.length - 1)).take (l.length - 1)) k = keyAt key l k := by
    intro k hk hlt
    have hswap : keyAt key (swap l 0 (l.length - 1)) k = _ :=
      congrFun (keyAt_swap hlen (by omega)) k
    rw [if_neg (by omega), if_neg hk] at hswap
    rw [← hswap]
    unfold keyAt
    rw [getElem?_take_of_lt hlt]
  have hend : ∀ k, l.length - 1 ≤ k →
      keyAt key ((swap l 0 (l.length - 1)).take (l.length - 1)) k = ⊤ := by
    intro k hk
    apply keyAt_of_ge
    rw [length_take]
    omega
  apply down_isHeap
  · rw [length_take, swap_length]
    omega
  refine ⟨fun k hk => ?_, fun hroot => absurd rfl hroot⟩
  by_cases hlt : k < l.length - 1
  · have hp : parent k ≤ k := by
      unfold parent
      omega
    rw [hkeep k (by rintro rfl; exact hk rfl) hlt, hkeep _ hk (by omega)]
    exact h k
  · rw [hend k (by omega)]
    exact le_top

end Lsvmi.Reasoning.BinaryHeap
