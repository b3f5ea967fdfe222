import Mathlib.Data.List.Nodup
import Mathlib.Data.List.Basic
import Mathlib.Data.List.Induction
import Mathlib.Logic.Function.Basic

/-!
# Intrusive doubly linked lists

A list threaded through the `next` and `prev` pointers of the nodes themselves, with a pointer to
either end.  `Links.Threads L l` says that the pointers of `L` spell the sequence `l`.
-/

namespace Lsvmi.Reasoning

open List

/-- The pointers of an intrusive doubly linked list over nodes of type `α`. -/
structure Links (α : Type*) where
  next : α → Option α
  prev : α → Option α
  head : Option α
  tail : Option α

namespace Links

variable {α : Type*}

def empty : Links α := ⟨fun _ => none, fun _ => none, none, none⟩

/-- `L` spells the sequence `l`: the ends are the ends of `l`, and the neighbours of every node are
the neighbours it has in `l`. -/
structure Threads (L : Links α) (l : List α) : Prop where
  nodup : l.Nodup
  head_eq : L.head = l.head?
  tail_eq : L.tail = l.getLast?
  next_eq : ∀ l₁ a l₂, l = l₁ ++ a :: l₂ → L.next a = l₂.head?
  prev_eq : ∀ l₁ a l₂, l = l₁ ++ a :: l₂ → L.prev a = l₁.getLast?

theorem threads_empty : (empty : Links α).Threads [] :=
  ⟨nodup_nil, rfl, rfl, by simp, by simp⟩

variable {L : Links α} {l : List α}

section

variable (h : L.Threads l)
include h

theorem Threads.getElem?_succ {i : Nat} {a : α} (hi : l[i]? = some a) : l[i + 1]? = L.next a := by
  obtain ⟨hlt, ha⟩ := List.getElem?_eq_some_iff.mp hi
  have hsplit : l = l.take i ++ a :: l.drop (i + 1) := by
    rw [← ha, ← drop_eq_getElem_cons hlt, take_append_drop]
  rw [h.next_eq _ _ _ hsplit, head?_drop]

-- The forward pointers alone determine the sequence.
theorem Threads.unique {l' : List α} (h' : L.Threads l') : l = l' := by
  apply ext_getElem?
  intro i
  induction i with
  | zero =>
    rw [← head?_eq_getElem?, ← head?_eq_getElem?, ← h.head_eq, h'.head_eq]
  | succ i ih =>
    cases hi : l[i]? with
    | some a => rw [h.getElem?_succ hi, h'.getElem?_succ (ih ▸ hi)]
    | none =>
      have hl : l.length ≤ i := getElem?_eq_none_iff.mp hi
      have hl' : l'.length ≤ i := getElem?_eq_none_iff.mp (ih ▸ hi)
      rw [getElem?_eq_none_iff.mpr (by omega), getElem?_eq_none_iff.mpr (by omega)]

theorem Threads.head_eq_none : L.head = none ↔ l = [] := by
  rw [h.head_eq, head?_eq_none_iff]

theorem Threads.congr {L' : Links α} (hhead : L'.head = L.head) (htail : L'.tail = L.tail)
    (hnext : ∀ a ∈ l, L'.next a = L.next a) (hprev : ∀ a ∈ l, L'.prev a = L.prev a) : L'.Threads l where
  nodup := h.nodup
  head_eq := hhead.trans h.head_eq
  tail_eq := htail.trans h.tail_eq
  next_eq l₁ a l₂ hl := (hnext a (by simp [hl])).trans (h.next_eq l₁ a l₂ hl)
  prev_eq l₁ a l₂ hl := (hprev a (by simp [hl])).trans (h.prev_eq l₁ a l₂ hl)

end

def walk (pointer : α → Option α) : Nat → Option α → List α
  | n + 1, some a => a :: walk pointer n (pointer a)
  | _, _ => []

theorem Threads.walk_next (l₁ : List α) {l₂ : List α} (h : L.Threads (l₁ ++ l₂)) :
    walk L.next (l₂.length + 1) l₂.head? = l₂ := by
  induction l₂ generalizing l₁ with
  | nil => rfl
  | cons a l₂ ih =>
    have hrest := ih (l₁ ++ [a]) (by rwa [append_assoc])
    rw [length_cons, head?_cons, walk, h.next_eq l₁ a l₂ rfl, hrest]

theorem Threads.walk_prev {l₁ : List α} (l₂ : List α) (h : L.Threads (l₁ ++ l₂)) :
    walk L.prev (l₁.length + 1) l₁.getLast? = l₁.reverse := by
  induction l₁ using reverseRecOn generalizing l₂ with
  | nil => rfl
  | append_singleton l₁ a ih =>
    rw [append_assoc, singleton_append] at h
    rw [length_append, getLast?_concat, length_singleton, walk,
      h.prev_eq l₁ a l₂ rfl, ih (a :: l₂) h, reverse_append]
    rfl

-- A node of a concatenation lies in the first part or in the second one.
private theorem split_append {l₁ l₂ m₁ m₂ : List α} {x : α} (h : l₁ ++ l₂ = m₁ ++ x :: m₂) :
    (∃ k, l₁ = m₁ ++ x :: k ∧ m₂ = k ++ l₂) ∨ ∃ k, m₁ = l₁ ++ k ∧ l₂ = k ++ x :: m₂ := by
  obtain ⟨k, hm, hl⟩ | ⟨k, hl, hm⟩ := append_eq_append_iff.mp h
  · exact .inr ⟨k, hm, hl⟩
  cases k with
  | nil => exact .inr ⟨[], by simpa using hl.symm, by simpa using hm.symm⟩
  | cons y k =>
    obtain ⟨rfl, hm'⟩ := cons.inj hm
    exact .inl ⟨k, hl, hm'⟩

private theorem getLast?_eq_iff {m k : List α} {x : α} (hnd : (m ++ x :: k).Nodup) :
    (m ++ x :: k).getLast? = some x ↔ k = [] := by
  constructor
  · intro h
    cases k with
    | nil => rfl
    | cons y k =>
      have hx : x ∈ y :: k := by
        rw [getLast?_append_cons, getLast?_cons_cons] at h
        exact mem_of_getLast? h
      exact absurd hx (nodup_cons.mp (nodup_append.mp hnd).2.1).1
  · rintro rfl
    simp

private theorem head?_eq_iff {m k : List α} {x : α} (hnd : (m ++ x :: k).Nodup) :
    (m ++ x :: k).head? = some x ↔ m = [] := by
  constructor
  · intro h
    cases m with
    | nil => rfl
    | cons y m =>
      obtain rfl : y = x := by simpa using h
      exact absurd (by simp) (nodup_cons.mp hnd).1
  · rintro rfl
    simp

section Operations

variable [DecidableEq α]

/-- Take `a` out of the sequence it is threaded on. -/
def unlink (L : Links α) (a : α) : Links α where
  next x := if x = a then none else if L.prev a = some x then L.next a else L.next x
  prev x := if x = a then none else if L.next a = some x then L.prev a else L.prev x
  head := if L.prev a = none then L.next a else L.head
  tail := if L.next a = none then L.prev a else L.tail

def pushBack (L : Links α) (a : α) : Links α where
  next x := if L.tail = some x then some a else L.next x
  prev x := if x = a ∧ L.tail ≠ none then L.tail else L.prev x
  head := if L.tail = none then some a else L.head
  tail := some a

/-- Drop the node in front; its own forward pointer is left behind. -/
def popFront (L : Links α) (a : α) : Links α where
  next := L.next
  prev x := if L.next a = some x then none else L.prev x
  head := L.next a
  tail := L.tail

@[simp] theorem unlink_next_self (L : Links α) (a : α) : (L.unlink a).next a = none := by
  simp [unlink]

@[simp] theorem unlink_prev_self (L : Links α) (a : α) : (L.unlink a).prev a = none := by
  simp [unlink]

theorem Threads.unlink {l₁ l₂ : List α} {a : α}
    (h : L.Threads (l₁ ++ a :: l₂)) : (L.unlink a).Threads (l₁ ++ l₂) := by
  have hnext := h.next_eq l₁ a l₂ rfl
  have hprev := h.prev_eq l₁ a l₂ rfl
  obtain ⟨ha, hnd⟩ := nodup_cons.mp (nodup_middle.mp h.nodup)
  obtain ⟨hnd₁, hnd₂, -⟩ := nodup_append.mp hnd
  refine ⟨hnd, ?_, ?_, ?_, ?_⟩
  · simp only [Links.unlink, hprev, hnext, h.head_eq]
    cases l₁ <;> simp
  · simp only [Links.unlink, hprev, hnext, h.tail_eq]
    cases l₂ <;> simp [getLast?_append]
  -- A node `x` lies before `a` or behind it; its neighbours change only when it is next to `a`.
  · intro m₁ x m₂ hsplit
    have hxa : x ≠ a := fun hx => ha (by rw [hsplit, hx]; simp)
    simp only [Links.unlink, hxa, if_false, hprev, hnext]
    obtain ⟨k, rfl, rfl⟩ | ⟨k, rfl, rfl⟩ := split_append hsplit
    · have hx := h.next_eq m₁ x (k ++ a :: l₂) (by simp)
      simp only [getLast?_eq_iff hnd₁, hx]
      cases k <;> simp
    have hx := h.next_eq (l₁ ++ a :: k) x m₂ (by simp)
    have hlast : l₁.getLast? ≠ some x := by
      intro hl
      exact (nodup_append.mp hnd).2.2 x (mem_of_getLast? hl) x (by simp) rfl
    rw [if_neg hlast, hx]
  · intro m₁ x m₂ hsplit
    have hxa : x ≠ a := fun hx => ha (by rw [hsplit, hx]; simp)
    simp only [Links.unlink, hxa, if_false, hprev, hnext]
    obtain ⟨k, rfl, rfl⟩ | ⟨k, rfl, rfl⟩ := split_append hsplit
    · have hx := h.prev_eq m₁ x (k ++ a :: l₂) (by simp)
      have hhead : l₂.head? ≠ some x := by
        intro hl
        exact (nodup_append.mp hnd).2.2 x (by simp) x (mem_of_head? hl) rfl
      rw [if_neg hhead, hx]
    · have hx := h.prev_eq (l₁ ++ a :: k) x m₂ (by simp)
      simp only [head?_eq_iff hnd₂, hx]
      cases k <;> simp [getLast?_append]

theorem Threads.pushBack {a : α} (h : L.Threads l) (ha : a ∉ l)
    (hnext : L.next a = none) (hprev : L.prev a = none) : (L.pushBack a).Threads (l ++ [a]) := by
  have htail : L.tail = none ↔ l = [] := by rw [h.tail_eq, getLast?_eq_none_iff]
  refine ⟨?_, ?_, by simp [Links.pushBack], ?_, ?_⟩
  · rw [nodup_append_comm, singleton_append]
    exact nodup_cons.mpr ⟨ha, h.nodup⟩
  · simp only [Links.pushBack, htail, h.head_eq]
    cases l <;> simp
  · intro m₁ x m₂ hsplit
    simp only [Links.pushBack, h.tail_eq]
    obtain ⟨k, rfl, rfl⟩ | ⟨k, rfl, hk⟩ := split_append hsplit
    · simp only [getLast?_eq_iff h.nodup, h.next_eq m₁ x k rfl]
      cases k <;> simp
    · obtain ⟨rfl, rfl, rfl⟩ : k = [] ∧ x = a ∧ m₂ = [] := by
        cases k <;> simp_all
      have hlast : l.getLast? ≠ some x := fun hl => ha (mem_of_getLast? hl)
      rw [if_neg hlast, hnext, head?_nil]
  · intro m₁ x m₂ hsplit
    simp only [Links.pushBack, h.tail_eq]
    obtain ⟨k, rfl, rfl⟩ | ⟨k, rfl, hk⟩ := split_append hsplit
    · have hxa : x ≠ a := fun hx => ha (by simp [← hx])
      rw [if_neg (fun hc => hxa hc.1), h.prev_eq m₁ x k rfl]
    obtain ⟨rfl, rfl, rfl⟩ : k = [] ∧ x = a ∧ m₂ = [] := by
      cases k <;> simp_all
    cases l with
    | nil => simpa using hprev
    | cons y l => simp

theorem Threads.popFront {a : α} (h : L.Threads (a :: l))
    (hl : l ≠ []) : (L.popFront a).Threads l := by
  have hnext : L.next a = l.head? := h.next_eq [] a l rfl
  refine ⟨(nodup_cons.mp h.nodup).2, hnext, ?_, ?_, ?_⟩
  · simp only [Links.popFront, h.tail_eq]
    cases l with
    | nil => exact absurd rfl hl
    | cons y l => rw [getLast?_cons_cons]
  · intro m₁ x m₂ hsplit
    exact h.next_eq (a :: m₁) x m₂ (by rw [hsplit, cons_append])
  intro m₁ x m₂ hsplit
  have hx := h.prev_eq (a :: m₁) x m₂ (by rw [hsplit, cons_append])
  have hnd : (m₁ ++ x :: m₂).Nodup := hsplit ▸ (nodup_cons.mp h.nodup).2
  simp only [Links.popFront, hnext]
  simp only [hsplit, head?_eq_iff hnd, hx]
  cases m₁ <;> simp

end Operations
end Links
end Lsvmi.Reasoning
