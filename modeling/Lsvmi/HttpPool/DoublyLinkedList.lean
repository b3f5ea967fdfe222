import Lsvmi.Reasoning.LinkedList
import Lsvmi.Reasoning.Runs

/-!
# `HttpEndpointDoublyLinkedList`

The pointers of the list are fields of the endpoints themselves.  `insert` leaves the back pointer
of the endpoint behind the new one as it was, which does no harm at the tail.
-/

namespace Lsvmi.HttpPool

open Reasoning List Function

/-- The position of an endpoint in the pool, which stands for its address. -/
abbrev EpRef := Nat

def insert (L : Links EpRef) (ep : EpRef) (after : Option EpRef) : Links EpRef :=
  let L : Links EpRef := { L with prev := Function.update L.prev ep after }
  let L : Links EpRef := match after with
    | some after =>
      let L : Links EpRef := { L with next := Function.update L.next ep (L.next after) }
      { L with next := Function.update L.next after (some ep) }
    | none =>
      let L : Links EpRef := { L with next := Function.update L.next ep L.head }
      { L with head := some ep }
  if L.next ep = none then { L with tail := some ep } else L

def remove (L : Links EpRef) (ep : EpRef) : Links EpRef :=
  let L : Links EpRef := match L.prev ep with
    | some p => { L with next := Function.update L.next p (L.next ep) }
    | none => { L with head := L.next ep }
  let L : Links EpRef := match L.next ep with
    | some n => { L with prev := Function.update L.prev n (L.prev ep) }
    | none => { L with tail := L.prev ep }
  { L with prev := Function.update L.prev ep none, next := Function.update L.next ep none }

def addToHead (L : Links EpRef) (ep : EpRef) : Links EpRef := insert L ep none

def addToTail (L : Links EpRef) (ep : EpRef) : Links EpRef := insert L ep L.tail

theorem remove_eq_unlink (L : Links EpRef) (ep : EpRef) : remove L ep = L.unlink ep := by
  -- The forward pointer of `ep` is read again after the one of its predecessor was written.
  have hself : ∀ p, update L.next p (L.next ep) ep = L.next ep := by
    intro p
    by_cases h : ep = p
    · rw [← h, update_self]
    · rw [update_of_ne h]
  unfold remove Links.unlink
  cases hprev : L.prev ep with
  | none =>
    cases hnext : L.next ep <;>
      simp [hnext, hprev, funext_iff, update_apply, eq_comm]
  | some p =>
    simp only [hself, hprev]
    cases hnext : L.next ep <;>
      simp [funext_iff, update_apply, eq_comm]

variable {L : Links EpRef} {ep : EpRef}

theorem remove_threads {l₁ l₂ : List EpRef}
    (h : L.Threads (l₁ ++ ep :: l₂)) : (remove L ep).Threads (l₁ ++ l₂) := by
  rw [remove_eq_unlink]
  exact h.unlink

def detached (L : Links EpRef) (ep : EpRef) : Links EpRef :=
  { L with next := Function.update L.next ep none, prev := Function.update L.prev ep none }

variable {l : List EpRef}

section

variable (h : L.Threads l) (hep : ep ∉ l)
include h hep

theorem detached_threads : (detached L ep).Threads l := by
  have hne : ∀ a ∈ l, a ≠ ep := fun a ha hae => hep (hae ▸ ha)
  exact h.congr rfl rfl (fun a ha => update_of_ne (hne a ha) _ _)
    fun a ha => update_of_ne (hne a ha) _ _

-- `ep` may hold stale pointers: both are overwritten before they are read.
theorem addToTail_eq_pushBack : addToTail L ep = (detached L ep).pushBack ep := by
  rcases eq_nil_or_concat l with rfl | ⟨l, a, rfl⟩
  · have hhead : L.head = none := h.head_eq
    have htail : L.tail = none := h.tail_eq
    simp [addToTail, insert, detached, Links.pushBack, hhead, htail]
  have htail : L.tail = some a := by rw [h.tail_eq]; simp
  have hnext : L.next a = none := h.next_eq l a [] (by simp)
  have hne : ep ≠ a := fun he => hep (by simp [he])
  have hinsert : addToTail L ep =
      { next := update (update L.next ep none) a (some ep)
        prev := update L.prev ep (some a), head := L.head, tail := some ep } := by
    simp [addToTail, insert, htail, hnext, hne]
  have hprev : ∀ x, (if x = ep ∧ some a ≠ none then some a
      else update L.prev ep none x) = update L.prev ep (some a) x := by
    intro x
    by_cases hx : x = ep <;> simp [hx]
  have hforward : ∀ x, (if some a = some x then some ep
      else update L.next ep none x) = update (update L.next ep none) a (some ep) x := by
    intro x
    by_cases hx : x = a
    · simp [hx]
    · simp [hx, Ne.symm hx]
  rw [hinsert]
  simp only [Links.pushBack, detached, htail, hprev, hforward]
  simp

theorem addToTail_threads : (addToTail L ep).Threads (l ++ [ep]) := by
  rw [addToTail_eq_pushBack h hep]
  refine (detached_threads h hep).pushBack hep ?_ ?_
  all_goals exact update_self ..

end

inductive ListCall where
  | insert (ep : EpRef) (after : Option EpRef)
  | remove (ep : EpRef)
  | addToHead (ep : EpRef)
  | addToTail (ep : EpRef)
  deriving DecidableEq, Repr

def ListCall.apply (L : Links EpRef) : ListCall → Links EpRef
  | .insert ep after => HttpPool.insert L ep after
  | .remove ep => HttpPool.remove L ep
  | .addToHead ep => HttpPool.addToHead L ep
  | .addToTail ep => HttpPool.addToTail L ep

def insertAfter (l : List EpRef) (ep : EpRef) : Option EpRef → List EpRef
  | none => ep :: l
  | some after => l.flatMap fun x => if x = after then [x, ep] else [x]

def ListCall.sequence (l : List EpRef) : ListCall → List EpRef
  | .insert ep after => insertAfter l ep after
  | .remove ep => l.erase ep
  | .addToHead ep => ep :: l
  | .addToTail ep => l ++ [ep]

def ListCall.Ok (l : List EpRef) : ListCall → Prop
  | .insert ep after => ep ∉ l ∧ ∀ a ∈ after, a ∈ l
  | .remove ep => ep ∈ l
  | .addToHead ep => ep ∉ l
  | .addToTail ep => ep ∉ l

def ListCall.AtEnd (l : List EpRef) : ListCall → Prop
  | .insert _ after => after = l.getLast?
  | .addToHead _ => l = []
  | .remove _ => True
  | .addToTail _ => True

/-- The list is well formed, with the sequence `l` from its head and the reverse from its tail. -/
structure Spells (L : Links EpRef) (l : List EpRef) : Prop where
  threads : L.Threads l
  forward : Links.walk L.next (l.length + 1) L.head = l
  backward : Links.walk L.prev (l.length + 1) L.tail = l.reverse

theorem spells_iff : Spells L l ↔ L.Threads l := by
  refine ⟨fun h => h.threads, fun h => ⟨h, ?_, ?_⟩⟩
  · rw [h.head_eq]
    exact Links.Threads.walk_next [] h
  · rw [h.tail_eq]
    exact Links.Threads.walk_prev [] (by rwa [List.append_nil])

theorem insert_prev (L : Links EpRef) (ep : EpRef) (after : Option EpRef) :
    (insert L ep after).prev = update L.prev ep after := by
  cases after <;> unfold insert <;> dsimp only <;> split <;> rfl

theorem insertAfter_some {l₁ l₂ : List EpRef} {after : EpRef} (hnodup : (l₁ ++ after :: l₂).Nodup) :
    insertAfter (l₁ ++ after :: l₂) ep (some after) = l₁ ++ after :: ep :: l₂ := by
  have hkeep : ∀ m : List EpRef, after ∉ m →
      (m.flatMap fun x => if x = after then [x, ep] else [x]) = m := by
    intro m hm
    have heq : ∀ x ∈ m, (if x = after then [x, ep] else [x]) = [x] :=
      fun x hx => if_neg (ne_of_mem_of_not_mem hx hm)
    rw [flatMap_congr heq, flatMap_singleton']
  obtain ⟨hnot, -⟩ := nodup_cons.mp (nodup_middle.mp hnodup)
  rw [mem_append, not_or] at hnot
  rw [insertAfter, flatMap_append, flatMap_cons, hkeep l₁ hnot.1, hkeep l₂ hnot.2, if_pos rfl]
  rfl

-- The back pointer of the endpoint behind the new one is not written.
theorem insert_not_threads (after : Option EpRef) (l₁ : List EpRef) {l₂ : List EpRef} {y : EpRef}
    (h : L.Threads (l₁ ++ y :: l₂)) (hep : ep ∉ l₁ ++ y :: l₂) :
    ¬ (insert L ep after).Threads (l₁ ++ ep :: y :: l₂) := by
  intro hnew
  have hback := hnew.prev_eq (l₁ ++ [ep]) y l₂ (by simp)
  have hne : y ≠ ep := fun hy => hep (by simp [hy])
  rw [insert_prev, update_of_ne hne, h.prev_eq l₁ y l₂ rfl, getLast?_concat] at hback
  exact hep (mem_append_left _ (mem_of_getLast? hback))

theorem insert_threads_iff (h : L.Threads l) (hep : ep ∉ l) (after : Option EpRef)
    (hafter : ∀ a ∈ after, a ∈ l) :
    (insert L ep after).Threads (insertAfter l ep after) ↔ after = l.getLast? := by
  cases after with
  | none =>
    cases l with
    | nil =>
      have hnew := addToTail_threads h hep
      rw [addToTail, h.tail_eq] at hnew
      exact iff_of_true hnew rfl
    | cons y l => exact iff_of_false (insert_not_threads none [] h hep) (by simp [eq_comm])
  | some a =>
    obtain ⟨l₁, l₂, rfl⟩ := append_of_mem (hafter a rfl)
    rw [insertAfter_some h.nodup]
    cases l₂ with
    | nil =>
      have htail : L.tail = some a := by
        rw [h.tail_eq, getLast?_concat]
      have hnew := addToTail_threads h hep
      rw [addToTail, htail, append_assoc] at hnew
      exact iff_of_true hnew (by simp)
    | cons y l₂ =>
      refine iff_of_false ?_ ?_
      · have hsplit : l₁ ++ a :: y :: l₂ = (l₁ ++ [a]) ++ y :: l₂ := by simp
        rw [hsplit] at h hep
        have hnot := insert_not_threads (some a) (l₁ ++ [a]) h hep
        rwa [append_assoc] at hnot
      · intro hlast
        rw [getLast?_append_cons, getLast?_cons_cons] at hlast
        have hnodup := (nodup_append.mp h.nodup).2.1
        exact (nodup_cons.mp hnodup).1 (mem_of_getLast? hlast.symm)

theorem ListCall.threads_iff (h : L.Threads l) {call : ListCall} (hok : call.Ok l) :
    (call.apply L).Threads (call.sequence l) ↔ call.AtEnd l := by
  cases call with
  | insert ep after => exact insert_threads_iff h hok.1 after hok.2
  | remove ep =>
    obtain ⟨l₁, l₂, rfl⟩ := append_of_mem hok
    have hnot : ep ∉ l₁ := fun hmem =>
      (nodup_cons.mp (nodup_middle.mp h.nodup)).1 (mem_append_left _ hmem)
    refine iff_of_true ?_ trivial
    rw [sequence, erase_append_right _ hnot, erase_cons_head]
    exact remove_threads h
  | addToHead ep =>
    refine (insert_threads_iff h hok none (by simp)).trans ?_
    rw [eq_comm, getLast?_eq_none_iff]
    rfl
  | addToTail ep => exact iff_of_true (addToTail_threads h hok) trivial

def ListStep (s : Links EpRef × List EpRef) (call : ListCall) (s' : Links EpRef × List EpRef) :
    Prop :=
  s' = (call.apply s.1, call.sequence s.2)

/-- From a well-formed list on, every call leaves a well-formed list with the right sequence if and
only if no endpoint is put in front of another one. -/
theorem calls_spell_iff_atEnd (h : L.Threads l) {calls : List ListCall}
    (hok : Always ListStep (fun s call => call.Ok s.2) (L, l) calls) :
    Always ListStep (fun s call => Spells (call.apply s.1) (call.sequence s.2)) (L, l) calls ↔
      Always ListStep (fun s call => call.AtEnd s.2) (L, l) calls := by
  refine Always.iff_of_invariant (I := fun s => s.1.Threads s.2) ?_ ?_ h hok
  · intro s call hs hcall
    rw [spells_iff]
    exact ListCall.threads_iff hs hcall
  · rintro s call _ hs hcall hend rfl
    exact (ListCall.threads_iff hs hcall).mpr hend

theorem calls_spell_iff_atEnd_tail :
    let calls : List ListCall := [.addToHead 0, .addToTail 1, .insert 2 (some 1), .remove 1]
    Always ListStep (fun s call => Spells (call.apply s.1) (call.sequence s.2))
      (Links.empty, []) calls := by
  refine (calls_spell_iff_atEnd Links.threads_empty ?_).mpr ?_
  · simp [Always, ListStep, ListCall.Ok, ListCall.sequence, insertAfter]
  · simp [Always, ListStep, ListCall.AtEnd, ListCall.sequence, insertAfter]

/-- An endpoint that is added to the head cannot be reached from the tail, and is lost when the one
behind it is removed. -/
theorem addToHead_loses_endpoint :
    let L := addToHead (addToHead Links.empty 0) 1
    Links.walk L.next 3 L.head = [1, 0] ∧ Links.walk L.prev 3 L.tail = [0] ∧
      Links.walk (remove L 0).next 2 (remove L 0).head = [] ∧ ¬ Spells L [1, 0] := by
  refine ⟨by decide, by decide, by decide, ?_⟩
  intro h
  have hback : Links.walk _ 3 _ = [0, 1] := h.backward
  exact absurd hback (by decide)

end Lsvmi.HttpPool
