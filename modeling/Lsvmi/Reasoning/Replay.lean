import Mathlib.Data.List.Induction
import Mathlib.Data.List.Nodup
import Mathlib.Data.Option.Basic
import Mathlib.Logic.Function.Basic

/-!
# Replaying a log of values

A log gives values to keys; what counts in the end is the last value of each key.  A category that
takes one of many values is kept in such a log as one key that is on, and the others off.
-/

namespace Lsvmi.Reasoning

open List

variable {K V : Type*} [DecidableEq K]

/-- The last value that the log gives to `k`. -/
def replay (log : List (K × V)) (k : K) : Option V :=
  log.foldl (fun v e => if e.1 = k then some e.2 else v) none

variable {log : List (K × V)} {k : K}

section

variable {log log' : List (K × V)} {k k' : K} {v : V}

@[simp] theorem replay_nil : replay ([] : List (K × V)) k = none := rfl

theorem replay_concat : replay (log ++ [(k', v)]) k = if k' = k then some v else replay log k := by
  simp [replay]

@[simp] theorem replay_concat_self : replay (log ++ [(k, v)]) k = some v := by
  rw [replay_concat, if_pos rfl]

theorem replay_concat_of_ne (h : k ≠ k') : replay (log ++ [(k', v)]) k = replay log k := by
  rw [replay_concat, if_neg (Ne.symm h)]

theorem replay_append (log log' : List (K × V)) (k : K) :
    replay (log ++ log') k = (replay log' k).or (replay log k) := by
  induction log' using reverseRecOn with
  | nil => simp
  | append_singleton log' e ih =>
    rw [← append_assoc, replay_concat, replay_concat, ih]
    split
    · rfl
    · rfl

theorem replay_eq_lookup (log : List (K × V)) (k : K) : replay log k = log.reverse.lookup k := by
  induction log using reverseRecOn with
  | nil => rfl
  | append_singleton log e ih =>
    rw [replay_concat, reverse_concat, lookup_cons, ih]
    by_cases hk : e.1 = k
    · simp [hk]
    · simp [hk, beq_false_of_ne (Ne.symm hk)]

theorem replay_eq_none (h : ∀ e ∈ log, e.1 ≠ k) : replay log k = none := by
  induction log using reverseRecOn with
  | nil => rfl
  | append_singleton log e ih =>
    rw [replay_concat, if_neg (h e (by simp)), ih fun e he => h e (by simp [he])]

theorem replay_eq_some {v : V} (h : ∃ e ∈ log, e.1 = k)
    (hv : ∀ e ∈ log, e.1 = k → e.2 = v) : replay log k = some v := by
  induction log using reverseRecOn with
  | nil =>
    obtain ⟨e, he, -⟩ := h
    cases he
  | append_singleton log e ih =>
    rw [replay_concat]
    by_cases hk : e.1 = k
    · rw [if_pos hk, hv e (by simp) hk]
    rw [if_neg hk]
    obtain ⟨e', he', hk'⟩ := h
    refine ih ⟨e', ?_, hk'⟩ fun e he => hv e (mem_append_left _ he)
    refine (mem_append.mp he').resolve_right fun hmem => hk ?_
    rw [← mem_singleton.mp hmem, hk']

theorem replay_of_nodup (hnodup : (log.map Prod.fst).Nodup) {v : V}
    (h : (k, v) ∈ log) : replay log k = some v := by
  obtain ⟨before, after, rfl⟩ := append_of_mem h
  have hafter : ∀ e ∈ after, e.1 ≠ k := by
    rw [map_append, map_cons] at hnodup
    have hnotMem := (nodup_cons.mp (nodup_append.mp hnodup).2.1).1
    intro e he hek
    apply hnotMem
    exact mem_map.mpr ⟨e, he, hek⟩
  have hcons : replay ((k, v) :: after) k = some v := by
    rw [← singleton_append, replay_append, replay_eq_none hafter]
    simp [replay]
  rw [replay_append, hcons]
  rfl

theorem replay_flatMap {ι : Type*} {f : ι → List (K × V)} {js : List ι} {j : ι}
    (hnodup : js.Nodup) (hj : j ∈ js) (hother : ∀ i ∈ js, i ≠ j → ∀ e ∈ f i, e.1 ≠ k) :
    replay (js.flatMap f) k = replay (f j) k := by
  obtain ⟨before, after, rfl⟩ := append_of_mem hj
  have hsplit := nodup_middle.mp hnodup
  have hnotMem := (nodup_cons.mp hsplit).1
  have hnone {is : List ι} (his : ∀ i ∈ is, i ∈ before ++ after) :
      replay (is.flatMap f) k = none := by
    apply replay_eq_none
    intro e he
    obtain ⟨i, hi, hei⟩ := mem_flatMap.mp he
    have hmem := his i hi
    refine hother i ?_ (fun heq => hnotMem (heq ▸ hmem)) e hei
    rw [mem_append, mem_cons]
    exact (mem_append.mp hmem).imp_right .inr
  rw [flatMap_append, flatMap_cons, replay_append, replay_append,
    hnone fun i hi => mem_append_left _ hi, hnone fun i hi => mem_append_right _ hi]
  simp

theorem foldl_update_apply (log : List (K × V)) (f : K → V) (k : K) :
    log.foldl (fun f e => Function.update f e.1 e.2) f k = (replay log k).getD (f k) := by
  induction log using reverseRecOn with
  | nil => rfl
  | append_singleton log e ih =>
    rw [foldl_append, foldl_cons, foldl_nil, replay_concat]
    by_cases hk : e.1 = k
    · rw [if_pos hk, ← hk, Function.update_self]
      rfl
    · rw [if_neg hk, Function.update_of_ne (Ne.symm hk), ih]

end

section

variable (index : K → Option Nat)

/-- The value goes to the index of its key, if it has one. -/
def storeAt (values : List V) (e : K × V) : List V :=
  match index e.1 with
  | none => values
  | some i => values.set i e.2

variable {index}

omit [DecidableEq K] in
theorem length_foldl_storeAt (log : List (K × V)) (values : List V) :
    (log.foldl (storeAt index) values).length = values.length := by
  induction log generalizing values with
  | nil => rfl
  | cons e log ih =>
    rw [foldl_cons, ih, storeAt]
    split
    · rfl
    · exact length_set

omit [DecidableEq K] in
theorem getElem?_foldl_storeAt_congr {values values' : List V} {i : Nat}
    (hlength : values.length = values'.length)
    (h : values[i]? = values'[i]? ∨ ∃ e ∈ log, index e.1 = some i) :
    (log.foldl (storeAt index) values)[i]? = (log.foldl (storeAt index) values')[i]? := by
  induction log generalizing values values' with
  | nil => exact h.resolve_right (by simp)
  | cons e log ih =>
    refine ih ?_ ?_
    · simpa using (length_foldl_storeAt [e] values).trans
        (hlength.trans (length_foldl_storeAt [e] values').symm)
    rcases h with h | ⟨e', he', hi⟩
    · left
      cases he : index e.1 with
      | none => simpa only [storeAt, he] using h
      | some j => simp only [storeAt, he, getElem?_set, hlength, h]
    · rcases mem_cons.mp he' with rfl | he'
      · left
        simp only [storeAt, hi, getElem?_set, hlength, if_true]
      · exact .inr ⟨e', he', hi⟩

theorem getElem?_foldl_storeAt (hinj : ∀ k k' i, index k = some i → index k' = some i → k = k')
    {values : List V} {i : Nat} {v : V} (hi : index k = some i) (hlt : i < values.length)
    (hv : replay log k = some v) : (log.foldl (storeAt index) values)[i]? = some v := by
  induction log using reverseRecOn generalizing v with
  | nil => cases hv
  | append_singleton log e ih =>
    have hlt' : i < (log.foldl (storeAt index) values).length := by
      rwa [length_foldl_storeAt]
    rw [foldl_append, foldl_cons, foldl_nil]
    rw [replay_concat] at hv
    by_cases hk : e.1 = k
    · rw [if_pos hk] at hv
      cases hv
      rw [storeAt, hk, hi]
      simp [hlt']
    rw [if_neg hk] at hv
    rw [← ih hv, storeAt]
    cases hj : index e.1 with
    | none => rfl
    | some j =>
      have hij : j ≠ i := by
        rintro rfl
        exact hk (hinj _ _ _ hj hi)
      exact getElem?_set_ne hij

end

/-- `k` is on, and every other key that the log speaks of is off. -/
structure Selects (on off : V) (log : List (K × V)) (k : K) : Prop where
  isOn : replay log k = some on
  isOff : ∀ k', k' ≠ k → ∀ v, replay log k' = some v → v = off

namespace Selects

variable {on off : V} {log : List (K × V)} {k k' : K}

theorem first (on off : V) (k : K) : Selects on off [(k, on)] k := by
  show Selects on off ([] ++ [(k, on)]) k
  refine ⟨replay_concat_self, fun k' hk' v hv => ?_⟩
  rw [replay_concat_of_ne hk'] at hv
  cases hv

variable (h : Selects on off log k)
include h

theorem again : Selects on off (log ++ [(k, on)]) k := by
  refine ⟨replay_concat_self, fun k' hk' v hv => ?_⟩
  rw [replay_concat_of_ne hk'] at hv
  exact h.isOff k' hk' v hv

theorem switch (k' : K) : Selects on off (log ++ [(k, off), (k', on)]) k' := by
  have hlog : log ++ [(k, off), (k', on)] = (log ++ [(k, off)]) ++ [(k', on)] := by simp
  rw [hlog]
  refine ⟨replay_concat_self, fun x hx v hv => ?_⟩
  rw [replay_concat_of_ne hx] at hv
  by_cases hxk : x = k
  · rw [hxk, replay_concat_self] at hv
    exact (Option.some.inj hv).symm
  · rw [replay_concat_of_ne hxk] at hv
    exact h.isOff x hxk v hv

theorem turnOff (hk' : k' ≠ k) : Selects on off (log ++ [(k', off)]) k := by
  refine ⟨?_, fun x hx v hv => ?_⟩
  · rw [replay_concat_of_ne hk'.symm]
    exact h.isOn
  by_cases hxk : x = k'
  · rw [hxk, replay_concat_self] at hv
    exact (Option.some.inj hv).symm
  · rw [replay_concat_of_ne hxk] at hv
    exact h.isOff x hx v hv

end Selects

def AtMostOneOn (on : V) (log : List (K × V)) : Prop :=
  ∀ k k', replay log k = some on → replay log k' = some on → k = k'

theorem Selects.atMostOneOn {on off : V} (h : Selects on off log k)
    (hne : on ≠ off) : AtMostOneOn on log := by
  have heq : ∀ x, replay log x = some on → x = k := by
    intro x hx
    by_contra hxk
    exact hne (h.isOff x hxk on hx)
  intro x x' hx hx'
  rw [heq x hx, heq x' hx']

theorem Selects.not_atMostOneOn {on off : V} {k' : K}
    (h : Selects on off log k) (hk' : k' ≠ k) : ¬ AtMostOneOn on (log ++ [(k', on)]) := by
  intro hone
  refine hk' (hone k' k replay_concat_self ?_)
  rw [replay_concat_of_ne hk'.symm]
  exact h.isOn

end Lsvmi.Reasoning
