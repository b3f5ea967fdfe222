import Mathlib.Data.Finmap
import Lsvmi.Reasoning.Replay

/-!
# Loops over finite maps

A loop that visits every entry of a finite map once and keeps, changes or drops it, in whatever
order, computes the map of what it leaves of each entry.  A loop that also writes something for each
key, from the entry of that key alone, handles each of them as if it were the only one.
-/

namespace Lsvmi.Reasoning

open List Finmap Option

variable {K V W : Type*} [DecidableEq K]

/-- What is left of the entries of `m`, each replaced or dropped as `f` says. -/
def filterMapEntries (f : K → V → Option W) (m : Finmap fun _ : K => V) : Finmap fun _ : K => W :=
  Finmap.keysLookupEquiv.symm
    ⟨(m.keys.filter fun k => ((m.lookup k).bind (f k)).isSome, fun k => (m.lookup k).bind (f k)),
      fun k => by
        simp only [Finset.mem_filter, Finmap.mem_keys, ← lookup_isSome]
        cases m.lookup k <;> simp⟩

@[simp] theorem lookup_filterMapEntries (f : K → V → Option W) (m : Finmap fun _ : K => V) (k : K) :
    (filterMapEntries f m).lookup k = (m.lookup k).bind (f k) := by
  simp [filterMapEntries]

theorem lookup_filterMapEntries_ite {p : K → V → Prop} [∀ k v, Decidable (p k v)]
    {m : Finmap fun _ : K => V} {k : K} {v : V} :
    (filterMapEntries (fun k v => if p k v then none else some v) m).lookup k = some v ↔
      m.lookup k = some v ∧ ¬ p k v := by
  rw [lookup_filterMapEntries, bind_eq_some_iff]
  grind

theorem keys_filterMapEntries_ne (f : K → V → Option W) (m : Finmap fun _ : K => V) :
    (filterMapEntries f m).keys ≠ m.keys ↔ ∃ k ∈ m, (filterMapEntries f m).lookup k = none := by
  have hsub : ∀ k, k ∈ filterMapEntries f m → k ∈ m := by
    intro k hk
    rw [mem_iff] at hk ⊢
    obtain ⟨w, hw⟩ := hk
    rw [lookup_filterMapEntries] at hw
    obtain ⟨v, hv, -⟩ := bind_eq_some_iff.mp hw
    exact ⟨v, hv⟩
  rw [Ne, Finset.ext_iff, not_forall]
  refine exists_congr fun k => ?_
  rw [Finmap.mem_keys, Finmap.mem_keys, lookup_eq_none]
  exact ⟨fun h => by by_contra hn; exact h ⟨hsub k, fun hk => by by_contra hnot; exact hn ⟨hk, hnot⟩⟩,
    fun h hiff => h.2 (hiff.mpr h.1)⟩

theorem lookup_foldl_insert (log : List (K × V)) (m : Finmap fun _ : K => V) (k : K) :
    (log.foldl (fun m e => m.insert e.1 e.2) m).lookup k = (replay log k).or (m.lookup k) := by
  induction log using reverseRecOn with
  | nil => rfl
  | append_singleton log e ih =>
    rw [foldl_append, foldl_cons, foldl_nil, replay_concat]
    by_cases hk : e.1 = k
    · rw [if_pos hk, ← hk, lookup_insert]
      rfl
    · rw [if_neg hk, lookup_insert_of_ne _ (Ne.symm hk), ih]

section

variable {O : Type*} (f : K → Option V → Option (List O × V))

/-- A turn of a loop over keys: from its entry `f` makes what is written for a key and its entry
afterwards, or passes the key over. -/
def visit (state : List O × Finmap fun _ : K => V) (k : K) : List O × Finmap fun _ : K => V :=
  match f k (state.2.lookup k) with
  | none => state
  | some (written, v) => (state.1 ++ written, state.2.insert k v)

def written (m : Finmap fun _ : K => V) (k : K) : List O := ((f k (m.lookup k)).map Prod.fst).getD []

variable {f} {state : List O × Finmap fun _ : K => V} {k k' : K} {ks : List K}

theorem visit_fst (state : List O × Finmap fun _ : K => V) (k : K) :
    (visit f state k).1 = state.1 ++ written f state.2 k := by
  unfold visit written
  cases f k (state.2.lookup k) with
  | none => exact (append_nil _).symm
  | some e => rfl

theorem visit_lookup_self (state : List O × Finmap fun _ : K => V) (k : K) :
    (visit f state k).2.lookup k =
      ((f k (state.2.lookup k)).map Prod.snd).or (state.2.lookup k) := by
  unfold visit
  cases f k (state.2.lookup k) with
  | none => rfl
  | some e => exact lookup_insert _

theorem visit_lookup_of_ne (h : k' ≠ k) : (visit f state k).2.lookup k' = state.2.lookup k' := by
  unfold visit
  cases f k (state.2.lookup k) with
  | none => rfl
  | some e => exact lookup_insert_of_ne _ h

theorem foldl_visit_lookup_of_notMem (h : k ∉ ks) :
    (ks.foldl (visit f) state).2.lookup k = state.2.lookup k := by
  induction ks generalizing state with
  | nil => rfl
  | cons k' ks ih =>
    rw [mem_cons, not_or] at h
    rw [foldl_cons, ih h.2, visit_lookup_of_ne h.1]

theorem foldl_visit_lookup (hnodup : ks.Nodup) (h : k ∈ ks) :
    (ks.foldl (visit f) state).2.lookup k =
      ((f k (state.2.lookup k)).map Prod.snd).or (state.2.lookup k) := by
  induction ks generalizing state with
  | nil => cases h
  | cons k' ks ih =>
    rw [nodup_cons] at hnodup
    rw [foldl_cons]
    by_cases hk : k = k'
    · rw [hk, foldl_visit_lookup_of_notMem hnodup.1, visit_lookup_self]
    · rw [ih hnodup.2 (mem_of_ne_of_mem hk h), visit_lookup_of_ne hk]

theorem mem_foldl_visit (hnodup : ks.Nodup) :
    k ∈ (ks.foldl (visit f) state).2 ↔
      k ∈ state.2 ∨ k ∈ ks ∧ (f k (state.2.lookup k)).isSome := by
  rw [← lookup_isSome, ← lookup_isSome]
  by_cases hk : k ∈ ks
  · rw [foldl_visit_lookup hnodup hk, isSome_or, isSome_map, Bool.or_eq_true]
    tauto
  · rw [foldl_visit_lookup_of_notMem hk]
    tauto

/-- What holds of the entries before a loop and is kept by each visit holds of them behind it. -/
theorem foldl_visit_invariant {P : V → Prop} (hm : ∀ k v, state.2.lookup k = some v → P v)
    (hf : ∀ k e out v, (∀ v', e = some v' → P v') → f k e = some (out, v) → P v) {v : V}
    (h : (ks.foldl (visit f) state).2.lookup k = some v) : P v := by
  induction ks generalizing state with
  | nil => exact hm k v h
  | cons k' ks ih =>
    refine ih (fun k'' v' hv' => ?_) h
    by_cases hk : k'' = k'
    · rw [hk, visit_lookup_self] at hv'
      rcases or_eq_some_iff.mp hv' with hnew | ⟨-, hold⟩
      · obtain ⟨⟨out, w⟩, hw, rfl⟩ := map_eq_some_iff.mp hnew
        exact hf k' _ out w (fun v'' hv'' => hm k' v'' hv'') hw
      · exact hm k' v' hold
    · rw [visit_lookup_of_ne hk] at hv'
      exact hm k'' v' hv'

theorem foldl_visit_fst (hnodup : ks.Nodup) :
    (ks.foldl (visit f) state).1 = state.1 ++ ks.flatMap (written f state.2) := by
  induction ks generalizing state with
  | nil => exact (append_nil _).symm
  | cons k ks ih =>
    rw [nodup_cons] at hnodup
    have hsame : ∀ k' ∈ ks, written f (visit f state k).2 k' = written f state.2 k' := by
      intro k' hk'
      have hne : k' ≠ k := fun h => hnodup.1 (h ▸ hk')
      rw [written, visit_lookup_of_ne hne, written]
    rw [foldl_cons, ih hnodup.2, visit_fst, flatMap_cons, append_assoc, flatMap_congr hsame]

theorem foldl_visit_perm (hnodup : ks.Nodup) (h : ks.Perm ks') (state) :
    (ks.foldl (visit f) state).1.Perm (ks'.foldl (visit f) state).1 ∧
      (ks.foldl (visit f) state).2 = (ks'.foldl (visit f) state).2 := by
  have hnodup' := h.nodup_iff.mp hnodup
  constructor
  · rw [foldl_visit_fst hnodup, foldl_visit_fst hnodup']
    exact (h.flatMap_right _).append_left _
  · apply Finmap.ext_lookup
    intro k
    by_cases hk : k ∈ ks
    · rw [foldl_visit_lookup hnodup hk, foldl_visit_lookup hnodup' (h.mem_iff.mp hk)]
    · rw [foldl_visit_lookup_of_notMem hk, foldl_visit_lookup_of_notMem (mt h.mem_iff.mpr hk)]

end

section

variable {O A : Type*} (add : A → List O → A) (f : K → V → Option (List O × Option V))

/-- A turn of a loop over the entries: from an entry `f` makes what is written for it and what is left
of it, or fails. -/
def sweep (state : A × Finmap fun _ : K => V) (k : K) : Option (A × Finmap fun _ : K => V) :=
  match state.2.lookup k with
  | none => some state
  | some v => (f k v).map fun r => (add state.1 r.1, match r.2 with
    | none => state.2.erase k
    | some v => state.2.insert k v)

def swept (m : Finmap fun _ : K => V) (k : K) : List O :=
  (((m.lookup k).bind (f k)).map Prod.fst).getD []

def remains (m : Finmap fun _ : K => V) (k : K) : Option V :=
  ((m.lookup k).bind (f k)).bind Prod.snd

variable {add f} {state : A × Finmap fun _ : K => V} {k : K} {ks : List K}

theorem sweep_absent {m : Finmap fun _ : K => V} (h : m.lookup k = none) :
    swept f m k = [] ∧ remains f m k = none := by
  rw [swept, remains, h]
  exact ⟨rfl, rfl⟩

theorem sweep_entry {m : Finmap fun _ : K => V} {v : V} {out : List O} {left : Option V}
    (h : m.lookup k = some v) (hf : f k v = some (out, left)) :
    swept f m k = out ∧ remains f m k = left := by
  rw [swept, remains, h, bind_some, hf]
  exact ⟨rfl, rfl⟩

theorem sweep_total (hadd : ∀ a, add a [] = a)
    (h : ∀ v, state.2.lookup k = some v → (f k v).isSome) :
    ∃ m, sweep add f state k = some (add state.1 (swept f state.2 k), m) ∧
      m.lookup k = remains f state.2 k ∧ ∀ k' ≠ k, m.lookup k' = state.2.lookup k' := by
  unfold sweep swept remains
  cases hlookup : state.2.lookup k with
  | none =>
    refine ⟨state.2, ?_, hlookup, fun _ _ => rfl⟩
    show some state = some (add state.1 [], state.2)
    rw [hadd]
  | some v =>
    obtain ⟨⟨out, left⟩, hr⟩ := isSome_iff_exists.mp (h v hlookup)
    simp only [hr, map_some, bind_some, getD_some]
    cases left with
    | none => exact ⟨_, rfl, lookup_erase k state.2, fun k' hk' => lookup_erase_ne hk'⟩
    | some v' =>
      exact ⟨_, rfl, lookup_insert _, fun k' hk' => lookup_insert_of_ne _ hk'⟩

theorem foldlM_sweep (state : A × Finmap fun _ : K => V) (hadd : ∀ a, add a [] = a)
    (hnodup : ks.Nodup) (h : ∀ k ∈ ks, ∀ v, state.2.lookup k = some v → (f k v).isSome) :
    ∃ m, ks.foldlM (sweep add f) state =
        some (ks.foldl (fun a k => add a (swept f state.2 k)) state.1, m) ∧
      ∀ k, m.lookup k = if k ∈ ks then remains f state.2 k else state.2.lookup k := by
  induction ks generalizing state with
  | nil => exact ⟨state.2, rfl, fun k => by simp⟩
  | cons k ks ih =>
    rw [nodup_cons] at hnodup
    obtain ⟨m₁, hsweep, hself, hother⟩ := sweep_total hadd (h k mem_cons_self)
    have hne : ∀ k' ∈ ks, k' ≠ k := fun k' hk' heq => hnodup.1 (heq ▸ hk')
    have hrest : ∀ k' ∈ ks, ∀ v, m₁.lookup k' = some v → (f k' v).isSome := by
      intro k' hk' v hv
      rw [hother k' (hne k' hk')] at hv
      exact h k' (mem_cons_of_mem k hk') v hv
    obtain ⟨m, hfold, hm⟩ := ih (add state.1 (swept f state.2 k), m₁) hnodup.2 hrest
    have hswept : ∀ k' ∈ ks, swept f m₁ k' = swept f state.2 k' := fun k' hk' => by
      rw [swept, hother k' (hne k' hk'), swept]
    refine ⟨m, ?_, fun k' => ?_⟩
    · rw [foldlM_cons, hsweep]
      show ks.foldlM (sweep add f) _ = _
      rw [hfold, foldl_cons]
      congr 2
      exact foldl_ext _ _ _ fun a k' hk' => by rw [hswept k' hk']
    · rw [hm k']
      by_cases hk : k' = k
      · subst hk
        rw [if_neg hnodup.1, if_pos mem_cons_self, hself]
      · simp only [remains, hother k' hk, mem_cons, hk, false_or]

end

end Lsvmi.Reasoning
