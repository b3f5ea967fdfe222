import Lsvmi.ProcPid.Lru

/-!
# A whole scan

The loop over the PID, TID list followed by the removal of the outdated entries, as seen in the
cache.  `stale` are the entries the loop has not reached, `fresh` the ones it put at the tail.
-/

namespace Lsvmi.ProcPid

open Reasoning List Finmap Function

variable {st : ScanState} {r : Ref}

structure Cache.Scanning (c : Cache) (scanNum : Int64) (done : List PidTid)
    (stale fresh : List Ref) : Prop extends c.Inv (stale ++ fresh) where
  stale_num : ∀ r ∈ stale, c.scanNumOf r ≠ scanNum
  fresh_num : ∀ r ∈ fresh, c.scanNumOf r = scanNum
  stale_pid : ∀ r ∈ stale, c.pidTidOf r ∉ done
  fresh_pid : ∀ r ∈ fresh, c.pidTidOf r ∈ done

def Cache.balance (c : Cache) : Int := c.entries.keys.card - c.added + c.deleted

def Cache.Covers (c : Cache) (l : List Ref) : Prop :=
  ∀ p r, c.entries.lookup p = some r → r ∈ l

def Fate.isLeftBehind : Fate → Bool
  | .leftBehind _ => true
  | _ => false

def Fate.readded (n : Ref) : Fate → List Ref
  | .added | .replaced _ => [n]
  | .refreshed r => [r]
  | _ => []

open Fate

theorem Fate.readded_eq_nil (n : Ref) (f : Fate) : f.readded n = [] ↔ f.completes = false := by
  cases f <;> simp [readded, completes]

namespace Cache

variable {c : Cache} {scanNum : Int64} {p : PidTid} {f : Fate} {stale fresh l : List Ref}
  {done : List PidTid}

open Cache

theorem apply_pidTidOf (c : Cache) (scanNum : Int64) (p : PidTid) (f : Fate) {x : Ref}
    (hx : x ≠ c.nextRef) : (c.apply scanNum p f).pidTidOf x = c.pidTidOf x := by
  cases f <;> simp [apply, alloc, forget, unlink, countDeleted, store, mark, update_of_ne hx]

theorem apply_scanNumOf (c : Cache) (scanNum : Int64) (p : PidTid) (f : Fate) {x : Ref}
    (hx : x ≠ c.nextRef) (hxf : x ∉ f.readded c.nextRef) :
    (c.apply scanNum p f).scanNumOf x = c.scanNumOf x := by
  cases f with
  | refreshed r =>
    have hxr : x ≠ r := by simpa [readded] using hxf
    exact update_of_ne hxr _ _
  | _ => simp [apply, alloc, forget, unlink, countDeleted, store, mark, update_of_ne hx]

theorem apply_readded (c : Cache) (scanNum : Int64) (p : PidTid) (f : Fate)
    (hown : ∀ r, f.entry = some r → c.pidTidOf r = p) :
    ∀ x ∈ f.readded c.nextRef, (c.apply scanNum p f).scanNumOf x = scanNum ∧
      (c.apply scanNum p f).pidTidOf x = p := by
  intro x hx
  cases f with
  | added | replaced r =>
    obtain rfl : x = c.nextRef := by simpa [readded] using hx
    simp [apply, alloc, unlink, countDeleted, store, mark]
  | refreshed r =>
    obtain rfl : x = r := by simpa [readded] using hx
    simpa [apply, mark, unlink] using hown x rfl
  | ignored | abandoned | dropped r | leftBehind r => simp [readded] at hx

theorem reorder_append (n : Ref) (f : Fate) (hf : ∀ r, f.entry = some r → r ∈ stale) :
    f.reorder n (stale ++ fresh) =
      f.entry.elim stale stale.erase ++ (fresh ++ f.readded n) := by
  cases f with
  | ignored | abandoned | added => simp [reorder, entry, readded]
  | dropped r | leftBehind r | replaced r | refreshed r =>
    simp [reorder, entry, readded, erase_append_left _ (hf r rfl)]

theorem Scanning.mem_front (h : c.Scanning scanNum done stale fresh)
    (hf : f.entry = c.entries.lookup p) (hlinked : ∀ r, f.entry = some r → r ∈ stale) (x : Ref) :
    x ∈ f.entry.elim stale stale.erase ↔ x ∈ stale ∧ c.pidTidOf x ≠ p := by
  cases hr : f.entry with
  | none =>
    rw [hr] at hf
    have hother := h.toInv.pidTidOf_ne_of_none hf.symm x
    exact ⟨fun hx => ⟨hx, hother (mem_append_left _ hx)⟩, fun hx => hx.1⟩
  | some r =>
    have hrs := hlinked r hr
    rw [hr] at hf
    constructor
    · intro hx
      refine ⟨erase_subset hx, h.toInv.pidTidOf_ne hf.symm x ?_⟩
      rw [erase_append_left _ hrs]
      exact mem_append_left _ hx
    rintro ⟨hx, hxp⟩
    have hxr : x ≠ r := by
      rintro rfl
      exact hxp (h.owner p x hf.symm).1
    exact (mem_erase_of_ne hxr).mpr hx

theorem Scanning.apply (h : c.Scanning scanNum done stale fresh)
    (hf : f.entry = c.entries.lookup p) (hlinked : ∀ r, f.entry = some r → r ∈ stale) :
    (c.apply scanNum p f).Scanning scanNum (p :: done) (f.entry.elim stale stale.erase)
      (fresh ++ f.readded c.nextRef) := by
  have hinv : (c.apply scanNum p f).Inv (f.reorder c.nextRef (stale ++ fresh)) :=
    h.toInv.apply scanNum hf fun r hr => mem_append_left _ (hlinked r hr)
  have hown : ∀ r, f.entry = some r → c.pidTidOf r = p := fun r hr =>
    (h.owner p r (hf ▸ hr)).1
  have hne : ∀ x ∈ stale ++ fresh, x ≠ c.nextRef := fun x hx =>
    Nat.ne_of_lt (h.toInv.lt_nextRef hx)
  have hfront := h.mem_front hf hlinked
  rw [reorder_append c.nextRef f hlinked] at hinv
  refine ⟨hinv, ?_, ?_, ?_, ?_⟩
  · intro x hx
    obtain ⟨hxs, hxp⟩ := (hfront x).mp hx
    have hxn := hne x (mem_append_left _ hxs)
    have hread : x ∉ f.readded c.nextRef := by
      intro hxr
      rw [← apply_pidTidOf c scanNum p f hxn] at hxp
      exact hxp (apply_readded c scanNum p f hown x hxr).2
    rw [apply_scanNumOf c scanNum p f hxn hread]
    exact h.stale_num x hxs
  · intro x hx
    by_cases hxr : x ∈ f.readded c.nextRef
    · exact (apply_readded c scanNum p f hown x hxr).1
    · have hxf : x ∈ fresh := (mem_append.mp hx).resolve_right hxr
      rw [apply_scanNumOf c scanNum p f (hne x (mem_append_right _ hxf)) hxr]
      exact h.fresh_num x hxf
  · intro x hx
    obtain ⟨hxs, hxp⟩ := (hfront x).mp hx
    rw [apply_pidTidOf c scanNum p f (hne x (mem_append_left _ hxs)), mem_cons, not_or]
    exact ⟨hxp, h.stale_pid x hxs⟩
  intro x hx
  rcases mem_append.mp hx with hx | hx
  · rw [apply_pidTidOf c scanNum p f (hne x (mem_append_right _ hx))]
    exact mem_cons_of_mem _ (h.fresh_pid x hx)
  · rw [(apply_readded c scanNum p f hown x hx).2]
    exact mem_cons_self

theorem apply_nextRef_le (c : Cache) (scanNum : Int64) (p : PidTid) (f : Fate) :
    c.nextRef ≤ (c.apply scanNum p f).nextRef := by
  cases f <;> simp [apply, alloc, forget, unlink, countDeleted, store, mark]

theorem card_erase {m : Finmap fun _ : PidTid => Ref} {p : PidTid} (hp : p ∈ m) :
    ((m.erase p).keys.card : Int) = m.keys.card - 1 := by
  have hk : p ∈ m.keys := mem_keys.mpr hp
  rw [keys_erase, Finset.card_erase_of_mem hk]
  have := Finset.card_pos.mpr ⟨p, hk⟩
  omega

private theorem keys_insert (m : Finmap fun _ : PidTid => Ref) (p : PidTid) (r : Ref) :
    (m.insert p r).keys = insert p m.keys := by
  ext q
  simp [Finmap.mem_keys, Finmap.mem_insert]

theorem apply_balance (hf : f.entry = c.entries.lookup p) :
    (c.apply scanNum p f).balance = c.balance + if f.isLeftBehind then 1 else 0 := by
  cases f with
  | ignored | abandoned => simp [apply, balance, alloc, isLeftBehind]
  | leftBehind r =>
    simp [apply, balance, alloc, countDeleted, unlink, isLeftBehind]
    omega
  | refreshed r => simp [apply, balance, mark, unlink, isLeftBehind]
  | dropped r =>
    have hp : p ∈ c.entries := mem_of_lookup_eq_some hf.symm
    have hcard := card_erase hp
    simp only [apply, balance, forget, unlink, isLeftBehind, hcard, Bool.false_eq_true, if_false]
    push_cast
    omega
  | added =>
    have hp : p ∉ c.entries := lookup_eq_none.mp hf.symm
    have hk : p ∉ c.entries.keys := fun h => hp (mem_keys.mp h)
    simp only [apply, balance, alloc, store, mark,
      isLeftBehind, keys_insert, Finset.card_insert_of_notMem hk, Bool.false_eq_true, if_false]
    push_cast
    omega
  | replaced r =>
    have hp : p ∈ c.entries := mem_of_lookup_eq_some hf.symm
    have hk : p ∈ c.entries.keys := mem_keys.mpr hp
    simp only [apply, balance, alloc, store, mark,
      countDeleted, unlink, isLeftBehind, keys_insert, Finset.insert_eq_of_mem hk,
      Bool.false_eq_true, if_false]
    push_cast
    omega

theorem Covers.apply (hc : c.Covers l) (hinv : c.Inv l) (hf : f.entry = c.entries.lookup p)
    (hleft : f.isLeftBehind = false) : (c.apply scanNum p f).Covers (f.reorder c.nextRef l) := by
  intro q r hq
  by_cases hqp : q = p
  · subst hqp
    cases f with
    | ignored => exact hc q r hq
    | abandoned => exact hc q r hq
    | leftBehind s => simp [isLeftBehind] at hleft
    | dropped s => simp [apply, forget] at hq
    | added | replaced s =>
      simp [apply, mark, store] at hq
      simp [reorder, ← hq]
    | refreshed s =>
      have : c.entries.lookup q = some r := hq
      rw [← hf] at this
      obtain rfl : s = r := by simpa [entry] using this
      simp [reorder]
  · rw [apply_lookup c scanNum f hqp] at hq
    have hr := hc q r hq
    have hne : ∀ s, f.entry = some s → r ≠ s := by
      rintro s hs rfl
      rw [hf] at hs
      exact hqp ((hinv.owner q r hq).1.symm.trans (hinv.owner p r hs).1)
    cases f with
    | ignored | abandoned | added => simp [reorder, hr]
    | dropped s | leftBehind s | replaced s | refreshed s =>
      simp [reorder, hr, mem_erase_of_ne (hne s rfl)]

end Cache

theorem fate_scanPidTid (cfg : Config) (call : Call) (scanNum : Int64)
    {l : List Ref} (h : st.cache.Inv l) {p q : PidTid} (hpq : p ≠ q) :
    fate cfg call (scanPidTid cfg call scanNum st q).pm p = fate cfg call st.pm p := by
  have hlookup : (scanPidTid cfg call scanNum st q).pm.pidTidMetricsInfo.lookup p =
      st.pm.pidTidMetricsInfo.lookup p := by
    change (scanPidTid cfg call scanNum st q).cache.entries.lookup p = _
    rw [scanPidTid_cache, Cache.apply_lookup _ _ _ hpq]
    rfl
  unfold fate
  rw [hlookup]
  cases hr : st.pm.pidTidMetricsInfo.lookup p with
  | none => rfl
  | some r =>
    have hown := h.owner p r hr
    have hinfo : (scanPidTid cfg call scanNum st q).pm.info r = st.pm.info r := by
      apply scanPidTid_info
      · exact Nat.ne_of_lt hown.2
      · intro hq
        exact hpq (hown.1.symm.trans (h.owner q r hq).1)
    simp only [hinfo]

/-- How the cache after the loop over `ps` relates to the cache `c` before it, for the fates `F`. -/
structure Scanned (scanNum : Int64) (F : PidTid → Fate) (ps : List PidTid) (c c' : Cache)
    (done : List PidTid) (stale fresh stale' fresh' : List Ref) : Prop where
  scanning : c'.Scanning scanNum (ps.reverse ++ done) stale' fresh'
  stale_iff : ∀ r, r ∈ stale' ↔ r ∈ stale ∧ c.pidTidOf r ∉ ps
  fresh_iff : fresh' = [] ↔ fresh = [] ∧ ∀ p ∈ ps, (F p).completes = false
  balance : c'.balance = c.balance + ps.countP fun p => (F p).isLeftBehind
  covers : (∀ p ∈ ps, (F p).isLeftBehind = false) → c.Covers (stale ++ fresh) →
    c'.Covers (stale' ++ fresh')
  nextRef_le : c.nextRef ≤ c'.nextRef

theorem scan_loop (cfg : Config) (call : Call) (scanNum : Int64) (ps : List PidTid) (st : ScanState)
    (done : List PidTid) (stale fresh : List Ref) (h : st.cache.Scanning scanNum done stale fresh)
    (hnodup : ps.Nodup) (hdone : ∀ p ∈ ps, p ∉ done)
    (hlinked : ∀ p ∈ ps, ∀ r, st.cache.entries.lookup p = some r → r ∈ stale ++ fresh) :
    ∃ stale' fresh', Scanned scanNum (fate cfg call st.pm) ps st.cache
      (ps.foldl (scanPidTid cfg call scanNum) st).cache done stale fresh stale' fresh' := by
  -- Induction on the list; the fates of the remaining PIDs, TIDs do not change on the way.
  induction ps generalizing st done stale fresh with
  | nil => exact ⟨stale, fresh, h, by simp, by simp, by simp, fun _ hc => hc, le_rfl⟩
  | cons p ps ih =>
    obtain ⟨hp, hps⟩ := nodup_cons.mp hnodup
    have hf : (fate cfg call st.pm p).entry = st.cache.entries.lookup p := fate_entry cfg call _ p
    have hstale : ∀ r, (fate cfg call st.pm p).entry = some r → r ∈ stale := by
      intro r hr
      rw [hf] at hr
      rcases mem_append.mp (hlinked p (by simp) r hr) with hmem | hmem
      · exact hmem
      · have := h.fresh_pid r hmem
        rw [(h.owner p r hr).1] at this
        exact absurd this (hdone p (by simp))
    have hstep := h.apply hf hstale
    rw [← scanPidTid_cache] at hstep
    have hfate : ∀ q ∈ ps, fate cfg call (scanPidTid cfg call scanNum st p).pm q =
        fate cfg call st.pm q := fun q hq =>
      fate_scanPidTid cfg call scanNum h.toInv fun hqp => hp (hqp ▸ hq)
    have hlookup : ∀ q ∈ ps, (scanPidTid cfg call scanNum st p).cache.entries.lookup q =
        st.cache.entries.lookup q := by
      intro q hq
      rw [scanPidTid_cache]
      exact Cache.apply_lookup _ _ _ fun hqp => hp (hqp ▸ hq)
    have hreach : ∀ q ∈ ps, ∀ r,
        (scanPidTid cfg call scanNum st p).cache.entries.lookup q = some r →
        r ∈ (fate cfg call st.pm p).entry.elim stale stale.erase ++
          (fresh ++ (fate cfg call st.pm p).readded st.cache.nextRef) := by
      intro q hq r hr
      rw [hlookup q hq] at hr
      rcases mem_append.mp (hlinked q (mem_cons_of_mem p hq) r hr) with hmem | hmem
      · refine mem_append_left _ ((h.mem_front hf hstale r).mpr ⟨hmem, ?_⟩)
        rw [(h.owner q r hr).1]
        rintro rfl
        exact hp hq
      · exact mem_append_right _ (mem_append_left _ hmem)
    have hnew : ∀ q ∈ ps, q ∉ p :: done := by
      intro q hq
      rw [mem_cons, not_or]
      exact ⟨fun hqp => hp (hqp ▸ hq), hdone q (mem_cons_of_mem p hq)⟩
    obtain ⟨stale', fresh', hrest⟩ := ih _ (p :: done) _ _ hstep hps hnew hreach
    refine ⟨stale', fresh', ?_, ?_, ?_, ?_, ?_, ?_⟩
    · simpa using hrest.scanning
    · intro r
      rw [hrest.stale_iff, h.mem_front hf hstale, mem_cons, not_or, and_assoc, and_congr_right_iff]
      intro hr
      rw [scanPidTid_cache, Cache.apply_pidTidOf _ _ _ _
        (Nat.ne_of_lt (h.toInv.lt_nextRef (mem_append_left _ hr)))]
    · rw [hrest.fresh_iff, append_eq_nil_iff, readded_eq_nil, forall_mem_cons, and_assoc]
      simp +contextual only [hfate]
    · rw [foldl_cons, hrest.balance, scanPidTid_cache, Cache.apply_balance hf, countP_cons]
      rw [countP_congr (l := ps) fun q hq => by rw [hfate q hq]]
      split
      · push_cast
        omega
      · simp
    · intro hleft hcov
      apply hrest.covers
      · intro q hq
        rw [hfate q hq]
        exact hleft q (mem_cons_of_mem p hq)
      · rw [scanPidTid_cache, ← Cache.reorder_append _ _ hstale]
        exact hcov.apply h.toInv hf (hleft p mem_cons_self)
    · refine le_trans ?_ hrest.nextRef_le
      rw [scanPidTid_cache]
      exact Cache.apply_nextRef_le _ _ _ _

def Cache.prune (c : Cache) (r : Ref) : Cache :=
  { c.forget (c.pidTidOf r) with lru := c.lru.popFront r }

theorem Cache.Scanning.prune {c : Cache} {scanNum : Int64} {done : List PidTid}
    {stale fresh : List Ref} (h : c.Scanning scanNum done (r :: stale) fresh)
    (hrest : stale ++ fresh ≠ []) : (c.prune r).Scanning scanNum done stale fresh := by
  have hother : ∀ x ∈ stale ++ fresh, c.pidTidOf x ≠ c.pidTidOf r := by
    intro x hx
    apply h.toInv.pidTidOf_ne (h.mapped r (by simp))
    simpa using hx
  refine ⟨⟨h.threads.popFront hrest, ?_, ?_⟩, ?_, h.fresh_num, ?_, h.fresh_pid⟩
  · intro q x hq
    have hqr : q ≠ c.pidTidOf r := by
      rintro rfl
      simp [Cache.prune, Cache.forget] at hq
    exact h.owner q x (by simpa [Cache.prune, Cache.forget, lookup_erase_ne hqr] using hq)
  · intro x hx
    change (c.entries.erase (c.pidTidOf r)).lookup (c.pidTidOf x) = some x
    rw [lookup_erase_ne (hother x hx)]
    exact h.mapped x (mem_cons_of_mem r hx)
  · exact fun x hx => h.stale_num x (mem_cons_of_mem r hx)
  · exact fun x hx => h.stale_pid x (mem_cons_of_mem r hx)

theorem Cache.Scanning.prune_balance {c : Cache} {scanNum : Int64} {done : List PidTid}
    {stale fresh : List Ref} (h : c.Scanning scanNum done (r :: stale) fresh) :
    (c.prune r).balance = c.balance := by
  have hp : c.pidTidOf r ∈ c.entries := mem_of_lookup_eq_some (h.mapped r (by simp))
  simp only [Cache.prune, Cache.balance, Cache.forget, Cache.card_erase hp]
  push_cast
  omega

theorem Cache.Covers.prune {c : Cache} {l : List Ref} (h : c.Covers (r :: l))
    (hinv : c.Inv (r :: l)) : (c.prune r).Covers l := by
  intro q x hq
  have hqr : q ≠ c.pidTidOf r := by
    rintro rfl
    simp [Cache.prune, Cache.forget] at hq
  have hx : c.entries.lookup q = some x := by
    simpa [Cache.prune, Cache.forget, lookup_erase_ne hqr] using hq
  rcases mem_cons.mp (h q x hx) with rfl | hmem
  · exact absurd (hinv.owner q x hx).1.symm hqr
  · exact hmem

def ScanState.prune (st : ScanState) (r n : Ref) : ScanState :=
  let st := st.forget (st.pm.info r).pidTid
  { st with
    pm := { st.pm with
      lru := { st.pm.lru with head := some n, prev := Function.update st.pm.lru.prev n none } } }

theorem pruneLru_cons (scanNum : Int64) (fuel : Nat) {n : Ref}
    (hnum : (st.pm.info r).scanNum ≠ scanNum) (hnext : st.pm.lru.next r = some n) :
    pruneLru scanNum (fuel + 1) (some r) st = pruneLru scanNum fuel (some n) (st.prune r n) := by
  rw [pruneLru, if_neg hnum]
  simp only [ScanState.forget, hnext]
  rfl

theorem prune_cache {n : Ref} (hnext : st.pm.lru.next r = some n) :
    (st.prune r n).cache = st.cache.prune r := by
  unfold ScanState.prune ScanState.forget ScanState.cache Cache.prune Cache.forget Links.popFront
  simp only [hnext]
  congr 2
  funext x
  simp [update_apply, eq_comm]

theorem pruneLru_ok (scanNum : Int64) (stale fresh : List Ref) (hend : fresh ≠ [] ∨ stale = [])
    (fuel : Nat) (st : ScanState) (done : List PidTid)
    (h : st.cache.Scanning scanNum done stale fresh) (hfuel : (stale ++ fresh).length ≤ fuel) :
    ∃ st', pruneLru scanNum fuel st.pm.lru.head st = .ok st' ∧
      st'.cache.Scanning scanNum done [] fresh ∧ st'.cache.balance = st.cache.balance ∧
      (st.cache.Covers (stale ++ fresh) → st'.cache.Covers fresh) := by
  induction stale generalizing st fuel with
  | nil =>
    have hhead : st.pm.lru.head = fresh.head? := h.threads.head_eq
    refine ⟨st, ?_, h, rfl, fun hc => hc⟩
    rw [hhead]
    cases fresh with
    | nil => cases fuel <;> rfl
    | cons r fresh =>
      obtain ⟨fuel, rfl⟩ : ∃ k, fuel = k + 1 := ⟨fuel - 1, by simp at hfuel; omega⟩
      have hnum : (st.pm.info r).scanNum = scanNum := h.fresh_num r (by simp)
      rw [head?_cons, pruneLru, if_pos hnum]
  | cons r stale ih =>
    have hfresh : fresh ≠ [] := hend.resolve_right (cons_ne_nil r stale)
    have hrest : stale ++ fresh ≠ [] := by simp [hfresh]
    obtain ⟨n, l, hn⟩ := exists_cons_of_ne_nil hrest
    have hhead : st.pm.lru.head = some r := h.threads.head_eq
    have hnext : st.pm.lru.next r = some n := by
      have := h.threads.next_eq [] r (stale ++ fresh) rfl
      rwa [hn] at this
    obtain ⟨k, rfl⟩ : ∃ k, fuel = k + 1 := ⟨fuel - 1, by simp at hfuel; omega⟩
    have hnum : (st.pm.info r).scanNum ≠ scanNum := h.stale_num r (by simp)
    have hcache := prune_cache hnext
    have hstep := h.prune hrest
    rw [← hcache] at hstep
    obtain ⟨st', hrun, hst', hbal, hcov⟩ := ih (.inl hfresh) k _ hstep (by simp at hfuel ⊢; omega)
    refine ⟨st', ?_, hst', ?_, ?_⟩
    · rw [hhead, pruneLru_cons scanNum k hnum hnext]
      exact hrun
    · rw [hbal, hcache, h.prune_balance]
    · intro hc
      apply hcov
      rw [hcache]
      exact hc.prune h.toInv

theorem pruneLru_nilDeref (scanNum : Int64) (stale : List Ref) (hne : stale ≠ [])
    (fuel : Nat) (st : ScanState) (done : List PidTid)
    (h : st.cache.Scanning scanNum done stale []) (hfuel : stale.length ≤ fuel) :
    pruneLru scanNum fuel st.pm.lru.head st = .nilDeref := by
  induction stale generalizing st fuel with
  | nil => exact absurd rfl hne
  | cons r stale ih =>
    have hhead : st.pm.lru.head = some r := h.threads.head_eq
    have hnum : (st.pm.info r).scanNum ≠ scanNum := h.stale_num r (by simp)
    obtain ⟨k, rfl⟩ : ∃ k, fuel = k + 1 := ⟨fuel - 1, by simp at hfuel; omega⟩
    have hnext : st.pm.lru.next r = stale.head? := by
      have := h.threads.next_eq [] r (stale ++ []) rfl
      rwa [List.append_nil] at this
    cases stale with
    | nil =>
      rw [hhead, pruneLru, if_neg hnum]
      simp [ScanState.forget, hnext]
    | cons n stale =>
      have hstep := h.prune (by simp)
      rw [← prune_cache hnext] at hstep
      rw [hhead, pruneLru_cons scanNum k hnum hnext]
      exact ih (by simp) k _ hstep (by simp at hfuel ⊢; omega)

end Lsvmi.ProcPid
