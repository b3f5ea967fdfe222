import Lsvmi.ProcPid.Cache

/-!
# The LRU list during a scan

The list splits into the entries the scan has not reached yet, which keep an older scan number, and
behind them the ones it has put at the tail.
-/

namespace Lsvmi.ProcPid

open Reasoning Function Finmap ScanState List

variable (cfg : Config) (call : Call) (scanNum : Int64) (st : ScanState) {x : Ref}

theorem setInfo_info {r : Ref} (info : ProcPidTidMetricsInfo) (hx : x ≠ r) :
    (st.setInfo r info).pm.info x = st.pm.info x :=
  update_of_ne hx _ _

theorem parseStatus_info (p : PidTid) : (st.parseStatus cfg call p).pm.info = st.pm.info := by
  unfold parseStatus
  split <;> rfl

theorem parseCmdline_info (p : PidTid) (needed : Bool) :
    (st.parseCmdline call p needed).pm.info = st.pm.info := by
  unfold parseCmdline
  split <;> rfl

theorem scanEntry_info (p : PidTid) {r : Ref} (hasPrev active fullMetrics : Bool) (hx : x ≠ r) :
    (st.scanEntry cfg call scanNum p r hasPrev active fullMetrics).pm.info x = st.pm.info x := by
  unfold scanEntry
  simp only
  split
  · cases hasPrev <;> simp [forget, parseStatus_info, setInfo_info _ _ hx]
  split
  · cases hasPrev <;>
      simp [forget, parseCmdline_info, parseStatus_info, setInfo_info _ _ hx]
  · simp [publish, readd, update_of_ne hx, parseCmdline_info, parseStatus_info, setInfo_info _ _ hx]

theorem scanNew_info (p : PidTid) (hx : x ≠ st.pm.nextRef) :
    (st.scanNew cfg call scanNum p).pm.info x = st.pm.info x := by
  unfold scanNew
  rw [scanEntry_info _ _ _ _ _ _ _ _ hx]
  exact update_of_ne hx _ _

theorem scanPidTid_info (q : PidTid)
    (hx : x ≠ st.pm.nextRef) (hq : st.pm.pidTidMetricsInfo.lookup q ≠ some x) :
    (scanPidTid cfg call scanNum st q).pm.info x = st.pm.info x := by
  have hbody := scanPidTid_body cfg call scanNum st q
  generalize fate cfg call st.pm q = f, scanPidTid cfg call scanNum st q = st' at hbody ⊢
  have hne : ∀ r, st.pm.pidTidMetricsInfo.lookup q = some r → x ≠ r :=
    fun r hl h => hq (by rw [hl, h])
  cases hbody with
  | ignored | gone => rfl
  | created | reused => exact scanNew_info _ _ _ _ _ hx
  | skipped r hl => simp [skipInactive, readd, setInfo_info _ _ (hne r hl), parseStat]
  | scanned r active hl => exact scanEntry_info _ _ _ _ _ _ _ _ (hne r hl)

theorem Cache.apply_lookup (c : Cache) (scanNum : Int64) {p q : PidTid} (f : Fate) (hpq : p ≠ q) :
    (c.apply scanNum q f).entries.lookup p = c.entries.lookup p := by
  cases f <;> simp [Cache.apply, Cache.alloc, Cache.forget, Cache.unlink, Cache.countDeleted,
    Cache.store, Cache.mark, lookup_insert_of_ne _ hpq, lookup_erase_ne hpq]

/-- The LRU list spells `l`, its entries are the ones the map has for their PID, TID, and every
entry of the map stands for the PID, TID it is found under. -/
structure Cache.Inv (c : Cache) (l : List Ref) : Prop where
  threads : c.lru.Threads l
  owner : ∀ p r, c.entries.lookup p = some r → c.pidTidOf r = p ∧ r < c.nextRef
  mapped : ∀ r ∈ l, c.entries.lookup (c.pidTidOf r) = some r

def Fate.entry : Fate → Option Ref
  | .ignored | .abandoned | .added => none
  | .dropped r | .leftBehind r | .replaced r | .refreshed r => some r

def Fate.reorder (n : Ref) : Fate → List Ref → List Ref
  | .ignored, l | .abandoned, l => l
  | .dropped r, l | .leftBehind r, l => l.erase r
  | .added, l => l ++ [n]
  | .replaced r, l => l.erase r ++ [n]
  | .refreshed r, l => l.erase r ++ [r]

theorem fate_entry (pm : ProcPidMetrics) (p : PidTid) :
    (fate cfg call pm p).entry = pm.pidTidMetricsInfo.lookup p := by
  unfold fate
  cases pm.pidTidMetricsInfo.lookup p with
  | none => simp only; split <;> [rfl; split <;> rfl]
  | some r =>
    simp only
    split
    · rfl
    split
    · split <;> rfl
    split
    · rfl
    split <;> rfl

namespace Cache.Inv

variable {c : Cache} {l : List Ref} {r : Ref} {p : PidTid} (h : c.Inv l)
include h

theorem lt_nextRef (hr : r ∈ l) : r < c.nextRef :=
  (h.owner _ _ (h.mapped r hr)).2

theorem nextRef_not_mem : c.nextRef ∉ l :=
  fun hn => Nat.lt_irrefl _ (h.lt_nextRef hn)

theorem unlink (hr : r ∈ l) : (c.unlink r).Inv (l.erase r) := by
  obtain ⟨l₁, l₂, -, hl, herase⟩ := exists_erase_eq hr
  refine ⟨?_, h.owner, fun x hx => h.mapped x (erase_subset hx)⟩
  have hthreads := h.threads
  rw [hl] at hthreads
  rw [herase]
  exact hthreads.unlink

theorem forget (hp : ∀ r ∈ l, c.pidTidOf r ≠ p) : (c.forget p).Inv l := by
  refine ⟨h.threads, ?_, ?_⟩
  · intro q r hq
    have hqp : q ≠ p := by
      rintro rfl
      simp [Cache.forget] at hq
    exact h.owner q r (by rwa [Cache.forget, lookup_erase_ne hqp] at hq)
  · intro r hr
    change (c.entries.erase p).lookup (c.pidTidOf r) = some r
    rw [lookup_erase_ne (hp r hr)]
    exact h.mapped r hr

theorem countDeleted : c.countDeleted.Inv l :=
  ⟨h.threads, h.owner, h.mapped⟩

theorem alloc (p : PidTid) : (c.alloc p).Inv l := by
  have hne : ∀ r ∈ l, r ≠ c.nextRef := fun r hr => Nat.ne_of_lt (h.lt_nextRef hr)
  refine ⟨h.threads.congr rfl rfl ?_ ?_, ?_, ?_⟩
  · intro r hr
    exact update_of_ne (hne r hr) _ _
  · intro r hr
    exact update_of_ne (hne r hr) _ _
  · intro q r hq
    obtain ⟨hown, hlt⟩ := h.owner q r hq
    refine ⟨?_, Nat.lt_succ_of_lt hlt⟩
    rw [← hown]
    exact update_of_ne (Nat.ne_of_lt hlt) _ _
  · intro r hr
    have hp : (c.alloc p).pidTidOf r = c.pidTidOf r := update_of_ne (hne r hr) _ _
    rw [hp]
    exact h.mapped r hr

theorem store {n : Ref} (hp : ∀ r ∈ l, c.pidTidOf r ≠ p) (hn : c.pidTidOf n = p)
    (hlt : n < c.nextRef) : (c.store p n).Inv l := by
  refine ⟨h.threads, ?_, ?_⟩
  · intro q r hq
    change (c.entries.insert p n).lookup q = some r at hq
    by_cases hqp : q = p
    · subst hqp
      rw [lookup_insert, Option.some.injEq] at hq
      exact hq ▸ ⟨hn, hlt⟩
    · rw [lookup_insert_of_ne _ hqp] at hq
      exact h.owner q r hq
  · intro r hr
    change (c.entries.insert p n).lookup (c.pidTidOf r) = some r
    rw [lookup_insert_of_ne _ (hp r hr)]
    exact h.mapped r hr

theorem mark (scanNum : Int64) (hr : r ∉ l) (hmap : c.entries.lookup (c.pidTidOf r) = some r)
    (hnext : c.lru.next r = none) (hprev : c.lru.prev r = none) : (c.mark scanNum r).Inv (l ++ [r]) := by
  refine ⟨h.threads.pushBack hr hnext hprev, h.owner, ?_⟩
  intro x hx
  rcases mem_append.mp hx with hx | hx
  · exact h.mapped x hx
  · rw [mem_singleton.mp hx]
    exact hmap

theorem addNew (scanNum : Int64) (hp : ∀ r ∈ l, c.pidTidOf r ≠ p) :
    (((c.alloc p).store p c.nextRef).mark scanNum c.nextRef).Inv (l ++ [c.nextRef]) := by
  have hself : (c.alloc p).pidTidOf c.nextRef = p := update_self _ _ _
  have hp' : ∀ r ∈ l, (c.alloc p).pidTidOf r ≠ p := by
    intro r hr
    have : (c.alloc p).pidTidOf r = c.pidTidOf r :=
      update_of_ne (Nat.ne_of_lt (h.lt_nextRef hr)) _ _
    rw [this]
    exact hp r hr
  have hstore := (h.alloc p).store hp' hself (Nat.lt_succ_self _)
  apply hstore.mark scanNum h.nextRef_not_mem
  · change ((c.alloc p).entries.insert p c.nextRef).lookup ((c.alloc p).pidTidOf c.nextRef) = _
    rw [hself, lookup_insert]
  all_goals exact update_self _ _ _

theorem pidTidOf_ne (hr : c.entries.lookup p = some r) : ∀ x ∈ l.erase r, c.pidTidOf x ≠ p := by
  intro x hx hxp
  have hxl := erase_subset hx
  have hxr : x = r := by
    have := h.mapped x hxl
    rw [hxp, hr, Option.some.injEq] at this
    exact this.symm
  exact (Nodup.not_mem_erase h.threads.nodup) (hxr ▸ hx)

theorem pidTidOf_ne_of_none (hp : c.entries.lookup p = none) : ∀ x ∈ l, c.pidTidOf x ≠ p := by
  intro x hx hxp
  have := h.mapped x hx
  rw [hxp, hp] at this
  cases this

theorem apply (scanNum : Int64) {f : Fate} (hf : f.entry = c.entries.lookup p)
    (hlinked : ∀ r, f.entry = some r → r ∈ l) :
    (c.apply scanNum p f).Inv (f.reorder c.nextRef l) := by
  cases f with
  | ignored => exact h
  | abandoned => exact h.alloc p
  | added => exact h.addNew scanNum (h.pidTidOf_ne_of_none hf.symm)
  | dropped r => exact (h.unlink (hlinked r rfl)).forget (h.pidTidOf_ne hf.symm)
  | leftBehind r => exact (h.unlink (hlinked r rfl)).countDeleted.alloc p
  | replaced r =>
    exact (h.unlink (hlinked r rfl)).countDeleted.addNew scanNum (h.pidTidOf_ne hf.symm)
  | refreshed r =>
    have hown := (h.owner p r hf.symm).1
    refine (h.unlink (hlinked r rfl)).mark scanNum (Nodup.not_mem_erase h.threads.nodup) ?_ ?_ ?_
    · change c.entries.lookup (c.pidTidOf r) = some r
      rw [hown, ← hf]
      rfl
    · exact Links.unlink_next_self _ _
    · exact Links.unlink_prev_self _ _

end Cache.Inv

end Lsvmi.ProcPid
