import Mathlib.Data.List.Perm.Basic
import Lsvmi.HttpPool.Model

/-!
# Every endpoint is in the healthy list or in one health check

What the critical sections keep of the healthy list and the flags of the endpoints, and from it the
state of the pool under any interleaving.
-/

namespace Lsvmi.HttpPool

open Reasoning List Function HttpEndpointPool

variable {cfg : HttpEndpointPoolConfig} {pool pool' : HttpEndpointPool} {checks : List HealthCheck}
  {l l' l₁ l₂ : List EpRef} {r : EpRef} {ep : HttpEndpoint} {validUrl : String → Bool}

/-- The healthy list spells `l`, which has the endpoints with the flag set. -/
structure HealthyOk (pool : HttpEndpointPool) (l : List EpRef) : Prop where
  threads : pool.healthy.Threads l
  mem_iff : ∀ r, r ∈ l ↔ (pool.ep r).healthy = true
  lt_size : ∀ r ∈ l, r < pool.size
  numErrors_lt : ∀ r ∈ l, (pool.ep r).numErrors < (pool.ep r).markUnhealthyThreshold
  threshold_pos : ∀ r < pool.size, 0 < (pool.ep r).markUnhealthyThreshold

structure SameFlags (pool pool' : HttpEndpointPool) : Prop where
  size_eq : pool'.size = pool.size
  healthy_eq : ∀ r, (pool'.ep r).healthy = (pool.ep r).healthy

theorem SameFlags.refl (pool : HttpEndpointPool) : SameFlags pool pool := ⟨rfl, fun _ => rfl⟩

theorem SameFlags.trans {pool'' : HttpEndpointPool} (h : SameFlags pool pool')
    (h' : SameFlags pool' pool'') : SameFlags pool pool'' :=
  ⟨h'.size_eq.trans h.size_eq, fun r => (h'.healthy_eq r).trans (h.healthy_eq r)⟩

/-! ## Changes to the list and to one endpoint -/

theorem HealthyOk.relink (h : HealthyOk pool l) (hthreads : pool'.healthy.Threads l')
    (hmem : ∀ r, r ∈ l' ↔ r ∈ l) (hep : pool'.ep = pool.ep) (hsize : pool'.size = pool.size) :
    HealthyOk pool' l' where
  threads := hthreads
  mem_iff r := by rw [hmem, hep, h.mem_iff]
  lt_size r hr := by
    rw [hsize]
    exact h.lt_size r ((hmem r).mp hr)
  numErrors_lt r hr := by
    rw [hep]
    exact h.numErrors_lt r ((hmem r).mp hr)
  threshold_pos r hr := by
    rw [hep]
    exact h.threshold_pos r (hsize ▸ hr)

theorem HealthyOk.replace (h : HealthyOk pool l) (r : EpRef) (ep : HttpEndpoint)
    (hthreads : pool'.healthy.Threads l') (hep : pool'.ep = update pool.ep r ep)
    (hsize : pool'.size = pool.size) (hmem : ∀ x, x ≠ r → (x ∈ l' ↔ x ∈ l))
    (hr : r ∈ l' ↔ ep.healthy) (hlt : ep.healthy → r < pool.size)
    (hthreshold : ep.markUnhealthyThreshold = (pool.ep r).markUnhealthyThreshold)
    (herrors : ep.healthy → ep.numErrors < ep.markUnhealthyThreshold) : HealthyOk pool' l' := by
  have hself : pool'.ep r = ep := by rw [hep, update_self]
  have hother : ∀ x, x ≠ r → pool'.ep x = pool.ep x := by
    intro x hx
    rw [hep, update_of_ne hx]
  refine ⟨hthreads, ?_, ?_, ?_, ?_⟩
  · intro x
    by_cases hx : x = r
    · rw [hx, hr, hself]
    · rw [hmem x hx, h.mem_iff, hother x hx]
  · intro x hmem'
    rw [hsize]
    by_cases hx : x = r
    · exact hx ▸ hlt (hr.mp (hx ▸ hmem'))
    · exact h.lt_size x ((hmem x hx).mp hmem')
  · intro x hmem'
    by_cases hx : x = r
    · subst hx
      rw [hself]
      exact herrors (hr.mp hmem')
    · rw [hother x hx]
      exact h.numErrors_lt x ((hmem x hx).mp hmem')
  · intro x hlt'
    rw [hsize] at hlt'
    by_cases hx : x = r
    · subst hx
      rw [hself, hthreshold]
      exact h.threshold_pos x hlt'
    · rw [hother x hx]
      exact h.threshold_pos x hlt'

theorem HealthyOk.setEp (h : HealthyOk pool l) (hhealthy : ep.healthy = (pool.ep r).healthy)
    (hthreshold : ep.markUnhealthyThreshold = (pool.ep r).markUnhealthyThreshold)
    (herrors : ep.healthy → ep.numErrors < ep.markUnhealthyThreshold) :
    HealthyOk (pool.setEp r ep) l := by
  have hr : r ∈ l ↔ ep.healthy := by rw [h.mem_iff, hhealthy]
  exact h.replace r ep h.threads rfl rfl (fun _ _ => Iff.rfl) hr
    (fun he => h.lt_size r (hr.mpr he)) hthreshold herrors

theorem sameFlags_setEp (hhealthy : ep.healthy = (pool.ep r).healthy) :
    SameFlags pool (pool.setEp r ep) := by
  refine ⟨rfl, fun x => ?_⟩
  show (update pool.ep r ep x).healthy = _
  by_cases hx : x = r
  · rw [hx, update_self, hhealthy]
  · rw [update_of_ne hx]

/-! ## Critical sections -/

theorem HealthyOk.moveToHealthy (h : HealthyOk pool l) (hr : r < pool.size)
    (hflag : (pool.ep r).healthy = false) : HealthyOk (pool.moveToHealthy r) (l ++ [r]) := by
  have hnot : r ∉ l := by
    rw [h.mem_iff, hflag]
    decide
  unfold HttpEndpointPool.moveToHealthy
  rw [if_neg (by rw [hflag]; decide)]
  refine h.replace r { pool.ep r with healthy := true, numErrors := 0 }
    (addToTail_threads h.threads hnot) rfl rfl ?_ ?_ (fun _ => hr) rfl fun _ => ?_
  · intro x hx
    simp [hx]
  · simp
  · exact h.threshold_pos r hr

theorem moveToHealthy_healthy (pool : HttpEndpointPool) (r x : EpRef) :
    ((pool.moveToHealthy r).ep x).healthy = if x = r then true else (pool.ep x).healthy := by
  unfold moveToHealthy
  by_cases hx : x = r
  · subst hx
    by_cases hflag : (pool.ep x).healthy
    · rw [if_pos hflag, if_pos rfl, hflag]
    · rw [if_neg hflag, if_pos rfl]
      simp
  · rw [if_neg hx]
    split
    · rfl
    · simp [update_of_ne hx]

theorem HealthyOk.rotate_cons (h : HealthyOk pool (r :: l)) (now : Int) :
    HealthyOk (pool.rotate r now).1 (l ++ [r]) ∧
      (l ++ [r]).head? = some (pool.rotate r now).2 ∧
      (pool.rotate r now).1.ep = pool.ep ∧ (pool.rotate r now).1.size = pool.size ∧
      (pool.rotate r now).1.firstUse = pool.firstUse ∧
      (pool.rotate r now).1.healthyRotateCount =
        pool.healthyRotateCount + if l = [] then 0 else 1 := by
  have hhead : pool.healthy.head = some r := h.threads.head_eq
  have htail := h.threads.tail_eq
  obtain ⟨hnot, hnodup⟩ := nodup_cons.mp h.threads.nodup
  unfold HttpEndpointPool.rotate
  cases l with
  | nil =>
    rw [if_pos (hhead.trans htail.symm)]
    exact ⟨h, rfl, rfl, rfl, rfl, by simp⟩
  | cons r' l =>
    have hne : pool.healthy.head ≠ pool.healthy.tail := by
      intro heq
      rw [hhead, htail, getLast?_cons_cons] at heq
      exact hnot (mem_of_getLast? heq.symm)
    have hthreads := addToTail_threads
      (remove_threads (show pool.healthy.Threads ([] ++ r :: r' :: l) from h.threads)) hnot
    have hmem : ∀ x, x ∈ r' :: l ++ [r] ↔ x ∈ r :: r' :: l := by
      intro x
      simp only [cons_append, mem_cons, mem_append, not_mem_nil, or_false]
      tauto
    have hhead' : (addToTail (remove pool.healthy r) r).head = some r' := hthreads.head_eq
    rw [if_neg hne]
    simp only [HttpEndpointPool.setState_healthy, hhead']
    exact ⟨h.relink hthreads hmem rfl rfl, rfl, rfl, rfl, rfl, rfl⟩

section

variable (h : HealthyOk pool l)
include h

theorem HealthyOk.exists_cons (hhead : pool.healthy.head = some r) : ∃ l', l = r :: l' := by
  rw [h.threads.head_eq] at hhead
  exact head?_eq_some_iff.mp hhead

theorem HealthyOk.rotate (hhead : pool.healthy.head = some r) (now : Int) :
    ∃ l', HealthyOk (pool.rotate r now).1 l' ∧ (pool.rotate r now).1.ep = pool.ep ∧
      (pool.rotate r now).1.size = pool.size := by
  obtain ⟨l', rfl⟩ := h.exists_cons hhead
  obtain ⟨hok, -, hep, hsize, -⟩ := h.rotate_cons now
  exact ⟨_, hok, hep, hsize⟩

theorem HealthyOk.rotateAsNeeded (hhead : pool.healthy.head = some r)
    (cfg : HttpEndpointPoolConfig) (now : Int) :
    ∃ l', HealthyOk (pool.rotateAsNeeded cfg r now).1 l' ∧
      SameFlags pool (pool.rotateAsNeeded cfg r now).1 := by
  unfold HttpEndpointPool.rotateAsNeeded
  split
  · exact ⟨l, h.relink h.threads (fun _ => Iff.rfl) rfl rfl, rfl, fun _ => rfl⟩
  · split
    · obtain ⟨l', hl', hep, hsize⟩ := h.rotate hhead now
      exact ⟨l', hl', hsize, fun x => by rw [hep]⟩
    · exact ⟨l, h, .refl pool⟩

theorem HealthyOk.resetErrorsAsNeeded (cfg : HttpEndpointPoolConfig) (r : EpRef) (now : Int) :
    HealthyOk (pool.resetErrorsAsNeeded cfg r now) l ∧
      SameFlags pool (pool.resetErrorsAsNeeded cfg r now) := by
  unfold HttpEndpointPool.resetErrorsAsNeeded
  simp only
  split
  · refine ⟨h.setEp rfl rfl fun hflag => ?_, sameFlags_setEp rfl⟩
    exact h.threshold_pos r (h.lt_size r ((h.mem_iff r).mpr hflag))
  · exact ⟨h, .refl pool⟩

theorem HealthyOk.useHead (hhead : pool.healthy.head = some r) (cfg : HttpEndpointPoolConfig)
    (now : Int) :
    ∃ l', HealthyOk (pool.useHead cfg r now).1 l' ∧ SameFlags pool (pool.useHead cfg r now).1 := by
  obtain ⟨l', hl', hflags⟩ := h.rotateAsNeeded hhead cfg now
  obtain ⟨hreset, hflags'⟩ := hl'.resetErrorsAsNeeded cfg (pool.rotateAsNeeded cfg r now).2 now
  exact ⟨l', hreset, hflags.trans hflags'⟩

theorem HealthyOk.markHead : HealthyOk pool.markHead l := by
  refine h.relink ?_ (fun _ => Iff.rfl) (markHead_ep pool)
    (markHead_size pool)
  rw [markHead_healthy]
  exact h.threads

end

theorem HealthyOk.retained (h : HealthyOk pool (l₁ ++ r :: l₂)) (now : Int)
    (hretain : (pool.ep r).numErrors + 1 < (pool.ep r).markUnhealthyThreshold) :
    HealthyOk (((pool.countError r now).unlinkFailed r).readdAtTail r) (l₁ ++ l₂ ++ [r]) := by
  have hcount : HealthyOk (pool.countError r now) (l₁ ++ r :: l₂) :=
    h.setEp rfl rfl fun _ => hretain
  have hnot : r ∉ l₁ ++ l₂ := (nodup_cons.mp (nodup_middle.mp h.threads.nodup)).1
  refine hcount.relink (addToTail_threads (remove_threads h.threads) hnot) ?_ rfl rfl
  intro x
  simp only [mem_append, mem_cons, not_mem_nil, or_false]
  tauto

theorem HealthyOk.dropped (h : HealthyOk pool (l₁ ++ r :: l₂)) (now : Int) :
    HealthyOk (((pool.countError r now).unlinkFailed r).moveToHealthCheck r) (l₁ ++ l₂) := by
  have hnot : r ∉ l₁ ++ l₂ := (nodup_cons.mp (nodup_middle.mp h.threads.nodup)).1
  refine h.replace r { (pool.countError r now).ep r with healthy := false }
    (remove_threads h.threads) (update_idem _ _ _) rfl ?_ ?_ ?_ ?_ ?_
  · intro x hx
    simp [hx]
  · simpa using hnot
  · exact fun hc => absurd hc Bool.false_ne_true
  · show (update pool.ep r _ r).markUnhealthyThreshold = _
    rw [update_self]
  · exact fun hc => absurd hc Bool.false_ne_true

theorem HealthyOk.reportError_cases (h : HealthyOk pool l) (r : EpRef) (now : Int) :
    (pool.ep r).healthy = false ∧ pool.reportError r now = (pool.countError r now, false) ∨
    ∃ l₁ l₂, l = l₁ ++ r :: l₂ ∧
      ((pool.ep r).numErrors + 1 < (pool.ep r).markUnhealthyThreshold ∧ pool.reportError r now =
          ((((pool.countError r now).unlinkFailed r).readdAtTail r).markHead, false) ∨
        pool.reportError r now =
          ((((pool.countError r now).unlinkFailed r).moveToHealthCheck r).markHead, true)) := by
  unfold reportError
  have hsame : SameFlags pool (pool.countError r now) := sameFlags_setEp rfl
  simp only [hsame.healthy_eq]
  by_cases hflag : (pool.ep r).healthy
  · obtain ⟨l₁, l₂, rfl⟩ := append_of_mem ((h.mem_iff r).mpr hflag)
    rw [if_neg (by simp [hflag])]
    refine .inr ⟨l₁, l₂, rfl, ?_⟩
    split
    · rename_i hretain
      refine .inl ⟨?_, rfl⟩
      simpa [unlinkFailed, countError] using hretain
    · exact .inr rfl
  · rw [if_pos (by simpa using hflag)]
    exact .inl ⟨by simpa using hflag, rfl⟩

theorem HealthyOk.reportError (h : HealthyOk pool l) (r : EpRef) (now : Int) :
    (∃ l', HealthyOk (pool.reportError r now).1 l') ∧
      ((pool.reportError r now).2 → (pool.ep r).healthy) := by
  rcases h.reportError_cases r now with ⟨hflag, heq⟩ | ⟨l₁, l₂, rfl, ⟨hretain, heq⟩ | heq⟩
  · rw [heq]
    exact ⟨⟨l, h.setEp rfl rfl fun hc => absurd (hflag.symm.trans hc) Bool.false_ne_true⟩, nofun⟩
  · rw [heq]
    exact ⟨⟨_, (h.retained now hretain).markHead⟩, nofun⟩
  · rw [heq]
    exact ⟨⟨_, (h.dropped now).markHead⟩, fun _ => (h.mem_iff r).mp (by simp)⟩

/-! ## Construction -/

theorem effectiveThreshold_pos (cfg : HttpEndpointPoolConfig) (epCfg : HttpEndpointConfig) :
    0 < effectiveThreshold cfg epCfg := by
  unfold effectiveThreshold httpEndpointMarkUnhealthyThresholdDefault
  simp only
  split <;> omega

structure AllHealthy (pool : HttpEndpointPool) : Prop where
  ok : ∃ l, HealthyOk pool l
  healthy : ∀ r < pool.size, (pool.ep r).healthy = true

theorem emptyHttpEndpointPool_ok : HealthyOk emptyHttpEndpointPool [] := by
  refine ⟨Links.threads_empty, ?_, ?_, ?_, ?_⟩
  · intro r
    simp [emptyHttpEndpointPool]
  · simp
  · simp
  · exact fun r hr => absurd hr (Nat.not_lt_zero r)

-- The new endpoint is not healthy yet, so the list is still right.
theorem HealthyOk.register (h : HealthyOk pool l) (hflag : ep.healthy = false)
    (hthreshold : 0 < ep.markUnhealthyThreshold) : HealthyOk (pool.register ep) l := by
  have hne : ∀ x ∈ l, x ≠ pool.size := fun x hx => Nat.ne_of_lt (h.lt_size x hx)
  have hother : ∀ x, x ≠ pool.size → (pool.register ep).ep x = pool.ep x :=
    fun x hx => update_of_ne hx _ _
  have hself : (pool.register ep).ep pool.size = ep := update_self _ _ _
  refine ⟨h.threads, ?_, ?_, ?_, ?_⟩
  · intro x
    by_cases hx : x = pool.size
    · rw [hx, hself, hflag]
      exact iff_of_false (fun hmem => hne _ hmem rfl) Bool.false_ne_true
    · rw [hother x hx, h.mem_iff]
  · intro x hx
    exact Nat.lt_succ_of_lt (h.lt_size x hx)
  · intro x hx
    rw [hother x (hne x hx)]
    exact h.numErrors_lt x hx
  intro x hx
  rcases Nat.lt_succ_iff_lt_or_eq.mp hx with hlt | rfl
  · rw [hother x (Nat.ne_of_lt hlt)]
    exact h.threshold_pos x hlt
  · rw [hself]
    exact hthreshold

theorem HealthyOk.addEndpoint {epCfg : HttpEndpointConfig} (h : HealthyOk pool l)
    (hadd : addEndpoint validUrl cfg pool epCfg = some pool') :
    HealthyOk pool' (l ++ [pool.size]) ∧ pool'.size = pool.size + 1 := by
  obtain rfl := addEndpoint_eq hadd
  have hregister : HealthyOk (pool.register (newHttpEndpoint cfg epCfg)) l :=
    h.register rfl (effectiveThreshold_pos cfg epCfg)
  refine ⟨hregister.moveToHealthy (Nat.lt_succ_self _) ?_, (kept_moveToHealthy _ _).size_eq⟩
  show (update pool.ep pool.size _ pool.size).healthy = false
  rw [update_self]
  rfl

section

variable (h : newHttpEndpointPool validUrl cfg = some pool)
include h

theorem newHttpEndpointPool_ok :
    HealthyOk pool (List.range pool.size) ∧ pool.size = (configuredEndpoints cfg).length := by
  unfold newHttpEndpointPool at h
  generalize configuredEndpoints cfg = endpoints at h
  have hrun := Run.of_foldlM h
  clear h
  induction hrun with
  | start => exact ⟨emptyHttpEndpointPool_ok, rfl⟩
  | snoc _ hadd ih =>
    obtain ⟨hok, hsize⟩ := ih.1.addEndpoint hadd
    rw [hsize, range_succ, length_append, ih.2]
    exact ⟨ih.2 ▸ hok, rfl⟩

theorem newHttpEndpointPool_size :
    pool.size = (configuredEndpoints cfg).length := (newHttpEndpointPool_ok h).2

theorem newHttpEndpointPool_allHealthy : AllHealthy pool := by
  have hok := (newHttpEndpointPool_ok h).1
  exact ⟨⟨_, hok⟩, fun r hr => (hok.mem_iff r).mp (mem_range.mpr hr)⟩

end

/-! ## Runs -/

section

variable {G : Type} {s s' : State G} {e : Event G} {n i : Nat}

def pendingChecks (checks : List HealthCheck) (r : EpRef) : Nat :=
  checks.countP fun check => check.ep = r

structure Inv (n : Nat) (s : State G) : Prop where
  size_eq : s.pool.size = n
  healthyOk : ∃ l, HealthyOk s.pool l
  checked : ∀ r, pendingChecks s.checks r =
    if r < s.pool.size ∧ (s.pool.ep r).healthy = false then 1 else 0

theorem Inv.of_sameFlags (hs : Inv n s) (hok : ∃ l, HealthyOk s'.pool l)
    (hflags : SameFlags s.pool s'.pool)
    (hchecks : ∀ r, pendingChecks s'.checks r = pendingChecks s.checks r) : Inv n s' := by
  refine ⟨hflags.size_eq.trans hs.size_eq, hok, fun r => ?_⟩
  rw [hchecks, hs.checked, hflags.size_eq, hflags.healthy_eq]

theorem Inv.frame (hs : Inv n s) (hlist : s'.pool.healthy = s.pool.healthy)
    (hep : s'.pool.ep = s.pool.ep) (hsize : s'.pool.size = s.pool.size)
    (hchecks : ∀ r, pendingChecks s'.checks r = pendingChecks s.checks r) : Inv n s' := by
  obtain ⟨l, hl⟩ := hs.healthyOk
  refine hs.of_sameFlags ⟨l, hl.relink ?_ (fun _ => Iff.rfl) hep hsize⟩
    ⟨hsize, fun r => by rw [hep]⟩ hchecks
  rw [hlist]
  exact hl.threads

theorem pendingChecks_eraseIdx {check : HealthCheck} (hi : checks[i]? = some check) (r : EpRef) :
    pendingChecks checks r =
      pendingChecks (checks.eraseIdx i) r + if check.ep = r then 1 else 0 := by
  obtain ⟨hlt, rfl⟩ := List.getElem?_eq_some_iff.mp hi
  unfold pendingChecks
  rw [← (getElem_cons_eraseIdx_perm hlt).countP_eq _, countP_cons]
  simp

theorem pendingChecks_set {ep : EpRef} {pc pc' : HealthPc}
    (hi : checks[i]? = some ⟨ep, pc⟩) (r : EpRef) :
    pendingChecks (checks.set i ⟨ep, pc'⟩) r = pendingChecks checks r := by
  have hlt : i < checks.length := (List.getElem?_eq_some_iff.mp hi).1
  have hset : (checks.set i ⟨ep, pc'⟩)[i]? = some ⟨ep, pc'⟩ := by simp [hlt]
  rw [pendingChecks_eraseIdx hi, pendingChecks_eraseIdx hset, eraseIdx_set_eq]

theorem Inv.report (hs : Inv n s) (r : EpRef) : Inv n (s.report r) := by
  obtain ⟨l, hl⟩ := hs.healthyOk
  obtain ⟨hok, hwas⟩ := hl.reportError r s.now
  have hsize := (kept_reportError s.pool r s.now).size_eq
  refine ⟨hsize.trans hs.size_eq, hok, fun x => ?_⟩
  show pendingChecks (if (s.pool.reportError r s.now).2 = true then _ else _) x =
    if x < (s.pool.reportError r s.now).1.size ∧
      ((s.pool.reportError r s.now).1.ep x).healthy = false then 1 else 0
  rw [hsize, reportError_ep]
  have hx := hs.checked x
  by_cases hcheck : (s.pool.reportError r s.now).2
  · rw [if_pos hcheck]
    have hr : r < s.pool.size := hl.lt_size r ((hl.mem_iff r).mpr (hwas hcheck))
    have hpush : pendingChecks (s.checks ++ [⟨r, .waiting⟩]) x =
        pendingChecks s.checks x + if r = x then 1 else 0 := by
      simp [pendingChecks, countP_append, countP_singleton]
    rw [hpush, hx]
    by_cases hxr : x = r
    · subst hxr
      simp [hr, hwas hcheck, hcheck]
    · simp [hxr, Ne.symm hxr]
  · rw [if_neg hcheck, hx]
    by_cases hxr : x = r
    · simp [hxr, hcheck]
    · simp [hxr]

theorem Inv.move (hs : Inv n s) {ep : EpRef} {pc : HealthPc} (hi : s.checks[i]? = some ⟨ep, pc⟩) :
    Inv n { s with pool := s.pool.moveToHealthy ep, checks := s.checks.eraseIdx i } := by
  obtain ⟨l, hl⟩ := hs.healthyOk
  have hep := hs.checked ep
  have hone := pendingChecks_eraseIdx hi ep
  rw [if_pos rfl] at hone
  obtain ⟨hlt, hflag⟩ : ep < s.pool.size ∧ (s.pool.ep ep).healthy = false := by
    by_contra hnot
    rw [if_neg hnot] at hep
    omega
  refine ⟨(kept_moveToHealthy _ _).size_eq.trans hs.size_eq, ⟨_, hl.moveToHealthy hlt hflag⟩, fun x => ?_⟩
  have hx := hs.checked x
  rw [pendingChecks_eraseIdx hi x] at hx
  show pendingChecks (s.checks.eraseIdx i) x =
    if x < (s.pool.moveToHealthy ep).size ∧ ((s.pool.moveToHealthy ep).ep x).healthy = false
    then 1 else 0
  rw [(kept_moveToHealthy _ _).size_eq, moveToHealthy_healthy]
  by_cases hxep : x = ep
  · subst hxep
    simp_all
  · simpa [hxep, Ne.symm hxep] using hx

theorem started_inv (h : AllHealthy pool) (now : Int) : Inv pool.size (started G pool now) := by
  refine ⟨rfl, h.ok, fun r => ?_⟩
  show 0 = if r < pool.size ∧ (pool.ep r).healthy = false then 1 else 0
  rw [if_neg]
  rintro ⟨hr, hflag⟩
  rw [h.healthy r hr] at hflag
  cases hflag

section

variable [DecidableEq G]

theorem Inv.poll (hs : Inv n s) (g : G) (caller : Option SendCall) (deadline : Int) :
    Inv n (s.poll cfg g caller deadline) := by
  unfold State.poll
  split
  · simp only
    split
    all_goals exact hs.of_sameFlags hs.healthyOk (.refl _) fun _ => rfl
  · rename_i head hhead
    obtain ⟨l, hl⟩ := hs.healthyOk
    obtain ⟨l', hl', hflags⟩ := hl.useHead hhead cfg s.now
    exact hs.of_sameFlags ⟨l', hl'⟩ hflags fun _ => rfl

theorem Inv.step (hs : Inv n s) (h : Steps cfg s e s') : Inv n s' := by
  cases enabled_of_step h with
  | tick | getCurrentHealthy | getShutdown | sendBuffer | sendTop | sendStart | sendDone
  | sendCount | sendNoEndpoint | shutdown | cancel => exact hs.frame rfl rfl rfl fun _ => rfl
  | getEnter | getPoll => exact hs.poll _ _ _
  | sendReport => exact (hs.report _).frame rfl rfl rfl fun _ => rfl
  | reportError => exact hs.report _
  | healthTimer hi | healthDone hi | healthCount hi | healthCancel hi =>
    exact hs.frame rfl rfl rfl (pendingChecks_set hi)
  | healthMove hi => exact hs.move hi

theorem Inv.of_run {validUrl : String → Bool} {now : Int}
    {es : List (Event G)} (hnew : newHttpEndpointPool validUrl cfg = some pool)
    (hrun : Run (Steps cfg) (started G pool now) es s) : Inv pool.size s :=
  hrun.invariant (started_inv (newHttpEndpointPool_allHealthy hnew) now) fun _ _ _ hs h => hs.step h

/-- In every reachable state the healthy list has the endpoints with the flag set, each one once and
below its threshold, and every other endpoint has one health check. `MoveToHealthy` is exported, but
only `HealthCheck` calls it and there is no other step for it: a second caller would leave the check
of the endpoint running, and the next failure would start another one. -/
theorem healthy_list_consistent {validUrl : String → Bool} {pool : HttpEndpointPool} {now : Int}
    {es : List (Event G)} (hnew : newHttpEndpointPool validUrl cfg = some pool)
    (hrun : Run (Steps cfg) (started G pool now) es s) :
    s.pool.size = (configuredEndpoints cfg).length ∧
    (∃ l, s.pool.healthy.Threads l ∧
      ∀ r, r ∈ l ↔ r < s.pool.size ∧ (s.pool.ep r).healthy = true) ∧
    ∀ r < s.pool.size,
      ((s.pool.ep r).healthy = true →
        (s.pool.ep r).numErrors < (s.pool.ep r).markUnhealthyThreshold) ∧
      ((s.pool.ep r).healthy = false → pendingChecks s.checks r = 1) := by
  have hs := Inv.of_run hnew hrun
  obtain ⟨l, hl⟩ := hs.healthyOk
  refine ⟨hs.size_eq.trans (newHttpEndpointPool_size hnew), ⟨l, hl.threads, fun r => ?_⟩, ?_⟩
  · rw [← hl.mem_iff]
    exact ⟨fun hr => ⟨hl.lt_size r hr, hr⟩, And.right⟩
  · intro r hr
    refine ⟨fun hflag => hl.numErrors_lt r ((hl.mem_iff r).mpr hflag), fun hflag => ?_⟩
    rw [hs.checked, if_pos ⟨hr, hflag⟩]

/-- One endpoint, at which a sender fails while another goroutine reports a second error. -/
def oneEndpoint : HttpEndpointPoolConfig :=
  { endpoints := [⟨"http://localhost:8428", 1⟩], markUnhealthyThreshold := 1
    healthyRotateInterval := 0, errorResetInterval := 0, healthyMaxWait := 0
    sendBufferTimeout := 100 }

def failingSend : List (Event Nat) :=
  [.sendBuffer 0 10 50, .sendTop 0, .getSection 0, .sendStart 0, .sendDone 0 ⟨none, some "EOF"⟩,
    .sendCount 0, .sendReport 0, .reportError 0]

theorem healthy_list_consistent_failing_send : ∃ (pool : HttpEndpointPool) (s : State Nat),
    newHttpEndpointPool (fun _ => true) oneEndpoint = some pool ∧
    Run (Steps oneEndpoint) (started Nat pool 0) failingSend s ∧
    pendingChecks s.checks 0 = 1 := by
  obtain ⟨pool, s, hnew, hrun, hflag⟩ : ∃ pool s,
      newHttpEndpointPool (fun _ => true) oneEndpoint = some pool ∧
      Run (Steps oneEndpoint) (started Nat pool 0) failingSend s ∧ (s.pool.ep 0).healthy = false :=
    ⟨_, _, rfl, Run.of_foldlM rfl, rfl⟩
  have h := healthy_list_consistent hnew hrun
  refine ⟨pool, s, hnew, hrun, (h.2.2 0 ?_).2 hflag⟩
  rw [h.1]
  decide

end

end

end Lsvmi.HttpPool
