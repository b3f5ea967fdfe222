import Lsvmi.HttpPool.Healthy

/-!
# The STATE stat of the endpoints

The critical sections write the STATE stat by hand, for the endpoint they move and for the head of
the healthy list.  In every state between critical sections it says where each endpoint is.
-/

namespace Lsvmi.HttpPool

open Reasoning List Function Option

variable {cfg : HttpEndpointPoolConfig} {epCfg : HttpEndpointConfig}

def HttpEndpointPool.stateStat (pool : HttpEndpointPool) (r : EpRef) : EndpointState :=
  (pool.endpointStats (pool.ep r).url).state

def placeState (l : List EpRef) (r : EpRef) : EndpointState :=
  if l.head? = some r then .atHead else if r ∈ l then .healthy else .inHealthCheck

/-- The stats are kept by URL, and they show the places in the list `l`. -/
structure StatesOk (pool : HttpEndpointPool) (l : List EpRef) : Prop where
  url_inj : ∀ r < pool.size, ∀ r' < pool.size, (pool.ep r).url = (pool.ep r').url → r = r'
  state_eq : ∀ r < pool.size, pool.stateStat r = placeState l r

section

variable {pool pool' : HttpEndpointPool} {l l' l₁ l₂ : List EpRef} {r : EpRef} {ep : HttpEndpoint}
  {x : EpRef} {validUrl : String → Bool} {endpoints : List HttpEndpointConfig}

/-! ## Places -/

theorem placeState_of_mem (hr : r ∈ l) :
    placeState l r = if l.head? = some r then .atHead else .healthy := by
  rw [placeState, if_pos hr]

theorem placeState_move (hmem : ∀ x, x ≠ r → (x ∈ l' ↔ x ∈ l))
    (hhead : ∀ x, x ≠ r → l.head? = some x → l'.head? = some x) (hx : l'.head? ≠ some x) :
    placeState l' x =
      if x = r then (if r ∈ l' then .healthy else .inHealthCheck) else placeState l x := by
  rw [placeState, if_neg hx]
  by_cases hxr : x = r
  · rw [if_pos hxr, hxr]
  · have hold : l.head? ≠ some x := fun h => hx (hhead x hxr h)
    rw [if_neg hxr, placeState, if_neg hold]
    simp only [hmem x hxr]

theorem placeState_concat (hr : r ∉ l) (hx : x ≠ r) : placeState (l ++ [r]) x = placeState l x := by
  unfold placeState
  cases l with
  | nil =>
    have hne : some r ≠ some x := fun h => hx (some.inj h).symm
    simp [hx, hne]
  | cons a l => simp [hx]

/-! ## Changes to the stats -/

theorem stateStat_setState (h : StatesOk pool l) (hr : r < pool.size) (state : EndpointState)
    (hx : x < pool.size) :
    (pool.setState r state).stateStat x = if x = r then state else pool.stateStat x := by
  show (update pool.endpointStats (pool.ep r).url _ (pool.ep x).url).state = _
  by_cases hxr : x = r
  · rw [if_pos hxr, hxr, update_self]
  · have hurl : (pool.ep x).url ≠ (pool.ep r).url := fun heq => hxr (h.url_inj x hx r hr heq)
    rw [if_neg hxr, update_of_ne hurl]
    rfl

theorem stateStat_updateStats (pool : HttpEndpointPool) (url : String)
    {f : HttpEndpointStats → HttpEndpointStats} (hf : ∀ stats, (f stats).state = stats.state)
    (x : EpRef) : (pool.updateStats url f).stateStat x = pool.stateStat x := by
  show (update pool.endpointStats url _ (pool.ep x).url).state = _
  by_cases hurl : (pool.ep x).url = url
  · rw [hurl, update_self, hf, ← hurl]
    rfl
  · rw [update_of_ne hurl]
    rfl

open HttpEndpointPool

theorem setEp_url (pool : HttpEndpointPool) (r : EpRef) (ep : HttpEndpoint)
    (hurl : ep.url = (pool.ep r).url) (x : EpRef) :
    ((pool.setEp r ep).ep x).url = (pool.ep x).url := by
  rw [setEp_ep]
  by_cases hx : x = r
  · rw [hx, update_self, hurl]
  · rw [update_of_ne hx]

theorem StatesOk.frame (h : StatesOk pool l) (hsize : pool'.size = pool.size)
    (hurl : ∀ r, (pool'.ep r).url = (pool.ep r).url)
    (hstats : pool'.endpointStats = pool.endpointStats) : StatesOk pool' l where
  url_inj r hr r' hr' heq := by
    rw [hsize] at hr hr'
    rw [hurl, hurl] at heq
    exact h.url_inj r hr r' hr' heq
  state_eq r hr := by
    rw [hsize] at hr
    rw [stateStat, hstats, hurl]
    exact h.state_eq r hr

theorem StatesOk.setEp (h : StatesOk pool l) (hurl : ep.url = (pool.ep r).url) :
    StatesOk (pool.setEp r ep) l :=
  h.frame rfl (setEp_url pool r ep hurl) rfl

theorem StatesOk.move (h : StatesOk pool l) (hr : r < pool.size)
    (hmem : ∀ x, x ≠ r → (x ∈ l' ↔ x ∈ l))
    (hhead : ∀ x, x ≠ r → l.head? = some x → l'.head? = some x) (hlt : ∀ x ∈ l', x < pool.size)
    (state : EndpointState) (hstate : state = if r ∈ l' then .healthy else .inHealthCheck)
    (hurls : ∀ x, (pool'.ep x).url = (pool.ep x).url) (hsize : pool'.size = pool.size)
    (hstats : pool'.endpointStats = (pool.setState r state).endpointStats)
    (hlist : pool'.healthy.head = l'.head?) : StatesOk pool'.markHead l' := by
  -- `pool'` need not be right: the stat of the head may still be missing
  have hmoved : ∀ x < pool'.size,
      pool'.stateStat x = if x = r then state else pool.stateStat x := by
    intro x hx
    rw [hsize] at hx
    rw [← stateStat_setState h hr state hx, stateStat, hstats, hurls]
    rfl
  have hplace : ∀ x < pool'.size, l'.head? ≠ some x → pool'.stateStat x = placeState l' x := by
    intro x hx hnot
    rw [hmoved x hx, placeState_move hmem hhead hnot, hstate]
    rw [hsize] at hx
    rw [h.state_eq x hx]
  have hinj : ∀ x < pool'.size, ∀ y < pool'.size,
      (pool'.ep x).url = (pool'.ep y).url → x = y := by
    intro x hx y hy heq
    rw [hsize] at hx hy
    rw [hurls, hurls] at heq
    exact h.url_inj x hx y hy heq
  unfold markHead
  rw [hlist]
  cases hhead' : l'.head? with
  | none =>
    refine ⟨hinj, fun x hx => hplace x hx ?_⟩
    rw [hhead']
    exact some_ne_none x ∘ Eq.symm
  | some head =>
    have hmemHead : head ∈ l' := mem_of_head? hhead'
    refine ⟨hinj, fun x hx => ?_⟩
    show (update pool'.endpointStats (pool'.ep head).url _ (pool'.ep x).url).state = _
    by_cases hxh : x = head
    · rw [hxh, update_self, placeState, if_pos hhead']
    have hne : (pool'.ep x).url ≠ (pool'.ep head).url :=
      fun heq => hxh (hinj x hx head (hsize ▸ hlt head hmemHead) heq)
    have hnot : l'.head? ≠ some x := by
      rw [hhead']
      exact fun heq => hxh (some.inj heq).symm
    rw [update_of_ne hne]
    exact hplace x hx hnot

/-! ## Critical sections -/

section

variable (h : StatesOk pool l)
include h

theorem StatesOk.moveToHealthy (hok : HealthyOk pool l) (hr : r < pool.size)
    (hflag : (pool.ep r).healthy = false) : StatesOk (pool.moveToHealthy r) (l ++ [r]) := by
  have hnot : r ∉ l := by
    rw [hok.mem_iff, hflag]
    decide
  have hhead := (addToTail_threads hok.threads hnot).head_eq
  have hset : StatesOk (pool.setEp r { pool.ep r with healthy := true, numErrors := 0 }) l :=
    h.setEp rfl
  unfold HttpEndpointPool.moveToHealthy
  rw [if_neg (by rw [hflag]; decide)]
  refine ⟨hset.url_inj, fun x hx => (stateStat_setState hset hr _ hx).trans ?_⟩
  by_cases hxr : x = r
  · rw [if_pos hxr, hxr, placeState_of_mem (by simp)]
    show (if (addToTail pool.healthy r).head = some r then _ else _) = _
    rw [hhead]
  · rw [if_neg hxr, placeState_concat hnot hxr]
    exact hset.state_eq x hx

theorem StatesOk.rotate (hok : HealthyOk pool l) (hhead : pool.healthy.head = some r) (now : Int) :
    ∃ l', HealthyOk (pool.rotate r now).1 l' ∧ StatesOk (pool.rotate r now).1 l' := by
  obtain ⟨l₂, rfl⟩ := hok.exists_cons hhead
  refine ⟨l₂ ++ [r], (hok.rotate_cons now).1, ?_⟩
  have hok' := (hok.rotate_cons now).1.threads
  have hnot : r ∉ l₂ := (nodup_cons.mp hok.threads.nodup).1
  have hthreads := addToTail_threads
    (remove_threads (show pool.healthy.Threads ([] ++ r :: l₂) from hok.threads)) hnot
  revert hok'
  unfold HttpEndpointPool.rotate
  split
  · intro hok'
    rw [hok'.unique hok.threads]
    exact h
  have hmoved : StatesOk ({ pool with
      healthy := addToTail (remove pool.healthy r) r }.setState r .healthy).markHead
      (l₂ ++ [r]) := by
    refine h.move (hok.lt_size r mem_cons_self) ?_ ?_ ?_ .healthy ?_ (fun _ => rfl) rfl rfl
      hthreads.head_eq
    · intro x hx
      simp [hx]
    · intro x hx hhead
      exact absurd (some.inj hhead).symm hx
    · intro x hx
      refine hok.lt_size x ?_
      simpa [or_comm] using hx
    · rw [if_pos (by simp)]
  simp only
  split
  · rename_i hnone
    rw [HttpEndpointPool.markHead, hnone] at hmoved
    exact fun _ => hmoved
  · rename_i head hsome
    rw [HttpEndpointPool.markHead, hsome] at hmoved
    exact fun _ => hmoved.frame rfl (fun _ => rfl) rfl

theorem StatesOk.resetErrorsAsNeeded (cfg : HttpEndpointPoolConfig) (r : EpRef) (now : Int) :
    StatesOk (pool.resetErrorsAsNeeded cfg r now) l := by
  unfold HttpEndpointPool.resetErrorsAsNeeded
  simp only
  split
  · exact h.setEp rfl
  · exact h

theorem StatesOk.useHead (hok : HealthyOk pool l) (hhead : pool.healthy.head = some r)
    (cfg : HttpEndpointPoolConfig) (now : Int) :
    ∃ l', HealthyOk (pool.useHead cfg r now).1 l' ∧ StatesOk (pool.useHead cfg r now).1 l' := by
  have hrotated : ∃ l', HealthyOk (pool.rotateAsNeeded cfg r now).1 l' ∧
      StatesOk (pool.rotateAsNeeded cfg r now).1 l' := by
    unfold rotateAsNeeded
    split
    · exact ⟨l, hok.relink hok.threads (fun _ => Iff.rfl) rfl rfl, h.frame rfl (fun _ => rfl) rfl⟩
    · split
      · exact h.rotate hok hhead now
      · exact ⟨l, hok, h⟩
  obtain ⟨l', hok', h'⟩ := hrotated
  exact ⟨l', (hok'.resetErrorsAsNeeded cfg _ now).1, h'.resetErrorsAsNeeded cfg _ now⟩

end

theorem head?_append_of_ne (hx : x ≠ r) (h : (l₁ ++ r :: l₂).head? = some x)
    (l' : List EpRef) : (l₁ ++ l').head? = some x := by
  cases l₁ with
  | nil => exact absurd (some.inj h).symm hx
  | cons a l₁ => exact h

theorem StatesOk.reportError (h : StatesOk pool l) (hok : HealthyOk pool l) (r : EpRef) (now : Int) :
    ∃ l', HealthyOk (pool.reportError r now).1 l' ∧ StatesOk (pool.reportError r now).1 l' := by
  have hcounted : StatesOk (pool.countError r now) l := h.setEp rfl
  rcases hok.reportError_cases r now with ⟨hflag, heq⟩ | ⟨l₁, l₂, rfl, hlisted⟩
  · obtain ⟨l', hok'⟩ := (hok.reportError r now).1
    rw [heq] at hok' ⊢
    rw [hok'.threads.unique hok.threads] at hok'
    exact ⟨l, hok', hcounted⟩
  have hnot : r ∉ l₁ ++ l₂ := (nodup_cons.mp (nodup_middle.mp hok.threads.nodup)).1
  have hr : r < pool.size := hok.lt_size r (by simp)
  have hlt : ∀ x ∈ l₁ ++ l₂, x < pool.size := by
    intro x hx
    refine hok.lt_size x ?_
    rw [mem_append, mem_cons]
    exact (mem_append.mp hx).imp_right .inr
  rcases hlisted with ⟨hretain, heq⟩ | heq
  · rw [heq]
    refine ⟨l₁ ++ l₂ ++ [r], (hok.retained now hretain).markHead, hcounted.move hr ?_ ?_ ?_
      .healthy ?_ (fun _ => rfl) rfl rfl (hok.retained now hretain).threads.head_eq⟩
    · intro x hx
      simp [hx]
    · intro x hx hhead
      rw [append_assoc]
      exact head?_append_of_ne hx hhead _
    · intro x hx
      rcases mem_append.mp hx with hx | hx
      · exact hlt x hx
      · rw [mem_singleton.mp hx]
        exact hr
    · rw [if_pos (by simp)]
  · rw [heq]
    refine ⟨l₁ ++ l₂, (hok.dropped now).markHead, hcounted.move hr ?_ ?_ hlt .inHealthCheck ?_
      (fun x => ?_) rfl rfl (hok.dropped now).threads.head_eq⟩
    · intro x hx
      simp [hx]
    · exact fun x hx hhead => head?_append_of_ne hx hhead _
    · rw [if_neg hnot]
    · exact setEp_url (pool.countError r now) r
        { (pool.countError r now).ep r with healthy := false } rfl x

/-! ## Construction -/

theorem emptyHttpEndpointPool_statesOk : StatesOk emptyHttpEndpointPool [] :=
  ⟨fun r hr => absurd hr (Nat.not_lt_zero r), fun r hr => absurd hr (Nat.not_lt_zero r)⟩

-- The entry of a new URL is made before the endpoint is put on the list.
theorem StatesOk.register (h : StatesOk pool l) (hok : HealthyOk pool l)
    (hnew : ∀ r < pool.size, (pool.ep r).url ≠ ep.url) : StatesOk (pool.register ep) l := by
  have hself : (pool.register ep).ep pool.size = ep := update_self _ _ _
  have hother : ∀ x < pool.size, (pool.register ep).ep x = pool.ep x :=
    fun x hx => update_of_ne (Nat.ne_of_lt hx) _ _
  constructor
  · intro x hx y hy heq
    rcases Nat.lt_succ_iff_lt_or_eq.mp hx with hx | rfl
    · rcases Nat.lt_succ_iff_lt_or_eq.mp hy with hy | rfl
      · rw [hother x hx, hother y hy] at heq
        exact h.url_inj x hx y hy heq
      · rw [hother x hx, hself] at heq
        exact absurd heq (hnew x hx)
    · rcases Nat.lt_succ_iff_lt_or_eq.mp hy with hy | rfl
      · rw [hother y hy, hself] at heq
        exact absurd heq.symm (hnew y hy)
      · rfl
  · intro x hx
    show (update pool.endpointStats ep.url _ ((pool.register ep).ep x).url).state = _
    rcases Nat.lt_succ_iff_lt_or_eq.mp hx with hx | rfl
    · rw [hother x hx, update_of_ne (hnew x hx)]
      exact h.state_eq x hx
    · have hnot : pool.size ∉ l := fun hmem => Nat.lt_irrefl _ (hok.lt_size _ hmem)
      have hhead : l.head? ≠ some pool.size := fun hhead => hnot (mem_of_head? hhead)
      rw [hself, update_self, placeState, if_neg hhead, if_neg hnot]
      rfl

def endpointUrl (epCfg : HttpEndpointConfig) : String :=
  if epCfg.url = "" then httpEndpointUrlDefault else epCfg.url

def SameUrls (endpoints : List HttpEndpointConfig) (pool : HttpEndpointPool) : Prop :=
  ∀ r, endpoints[r]?.map endpointUrl = if r < pool.size then some (pool.ep r).url else none

theorem SameUrls.length_eq (h : SameUrls endpoints pool) : endpoints.length = pool.size := by
  refine Nat.le_antisymm ?_ ?_
  · by_contra hgt
    have hsome := h pool.size
    rw [if_neg (Nat.lt_irrefl _), getElem?_eq_getElem (Nat.lt_of_not_le hgt)] at hsome
    cases hsome
  · by_contra hgt
    have hnone := h endpoints.length
    rw [if_pos (Nat.lt_of_not_le hgt), getElem?_eq_none (Nat.le_refl _)] at hnone
    cases hnone

theorem SameUrls.addEndpoint (h : SameUrls endpoints pool)
    (hadd : addEndpoint validUrl cfg pool epCfg = some pool') :
    SameUrls (endpoints ++ [epCfg]) pool' := by
  obtain rfl := addEndpoint_eq hadd
  have hlen := h.length_eq
  intro r
  rw [(kept_moveToHealthy _ _).size_eq, (kept_moveToHealthy _ _).url_eq]
  show _ = if r < pool.size + 1 then some (update pool.ep pool.size _ r).url else none
  rcases Nat.lt_trichotomy r pool.size with hr | rfl | hr
  · rw [if_pos (Nat.lt_succ_of_lt hr), update_of_ne (Nat.ne_of_lt hr),
      getElem?_append_left (hlen ▸ hr), h r, if_pos hr]
  · rw [if_pos (Nat.lt_succ_self _), update_self, ← hlen, getElem?_concat_length]
    rfl
  · rw [if_neg (by omega), getElem?_eq_none (by simp; omega)]
    rfl

theorem newHttpEndpointPool_sameUrls
    (h : newHttpEndpointPool validUrl cfg = some pool) : SameUrls (configuredEndpoints cfg) pool := by
  unfold newHttpEndpointPool at h
  generalize configuredEndpoints cfg = endpoints at h
  have hrun := Run.of_foldlM h
  clear h
  induction hrun with
  | start => exact fun r => rfl
  | snoc _ hadd ih => exact ih.addEndpoint hadd

theorem StatesOk.addEndpoint (hstates : StatesOk pool l) (hok : HealthyOk pool l)
    (h : SameUrls endpoints pool) (hnew : endpointUrl epCfg ∉ endpoints.map endpointUrl)
    (hadd : addEndpoint validUrl cfg pool epCfg = some pool') : StatesOk pool' (l ++ [pool.size]) := by
  obtain rfl := addEndpoint_eq hadd
  have hurls : ∀ r < pool.size, (pool.ep r).url ≠ (newHttpEndpoint cfg epCfg).url := by
    intro r hr heq
    have hsome := h r
    rw [if_pos hr, heq] at hsome
    refine hnew (mem_map.mpr ?_)
    obtain ⟨epCfg', hget, hurl⟩ := map_eq_some_iff.mp hsome
    exact ⟨epCfg', mem_of_getElem? hget, hurl⟩
  have hregister : HealthyOk (pool.register (newHttpEndpoint cfg epCfg)) l :=
    hok.register rfl (effectiveThreshold_pos cfg epCfg)
  have hflag : ((pool.register (newHttpEndpoint cfg epCfg)).ep pool.size).healthy = false := by
    show (update pool.ep pool.size _ pool.size).healthy = false
    rw [update_self]
    rfl
  exact (hstates.register hok hurls).moveToHealthy hregister (Nat.lt_succ_self _) hflag

theorem newHttpEndpointPool_statesOk (hurls : ((configuredEndpoints cfg).map endpointUrl).Nodup)
    (h : newHttpEndpointPool validUrl cfg = some pool) : ∃ l, HealthyOk pool l ∧ StatesOk pool l := by
  unfold newHttpEndpointPool at h
  generalize configuredEndpoints cfg = endpoints at h hurls
  have hrun := Run.of_foldlM h
  clear h
  have hmade : SameUrls endpoints pool ∧ ∃ l, HealthyOk pool l ∧ StatesOk pool l := by
    induction hrun with
    | start =>
      exact ⟨fun r => rfl, [], emptyHttpEndpointPool_ok, emptyHttpEndpointPool_statesOk⟩
    | snoc _ hadd ih =>
      rw [map_append, nodup_append] at hurls
      obtain ⟨hsame, l, hok, hstates⟩ := ih hurls.1
      refine ⟨hsame.addEndpoint hadd, _, (hok.addEndpoint hadd).1,
        hstates.addEndpoint hok hsame (fun hmem => ?_) hadd⟩
      exact hurls.2.2 _ hmem _ (by simp) rfl
  exact hmade.2

end

/-! ## Runs -/

/-- The events of the model, and a call of `MoveToHealthy` by any other goroutine. -/
inductive PoolEvent (G : Type) where
  | event (e : Event G)
  | moveToHealthy (ep : EpRef)
  deriving DecidableEq, Repr

section

variable {G : Type} [DecidableEq G] {cfg : HttpEndpointPoolConfig} {s s' : State G}

def poolStep (cfg : HttpEndpointPoolConfig) (s : State G) : PoolEvent G → Option (State G)
  | .event e => step cfg s e
  | .moveToHealthy ep =>
    if ep < s.pool.size then some { s with pool := s.pool.moveToHealthy ep } else none

def PoolSteps (cfg : HttpEndpointPoolConfig) (s : State G) (e : PoolEvent G) (s' : State G) : Prop :=
  poolStep cfg s e = some s'

structure StatesInv (s : State G) : Prop where
  ok : ∃ l, HealthyOk s.pool l ∧ StatesOk s.pool l
  check_lt : ∀ check ∈ s.checks, check.ep < s.pool.size

omit [DecidableEq G] in
theorem StatesInv.frame (hs : StatesInv s) (hlist : s'.pool.healthy = s.pool.healthy)
    (hep : s'.pool.ep = s.pool.ep) (hsize : s'.pool.size = s.pool.size)
    (hstate : ∀ r, s'.pool.stateStat r = s.pool.stateStat r)
    (hchecks : ∀ check ∈ s'.checks, check.ep < s.pool.size) : StatesInv s' := by
  obtain ⟨l, hok, hstates⟩ := hs.ok
  refine ⟨⟨l, hok.relink (hlist ▸ hok.threads) (fun _ => Iff.rfl) hep hsize, ?_, ?_⟩,
    fun check hcheck => hsize ▸ hchecks check hcheck⟩
  · rw [hep, hsize]
    exact hstates.url_inj
  · intro r hr
    rw [hstate]
    exact hstates.state_eq r (hsize ▸ hr)

omit [DecidableEq G] in
theorem StatesInv.check_lt_of_getElem? (hs : StatesInv s) {i : Nat} {ep : EpRef} {pc : HealthPc}
    (hi : s.checks[i]? = some ⟨ep, pc⟩) : ep < s.pool.size :=
  hs.check_lt ⟨ep, pc⟩ (mem_of_getElem? hi)

omit [DecidableEq G] in
theorem StatesInv.check_lt_set (hs : StatesInv s) {i : Nat} {ep : EpRef} {pc : HealthPc}
    (hi : s.checks[i]? = some ⟨ep, pc⟩) (pc' : HealthPc) :
    ∀ check ∈ s.checks.set i ⟨ep, pc'⟩, check.ep < s.pool.size := by
  intro check hcheck
  rcases mem_or_eq_of_mem_set hcheck with hold | rfl
  · exact hs.check_lt check hold
  · exact hs.check_lt_of_getElem? hi

omit [DecidableEq G] in
theorem StatesInv.report (hs : StatesInv s) (r : EpRef) : StatesInv (s.report r) := by
  obtain ⟨l, hok, hstates⟩ := hs.ok
  obtain ⟨l', hok', hstates'⟩ := hstates.reportError hok r s.now
  obtain ⟨-, hwas⟩ := hok.reportError r s.now
  refine ⟨⟨l', hok', hstates'⟩, fun check hcheck => ?_⟩
  show check.ep < (s.pool.reportError r s.now).1.size
  rw [(kept_reportError _ _ _).size_eq]
  have hchecks : check ∈ if (s.pool.reportError r s.now).2 = true then s.checks ++ [⟨r, .waiting⟩]
    else s.checks := hcheck
  split at hchecks
  · rename_i hstart
    rcases mem_append.mp hchecks with hold | hnew
    · exact hs.check_lt check hold
    · rw [mem_singleton.mp hnew]
      exact hok.lt_size r ((hok.mem_iff r).mpr (hwas hstart))
  · exact hs.check_lt check hchecks

section

variable (hs : StatesInv s)
include hs

omit [DecidableEq G] in
theorem StatesInv.move {ep : EpRef} (hep : ep < s.pool.size) {checks : List HealthCheck}
    (hchecks : ∀ check ∈ checks, check.ep < s.pool.size) :
    StatesInv { s with pool := s.pool.moveToHealthy ep, checks } := by
  obtain ⟨l, hok, hstates⟩ := hs.ok
  have hlt : ∀ check ∈ checks, check.ep < (s.pool.moveToHealthy ep).size := by
    rw [(kept_moveToHealthy _ _).size_eq]
    exact hchecks
  by_cases hflag : (s.pool.ep ep).healthy
  · have hsame : s.pool.moveToHealthy ep = s.pool := by
      rw [HttpEndpointPool.moveToHealthy, if_pos hflag]
    refine ⟨⟨l, ?_, ?_⟩, hlt⟩
    · show HealthyOk (s.pool.moveToHealthy ep) l
      rw [hsame]
      exact hok
    · show StatesOk (s.pool.moveToHealthy ep) l
      rw [hsame]
      exact hstates
  · have hdown : (s.pool.ep ep).healthy = false := by simpa using hflag
    exact ⟨⟨_, hok.moveToHealthy hep hdown, hstates.moveToHealthy hok hep hdown⟩, hlt⟩

theorem StatesInv.poll (g : G) (caller : Option SendCall) (deadline : Int) :
    StatesInv (s.poll cfg g caller deadline) := by
  unfold State.poll
  split
  · simp only
    split
    all_goals exact hs.frame rfl rfl rfl (fun _ => rfl) hs.check_lt
  rename_i head hhead
  obtain ⟨l, hok, hstates⟩ := hs.ok
  obtain ⟨l', hok', hstates'⟩ := hstates.useHead hok hhead cfg s.now
  obtain ⟨_, -, hflags⟩ := hok.useHead hhead cfg s.now
  exact ⟨⟨l', hok', hstates'⟩, fun check hcheck => hflags.size_eq ▸ hs.check_lt check hcheck⟩

theorem StatesInv.step {e : Event G} (h : Steps cfg s e s') : StatesInv s' := by
  cases enabled_of_step h with
  | tick | getCurrentHealthy | getShutdown | sendBuffer | sendTop | sendStart | sendDone
  | sendNoEndpoint | shutdown | cancel => exact hs.frame rfl rfl rfl (fun _ => rfl) hs.check_lt
  | sendCount => exact hs.frame rfl rfl rfl (stateStat_updateStats _ _ fun _ => rfl) hs.check_lt
  | getEnter | getPoll => exact hs.poll _ _ _
  | @sendReport g call ep =>
    exact (hs.report ep).frame rfl rfl rfl (fun _ => rfl) (hs.report ep).check_lt
  | reportError => exact hs.report _
  | healthTimer hi | healthDone hi | healthCancel hi =>
    exact hs.frame rfl rfl rfl (fun _ => rfl) (hs.check_lt_set hi _)
  | healthCount hi =>
    exact hs.frame rfl rfl rfl (stateStat_updateStats _ _ fun _ => rfl) (hs.check_lt_set hi _)
  | healthMove hi =>
    exact hs.move (hs.check_lt_of_getElem? hi)
      fun check hcheck => hs.check_lt check (mem_of_mem_eraseIdx hcheck)

theorem StatesInv.poolStep {e : PoolEvent G} (h : PoolSteps cfg s e s') : StatesInv s' := by
  cases e with
  | event e => exact hs.step h
  | moveToHealthy ep =>
    simp only [PoolSteps, HttpPool.poolStep] at h
    split at h
    · cases h
      exact hs.move ‹_› hs.check_lt
    · cases h

end

/-- In every state between critical sections the STATE stat of an endpoint says whether it is at the
head of the healthy list, elsewhere in it, or not in it. -/
theorem state_stat_shows_place {validUrl : String → Bool} {pool : HttpEndpointPool} {now : Int}
    {es : List (PoolEvent G)} (hurls : ((configuredEndpoints cfg).map endpointUrl).Nodup)
    (hnew : newHttpEndpointPool validUrl cfg = some pool)
    (hrun : Run (PoolSteps cfg) (started G pool now) es s) :
    ∃ l, s.pool.healthy.Threads l ∧ ∀ r < s.pool.size,
      (s.pool.stateStat r = .atHead ↔ l.head? = some r) ∧
      (s.pool.stateStat r = .healthy ↔ r ∈ l ∧ l.head? ≠ some r) ∧
      (s.pool.stateStat r = .inHealthCheck ↔ r ∉ l) := by
  have hs : StatesInv s :=
    hrun.invariant ⟨newHttpEndpointPool_statesOk hurls hnew, nofun⟩ fun _ _ _ hs h => hs.poolStep h
  obtain ⟨l, hok, hstates⟩ := hs.ok
  refine ⟨l, hok.threads, fun r hr => ?_⟩
  rw [hstates.state_eq r hr, placeState]
  by_cases hhead : l.head? = some r
  · simp [hhead, mem_of_head? hhead]
  · by_cases hmem : r ∈ l
    all_goals simp [hhead, hmem]

/-- Two endpoints that are used in turn; both of them fail, and the first one comes back. -/
def twoEndpoints : HttpEndpointPoolConfig :=
  { endpoints := [⟨"", 1⟩, ⟨"http://host:8428", 2⟩], markUnhealthyThreshold := 1
    healthyRotateInterval := 0, errorResetInterval := 0, healthyMaxWait := 0
    sendBufferTimeout := 100 }

def losingBoth : List (PoolEvent Nat) :=
  [.event (.getCurrentHealthy 0 0), .event (.getSection 0), .event (.getCurrentHealthy 0 0),
    .event (.getSection 0), .event (.reportError 1), .event (.reportError 0),
    .event (.reportError 1), .event .shutdown, .event (.healthTimer 0), .moveToHealthy 0]

theorem state_stat_shows_place_losing_both : ∃ (pool : HttpEndpointPool) (s : State Nat),
    newHttpEndpointPool (fun _ => true) twoEndpoints = some pool ∧
    Run (PoolSteps twoEndpoints) (started Nat pool 0) losingBoth s ∧
    ∃ l, s.pool.healthy.Threads l ∧ l.head? = some 0 ∧ 1 ∉ l := by
  obtain ⟨pool, s, hnew, hrun, hsize, hstat₀, hstat₁⟩ : ∃ pool s,
      newHttpEndpointPool (fun _ => true) twoEndpoints = some pool ∧
      Run (PoolSteps twoEndpoints) (started Nat pool 0) losingBoth s ∧
      s.pool.size = 2 ∧ s.pool.stateStat 0 = .atHead ∧ s.pool.stateStat 1 = .inHealthCheck :=
    ⟨_, _, rfl, Run.of_foldlM rfl, rfl, by decide, by decide⟩
  obtain ⟨l, hthreads, hl⟩ := state_stat_shows_place (by decide) hnew hrun
  exact ⟨pool, s, hnew, hrun, l, hthreads, (hl 0 (by omega)).1.mp hstat₀,
    (hl 1 (by omega)).2.2.mp hstat₁⟩

end

end Lsvmi.HttpPool
