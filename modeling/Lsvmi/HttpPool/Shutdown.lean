import Lsvmi.HttpPool.Healthy

/-!
# Endpoints after `Shutdown`

`GetCurrentHealthy` looks at the shutdown flag when it is entered, not when it wakes up from its
wait for a healthy endpoint.
-/

namespace Lsvmi.HttpPool

open Reasoning List

def Proc.returned : Proc → Option EpRef
  | .gotCurrent ep => ep
  | .holding _ ep => some ep
  | _ => none

def Proc.isPolling : Proc → Bool
  | .getting _ (.polling _ _) => true
  | _ => false

section

variable {G : Type} {cfg : HttpEndpointPoolConfig} {s s' : State G} {e : Event G} {n : Nat}
  {i : Nat} {ep : EpRef} {pc : HealthPc} {g : G}

theorem setCheck_getElem? (hi : s.checks[i]? = some ⟨ep, pc⟩) (check : HealthCheck) :
    (s.setCheck i check).checks[i]? = some check := by
  obtain ⟨hlt, -⟩ := List.getElem?_eq_some_iff.mp hi
  simp [State.setCheck, hlt]

/-- The pool is shut down, and nobody waits for an endpoint. -/
structure ShutForAll (s : State G) : Prop where
  shutdown : s.pool.shutdown = true
  not_polling : ∀ g, (s.procs g).isPolling = false

theorem ShutForAll.frame (hs : ShutForAll s) (hshut : s'.pool.shutdown = s.pool.shutdown)
    (hprocs : s'.procs = s.procs) : ShutForAll s' :=
  ⟨hshut.trans hs.shutdown, fun g => hprocs ▸ hs.not_polling g⟩

variable [DecidableEq G]

theorem ShutForAll.update (hs : ShutForAll s) {proc : Proc}
    (hshut : s'.pool.shutdown = s.pool.shutdown)
    (hprocs : s'.procs = Function.update s.procs g proc) (hproc : proc.isPolling = false) :
    ShutForAll s' := by
  refine ⟨hshut.trans hs.shutdown, fun g' => ?_⟩
  rw [hprocs]
  by_cases hg : g' = g
  · rw [hg, Function.update_self, hproc]
  · rw [Function.update_of_ne hg]
    exact hs.not_polling g'

theorem isPolling_returnTo (caller : Option SendCall) (ep : Option EpRef) :
    (returnTo caller ep).isPolling = false := by
  cases caller <;> cases ep <;> rfl

theorem isPolling_afterSend (pool : HttpEndpointPool) (call : SendCall) (ep : EpRef)
    (outcome : Outcome) : (afterSend pool call ep outcome).isPolling = false := by
  unfold afterSend
  split
  · rfl
  · split <;> rfl

theorem ShutForAll.step (hs : ShutForAll s) (h : Steps cfg s e s') : ShutForAll s' := by
  cases enabled_of_step h with
  | tick | healthTimer | healthDone | healthCount | healthCancel | cancel => exact hs.frame rfl rfl
  | getCurrentHealthy | sendBuffer | sendTop | sendStart | sendDone | sendNoEndpoint =>
    exact hs.update rfl rfl rfl
  | getShutdown => exact hs.update rfl rfl (isPolling_returnTo _ _)
  | getEnter hproc hshut =>
    rw [hs.shutdown] at hshut
    cases hshut
  | @getPoll g _ _ _ hproc =>
    have hpolling := hs.not_polling g
    rw [hproc] at hpolling
    cases hpolling
  | sendCount => exact hs.update rfl rfl (isPolling_afterSend _ _ _ _)
  | sendReport => exact hs.update (kept_reportError s.pool _ s.now).shutdown_eq rfl rfl
  | reportError => exact hs.frame (kept_reportError s.pool _ s.now).shutdown_eq rfl
  | healthMove => exact hs.frame (kept_moveToHealthy s.pool _).shutdown_eq rfl
  | shutdown => exact ⟨rfl, hs.not_polling⟩

theorem returned_returnTo_none (caller : Option SendCall) :
    (returnTo caller none).returned = none := by
  cases caller <;> rfl

theorem ShutForAll.returned_eq_none (hs : ShutForAll s)
    (h : Steps cfg s (.getSection g) s') : (s'.procs g).returned = none := by
  cases enabled_of_step h with
  | getShutdown =>
    rw [State.setProc_procs_self]
    exact returned_returnTo_none _
  | getEnter hproc hshut =>
    rw [hs.shutdown] at hshut
    cases hshut
  | getPoll hproc =>
    have hpolling := hs.not_polling g
    rw [hproc] at hpolling
    cases hpolling

/-! ## With a waiter

The health checks that `Shutdown` cancels put their endpoints back on the healthy list, where the
waiter finds them. -/

/-- `s₁` is reached by steps of health checks and of `Shutdown` alone. -/
structure Backstage (cfg : HttpEndpointPoolConfig) (s s₁ : State G) : Prop where
  run : ∃ es, Run (Steps cfg) s es s₁
  procs_eq : s₁.procs = s.procs

theorem Backstage.refl (s : State G) : Backstage cfg s s := ⟨⟨[], .start⟩, rfl⟩

theorem Backstage.cons {s₁ s₂ : State G} (h : Backstage cfg s₁ s₂) (hstep : Steps cfg s e s₁)
    (hprocs : s₁.procs = s.procs) : Backstage cfg s s₂ := by
  obtain ⟨es, hrun⟩ := h.run
  exact ⟨⟨e :: es, .cons hstep hrun⟩, h.procs_eq.trans hprocs⟩

theorem Backstage.snoc {s₁ s₂ : State G} (h : Backstage cfg s s₁) (hstep : Steps cfg s₁ e s₂)
    (hprocs : s₂.procs = s₁.procs) : Backstage cfg s s₂ := by
  obtain ⟨es, hrun⟩ := h.run
  exact ⟨⟨es ++ [e], hrun.snoc hstep⟩, hprocs.trans h.procs_eq⟩

theorem moving_of_waiting (hi : s.checks[i]? = some ⟨ep, .waiting⟩) (hshut : s.pool.shutdown) :
    ∃ s₁, Backstage cfg s s₁ ∧ s₁.checks[i]? = some ⟨ep, .moving⟩ := by
  refine ⟨{ s with ctxDone := true }.setCheck i ⟨ep, .moving⟩, ?_, ?_⟩
  · have hcancel : Steps cfg { s with ctxDone := true } (.healthCancel i)
        ({ s with ctxDone := true }.setCheck i ⟨ep, .moving⟩) := by
      simp only [Steps, step, hi, if_true]
    exact ((Backstage.refl _).cons hcancel rfl).cons (e := .cancel) (if_pos hshut) rfl
  · exact setCheck_getElem? (s := { s with ctxDone := true }) hi _

theorem moving_of_counting {done : Bool} (hi : s.checks[i]? = some ⟨ep, .counting done⟩)
    (hshut : s.pool.shutdown) : ∃ s₁, Backstage cfg s s₁ ∧ s₁.checks[i]? = some ⟨ep, .moving⟩ := by
  let counted : State G :=
    { s with pool := s.pool.updateStats (s.pool.ep ep).url (countHealthCheck done) }
  have hcount : Steps cfg s (.healthCount i)
      (counted.setCheck i ⟨ep, if done then .moving else .waiting⟩) := by
    simp only [Steps, step, hi]
    rfl
  have hi' := setCheck_getElem? (s := counted) hi ⟨ep, if done then .moving else .waiting⟩
  cases done with
  | true => exact ⟨_, (Backstage.refl _).cons hcount rfl, hi'⟩
  | false =>
    obtain ⟨s₁, hrun, hmoving⟩ := moving_of_waiting hi' hshut
    exact ⟨s₁, hrun.cons hcount rfl, hmoving⟩

/-- A health check can always be brought to its `MoveToHealthy`: what it is doing fails, and then
it is cancelled. -/
theorem exists_moving (hi : s.checks[i]? = some ⟨ep, pc⟩) (hshut : s.pool.shutdown) :
    ∃ s₁, Backstage cfg s s₁ ∧ s₁.checks[i]? = some ⟨ep, .moving⟩ := by
  cases pc with
  | waiting => exact moving_of_waiting hi hshut
  | doing =>
    have hdone : Steps cfg s (.healthDone i ⟨none, some "EOF"⟩)
        (s.setCheck i ⟨ep, .counting false⟩) := by
      simp only [Steps, step, hi]
      rfl
    obtain ⟨s₁, hrun, hmoving⟩ := moving_of_counting (setCheck_getElem? hi _) hshut
    exact ⟨s₁, hrun.cons hdone rfl, hmoving⟩
  | counting done => exact moving_of_counting hi hshut
  | moving => exact ⟨s, .refl s, hi⟩

theorem exists_healthy (cfg : HttpEndpointPoolConfig) (hs : Inv n s) (hpos : 0 < n)
    (hshut : s.pool.shutdown) :
    ∃ s₁ head, Backstage cfg s s₁ ∧ s₁.pool.healthy.head = some head := by
  obtain ⟨l, hl⟩ := hs.healthyOk
  cases hhead : s.pool.healthy.head with
  | some head => exact ⟨s, head, .refl s, hhead⟩
  | none =>
    -- the list is empty, so the endpoint 0 is in a health check
    have hflag : (s.pool.ep 0).healthy = false := by
      rw [Bool.eq_false_iff, ne_eq, ← hl.mem_iff, hl.threads.head_eq_none.mp hhead]
      exact not_mem_nil
    have hchecked : 0 < pendingChecks s.checks 0 := by
      rw [hs.checked, if_pos ⟨hs.size_eq ▸ hpos, hflag⟩]
      exact Nat.one_pos
    obtain ⟨⟨ep, pc⟩, hmem, hep⟩ := countP_pos_iff.mp hchecked
    obtain rfl : ep = 0 := of_decide_eq_true hep
    obtain ⟨i, hi⟩ := mem_iff_getElem?.mp hmem
    obtain ⟨s₁, hback, hmoving⟩ := exists_moving hi hshut
    have hmove : Steps cfg s₁ (.healthMove i)
        { s₁ with pool := s₁.pool.moveToHealthy 0, checks := s₁.checks.eraseIdx i } := by
      simp only [Steps, step, hmoving]
    obtain ⟨es, hrun⟩ := (hback.snoc hmove rfl).run
    obtain ⟨l', hl'⟩ := (hrun.invariant hs fun _ _ _ ht h => ht.step h).healthyOk
    have hmem' : 0 ∈ l' := by
      rw [hl'.mem_iff]
      exact (moveToHealthy_healthy s₁.pool 0 0).trans (if_pos rfl)
    obtain ⟨head, hhead'⟩ := Option.ne_none_iff_exists'.mp
      fun hnone => ne_nil_of_mem hmem' (hl'.threads.head_eq_none.mp hnone)
    exact ⟨_, head, hback.snoc hmove rfl, hhead'⟩

theorem poll_returned {caller : Option SendCall} {deadline : Int} {head : EpRef}
    (hhead : s.pool.healthy.head = some head) :
    ((s.poll cfg g caller deadline).procs g).returned ≠ none := by
  unfold State.poll
  rw [hhead]
  simp only [State.setProc_procs_self]
  cases caller <;> exact nofun

theorem exists_returned (hs : Inv n s) (hpos : 0 < n) (hshut : s.pool.shutdown)
    (hpolling : (s.procs g).isPolling) :
    ∃ es s₁ s₂, Run (Steps cfg) s es s₁ ∧ Steps cfg s₁ (.getSection g) s₂ ∧
      (s₂.procs g).returned ≠ none := by
  cases hproc : s.procs g with
  | getting caller pc =>
    cases pc with
    | entering =>
      rw [hproc] at hpolling
      cases hpolling
    | polling deadline wakeAt =>
      obtain ⟨s₁, head, hback, hhead⟩ := exists_healthy cfg hs hpos hshut
      obtain ⟨es, hrun⟩ := hback.run
      let awake : State G := { s₁ with now := s₁.now + (wakeAt - s₁.now).toNat }
      have htick : Steps cfg s₁ (.tick (wakeAt - s₁.now).toNat) awake := rfl
      have hproc' : awake.procs g = .getting caller (.polling deadline wakeAt) := by
        rw [← hproc]
        exact congrFun hback.procs_eq g
      have hwake : wakeAt ≤ awake.now := by
        show wakeAt ≤ s₁.now + (wakeAt - s₁.now).toNat
        omega
      have hsection : Steps cfg awake (.getSection g) (awake.poll cfg g caller deadline) := by
        simp only [Steps, step, hproc', hwake, if_true]
      exact ⟨_, _, _, hrun.snoc htick, hsection, poll_returned hhead⟩
  | _ =>
    rw [hproc] at hpolling
    cases hpolling

/-- After `Shutdown` no call of `GetCurrentHealthy` returns an endpoint exactly if none was waiting
for one when it was called: a waiting call looks for healthy endpoints only, and once the context
is cancelled a health check puts its endpoint back. -/
theorem shutdown_returns_none_iff_no_waiter {validUrl : String → Bool} {pool : HttpEndpointPool}
    {now : Int} {es : List (Event G)} (hnew : newHttpEndpointPool validUrl cfg = some pool)
    (hrun : Run (Steps cfg) (started G pool now) es s) (hshut : Steps cfg s .shutdown s') :
    (∀ es' s₁ g s₂, Run (Steps cfg) s' es' s₁ → Steps cfg s₁ (.getSection g) s₂ →
      (s₂.procs g).returned = none) ↔
    ∀ g, (s.procs g).isPolling = false := by
  have hs' := Inv.of_run hnew (hrun.snoc hshut)
  have hpos : 0 < pool.size := newHttpEndpointPool_size hnew ▸ configuredEndpoints_pos cfg
  cases hshut
  constructor
  · intro hnone g
    rw [Bool.eq_false_iff]
    intro hpolling
    obtain ⟨es', s₁, s₂, hrun', hsection, hreturned⟩ := exists_returned hs' hpos rfl hpolling
    exact hreturned (hnone es' s₁ g s₂ hrun' hsection)
  · intro hwaiters es' s₁ g s₂ hrun' hsection
    have hs₁ : ShutForAll s₁ := hrun'.invariant ⟨rfl, hwaiters⟩ fun _ _ _ ht h => ht.step h
    exact hs₁.returned_eq_none hsection

end

/-- The endpoint fails, its health check brings it back, and the call that waited for it is done. -/
def sendThroughCheck : List (Event Bool) :=
  [.sendBuffer true 20 1000, .sendTop true, .getSection true, .sendStart true,
    .sendDone true ⟨none, some "EOF"⟩, .sendCount true, .sendReport true, .sendTop true,
    .getSection true, .healthTimer 0, .healthDone 0 ⟨some ⟨200, "200 OK"⟩, none⟩, .healthCount 0,
    .healthMove 0, .tick 1000000000, .getSection true, .sendStart true,
    .sendDone true ⟨some ⟨204, "204 No Content"⟩, none⟩, .sendCount true]

theorem shutdown_returns_none_after_send :
    ∃ (pool : HttpEndpointPool) (s s' : State Bool),
      newHttpEndpointPool (fun _ => true) oneEndpoint = some pool ∧
      Run (Steps oneEndpoint) (started Bool pool 0) sendThroughCheck s ∧
      s.procs true = .sent none ∧ Steps oneEndpoint s .shutdown s' ∧
      ∀ es' s₁ g s₂, Run (Steps oneEndpoint) s' es' s₁ → Steps oneEndpoint s₁ (.getSection g) s₂ →
        (s₂.procs g).returned = none := by
  obtain ⟨pool, s, s', hnew, hrun, hsent, hshut, hidle⟩ :
      ∃ (pool : HttpEndpointPool) (s s' : State Bool),
        newHttpEndpointPool (fun _ => true) oneEndpoint = some pool ∧
        Run (Steps oneEndpoint) (started Bool pool 0) sendThroughCheck s ∧
        s.procs true = .sent none ∧ Steps oneEndpoint s .shutdown s' ∧
        ∀ g, (s.procs g).isPolling = false :=
    ⟨_, _, _, rfl, Run.of_foldlM rfl, rfl, rfl, Bool.forall_bool.mpr ⟨rfl, rfl⟩⟩
  exact ⟨pool, s, s', hnew, hrun, hsent, hshut,
    (shutdown_returns_none_iff_no_waiter hnew hrun hshut).mpr hidle⟩

/-- A caller waits while the only endpoint is in its health check, which `Shutdown` cancels. -/
def waitThroughShutdown : List (Event Nat) :=
  [.reportError 0, .getCurrentHealthy 0 1000, .getSection 0, .shutdown, .cancel, .healthCancel 0,
    .healthMove 0, .tick 1000]

theorem waiter_gets_endpoint_after_shutdown : ∃ (pool : HttpEndpointPool) (s s' : State Nat),
    newHttpEndpointPool (fun _ => true) oneEndpoint = some pool ∧
    Run (Steps oneEndpoint) (started Nat pool 0) waitThroughShutdown s ∧
    s.pool.shutdown = true ∧ Steps oneEndpoint s (.getSection 0) s' ∧
    s'.procs 0 = .gotCurrent (some 0) := by
  exact ⟨_, _, _, rfl, Run.of_foldlM rfl, rfl, rfl, rfl⟩

end Lsvmi.HttpPool
