import Mathlib.Algebra.Ring.Int.Defs
import Mathlib.Algebra.BigOperators.Group.Finset.Piecewise
import Mathlib.Algebra.Order.BigOperators.Group.Finset
import Lsvmi.HttpPool.Healthy

/-!
# How often one call of `SendBuffer` tries

`SendBuffer` has no limit on its attempts.  What ends its loop is that every failed attempt costs
an endpoint of the healthy list one of the errors it may still have, be it reported by the call or
by others while the attempt was in flight.
-/

namespace Lsvmi.HttpPool

open Reasoning List HttpEndpointPool Function

variable {pool pool' : HttpEndpointPool}

def HttpEndpoint.errorsLeft (ep : HttpEndpoint) : Int :=
  ep.markUnhealthyThreshold - ep.numErrors

def errorsLeft (pool : HttpEndpointPool) (l : List EpRef) : Int :=
  (l.map fun r => (pool.ep r).errorsLeft).sum

/-- No endpoint is moved back to the healthy list, and no error count is reset. -/
structure Undisturbed (pool pool' : HttpEndpointPool) : Prop where
  not_moved : ∀ r, (pool'.ep r).healthy = true → (pool.ep r).healthy = true
  not_reset : ∀ r, (pool.ep r).numErrors ≤ (pool'.ep r).numErrors

theorem Undisturbed.of_ep (h : pool'.ep = pool.ep) : Undisturbed pool pool' := by
  refine ⟨fun r hflag => ?_, fun r => ?_⟩
  · rwa [h] at hflag
  · rw [h]

section

variable {pool pool' : HttpEndpointPool} {l : List EpRef} {r : EpRef} {ep : HttpEndpoint}

theorem reportError_numErrors (pool : HttpEndpointPool) (r : EpRef) (now : Int) :
    ((pool.reportError r now).1.ep r).numErrors = (pool.ep r).numErrors + 1 := by
  rw [reportError_ep, update_self]

theorem undisturbed_reportError (pool : HttpEndpointPool) (r : EpRef) (now : Int) :
    Undisturbed pool (pool.reportError r now).1 := by
  refine ⟨fun x => ?_, fun x => ?_⟩
  · rw [reportError_ep]
    by_cases hx : x = r
    · -- an endpoint that is in its health check stays there
      rw [hx, update_self]
      exact Bool.and_elim_left
    · rw [update_of_ne hx]
      exact id
  · by_cases hx : x = r
    · rw [hx, reportError_numErrors]
      omega
    · rw [reportError_ep, update_of_ne hx]

variable (h : HealthyOk pool l) (hhead : pool.healthy.head = some r)
include h hhead

theorem HealthyOk.rotate_mem (now : Int) : (pool.ep (pool.rotate r now).2).healthy := by
  obtain ⟨l', rfl⟩ := h.exists_cons hhead
  obtain ⟨hok, hret, hep, -⟩ := h.rotate_cons now
  rw [← hep]
  exact (hok.mem_iff _).mp (mem_of_head? hret)

theorem HealthyOk.useHead_mem (cfg : HttpEndpointPoolConfig) (now : Int) :
    ((pool.useHead cfg r now).1.ep (pool.useHead cfg r now).2).healthy := by
  obtain ⟨l', -, hflags⟩ := h.useHead hhead cfg now
  rw [hflags.healthy_eq]
  show (pool.ep (pool.rotateAsNeeded cfg r now).2).healthy = true
  have hr : (pool.ep r).healthy := by
    rw [h.threads.head_eq] at hhead
    exact (h.mem_iff r).mp (mem_of_head? hhead)
  unfold HttpEndpointPool.rotateAsNeeded
  split
  · exact hr
  · split
    · exact h.rotate_mem hhead now
    · exact hr

end

/-! ## The errors left -/

/-- The errors left to an endpoint on the healthy list, without the one an attempt in flight may
report. -/
def HttpEndpoint.slack (ep : HttpEndpoint) (inFlight : Bool) : Int :=
  if ep.healthy then ep.errorsLeft - (if inFlight then 1 else 0) else 0

section

variable {ep ep' : HttpEndpoint} {inFlight : Bool}

open HttpEndpoint

theorem HttpEndpoint.slack_nonneg
    (hep : ep.healthy → ep.numErrors < ep.markUnhealthyThreshold) : 0 ≤ ep.slack inFlight := by
  unfold slack errorsLeft
  split
  · have hlt := hep ‹_›
    split <;> omega
  · exact le_rfl

variable (hep : ep.healthy → ep.numErrors < ep.markUnhealthyThreshold)
  (hthreshold : ep'.markUnhealthyThreshold = ep.markUnhealthyThreshold)
  (hflag : ep'.healthy → ep.healthy)
include hep hthreshold hflag

theorem HttpEndpoint.slack_le (herrors : ep.numErrors ≤ ep'.numErrors) :
    ep'.slack inFlight ≤ ep.slack inFlight := by
  by_cases hflag' : ep'.healthy
  · simp only [slack, errorsLeft, hflag', hflag hflag', if_true, hthreshold]
    omega
  · rw [slack, if_neg hflag']
    exact slack_nonneg hep

theorem HttpEndpoint.slack_report (herrors : ep'.numErrors = ep.numErrors + 1) :
    ep'.slack false ≤ ep.slack true := by
  by_cases hflag' : ep'.healthy
  · simp only [slack, errorsLeft, hflag', hflag hflag', if_true,
      hthreshold, herrors, Bool.false_eq_true, if_false]
    omega
  · rw [slack, if_neg hflag']
    exact slack_nonneg hep

end

def slack (pool : HttpEndpointPool) (held : Option EpRef) : Int :=
  ∑ r ∈ Finset.range pool.size, (pool.ep r).slack (held = some r)

section

variable {pool pool' : HttpEndpointPool} {l : List EpRef} {r : EpRef} (h : HealthyOk pool l)
include h

theorem HealthyOk.numErrors_lt_of_flag (r : EpRef) (hflag : (pool.ep r).healthy) :
    (pool.ep r).numErrors < (pool.ep r).markUnhealthyThreshold :=
  h.numErrors_lt r ((h.mem_iff r).mpr hflag)

theorem HealthyOk.errorsLeft_eq : errorsLeft pool l = slack pool none := by
  have hset : l.toFinset = (Finset.range pool.size).filter fun r => (pool.ep r).healthy := by
    ext r
    rw [mem_toFinset, Finset.mem_filter, Finset.mem_range, ← h.mem_iff]
    exact ⟨fun hr => ⟨h.lt_size r hr, hr⟩, And.right⟩
  unfold errorsLeft slack
  rw [← sum_toFinset _ h.threads.nodup, hset, Finset.sum_filter]
  simp [HttpEndpoint.slack]

theorem HealthyOk.slack_nonneg (held : Option EpRef) : 0 ≤ slack pool held :=
  Finset.sum_nonneg fun r _ => HttpEndpoint.slack_nonneg (h.numErrors_lt_of_flag r)

theorem HealthyOk.slack_some (hr : (pool.ep r).healthy) :
    slack pool (some r) + 1 = slack pool none := by
  have hlt : r < pool.size := h.lt_size r ((h.mem_iff r).mpr hr)
  have hterm : ∀ x, (pool.ep x).slack (decide (none = some x)) =
      (pool.ep x).slack (decide (some r = some x)) + if r = x then 1 else 0 := by
    intro x
    by_cases hx : r = x
    · subst hx
      simp [HttpEndpoint.slack, hr]
    · simp [hx]
  unfold slack
  simp only [hterm, Finset.sum_add_distrib, Finset.sum_ite_eq, Finset.mem_range, hlt, if_true]

theorem HealthyOk.slack_le (hsame : SameEndpoints pool pool')
    (hquiet : Undisturbed pool pool')
    (held : Option EpRef) : slack pool' held ≤ slack pool held := by
  unfold slack
  rw [hsame.size_eq]
  exact Finset.sum_le_sum fun r _ => HttpEndpoint.slack_le (h.numErrors_lt_of_flag r)
    (hsame.threshold_eq r) (hquiet.not_moved r) (hquiet.not_reset r)

/-- The error of an attempt at `r` is reported, whatever else became of `r` meanwhile. -/
theorem HealthyOk.slack_report (hsame : SameEndpoints pool pool')
    (hquiet : Undisturbed pool pool')
    (hcount : (pool'.ep r).numErrors = (pool.ep r).numErrors + 1) :
    slack pool' none ≤ slack pool (some r) := by
  unfold slack
  rw [hsame.size_eq]
  refine Finset.sum_le_sum fun x _ => ?_
  by_cases hx : r = x
  · subst hx
    simpa using HttpEndpoint.slack_report (h.numErrors_lt_of_flag r) (hsame.threshold_eq r)
      (hquiet.not_moved r) hcount
  · simpa [hx] using HttpEndpoint.slack_le (h.numErrors_lt_of_flag x) (hsame.threshold_eq x)
      (hquiet.not_moved x) (hquiet.not_reset x)

end

/-! ## The attempts left to a call -/

section

variable {G : Type} {cfg : HttpEndpointPoolConfig} {s s' : State G} {e : Event G} {g : G} {n : Nat}

def attemptsLeft (pool : HttpEndpointPool) : Proc → Int
  | .atTop _ | .getting (some _) _ => slack pool none
  | .holding _ ep => slack pool (some ep) + 1
  | .doing _ ep | .done _ ep _ | .reporting _ ep => slack pool (some ep)
  | .idle | .getting none _ | .gotCurrent _ | .noEndpoint _ | .sent _ => 0

/-- The iterations of the loop of `SendBuffer` that have not started an attempt. -/
def idleIterations : Proc → Nat
  | .atTop _ | .doing _ _ | .done _ _ _ | .reporting _ _ => 0
  | .getting _ _ | .holding _ _ | .noEndpoint _ | .idle | .gotCurrent _ | .sent _ => 1

theorem idleIterations_le_one (proc : Proc) : idleIterations proc ≤ 1 := by
  cases proc <;> simp [idleIterations]

def Event.goroutine : Event G → Option G
  | .getCurrentHealthy g _ | .getSection g | .sendBuffer g _ _ | .sendTop g | .sendStart g
  | .sendDone g _ | .sendCount g | .sendReport g | .sendNoEndpoint g => some g
  | .tick _ | .reportError _ | .healthTimer _ | .healthDone _ _ | .healthCount _ | .healthCancel _
  | .healthMove _ | .shutdown | .cancel => none

theorem HealthyOk.attemptsLeft_nonneg {l : List EpRef}
    (h : HealthyOk pool l) (proc : Proc) : 0 ≤ attemptsLeft pool proc := by
  have hslack := h.slack_nonneg
  unfold attemptsLeft
  split
  · exact hslack none
  · exact hslack none
  · rename_i ep
    have := hslack (some ep)
    omega
  all_goals first | exact hslack _ | exact le_rfl

theorem attemptsLeft_mono (h : ∀ held, slack pool' held ≤ slack pool held) (proc : Proc) :
    attemptsLeft pool' proc ≤ attemptsLeft pool proc := by
  unfold attemptsLeft
  split
  · exact h none
  · exact h none
  · rename_i ep
    have := h (some ep)
    omega
  all_goals first | exact h _ | exact le_rfl

variable [DecidableEq G]

theorem poll_procs_of_ne {g' : G} (h : some g' ≠ some g) (caller : Option SendCall)
    (deadline : Int) : (s.poll cfg g' caller deadline).procs g = s.procs g := by
  unfold State.poll
  split
  · simp only
    split
    all_goals exact s.setProc_procs_of_ne h _
  · exact s.setProc_procs_of_ne h _

theorem step_procs_of_ne (h : Steps cfg s e s') (hg : e.goroutine ≠ some g) :
    s'.procs g = s.procs g := by
  cases enabled_of_step h with
  | tick | reportError | healthTimer | healthDone | healthCount | healthCancel | healthMove
  | shutdown | cancel => rfl
  | getEnter | getPoll => exact poll_procs_of_ne hg _ _
  | getCurrentHealthy | getShutdown | sendBuffer | sendTop | sendStart | sendDone | sendCount
  | sendReport | sendNoEndpoint => exact State.setProc_procs_of_ne _ hg _

theorem slack_step (hs : Inv n s) (h : Steps cfg s e s') (hquiet : Undisturbed s.pool s'.pool)
    (held : Option EpRef) : slack s'.pool held ≤ slack s.pool held := by
  obtain ⟨l, hl⟩ := hs.healthyOk
  exact hl.slack_le (endpoints_step h) hquiet held

/-- The endpoint that `GetCurrentHealthy` returns has an error left, which pays for the attempt. -/
theorem attemptsLeft_poll (hs : Inv n s) (caller : Option SendCall) (pc : GetPc) (deadline : Int)
    (hslack : slack (s.poll cfg g caller deadline).pool none ≤ slack s.pool none) :
    attemptsLeft (s.poll cfg g caller deadline).pool ((s.poll cfg g caller deadline).procs g) ≤
      attemptsLeft s.pool (.getting caller pc) := by
  obtain ⟨l, hl⟩ := hs.healthyOk
  obtain ⟨l', hl'⟩ := (hs.poll g caller deadline : Inv n (s.poll cfg g caller deadline)).healthyOk
  revert hl' hslack
  unfold State.poll
  split
  · intro _ _
    simp only
    split
    · rw [State.setProc_procs_self]
      cases caller with
      | none => exact le_rfl
      | some call => exact hl.slack_nonneg none
    · rw [State.setProc_procs_self]
      cases caller <;> exact le_rfl
  · rename_i head hhead
    intro hslack hl'
    rw [State.setProc_procs_self]
    cases caller with
    | none => exact le_rfl
    | some call => exact (hl'.slack_some (hl.useHead_mem hhead cfg s.now)).trans_le hslack

theorem attemptsLeft_afterSend {l : List EpRef}
    (h : HealthyOk pool l) (call : SendCall) (ep : EpRef) (outcome : Outcome) :
    attemptsLeft pool (afterSend pool' call ep outcome) ≤ slack pool (some ep) := by
  unfold afterSend
  split
  · exact h.slack_nonneg _
  · split
    · exact h.slack_nonneg _
    · exact le_rfl

theorem attemptsLeft_start (h : Steps cfg s (.sendStart g) s') :
    attemptsLeft s'.pool (s'.procs g) + 1 = attemptsLeft s.pool (s.procs g) := by
  cases enabled_of_step h with
  | sendStart hproc =>
    rw [State.setProc_procs_self, hproc]
    rfl

/-- The other steps take no attempts away that they do not pay for, as long as `g` makes no other
call. -/
theorem attemptsLeft_step (hs : Inv n s) (h : Steps cfg s e s')
    (hquiet : Undisturbed s.pool s'.pool) (hcall : ∀ len timeout, e ≠ .sendBuffer g len timeout) :
    attemptsLeft s'.pool (s'.procs g) ≤ attemptsLeft s.pool (s.procs g) := by
  have hslack := slack_step hs h hquiet
  obtain ⟨l, hl⟩ := hs.healthyOk
  -- The steps of `g` itself first; the other ones change the pool only.
  by_cases hg : e.goroutine = some g
  · cases enabled_of_step h with
    | tick | reportError | healthTimer | healthDone | healthCount | healthCancel | healthMove
    | shutdown | cancel => cases hg
    | sendBuffer =>
      cases hg
      exact absurd rfl (hcall _ _)
    | getCurrentHealthy =>
      cases hg
      rw [State.setProc_procs_self]
      exact hl.attemptsLeft_nonneg _
    | @getShutdown _ caller _ hproc =>
      cases hg
      rw [State.setProc_procs_self, hproc]
      cases caller with
      | none => exact le_rfl
      | some call => exact hl.slack_nonneg none
    | getEnter hproc | getPoll hproc =>
      cases hg
      rw [hproc]
      exact attemptsLeft_poll hs _ _ _ (hslack none)
    | sendStart =>
      cases hg
      have hstart := attemptsLeft_start h
      omega
    | sendTop hproc | sendDone hproc | sendNoEndpoint hproc =>
      cases hg
      rw [State.setProc_procs_self, hproc]
      exact le_rfl
    | @sendCount _ call ep outcome hproc =>
      cases hg
      obtain ⟨l', hl'⟩ := (hs.step h).healthyOk
      rw [State.setProc_procs_self, hproc]
      exact (attemptsLeft_afterSend hl' call ep outcome).trans (hslack (some ep))
    | @sendReport _ call ep hproc =>
      cases hg
      rw [State.setProc_procs_self, hproc]
      exact hl.slack_report (endpoints_step h) hquiet (reportError_numErrors s.pool ep s.now)
  · rw [step_procs_of_ne h hg]
    exact attemptsLeft_mono hslack _

theorem idleIterations_returnTo (caller : Option SendCall) (ep : Option EpRef) :
    idleIterations (returnTo caller ep) = 1 := by
  cases caller <;> cases ep <;> rfl

theorem idleIterations_poll (s : State G) (g : G) (caller : Option SendCall) (deadline : Int) :
    idleIterations ((s.poll cfg g caller deadline).procs g) = 1 := by
  unfold State.poll
  split
  · simp only
    split
    · rw [State.setProc_procs_self, idleIterations_returnTo]
    · rw [State.setProc_procs_self]
      rfl
  · rw [State.setProc_procs_self, idleIterations_returnTo]

theorem idleIterations_top (h : Steps cfg s (.sendTop g) s') :
    idleIterations (s.procs g) = 0 ∧ idleIterations (s'.procs g) = 1 := by
  cases enabled_of_step h with
  | sendTop hproc =>
    rw [State.setProc_procs_self, hproc]
    exact ⟨rfl, rfl⟩

theorem idleIterations_step (h : Steps cfg s e s') (hstart : e ≠ .sendStart g)
    (hcall : ∀ len timeout, e ≠ .sendBuffer g len timeout) :
    idleIterations (s.procs g) ≤ idleIterations (s'.procs g) := by
  have hone := idleIterations_le_one (s.procs g)
  by_cases hg : e.goroutine = some g
  · cases enabled_of_step h with
    | tick | reportError | healthTimer | healthDone | healthCount | healthCancel | healthMove
    | shutdown | cancel => cases hg
    | sendBuffer =>
      cases hg
      exact absurd rfl (hcall _ _)
    | sendStart =>
      cases hg
      exact absurd rfl hstart
    | getCurrentHealthy | sendTop | sendNoEndpoint =>
      cases hg
      rw [State.setProc_procs_self]
      exact hone
    | getShutdown =>
      cases hg
      rw [State.setProc_procs_self, idleIterations_returnTo]
      exact hone
    | getEnter | getPoll =>
      cases hg
      rw [idleIterations_poll]
      exact hone
    | sendDone hproc | sendCount hproc | sendReport hproc =>
      cases hg
      rw [hproc]
      exact Nat.zero_le _
  · rw [step_procs_of_ne h hg]

/-! ## Runs -/

/-- A run during which the pool is undisturbed, and `g` makes no other call of `SendBuffer`. -/
def CallSteps (cfg : HttpEndpointPoolConfig) (g : G) (s : State G) (e : Event G) (s' : State G) :
    Prop :=
  Steps cfg s e s' ∧ Undisturbed s.pool s'.pool ∧ ∀ len timeout, e ≠ .sendBuffer g len timeout

theorem CallSteps.of_sendReport {g' : G} (h : Steps cfg s (.sendReport g') s') :
    CallSteps cfg g s (.sendReport g') s' := by
  refine ⟨h, ?_, nofun⟩
  cases enabled_of_step h with
  | sendReport => exact undisturbed_reportError s.pool _ s.now

theorem CallSteps.paid (hs : Inv n s) (h : CallSteps cfg g s e s') :
    [e].count (.sendStart g) + attemptsLeft s'.pool (s'.procs g) ≤
      attemptsLeft s.pool (s.procs g) ∧
    [e].count (.sendTop g) + idleIterations (s.procs g) ≤
      [e].count (.sendStart g) + idleIterations (s'.procs g) := by
  obtain ⟨hstep, hquiet, hcall⟩ := h
  -- The start of an attempt pays with one of those left and allows for one more iteration.
  by_cases hstart : e = .sendStart g
  · subst hstart
    have hpaid := attemptsLeft_start hstep
    have hone := idleIterations_le_one (s.procs g)
    have htop : [Event.sendStart g].count (.sendTop g) = 0 :=
      count_eq_zero_of_not_mem fun hmem => nomatch mem_singleton.mp hmem
    rw [count_singleton_self, htop]
    omega
  · have hpaid := attemptsLeft_step hs hstep hquiet hcall
    have hidle := idleIterations_step hstep hstart hcall
    have hcount : [e].count (.sendStart g) = 0 :=
      count_eq_zero_of_not_mem fun hmem => hstart (mem_singleton.mp hmem).symm
    by_cases htop : e = .sendTop g
    · subst htop
      have hidle' := idleIterations_top hstep
      rw [count_singleton_self]
      omega
    · have hcount' : [e].count (.sendTop g) = 0 :=
        count_eq_zero_of_not_mem fun hmem => htop (mem_singleton.mp hmem).symm
      omega

theorem attempts_paid {es : List (Event G)} {s₁ : State G} (hs : Inv n s₁)
    (hrun : Run (CallSteps cfg g) s₁ es s) :
    Inv n s ∧
    es.count (.sendStart g) + attemptsLeft s.pool (s.procs g) ≤ attemptsLeft s₁.pool (s₁.procs g) ∧
    es.count (.sendTop g) + idleIterations (s₁.procs g) ≤
      es.count (.sendStart g) + idleIterations (s.procs g) := by
  induction hrun with
  | start => exact ⟨hs, by simp, by simp⟩
  | snoc _ hstep ih =>
    obtain ⟨hinv, hattempts, htops⟩ := ih
    obtain ⟨hpaid, hidle⟩ := hstep.paid hinv
    rw [count_append, count_append]
    refine ⟨hinv.step hstep.1, ?_, ?_⟩
    · push_cast
      omega
    · omega

/-- While no endpoint comes back to the healthy list and no error count is reset, a call of
`SendBuffer` makes at most as many attempts as errors were left to the healthy endpoints before it,
and at most one more iteration of its loop. -/
theorem sendBuffer_attempts_le {validUrl : String → Bool} {pool : HttpEndpointPool} {now : Int}
    {es₀ es : List (Event G)} {s₀ s₁ : State G} {len : Nat} {timeout : Int} {l : List EpRef}
    (hnew : newHttpEndpointPool validUrl cfg = some pool)
    (hrun₀ : Run (Steps cfg) (started G pool now) es₀ s₀) (hl : s₀.pool.healthy.Threads l)
    (hcall : Steps cfg s₀ (.sendBuffer g len timeout) s₁) (hrun : Run (CallSteps cfg g) s₁ es s) :
    es.count (.sendStart g) ≤ errorsLeft s₀.pool l ∧
      es.count (.sendTop g) ≤ errorsLeft s₀.pool l + 1 := by
  have hs₀ := Inv.of_run hnew hrun₀
  obtain ⟨l', hl'⟩ := hs₀.healthyOk
  obtain rfl : l = l' := hl.unique hl'.threads
  obtain ⟨hs, hattempts, htops⟩ := attempts_paid (hs₀.step hcall) hrun
  obtain ⟨_, hok⟩ := hs.healthyOk
  have hleft := hok.attemptsLeft_nonneg (s.procs g)
  have hone := idleIterations_le_one (s.procs g)
  have hstart : attemptsLeft s₁.pool (s₁.procs g) = errorsLeft s₀.pool l := by
    rw [hl'.errorsLeft_eq]
    cases enabled_of_step hcall with
    | sendBuffer =>
      rw [State.setProc_procs_self]
      rfl
  omega

end

def failingCall : List (Event Unit) :=
  [.sendTop (), .getSection (), .sendStart (), .sendDone () ⟨none, some "EOF"⟩, .sendCount (),
    .sendReport (), .sendTop (), .getSection (), .sendNoEndpoint ()]

theorem sendBuffer_attempts_le_failing_call : ∃ (pool : HttpEndpointPool) (s₁ s : State Unit),
    newHttpEndpointPool (fun _ => true) oneEndpoint = some pool ∧
    Steps oneEndpoint (started Unit pool 0) (.sendBuffer () 10 0) s₁ ∧
    Run (CallSteps oneEndpoint ()) s₁ failingCall s ∧
    s.procs () = .sent (some (noHealthyEpError ⟨10, 0, 2⟩)) ∧
    failingCall.count (.sendStart ()) ≤ (1 : Int) ∧ failingCall.count (.sendTop ()) ≤ (2 : Int) := by
  have hrun : ∃ pool s₁ s, newHttpEndpointPool (fun _ => true) oneEndpoint = some pool ∧
      Steps oneEndpoint (started Unit pool 0) (.sendBuffer () 10 0) s₁ ∧
      Run (CallSteps oneEndpoint ()) s₁ failingCall s ∧
      s.procs () = .sent (some (noHealthyEpError ⟨10, 0, 2⟩)) ∧ slack pool none = 1 := by
    refine ⟨_, _, _, rfl, rfl, .cons ⟨rfl, .of_ep rfl, nofun⟩ (.cons ⟨rfl, .of_ep rfl, nofun⟩
      (.cons ⟨rfl, .of_ep rfl, nofun⟩ (.cons ⟨rfl, .of_ep rfl, nofun⟩ (.cons ⟨rfl, .of_ep rfl, nofun⟩
      (.cons (CallSteps.of_sendReport rfl) (.cons ⟨rfl, .of_ep rfl, nofun⟩
      (.cons ⟨rfl, .of_ep rfl, nofun⟩ (.cons ⟨rfl, .of_ep rfl, nofun⟩ .start)))))))), rfl, rfl⟩
  obtain ⟨pool, s₁, s, hnew, hcall, hrun, hsent, hslack⟩ := hrun
  obtain ⟨l, hl⟩ := (newHttpEndpointPool_allHealthy hnew).ok
  have hleft : errorsLeft (started Unit pool 0).pool l = 1 := hl.errorsLeft_eq.trans hslack
  have h := sendBuffer_attempts_le hnew .start hl.threads hcall hrun
  rw [hleft] at h
  exact ⟨pool, s₁, s, hnew, hcall, hrun, hsent, h⟩

end Lsvmi.HttpPool
