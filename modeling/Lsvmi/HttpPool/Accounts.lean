import Lsvmi.HttpPool.Attempts

/-!
# Accounts of the attempts

The calls of `SendBuffer` that have returned, with the attempts that each of them made, are kept
beside the pool.  Of all the steps only a few matter to the accounts and to the stats.
-/

namespace Lsvmi.HttpPool

open Reasoning Function

/-- A request that a `SendBuffer` call made, and what `client.Do` returned. -/
structure Attempt where
  url : String
  len : Nat
  outcome : Outcome
  deriving DecidableEq, Repr

def Attempt.answered (a : Attempt) : Bool := a.outcome.err.isNone && a.outcome.res.isSome

def Attempt.accepted (a : Attempt) : Bool :=
  a.answered && a.outcome.res.any fun res => res.statusCode == 200 || res.statusCode == 204

structure ReturnedCall where
  attempts : List Attempt
  err : Option SendError
  deriving DecidableEq, Repr

def attemptsOn (url : String) (calls : List ReturnedCall) : List Attempt :=
  (calls.flatMap ReturnedCall.attempts).filter (·.url = url)

structure AccountState (G : Type) where
  state : State G
  /-- of the latest `SendBuffer` call of each goroutine -/
  attempts : G → List Attempt
  returned : List ReturnedCall

def AccountState.started (G : Type) (pool : HttpEndpointPool) (now : Int) : AccountState G :=
  ⟨HttpPool.started G pool now, fun _ => [], []⟩

def Proc.sending : Proc → Bool
  | .atTop _ | .getting (some _) _ | .noEndpoint _ | .holding _ _ | .doing _ _ | .done _ _ _
  | .reporting _ _ => true
  | .idle | .getting none _ | .gotCurrent _ | .sent _ => false

section

variable {G : Type} [DecidableEq G]

def AccountState.record (s : AccountState G) (state : State G) : Event G → AccountState G
  | .sendBuffer g _ _ => { s with state, attempts := Function.update s.attempts g [] }
  | .sendDone g outcome =>
    match s.state.procs g with
    | .doing call ep =>
      let attempt := ⟨(s.state.pool.ep ep).url, call.len, outcome⟩
      { s with state, attempts := Function.update s.attempts g (s.attempts g ++ [attempt]) }
    | _ => { s with state }
  | .sendCount g | .sendNoEndpoint g =>
    match state.procs g with
    | .sent err => { s with state, returned := s.returned ++ [⟨s.attempts g, err⟩] }
    | _ => { s with state }
  | _ => { s with state }

def accountStep (cfg : HttpEndpointPoolConfig) (s : AccountState G) (e : Event G) :
    Option (AccountState G) :=
  (step cfg s.state e).map (s.record · e)

def AccountSteps (cfg : HttpEndpointPoolConfig) (s : AccountState G) (e : Event G)
    (s' : AccountState G) : Prop :=
  accountStep cfg s e = some s'

theorem record_state (s : AccountState G) (state : State G) (e : Event G) :
    (s.record state e).state = state := by
  cases e with
  | sendDone g outcome | sendCount g | sendNoEndpoint g =>
    unfold AccountState.record
    simp only
    split <;> rfl
  | _ => rfl

theorem exists_accounts {cfg : HttpEndpointPoolConfig} {pool : HttpEndpointPool} {now : Int}
    {es : List (Event G)} {s : State G} (hrun : Run (Steps cfg) (started G pool now) es s) :
    ∃ a, Run (AccountSteps cfg) (.started G pool now) es a ∧ a.state = s := by
  induction hrun with
  | start => exact ⟨_, .start, rfl⟩
  | @snoc es s s' e _ hstep ih =>
    obtain ⟨a, hrun, rfl⟩ := ih
    refine ⟨a.record s' e, .snoc hrun ?_, record_state a s' e⟩
    unfold AccountSteps accountStep
    rw [show step cfg a.state e = some s' from hstep]
    rfl

end

theorem Attempt.answered_eq (a : Attempt) : a.answered = a.outcome.sent.isSome := by
  rcases a with ⟨url, len, res, _ | err⟩ <;> rfl

theorem Attempt.accepted_eq (a : Attempt) : a.accepted = a.outcome.success := by
  rcases a with ⟨url, len, _ | res, _ | err⟩
  · rfl
  · rfl
  · simp [Attempt.accepted, Attempt.answered, Outcome.success, Outcome.sent,
      httpEndpointPoolSuccessCodes, beq_eq_decide]
  · rfl

theorem Outcome.nonRetryable_eq (outcome : Outcome) : outcome.nonRetryable = outcome.sent := by
  rcases outcome with ⟨_ | res, _ | err⟩ <;> rfl

inductive Counter where
  | count | errors | bytes
  deriving DecidableEq, Repr

def Counter.value (c : Counter) (stats : HttpEndpointStats) : UInt64 :=
  match c with
  | .count => stats.sendBufferCount
  | .errors => stats.sendBufferErrorCount
  | .bytes => stats.sendBufferByteCount

def Counter.weight (c : Counter) (a : Attempt) : Nat :=
  match c with
  | .count => 1
  | .errors => if a.accepted then 0 else 1
  | .bytes => if a.answered then a.len else 0

def Counter.weightOn (c : Counter) (url : String) (a : Attempt) : Nat :=
  if a.url = url then c.weight a else 0

theorem Counter.value_countSend (c : Counter) (a : Attempt) (call : SendCall)
    (hlen : call.len = a.len) (stats : HttpEndpointStats) :
    c.value (countSend call a.outcome stats) = c.value stats + UInt64.ofNat (c.weight a) := by
  cases c with
  | count => rfl
  | errors =>
    simp only [Counter.value, countSend, Counter.weight, a.accepted_eq]
    by_cases h : a.outcome.success = true <;> simp [h]
  | bytes =>
    simp only [Counter.value, countSend, Counter.weight, a.answered_eq, hlen]
    by_cases h : a.outcome.sent.isSome = true <;> simp [h]

structure SameSends (pool pool' : HttpEndpointPool) : Prop where
  url_eq : ∀ r, (pool'.ep r).url = (pool.ep r).url
  value_eq : ∀ (c : Counter) (url : String),
    c.value (pool'.endpointStats url) = c.value (pool.endpointStats url)
  noHealthyEp_eq : pool'.noHealthyEpErrorCount = pool.noHealthyEpErrorCount

theorem Kept.sameSends {pool pool' : HttpEndpointPool} (h : Kept pool pool') :
    SameSends pool pool' := by
  refine ⟨h.url_eq, fun c url => ?_, h.noHealthyEp_eq⟩
  obtain ⟨state, hstate⟩ := h.stats_eq url
  rw [hstate]
  cases c <;> rfl

theorem sameSends_healthCount (pool : HttpEndpointPool) (url : String) (done : Bool) :
    SameSends pool (pool.updateStats url (countHealthCheck done)) := by
  refine ⟨fun _ => rfl, fun c url' => ?_, rfl⟩
  show c.value (update pool.endpointStats url _ url') = _
  by_cases hurl : url' = url
  · rw [hurl, update_self]
    cases c <;> rfl
  · rw [update_of_ne hurl]

/-- Where a goroutine is, as far as the accounts are concerned. -/
inductive Phase where
  | outside
  | trying
  /-- `client.Do` has returned, and the attempt is not in the stats -/
  | returned (call : SendCall) (ep : EpRef) (outcome : Outcome)
  deriving DecidableEq, Repr

def Proc.phase : Proc → Phase
  | .idle | .getting none _ | .gotCurrent _ | .sent _ => .outside
  | .atTop _ | .getting (some _) _ | .noEndpoint _ | .holding _ _ | .doing _ _
  | .reporting _ _ => .trying
  | .done call ep outcome => .returned call ep outcome

theorem Proc.phase_of_not_sending {proc : Proc} (h : proc.sending = false) :
    proc.phase = .outside := by
  cases proc with
  | idle | gotCurrent | sent => rfl
  | getting caller pc =>
    cases caller with
    | none => rfl
    | some call => cases h
  | atTop | noEndpoint | holding | doing | done | reporting => cases h

theorem Proc.phase_of_free {proc : Proc} (h : proc.free) : proc.phase = .outside := by
  cases proc with
  | idle | gotCurrent | sent => rfl
  | getting | atTop | noEndpoint | holding | doing | done | reporting => cases h

theorem returnTo_phase (caller : Option SendCall) (ep : Option EpRef) (pc : GetPc) :
    (returnTo caller ep).phase = (Proc.getting caller pc).phase := by
  cases caller <;> cases ep <;> rfl

structure CountedAttempt (pool pool' : HttpEndpointPool) (a : Attempt) : Prop where
  url_eq : ∀ r, (pool'.ep r).url = (pool.ep r).url
  value_eq : ∀ (c : Counter) (url : String), c.value (pool'.endpointStats url) =
    c.value (pool.endpointStats url) + UInt64.ofNat (c.weightOn url a)
  noHealthyEp_eq : pool'.noHealthyEpErrorCount = pool.noHealthyEpErrorCount

theorem countedAttempt_updateStats (pool : HttpEndpointPool) (call : SendCall) (ep : EpRef)
    (outcome : Outcome) :
    CountedAttempt pool (pool.updateStats (pool.ep ep).url (countSend call outcome))
      ⟨(pool.ep ep).url, call.len, outcome⟩ := by
  refine ⟨fun _ => rfl, fun c url => ?_, rfl⟩
  show c.value (update pool.endpointStats (pool.ep ep).url _ url) = _
  rw [Counter.weightOn]
  by_cases hurl : (pool.ep ep).url = url
  · subst hurl
    rw [update_self, if_pos rfl]
    exact c.value_countSend ⟨(pool.ep ep).url, call.len, outcome⟩ call rfl _
  · rw [update_of_ne (Ne.symm hurl), if_neg hurl]
    simp

section

variable {G : Type} [DecidableEq G] {state : State G} {g : G}

inductive Entry (s s' : AccountState G) : Prop
  | same (hsends : SameSends s.state.pool s'.state.pool)
    (hphase : ∀ g, (s'.state.procs g).phase = (s.state.procs g).phase)
    (hattempts : s'.attempts = s.attempts) (hreturned : s'.returned = s.returned)
  | start (g : G) (hsends : SameSends s.state.pool s'.state.pool)
    (hphase : ∀ g', g' ≠ g → (s'.state.procs g').phase = (s.state.procs g').phase)
    (hg : (s.state.procs g).phase = .outside) (hg' : (s'.state.procs g).phase = .trying)
    (hattempts : s'.attempts = Function.update s.attempts g [])
    (hreturned : s'.returned = s.returned)
  | attempt (g : G) (call : SendCall) (ep : EpRef) (outcome : Outcome)
    (hsends : SameSends s.state.pool s'.state.pool)
    (hphase : ∀ g', g' ≠ g → (s'.state.procs g').phase = (s.state.procs g').phase)
    (hg : (s.state.procs g).phase = .trying)
    (hg' : (s'.state.procs g).phase = .returned call ep outcome)
    (hattempts : s'.attempts = Function.update s.attempts g
      (s.attempts g ++ [⟨(s.state.pool.ep ep).url, call.len, outcome⟩]))
    (hreturned : s'.returned = s.returned)
  | retry (g : G) (call : SendCall) (ep : EpRef) (outcome : Outcome)
    (hcount : CountedAttempt s.state.pool s'.state.pool
      ⟨(s.state.pool.ep ep).url, call.len, outcome⟩)
    (hphase : ∀ g', g' ≠ g → (s'.state.procs g').phase = (s.state.procs g').phase)
    (hg : (s.state.procs g).phase = .returned call ep outcome)
    (hg' : (s'.state.procs g).phase = .trying) (hsent : outcome.sent = none)
    (hattempts : s'.attempts = s.attempts) (hreturned : s'.returned = s.returned)
  | finish (g : G) (call : SendCall) (ep : EpRef) (outcome : Outcome) (err : Option SendError)
    (hcount : CountedAttempt s.state.pool s'.state.pool
      ⟨(s.state.pool.ep ep).url, call.len, outcome⟩)
    (hphase : ∀ g', g' ≠ g → (s'.state.procs g').phase = (s.state.procs g').phase)
    (hg : (s.state.procs g).phase = .returned call ep outcome)
    (hg' : (s'.state.procs g).phase = .outside) (herr : err = none ↔ outcome.success = true)
    (hother : err.any SendError.noHealthyEP = false) (hattempts : s'.attempts = s.attempts)
    (hreturned : s'.returned = s.returned ++ [⟨s.attempts g, err⟩])
  | giveUp (g : G) (err : SendError)
    (hurl : ∀ r, (s'.state.pool.ep r).url = (s.state.pool.ep r).url)
    (hstats : s'.state.pool.endpointStats = s.state.pool.endpointStats)
    (hcount : s'.state.pool.noHealthyEpErrorCount = s.state.pool.noHealthyEpErrorCount + 1)
    (hphase : ∀ g', g' ≠ g → (s'.state.procs g').phase = (s.state.procs g').phase)
    (hg : (s.state.procs g).phase = .trying) (hg' : (s'.state.procs g).phase = .outside)
    (herr : err.noHealthyEP = true) (hattempts : s'.attempts = s.attempts)
    (hreturned : s'.returned = s.returned ++ [⟨s.attempts g, some err⟩])

variable {cfg : HttpEndpointPoolConfig} {s s' : AccountState G} {e : Event G}

theorem phase_update {state' : State G} {proc : Proc}
    (hprocs : state'.procs = update state.procs g proc)
    (hphase : proc.phase = (state.procs g).phase) (g' : G) :
    (state'.procs g').phase = (state.procs g').phase := by
  rw [hprocs]
  by_cases hg : g' = g
  · rw [hg, update_self, hphase]
  · rw [update_of_ne hg]

theorem poll_phase (state : State G) {caller : Option SendCall} {pc : GetPc}
    (hg : state.procs g = .getting caller pc) (deadline : Int) (g' : G) :
    ((state.poll cfg g caller deadline).procs g').phase = (state.procs g').phase := by
  unfold State.poll
  split
  · simp only
    split
    · exact phase_update rfl (by rw [hg, returnTo_phase]) g'
    · exact phase_update rfl (by rw [hg]; cases caller <;> rfl) g'
  · exact phase_update rfl (by rw [hg, returnTo_phase]) g'

theorem entry_sendCount {call : SendCall} {ep : EpRef} {outcome : Outcome}
    (hg : s.state.procs g = .done call ep outcome) (hpool : state.pool =
      s.state.pool.updateStats (s.state.pool.ep ep).url (countSend call outcome))
    (hg' : state.procs g = afterSend s.state.pool call ep outcome)
    (hphase : ∀ g', g' ≠ g → (state.procs g').phase = (s.state.procs g').phase) :
    Entry s (s.record state (.sendCount g)) := by
  have hcount := countedAttempt_updateStats s.state.pool call ep outcome
  rw [← hpool] at hcount
  have hbefore : (s.state.procs g).phase = .returned call ep outcome := by rw [hg]; rfl
  by_cases hsuccess : outcome.success
  · have hsent : state.procs g = .sent none := by rw [hg', afterSend, if_pos hsuccess]
    refine .finish g call ep outcome none ?_ ?_ hbefore ?_ (iff_of_true rfl hsuccess) rfl ?_ ?_
    all_goals simp only [AccountState.record, hsent]
    · exact hcount
    · exact hphase
    · rfl
  · cases hnon : outcome.nonRetryable with
    | none =>
      have hreport : state.procs g = .reporting call ep := by
        rw [hg', afterSend, if_neg hsuccess, hnon]
      rw [Outcome.nonRetryable_eq] at hnon
      refine .retry g call ep outcome ?_ ?_ hbefore ?_ hnon ?_ ?_
      all_goals simp only [AccountState.record, hreport]
      · exact hcount
      · exact hphase
      · rfl
    | some res =>
      let err : SendError :=
        ⟨call.errorText ("PUT " ++ (s.state.pool.ep ep).url ++ ": " ++ res.status), false⟩
      have hsent : state.procs g = .sent (some err) := by
        rw [hg', afterSend, if_neg hsuccess, hnon]
      have herr : some err = none ↔ outcome.success := iff_of_false (by simp) hsuccess
      refine .finish g call ep outcome (some err) ?_ ?_ hbefore ?_ herr rfl ?_ ?_
      all_goals simp only [AccountState.record, hsent]
      · exact hcount
      · exact hphase
      · rfl

theorem entry_of_step (h : AccountSteps cfg s e s') : Entry s s' := by
  obtain ⟨state, hstep, rfl⟩ := Option.map_eq_some_iff.mp h
  have hphase {g : G} (hg : e.goroutine = some g) :
      ∀ g', g' ≠ g → (state.procs g').phase = (s.state.procs g').phase :=
    fun g' hne => by rw [step_procs_of_ne hstep fun heq => hne (Option.some.inj (heq.symm.trans hg))]
  cases enabled_of_step hstep with
  | tick | healthTimer | healthDone | healthCancel | shutdown | cancel =>
    exact .same ⟨fun _ => rfl, fun _ _ => rfl, rfl⟩ (fun _ => rfl) rfl rfl
  | healthCount hi => exact .same (sameSends_healthCount _ _ _) (fun _ => rfl) rfl rfl
  | healthMove hi => exact .same (kept_moveToHealthy _ _).sameSends (fun _ => rfl) rfl rfl
  | reportError hep => exact .same (kept_reportError _ _ _).sameSends (fun _ => rfl) rfl rfl
  | getCurrentHealthy hfree =>
    exact .same (Kept.refl _).sameSends (phase_update rfl (Proc.phase_of_free hfree).symm) rfl rfl
  | getShutdown hg hshut =>
    exact .same (Kept.refl _).sameSends (phase_update rfl (by rw [hg, returnTo_phase])) rfl rfl
  | getEnter hg | getPoll hg =>
    exact .same (kept_poll _ _ _ _).sameSends (poll_phase _ hg _) rfl rfl
  | @sendBuffer g len timeout hfree =>
    refine .start g (Kept.refl _).sameSends (hphase rfl) (Proc.phase_of_free hfree) ?_ rfl rfl
    show ((s.state.setProc g _).procs g).phase = .trying
    rw [State.setProc_procs_self]
    rfl
  | sendTop hg | sendStart hg =>
    exact .same (Kept.refl _).sameSends (phase_update rfl (by rw [hg]; rfl)) rfl rfl
  | @sendDone g call ep outcome hg =>
    have hbefore : (s.state.procs g).phase = .trying := by rw [hg]; rfl
    refine .attempt g call ep outcome ?_ ?_ hbefore ?_ ?_ ?_
    all_goals simp only [AccountState.record, hg]
    · exact (Kept.refl _).sameSends
    · exact hphase rfl
    · rw [State.setProc_procs_self]
      rfl
  | @sendCount g call ep outcome hg =>
    exact entry_sendCount hg rfl (State.setProc_procs_self _ _ _) (hphase rfl)
  | sendReport hg =>
    exact .same (kept_reportError _ _ _).sameSends (phase_update rfl (by rw [hg]; rfl)) rfl rfl
  | @sendNoEndpoint g call hg =>
    have hbefore : (s.state.procs g).phase = .trying := by rw [hg]; rfl
    have hsent := State.setProc_procs_self { s.state with pool := { s.state.pool with
      noHealthyEpErrorCount := s.state.pool.noHealthyEpErrorCount + 1 } } g
      (.sent (some (noHealthyEpError call)))
    refine .giveUp g (noHealthyEpError call) ?_ ?_ ?_ ?_ hbefore ?_ rfl ?_ ?_
    all_goals simp only [AccountState.record, hsent]
    · exact fun _ => rfl
    · rfl
    · rfl
    · exact hphase rfl
    · rfl

end

end Lsvmi.HttpPool
