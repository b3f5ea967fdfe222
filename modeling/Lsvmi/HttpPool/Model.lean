import Lsvmi.HttpPool.Pool

/-!
# Senders, health checks and shutdown

The goroutines that use one pool as a transition system.  A step is a critical section, a call of
`client.Do` that starts or returns, or the passing of time.  The clock is the monotonic one, which
all the goroutines read.
-/

namespace Lsvmi.HttpPool

open Reasoning

def httpEndpointPoolHealthyPollInterval : Int := 500 * 1000 * 1000

def httpEndpointPoolSuccessCodes : List Nat := [200, 204]
def httpEndpointPoolRetryCodes : List Nat := []

structure Response where
  statusCode : Nat
  status : String
  deriving DecidableEq, Repr

structure Outcome where
  res : Option Response
  err : Option String
  deriving DecidableEq, Repr

def Outcome.sent (o : Outcome) : Option Response :=
  match o.err with
  | none => o.res
  | some _ => none

def Outcome.success (o : Outcome) : Bool :=
  o.sent.any fun res => res.statusCode ∈ httpEndpointPoolSuccessCodes

def Outcome.nonRetryable (o : Outcome) : Option Response :=
  o.sent.filter fun res => res.statusCode ∉ httpEndpointPoolRetryCodes

structure SendError where
  text : String
  /-- whether the error wraps `ErrHttpEndpointPoolNoHealthyEP` -/
  noHealthyEP : Bool
  deriving DecidableEq, Repr

structure SendCall where
  len : Nat
  deadline : Int
  attempt : Nat
  deriving DecidableEq, Repr

def SendCall.errorText (call : SendCall) (text : String) : String :=
  "SendBuffer attempt# " ++ toString call.attempt ++ ": " ++ text

inductive GetPc where
  | entering (maxWait : Int)
  /-- in `time.Sleep` until `wakeAt` -/
  | polling (deadline wakeAt : Int)
  deriving DecidableEq, Repr

inductive Proc where
  | idle
  /-- in `GetCurrentHealthy`, called by `SendBuffer` or on its own -/
  | getting (caller : Option SendCall) (pc : GetPc)
  | gotCurrent (ep : Option EpRef)
  /-- at the top of the loop of `SendBuffer` -/
  | atTop (call : SendCall)
  | noEndpoint (call : SendCall)
  /-- before `client.Do` -/
  | holding (call : SendCall) (ep : EpRef)
  | doing (call : SendCall) (ep : EpRef)
  | done (call : SendCall) (ep : EpRef) (outcome : Outcome)
  | reporting (call : SendCall) (ep : EpRef)
  /-- `SendBuffer` has returned -/
  | sent (err : Option SendError)
  deriving DecidableEq, Repr

def Proc.free : Proc → Bool
  | .idle | .gotCurrent _ | .sent _ => true
  | _ => false

inductive HealthPc where
  | waiting
  | doing
  | counting (done : Bool)
  | moving
  deriving DecidableEq, Repr

structure HealthCheck where
  ep : EpRef
  pc : HealthPc
  deriving DecidableEq, Repr

structure State (G : Type) where
  now : Int
  pool : HttpEndpointPool
  ctxDone : Bool
  /-- the health checks that have not executed their `MoveToHealthy` -/
  checks : List HealthCheck
  procs : G → Proc

def started (G : Type) (pool : HttpEndpointPool) (now : Int) : State G :=
  { now, pool, ctxDone := false, checks := [], procs := fun _ => .idle }

inductive Event (G : Type) where
  | tick (d : Nat)
  | getCurrentHealthy (g : G) (maxWait : Int)
  /-- the next critical section of `GetCurrentHealthy` -/
  | getSection (g : G)
  | sendBuffer (g : G) (len : Nat) (timeout : Int)
  | sendTop (g : G)
  | sendStart (g : G)
  | sendDone (g : G) (outcome : Outcome)
  | sendCount (g : G)
  | sendReport (g : G)
  | sendNoEndpoint (g : G)
  /-- a call of `ReportError` by any other goroutine -/
  | reportError (ep : EpRef)
  | healthTimer (i : Nat)
  | healthDone (i : Nat) (outcome : Outcome)
  | healthCount (i : Nat)
  | healthCancel (i : Nat)
  | healthMove (i : Nat)
  | shutdown
  /-- `ctxCancelFn`, after the critical section of `Shutdown` -/
  | cancel
  deriving DecidableEq, Repr

def countSend (call : SendCall) (outcome : Outcome) (stats : HttpEndpointStats) :
    HttpEndpointStats :=
  { stats with
    sendBufferCount := stats.sendBufferCount + 1
    sendBufferByteCount :=
      if outcome.sent.isSome then stats.sendBufferByteCount + UInt64.ofNat call.len
      else stats.sendBufferByteCount
    sendBufferErrorCount :=
      if outcome.success then stats.sendBufferErrorCount else stats.sendBufferErrorCount + 1 }

def countHealthCheck (done : Bool) (stats : HttpEndpointStats) : HttpEndpointStats :=
  { stats with
    healthCheckCount := stats.healthCheckCount + 1
    healthCheckErrorCount :=
      if done then stats.healthCheckErrorCount else stats.healthCheckErrorCount + 1 }

section

variable {G : Type} [DecidableEq G]

def State.setProc (s : State G) (g : G) (proc : Proc) : State G :=
  { s with procs := Function.update s.procs g proc }

theorem State.setProc_procs_self (s : State G) (g : G) (proc : Proc) :
    (s.setProc g proc).procs g = proc := by
  unfold State.setProc
  exact Function.update_self g proc s.procs

theorem State.setProc_procs_of_ne (s : State G) {g g' : G} (h : some g' ≠ some g) (proc : Proc) :
    (s.setProc g' proc).procs g = s.procs g :=
  Function.update_of_ne (fun hg => h (congrArg some hg.symm)) _ _

def State.setCheck (s : State G) (i : Nat) (check : HealthCheck) : State G :=
  { s with checks := s.checks.set i check }

def returnTo : Option SendCall → Option EpRef → Proc
  | none, ep => .gotCurrent ep
  | some call, none => .noEndpoint call
  | some call, some ep => .holding call ep

def State.poll (cfg : HttpEndpointPoolConfig) (s : State G) (g : G) (caller : Option SendCall)
    (deadline : Int) : State G :=
  match s.pool.healthy.head with
  | none =>
    let timeLeft := deadline - s.now
    if timeLeft ≤ 0 then s.setProc g (returnTo caller none)
    else
      let pause := min httpEndpointPoolHealthyPollInterval timeLeft
      s.setProc g (.getting caller (.polling deadline (s.now + pause)))
  | some head =>
    let (pool, ep) := s.pool.useHead cfg head s.now
    { s with pool }.setProc g (returnTo caller (some ep))

def State.report (s : State G) (ep : EpRef) : State G :=
  let (pool, check) := s.pool.reportError ep s.now
  { s with pool, checks := if check then s.checks ++ [⟨ep, .waiting⟩] else s.checks }

/-- What `SendBuffer` does with an outcome once it is counted. -/
def afterSend (pool : HttpEndpointPool) (call : SendCall) (ep : EpRef) (outcome : Outcome) : Proc :=
  if outcome.success then .sent none
  else match outcome.nonRetryable with
    | some res =>
      .sent (some ⟨call.errorText ("PUT " ++ (pool.ep ep).url ++ ": " ++ res.status), false⟩)
    | none => .reporting call ep

def noHealthyEpError (call : SendCall) : SendError :=
  ⟨call.errorText "no healthy HTTP endpoint available", true⟩

def step (cfg : HttpEndpointPoolConfig) (s : State G) : Event G → Option (State G)
  | .tick d => some { s with now := s.now + d }
  | .getCurrentHealthy g maxWait =>
    if (s.procs g).free then some (s.setProc g (.getting none (.entering maxWait))) else none
  | .getSection g =>
    match s.procs g with
    | .getting caller (.entering maxWait) =>
      if s.pool.shutdown then some (s.setProc g (returnTo caller none))
      else
        let maxWait := if maxWait < 0 then cfg.healthyMaxWait else maxWait
        some (s.poll cfg g caller (s.now + maxWait))
    | .getting caller (.polling deadline wakeAt) =>
      if wakeAt ≤ s.now then some (s.poll cfg g caller deadline) else none
    | _ => none
  | .sendBuffer g len timeout =>
    if (s.procs g).free then
      let timeout := if timeout < 0 then cfg.sendBufferTimeout else timeout
      some (s.setProc g (.atTop ⟨len, s.now + timeout, 1⟩))
    else none
  | .sendTop g =>
    match s.procs g with
    | .atTop call =>
      some (s.setProc g (.getting (some call) (.entering (max 0 (call.deadline - s.now)))))
    | _ => none
  | .sendStart g =>
    match s.procs g with
    | .holding call ep => some (s.setProc g (.doing call ep))
    | _ => none
  | .sendDone g outcome =>
    match s.procs g with
    | .doing call ep => some (s.setProc g (.done call ep outcome))
    | _ => none
  | .sendCount g =>
    match s.procs g with
    | .done call ep outcome =>
      let pool := s.pool.updateStats (s.pool.ep ep).url (countSend call outcome)
      some ({ s with pool }.setProc g (afterSend s.pool call ep outcome))
    | _ => none
  | .sendReport g =>
    match s.procs g with
    | .reporting call ep =>
      some ((s.report ep).setProc g (.atTop { call with attempt := call.attempt + 1 }))
    | _ => none
  | .sendNoEndpoint g =>
    match s.procs g with
    | .noEndpoint call =>
      let pool := { s.pool with noHealthyEpErrorCount := s.pool.noHealthyEpErrorCount + 1 }
      some ({ s with pool }.setProc g (.sent (some (noHealthyEpError call))))
    | _ => none
  | .reportError ep => if ep < s.pool.size then some (s.report ep) else none
  | .healthTimer i =>
    match s.checks[i]? with
    | some ⟨ep, .waiting⟩ => some (s.setCheck i ⟨ep, .doing⟩)
    | _ => none
  | .healthDone i outcome =>
    match s.checks[i]? with
    | some ⟨ep, .doing⟩ =>
      -- Without error and response the log call dereferences nil and the process ends.
      if outcome.err.isNone && outcome.res.isNone then none
      else some (s.setCheck i ⟨ep, .counting outcome.success⟩)
    | _ => none
  | .healthCount i =>
    match s.checks[i]? with
    | some ⟨ep, .counting done⟩ =>
      let pool := s.pool.updateStats (s.pool.ep ep).url (countHealthCheck done)
      some ({ s with pool }.setCheck i ⟨ep, if done then .moving else .waiting⟩)
    | _ => none
  | .healthCancel i =>
    match s.checks[i]? with
    | some ⟨ep, .waiting⟩ => if s.ctxDone then some (s.setCheck i ⟨ep, .moving⟩) else none
    | _ => none
  | .healthMove i =>
    match s.checks[i]? with
    | some ⟨ep, .moving⟩ =>
      some { s with pool := s.pool.moveToHealthy ep, checks := s.checks.eraseIdx i }
    | _ => none
  | .shutdown => some { s with pool := { s.pool with shutdown := true } }
  | .cancel => if s.pool.shutdown then some { s with ctxDone := true } else none

end

section

variable {G : Type} [DecidableEq G] {cfg : HttpEndpointPoolConfig} {s s' : State G} {e : Event G}

/-- The steps one by one, with what enables them. -/
inductive Enabled (cfg : HttpEndpointPoolConfig) (s : State G) : Event G → State G → Prop
  | tick {d : Nat} : Enabled cfg s (.tick d) { s with now := s.now + d }
  | getCurrentHealthy {g : G} {maxWait : Int} (hfree : (s.procs g).free = true) :
    Enabled cfg s (.getCurrentHealthy g maxWait) (s.setProc g (.getting none (.entering maxWait)))
  | getShutdown {g : G} {caller : Option SendCall} {maxWait : Int}
    (hg : s.procs g = .getting caller (.entering maxWait)) (hshut : s.pool.shutdown = true) :
    Enabled cfg s (.getSection g) (s.setProc g (returnTo caller none))
  | getEnter {g : G} {caller : Option SendCall} {maxWait : Int}
    (hg : s.procs g = .getting caller (.entering maxWait)) (hshut : s.pool.shutdown = false) :
    Enabled cfg s (.getSection g)
      (s.poll cfg g caller (s.now + if maxWait < 0 then cfg.healthyMaxWait else maxWait))
  | getPoll {g : G} {caller : Option SendCall} {deadline wakeAt : Int}
    (hg : s.procs g = .getting caller (.polling deadline wakeAt)) (hwake : wakeAt ≤ s.now) :
    Enabled cfg s (.getSection g) (s.poll cfg g caller deadline)
  | sendBuffer {g : G} {len : Nat} {timeout : Int} (hfree : (s.procs g).free = true) :
    Enabled cfg s (.sendBuffer g len timeout) (s.setProc g
      (.atTop ⟨len, s.now + if timeout < 0 then cfg.sendBufferTimeout else timeout, 1⟩))
  | sendTop {g : G} {call : SendCall} (hg : s.procs g = .atTop call) :
    Enabled cfg s (.sendTop g)
      (s.setProc g (.getting (some call) (.entering (max 0 (call.deadline - s.now)))))
  | sendStart {g : G} {call : SendCall} {ep : EpRef} (hg : s.procs g = .holding call ep) :
    Enabled cfg s (.sendStart g) (s.setProc g (.doing call ep))
  | sendDone {g : G} {call : SendCall} {ep : EpRef} {outcome : Outcome}
    (hg : s.procs g = .doing call ep) :
    Enabled cfg s (.sendDone g outcome) (s.setProc g (.done call ep outcome))
  | sendCount {g : G} {call : SendCall} {ep : EpRef} {outcome : Outcome}
    (hg : s.procs g = .done call ep outcome) :
    Enabled cfg s (.sendCount g)
      ({ s with pool := s.pool.updateStats (s.pool.ep ep).url (countSend call outcome) }.setProc g
        (afterSend s.pool call ep outcome))
  | sendReport {g : G} {call : SendCall} {ep : EpRef} (hg : s.procs g = .reporting call ep) :
    Enabled cfg s (.sendReport g)
      ((s.report ep).setProc g (.atTop { call with attempt := call.attempt + 1 }))
  | sendNoEndpoint {g : G} {call : SendCall} (hg : s.procs g = .noEndpoint call) :
    Enabled cfg s (.sendNoEndpoint g)
      ({ s with pool := { s.pool with
          noHealthyEpErrorCount := s.pool.noHealthyEpErrorCount + 1 } }.setProc g
        (.sent (some (noHealthyEpError call))))
  | reportError {ep : EpRef} (hep : ep < s.pool.size) :
    Enabled cfg s (.reportError ep) (s.report ep)
  | healthTimer {i : Nat} {ep : EpRef} (hi : s.checks[i]? = some ⟨ep, .waiting⟩) :
    Enabled cfg s (.healthTimer i) (s.setCheck i ⟨ep, .doing⟩)
  | healthDone {i : Nat} {ep : EpRef} {outcome : Outcome} (hi : s.checks[i]? = some ⟨ep, .doing⟩)
    (hsome : (outcome.err.isNone && outcome.res.isNone) = false) :
    Enabled cfg s (.healthDone i outcome) (s.setCheck i ⟨ep, .counting outcome.success⟩)
  | healthCount {i : Nat} {ep : EpRef} {done : Bool}
    (hi : s.checks[i]? = some ⟨ep, .counting done⟩) :
    Enabled cfg s (.healthCount i)
      ({ s with pool := s.pool.updateStats (s.pool.ep ep).url (countHealthCheck done) }.setCheck i
        ⟨ep, if done then .moving else .waiting⟩)
  | healthCancel {i : Nat} {ep : EpRef} (hi : s.checks[i]? = some ⟨ep, .waiting⟩)
    (hdone : s.ctxDone = true) : Enabled cfg s (.healthCancel i) (s.setCheck i ⟨ep, .moving⟩)
  | healthMove {i : Nat} {ep : EpRef} (hi : s.checks[i]? = some ⟨ep, .moving⟩) :
    Enabled cfg s (.healthMove i)
      { s with pool := s.pool.moveToHealthy ep, checks := s.checks.eraseIdx i }
  | shutdown : Enabled cfg s .shutdown { s with pool := { s.pool with shutdown := true } }
  | cancel (hshut : s.pool.shutdown = true) : Enabled cfg s .cancel { s with ctxDone := true }

theorem enabled_of_step (h : step cfg s e = some s') : Enabled cfg s e s' := by
  cases e with
  | tick | shutdown =>
    cases h
    constructor
  | getSection g =>
    simp only [step] at h
    split at h
    · split at h
      · cases h
        exact .getShutdown ‹_› ‹_›
      · rename_i hg hshut
        cases h
        exact .getEnter hg (Bool.eq_false_iff.mpr hshut)
    · split at h
      · cases h
        exact .getPoll ‹_› ‹_›
      · cases h
    · cases h
  | healthDone i outcome =>
    simp only [step] at h
    split at h
    · split at h
      · cases h
      · rename_i hi hsome
        cases h
        exact .healthDone hi (Bool.eq_false_iff.mpr hsome)
    · cases h
  | healthCancel i =>
    simp only [step] at h
    split at h
    · split at h
      · cases h
        exact .healthCancel ‹_› ‹_›
      · cases h
    · cases h
  | getCurrentHealthy | sendBuffer | sendTop | sendStart | sendDone | sendCount | sendReport
  | sendNoEndpoint | reportError | healthTimer | healthCount | healthMove | cancel =>
    -- one condition, under which there is one step
    simp only [step] at h
    split at h
    · cases h
      constructor
      assumption
    · cases h

def Steps (cfg : HttpEndpointPoolConfig) (s : State G) (e : Event G) (s' : State G) : Prop :=
  step cfg s e = some s'

structure SameEndpoints (pool pool' : HttpEndpointPool) : Prop where
  size_eq : pool'.size = pool.size
  url_eq : ∀ r, (pool'.ep r).url = (pool.ep r).url
  threshold_eq : ∀ r, (pool'.ep r).markUnhealthyThreshold = (pool.ep r).markUnhealthyThreshold

theorem Kept.sameEndpoints {pool pool' : HttpEndpointPool} (h : Kept pool pool') :
    SameEndpoints pool pool' := ⟨h.size_eq, h.url_eq, h.threshold_eq⟩

theorem kept_poll (s : State G) (g : G) (caller : Option SendCall) (deadline : Int) :
    Kept s.pool (s.poll cfg g caller deadline).pool := by
  unfold State.poll
  split
  · simp only
    split <;> exact .refl _
  · exact kept_useHead cfg s.pool _ s.now

theorem endpoints_step (h : Steps cfg s e s') : SameEndpoints s.pool s'.pool := by
  cases enabled_of_step h with
  | tick | getCurrentHealthy | getShutdown | sendBuffer | sendTop | sendStart | sendDone
  | sendCount | sendNoEndpoint | healthTimer | healthDone | healthCount | healthCancel | shutdown
  | cancel => exact ⟨rfl, fun _ => rfl, fun _ => rfl⟩
  | getEnter | getPoll => exact (kept_poll s _ _ _).sameEndpoints
  | sendReport | reportError => exact (kept_reportError s.pool _ s.now).sameEndpoints
  | healthMove => exact (kept_moveToHealthy s.pool _).sameEndpoints

end

end Lsvmi.HttpPool
