import Lsvmi.HttpPool.Healthy

/-!
# The bodies of the responses

The caller of `client.Do` has to close the body of the response.  `HealthCheck` does so as soon as
`client.Do` returns, and `SendBuffer` does not do it at all.
-/

namespace Lsvmi.HttpPool

open Reasoning Option

variable {pool : HttpEndpointPool}

structure ResponseBody where
  closed : Bool
  deriving DecidableEq, Repr

def ResponseBody.close (_ : ResponseBody) : ResponseBody := ⟨true⟩

/-- What `client.Do` returns, with the body of the response if it has one.  The client may have
closed the body itself, as it does for a redirect it refuses to follow. -/
structure Reply where
  outcome : Outcome
  body : Option ResponseBody
  body_of_res : outcome.res = none → body = none
  deriving DecidableEq, Repr

structure BodiesState (G : Type) where
  state : State G
  /-- to the latest `SendBuffer` call of each goroutine -/
  sendBodies : G → List ResponseBody
  /-- to any health check -/
  healthBodies : List ResponseBody

def BodiesState.started (G : Type) (pool : HttpEndpointPool) (now : Int) : BodiesState G :=
  ⟨HttpPool.started G pool now, fun _ => [], []⟩

/-- The calls of `client.Do` that return, and all the other events. -/
inductive BodiesEvent (G : Type) where
  | sendDone (g : G) (reply : Reply)
  | healthDone (i : Nat) (reply : Reply)
  | other (e : Event G)
  deriving DecidableEq, Repr

section

variable {G : Type} [DecidableEq G]

def bodiesStep (cfg : HttpEndpointPoolConfig) (s : BodiesState G) :
    BodiesEvent G → Option (BodiesState G)
  | .sendDone g reply => do
    let state ← step cfg s.state (.sendDone g reply.outcome)
    let bodies := s.sendBodies g ++ reply.body.toList
    return { s with state, sendBodies := Function.update s.sendBodies g bodies }
  | .healthDone i reply => do
    let state ← step cfg s.state (.healthDone i reply.outcome)
    let closed := reply.body.map ResponseBody.close
    return { s with state, healthBodies := s.healthBodies ++ closed.toList }
  | .other e => do
    let state ← step cfg s.state e
    match e with
    | .sendDone _ _ | .healthDone _ _ => none
    | .sendBuffer g _ _ => some { s with state, sendBodies := Function.update s.sendBodies g [] }
    | _ => some { s with state }

def BodiesSteps (cfg : HttpEndpointPoolConfig) (s : BodiesState G) (e : BodiesEvent G)
    (s' : BodiesState G) : Prop :=
  bodiesStep cfg s e = some s'

/-- What the events say about the attempts of the latest `SendBuffer` call of `g`, after the replies
found before. -/
def nextReplies (g : G) (replies : List Reply) : BodiesEvent G → List Reply
  | .sendDone g' reply => if g' = g then replies ++ [reply] else replies
  | .other (.sendBuffer g' _ _) => if g' = g then [] else replies
  | _ => replies

def latestReplies (g : G) (es : List (BodiesEvent G)) : List Reply := es.foldl (nextReplies g) []

variable {es : List (BodiesEvent G)}

section

variable {cfg : HttpEndpointPoolConfig} {s s' : BodiesState G} {e : BodiesEvent G}

theorem bodiesStep_sendBodies (h : BodiesSteps cfg s e s') {g : G} {replies : List Reply}
    (hreplies : s.sendBodies g = replies.flatMap (·.body.toList)) :
    s'.sendBodies g = (nextReplies g replies e).flatMap (·.body.toList) := by
  cases e with
  | sendDone g' reply =>
    obtain ⟨state, -, hs'⟩ := bind_eq_some_iff.mp h
    cases hs'
    by_cases hg : g' = g
    · subst hg
      simp [nextReplies, hreplies]
    · simp [nextReplies, hg, Function.update_of_ne (Ne.symm hg), hreplies]
  | healthDone i reply =>
    obtain ⟨state, -, hs'⟩ := bind_eq_some_iff.mp h
    cases hs'
    exact hreplies
  | other e =>
    obtain ⟨state, -, hs'⟩ := bind_eq_some_iff.mp h
    cases e with
    | sendDone | healthDone => cases hs'
    | sendBuffer g' len timeout =>
      cases hs'
      by_cases hg : g' = g
      · subst hg
        simp [nextReplies]
      · simp [nextReplies, hg, Function.update_of_ne (Ne.symm hg), hreplies]
    | _ =>
      cases hs'
      exact hreplies

theorem bodiesStep_healthBodies (h : BodiesSteps cfg s e s')
    (hclosed : ∀ body ∈ s.healthBodies, body.closed) : ∀ body ∈ s'.healthBodies, body.closed := by
  cases e with
  | sendDone g reply =>
    obtain ⟨state, -, hs'⟩ := bind_eq_some_iff.mp h
    cases hs'
    exact hclosed
  | healthDone i reply =>
    obtain ⟨state, -, hs'⟩ := bind_eq_some_iff.mp h
    cases hs'
    intro body hbody
    rcases List.mem_append.mp hbody with hold | hnew
    · exact hclosed body hold
    · obtain ⟨open', -, rfl⟩ := map_eq_some_iff.mp (mem_toList.mp hnew)
      rfl
  | other e =>
    obtain ⟨state, -, hs'⟩ := bind_eq_some_iff.mp h
    cases e with
    | sendDone | healthDone => cases hs'
    | _ =>
      cases hs'
      exact hclosed

theorem sendBodies_of_run {now : Int}
    (hrun : Run (BodiesSteps cfg) (.started G pool now) es s) (g : G) :
    s.sendBodies g = (latestReplies g es).flatMap (·.body.toList) := by
  induction hrun with
  | start => rfl
  | snoc _ hstep ih =>
    rw [latestReplies, List.foldl_append]
    exact bodiesStep_sendBodies hstep ih

theorem healthBodies_of_run {now : Int} (hrun : Run (BodiesSteps cfg) (.started G pool now) es s) :
    ∀ body ∈ s.healthBodies, body.closed :=
  hrun.invariant nofun fun _ _ _ hs h => bodiesStep_healthBodies h hs

/-- When `SendBuffer` has returned, the bodies it was handed are closed just if `client.Do` handed
it none that was open.  The bodies handed to health checks are closed. -/
theorem bodies_closed_iff_none_open {pool : HttpEndpointPool} {now : Int}
    {es : List (BodiesEvent G)} (hrun : Run (BodiesSteps cfg) (.started G pool now) es s) :
    (∀ g err, s.state.procs g = .sent err →
      ((∀ body ∈ s.sendBodies g, body.closed = true) ↔
        ∀ reply ∈ latestReplies g es, ∀ body, reply.body = some body → body.closed = true)) ∧
    ∀ body ∈ s.healthBodies, body.closed = true := by
  refine ⟨fun g err _ => ?_, healthBodies_of_run hrun⟩
  rw [sendBodies_of_run hrun g]
  simp only [List.mem_flatMap, mem_toList, forall_exists_index, and_imp]
  exact ⟨fun h reply hreply body hbody => h body reply hreply hbody,
    fun h body reply hreply hbody => h reply hreply body hbody⟩

end

end

def replyOk : Reply := ⟨⟨some ⟨200, "200 OK"⟩, none⟩, some ⟨false⟩, nofun⟩

def replyRefused : Reply := ⟨⟨none, some "connection refused"⟩, none, fun _ => rfl⟩

/-- The endpoint refuses the connection and is put into health check, which gets an answer after
`SendBuffer` has given up. -/
def refusedSend : List (BodiesEvent Nat) :=
  [.other (.sendBuffer 0 10 0), .other (.sendTop 0), .other (.getSection 0), .other (.sendStart 0),
    .sendDone 0 replyRefused, .other (.sendCount 0), .other (.sendReport 0), .other (.sendTop 0),
    .other (.getSection 0), .other (.sendNoEndpoint 0), .other (.healthTimer 0),
    .healthDone 0 replyOk]

theorem bodies_closed_iff_none_open_refused : ∃ (pool : HttpEndpointPool) (s : BodiesState Nat),
    newHttpEndpointPool (fun _ => true) oneEndpoint = some pool ∧
    Run (BodiesSteps oneEndpoint) (.started Nat pool 0) refusedSend s ∧
    s.state.procs 0 = .sent (some (noHealthyEpError ⟨10, 0, 2⟩)) ∧
    (∀ body ∈ s.sendBodies 0, body.closed = true) ∧
    s.healthBodies.length = 1 ∧ ∀ body ∈ s.healthBodies, body.closed = true := by
  obtain ⟨pool, s, hnew, hrun, hret, hlen⟩ : ∃ pool s,
      newHttpEndpointPool (fun _ => true) oneEndpoint = some pool ∧
      Run (BodiesSteps oneEndpoint) (.started Nat pool 0) refusedSend s ∧
      s.state.procs 0 = .sent (some (noHealthyEpError ⟨10, 0, 2⟩)) ∧ s.healthBodies.length = 1 :=
    ⟨_, _, rfl, Run.of_foldlM rfl, rfl, rfl⟩
  have h := bodies_closed_iff_none_open hrun
  exact ⟨pool, s, hnew, hrun, hret, (h.1 0 _ hret).mpr (by decide), hlen, h.2⟩

def acceptedSend : List (BodiesEvent Nat) :=
  [.other (.sendBuffer 0 10 50), .other (.sendTop 0), .other (.getSection 0), .other (.sendStart 0),
    .sendDone 0 replyOk, .other (.sendCount 0)]

/-- The body of the response to a buffer that was accepted stays open. -/
theorem accepted_send_leaves_body_open : ∃ (pool : HttpEndpointPool) (s : BodiesState Nat),
    newHttpEndpointPool (fun _ => true) oneEndpoint = some pool ∧
    Run (BodiesSteps oneEndpoint) (.started Nat pool 0) acceptedSend s ∧
    s.state.procs 0 = .sent none ∧ ¬ ∀ body ∈ s.sendBodies 0, body.closed = true := by
  refine ⟨_, _, rfl, Run.of_foldlM rfl, rfl, fun hclosed => ?_⟩
  cases hclosed ⟨false⟩ (List.mem_singleton_self _)

end Lsvmi.HttpPool
