import Mathlib.Data.List.Rotate
import Mathlib.Order.Interval.Finset.Nat
import Lsvmi.HttpPool.EndpointStates

/-!
# Rotation of the healthy list

With a rotation interval of 0 the healthy list is rotated before every use but the first.  As long as
no error is reported, the calls of `GetCurrentHealthy` go round the configured endpoints, in the order
in which they get the lock.
-/

namespace Lsvmi.HttpPool

open Reasoning List Function

variable {cfg : HttpEndpointPoolConfig} {validUrl : String → Bool} {pool : HttpEndpointPool}

section

variable {pool : HttpEndpointPool} {n k : Nat} {r : EpRef}

theorem resetErrorsAsNeeded_frame (cfg : HttpEndpointPoolConfig) (pool : HttpEndpointPool)
    (r : EpRef) (now : Int) :
    (pool.resetErrorsAsNeeded cfg r now).firstUse = pool.firstUse ∧
      (pool.resetErrorsAsNeeded cfg r now).healthyRotateCount = pool.healthyRotateCount := by
  unfold HttpEndpointPool.resetErrorsAsNeeded
  simp only
  split <;> exact ⟨rfl, rfl⟩

theorem head?_rotate_range (hn : 0 < n) (k : Nat) : ((range n).rotate k).head? = some (k % n) := by
  have hlt : k % n < n := Nat.mod_lt k hn
  rw [← rotate_mod, length_range, head?_rotate (by rwa [length_range])]
  exact getElem?_range hlt

theorem rotate_succ_of_cons {l rest : List EpRef} (h : l.rotate k = r :: rest) :
    l.rotate (k + 1) = rest ++ [r] := by
  rw [← rotate_rotate, h, rotate_cons_succ, rotate_zero]

/-- The call number `k` of a pool of `n` endpoints: the list has been rotated once for every call
after the first. -/
structure Turn (n k : Nat) (pool : HttpEndpointPool) : Prop where
  order : HealthyOk pool ((List.range n).rotate (k - 1))
  first : pool.firstUse = true ↔ k = 0
  rotations : 1 < n → pool.healthyRotateCount = UInt64.ofNat (k - 1)

theorem Turn.head (h : Turn n k pool) (hn : 0 < n) : pool.healthy.head = some ((k - 1) % n) := by
  rw [h.order.threads.head_eq, head?_rotate_range hn]

variable (hcfg : cfg.healthyRotateInterval = 0) (h : Turn n k pool) (hn : 0 < n) (now : Int)
include hcfg h hn now

theorem Turn.rotateAsNeeded :
    Turn n (k + 1) (pool.rotateAsNeeded cfg ((k - 1) % n) now).1 ∧
      (pool.rotateAsNeeded cfg ((k - 1) % n) now).2 = k % n := by
  unfold HttpEndpointPool.rotateAsNeeded
  by_cases hfirst : pool.firstUse
  · obtain rfl := h.first.mp hfirst
    rw [if_pos hfirst]
    refine ⟨⟨h.order.relink h.order.threads (fun _ => Iff.rfl) rfl rfl, ?_, h.rotations⟩, rfl⟩
    exact iff_of_false Bool.false_ne_true (Nat.succ_ne_zero 0)
  have hk : k ≠ 0 := fun hk => hfirst (h.first.mpr hk)
  obtain ⟨j, rfl⟩ := Nat.exists_eq_succ_of_ne_zero hk
  rw [if_neg hfirst, if_pos (.inl hcfg)]
  obtain ⟨rest, hrest⟩ := h.order.exists_cons (h.head hn)
  have hok := h.order
  rw [hrest] at hok
  obtain ⟨hok', hret, -, -, hfirst', hcount⟩ := hok.rotate_cons now
  have horder := rotate_succ_of_cons hrest
  rw [← horder] at hok' hret
  refine ⟨⟨hok', ?_, ?_⟩, ?_⟩
  · rw [hfirst']
    exact iff_of_false hfirst (Nat.succ_ne_zero _)
  · intro hone
    -- With two endpoints or more there is one behind the head.
    have hne : rest ≠ [] := by
      rintro rfl
      have hlen := congrArg length hrest
      rw [length_rotate, length_range, length_singleton] at hlen
      omega
    rw [hcount, if_neg hne, h.rotations hone]
    show UInt64.ofNat j + 1 = UInt64.ofNat (j + 1)
    rw [UInt64.ofNat_add]
    rfl
  · rw [show j.succ - 1 + 1 = j.succ from rfl, head?_rotate_range hn] at hret
    exact (Option.some.inj hret).symm

theorem Turn.useHead :
    Turn n (k + 1) (pool.useHead cfg ((k - 1) % n) now).1 ∧
      (pool.useHead cfg ((k - 1) % n) now).2 = k % n := by
  obtain ⟨hturn, hret⟩ := h.rotateAsNeeded hcfg hn now
  obtain ⟨hfirst, hcount⟩ := resetErrorsAsNeeded_frame cfg
    (pool.rotateAsNeeded cfg ((k - 1) % n) now).1 (pool.rotateAsNeeded cfg ((k - 1) % n) now).2 now
  refine ⟨⟨(hturn.order.resetErrorsAsNeeded cfg _ now).1, ?_, fun hone => ?_⟩, hret⟩
  · exact hfirst ▸ hturn.first
  · exact hcount.trans (hturn.rotations hone)

end

def Proc.got : Proc → Option (Option EpRef)
  | .gotCurrent ep => some ep
  | .noEndpoint _ => some none
  | .holding _ ep => some (some ep)
  | _ => none

/-- A pool in use, with the results of the calls of `GetCurrentHealthy` that did not find it shut
down, in lock order. -/
structure Logged (G : Type) where
  state : State G
  calls : List (Option EpRef)

def endedCall {G : Type} (s s' : State G) : Event G → List (Option EpRef)
  | .getSection g => if s.pool.shutdown then [] else (s'.procs g).got.toList
  | _ => []

def loggedStep {G : Type} [DecidableEq G] (cfg : HttpEndpointPoolConfig) (l : Logged G)
    (e : Event G) : Option (Logged G) :=
  (step cfg l.state e).map fun s' => ⟨s', l.calls ++ endedCall l.state s' e⟩

def LoggedSteps {G : Type} [DecidableEq G] (cfg : HttpEndpointPoolConfig) (l : Logged G) (e : Event G)
    (l' : Logged G) : Prop :=
  loggedStep cfg l e = some l'

def Event.reportsError {G : Type} : Event G → Bool
  | .sendReport _ | .reportError _ => true
  | _ => false

def Proc.polls : Proc → Bool
  | .getting _ (.polling _ _) => true
  | _ => false

section

variable {G : Type} {cfg : HttpEndpointPoolConfig} {n : Nat} {l l' : Logged G} {e : Event G}

structure RotationInv (n : Nat) (l : Logged G) : Prop where
  turn : Turn n l.calls.length l.state.pool
  checks_nil : l.state.checks = []
  not_polls : ∀ g, (l.state.procs g).polls = false
  calls_eq : ∀ k ep, l.calls[k]? = some ep → ep = some (k % n)

theorem RotationInv.frame (h : RotationInv n l)
    (hlist : l'.state.pool.healthy = l.state.pool.healthy)
    (hep : l'.state.pool.ep = l.state.pool.ep) (hsize : l'.state.pool.size = l.state.pool.size)
    (hfirst : l'.state.pool.firstUse = l.state.pool.firstUse)
    (hcount : l'.state.pool.healthyRotateCount = l.state.pool.healthyRotateCount)
    (hchecks : l'.state.checks = l.state.checks) (hprocs : ∀ g, (l'.state.procs g).polls = false)
    (hcalls : l'.calls = l.calls) : RotationInv n l' := by
  refine ⟨⟨?_, ?_, ?_⟩, hchecks.trans h.checks_nil, hprocs, ?_⟩
  · rw [hcalls]
    refine h.turn.order.relink ?_ (fun _ => Iff.rfl) hep hsize
    rw [hlist]
    exact h.turn.order.threads
  · rw [hfirst, hcalls]
    exact h.turn.first
  · rw [hcount, hcalls]
    exact h.turn.rotations
  · rw [hcalls]
    exact h.calls_eq

theorem returnTo_polls (caller : Option SendCall) (ep : Option EpRef) :
    (returnTo caller ep).polls = false := by
  cases caller <;> cases ep <;> rfl

theorem returnTo_got (caller : Option SendCall) (ep : Option EpRef) :
    (returnTo caller ep).got = some ep := by
  cases caller <;> cases ep <;> rfl

theorem afterSend_polls (pool : HttpEndpointPool) (call : SendCall) (ep : EpRef) (outcome : Outcome) :
    (afterSend pool call ep outcome).polls = false := by
  unfold afterSend
  split
  · rfl
  · split <;> rfl

theorem newHttpEndpointPool_unused (hnew : newHttpEndpointPool validUrl cfg = some pool) :
    pool.firstUse ∧ pool.healthyRotateCount = 0 := by
  refine (Run.of_foldlM hnew).invariant
    (I := fun pool => pool.firstUse = true ∧ pool.healthyRotateCount = 0) ⟨rfl, rfl⟩ ?_
  intro pool epCfg pool' hpool hadd
  obtain rfl := addEndpoint_eq hadd
  unfold HttpEndpointPool.moveToHealthy
  split <;> exact hpool

theorem started_rotationInv (hnew : newHttpEndpointPool validUrl cfg = some pool) (now : Int) :
    RotationInv (configuredEndpoints cfg).length ⟨started G pool now, []⟩ := by
  obtain ⟨hok, hsize⟩ := newHttpEndpointPool_ok hnew
  obtain ⟨hfirst, hcount⟩ := newHttpEndpointPool_unused hnew
  refine ⟨⟨?_, iff_of_true hfirst rfl, fun _ => hcount⟩, rfl, fun _ => rfl, ?_⟩
  · rw [← hsize]
    exact (rotate_zero (range pool.size)).symm ▸ hok
  · intro k ep hk
    cases hk

variable [DecidableEq G]

theorem LoggedSteps.split (h : LoggedSteps cfg l e l') :
    Steps cfg l.state e l'.state ∧ l'.calls = l.calls ++ endedCall l.state l'.state e := by
  obtain ⟨s', hs', rfl⟩ := Option.map_eq_some_iff.mp h
  exact ⟨hs', rfl⟩

theorem RotationInv.setProc (h : RotationInv n l) (g : G) {proc : Proc} (hproc : proc.polls = false) :
    ∀ g', ((update l.state.procs g proc) g').polls = false := by
  intro g'
  by_cases hg : g' = g
  · rw [hg, update_self, hproc]
  · rw [update_of_ne hg]
    exact h.not_polls g'

section

variable (hcfg : cfg.healthyRotateInterval = 0) (hn : 0 < n) (h : RotationInv n l)
include hcfg hn h

theorem RotationInv.poll {g : G} {caller : Option SendCall} {deadline : Int}
    (hshut : l.state.pool.shutdown = false) (hstate : l'.state = l.state.poll cfg g caller deadline)
    (hcalls : l'.calls = l.calls ++ endedCall l.state l'.state (.getSection g)) :
    RotationInv n l' := by
  obtain ⟨hturn, hret⟩ := h.turn.useHead hcfg hn l.state.now
  have hpoll : l'.state =
      { l.state with
        pool := (l.state.pool.useHead cfg ((l.calls.length - 1) % n) l.state.now).1 }.setProc g
        (returnTo caller (some (l.calls.length % n))) := by
    rw [hstate, State.poll, h.turn.head hn, ← hret]
  have hended : l'.calls = l.calls ++ [some (l.calls.length % n)] := by
    rw [hcalls, endedCall, hshut, hpoll, State.setProc_procs_self, returnTo_got]
    rfl
  have hlen : l'.calls.length = l.calls.length + 1 := by
    rw [hended, length_append, length_singleton]
  refine ⟨?_, ?_, ?_, ?_⟩
  · rw [hlen, hpoll]
    exact hturn
  · rw [hpoll]
    exact h.checks_nil
  · rw [hpoll]
    exact h.setProc g (returnTo_polls _ _)
  intro k ep hk
  rw [hended] at hk
  rcases Nat.lt_trichotomy k l.calls.length with hlt | rfl | hgt
  · rw [getElem?_append_left hlt] at hk
    exact h.calls_eq k ep hk
  · rw [getElem?_concat_length] at hk
    exact (Option.some.inj hk).symm
  · rw [getElem?_eq_none (by simp; omega)] at hk
    cases hk

theorem RotationInv.step (hquiet : e.reportsError = false) (hstep : LoggedSteps cfg l e l') :
    RotationInv n l' := by
  obtain ⟨hstep, hcalls⟩ := hstep.split
  obtain ⟨s', calls'⟩ := l'
  have hsame : ∀ {g : G} {proc : Proc}, proc.polls = false → ∀ g',
      (update l.state.procs g proc g').polls = false := fun hproc => h.setProc _ hproc
  cases enabled_of_step hstep with
  | tick | shutdown | cancel =>
    exact h.frame rfl rfl rfl rfl rfl rfl h.not_polls (hcalls.trans (append_nil _))
  | getCurrentHealthy | sendBuffer | sendTop | sendStart | sendDone | sendNoEndpoint =>
    exact h.frame rfl rfl rfl rfl rfl rfl (hsame rfl) (hcalls.trans (append_nil _))
  | sendCount =>
    exact h.frame rfl rfl rfl rfl rfl rfl (hsame (afterSend_polls _ _ _ _))
      (hcalls.trans (append_nil _))
  | getShutdown hg hshut =>
    refine h.frame rfl rfl rfl rfl rfl rfl (hsame (returnTo_polls _ _)) ?_
    simpa [endedCall, hshut] using hcalls
  | getEnter hg hshut => exact h.poll hcfg hn hshut rfl hcalls
  | @getPoll g caller deadline wakeAt hg hwake =>
    have hpolls := h.not_polls g
    rw [hg] at hpolls
    cases hpolls
  | sendReport | reportError => cases hquiet
  | healthTimer hi | healthDone hi | healthCount hi | healthCancel hi | healthMove hi =>
    rw [h.checks_nil] at hi
    cases hi

end

theorem range'_map_mod_perm (i n : Nat) : ((range' i n).map (· % n)).Perm (range n) := by
  have h := Nat.multiset_Ico_map_mod i n
  rw [Multiset.Ico, Nat.Ico_eq_range', Nat.add_sub_cancel_left] at h
  exact Multiset.coe_eq_coe.mp h

theorem perm_of_consecutive {calls : List (Option EpRef)}
    (h : ∀ k ep, calls[k]? = some ep → ep = some (k % n)) {i : Nat} (hi : i + n ≤ calls.length) :
    ((calls.drop i).take n).Perm ((range n).map some) := by
  have hcalls : (calls.drop i).take n = ((range' i n).map (· % n)).map some := by
    apply ext_getElem
    · simp
      omega
    intro j hj hj'
    have hlt : i + j < calls.length := by
      simp at hj
      omega
    have hj := h (i + j) calls[i + j] (getElem?_eq_getElem hlt)
    simp [hj]
  rw [hcalls]
  exact (range'_map_mod_perm i n).map some

/-- The calls go round the configured endpoints: call number `k` returns the endpoint at position
`k % n`, any `n` calls in a row return all of them, and every call after the first counts as a
rotation if there is more than one endpoint.  No call has to wait. -/
theorem calls_go_round {validUrl : String → Bool} {pool : HttpEndpointPool} {now : Int}
    {es : List (Event G)} (hcfg : cfg.healthyRotateInterval = 0)
    (hnew : newHttpEndpointPool validUrl cfg = some pool)
    (hquiet : ∀ e ∈ es, e.reportsError = false)
    (hrun : Run (LoggedSteps cfg) ⟨started G pool now, []⟩ es l) :
    (∀ k ep, l.calls[k]? = some ep → ep = some (k % (configuredEndpoints cfg).length)) ∧
    (∀ r epCfg, (configuredEndpoints cfg)[r]? = some epCfg →
      (l.state.pool.ep r).url = endpointUrl epCfg) ∧
    (∀ i, i + (configuredEndpoints cfg).length ≤ l.calls.length →
      ((l.calls.drop i).take (configuredEndpoints cfg).length).Perm
        ((List.range (configuredEndpoints cfg).length).map some)) ∧
    (1 < (configuredEndpoints cfg).length →
      l.state.pool.healthyRotateCount = UInt64.ofNat (l.calls.length - 1)) ∧
    ∀ g, (l.state.procs g).polls = false := by
  have hn := configuredEndpoints_pos cfg
  have hinv : RotationInv (configuredEndpoints cfg).length l ∧
      SameUrls (configuredEndpoints cfg) l.state.pool := by
    induction hrun with
    | start => exact ⟨started_rotationInv hnew now, newHttpEndpointPool_sameUrls hnew⟩
    | snoc hrun hstep ih =>
      obtain ⟨hs, hurls⟩ := ih fun e he => hquiet e (mem_append_left _ he)
      refine ⟨hs.step hcfg hn (hquiet _ (by simp)) hstep, fun r => ?_⟩
      have hkept := endpoints_step hstep.split.1
      rw [hurls r, hkept.size_eq, hkept.url_eq]
  obtain ⟨hs, hurls⟩ := hinv
  refine ⟨hs.calls_eq, ?_, fun i hi => perm_of_consecutive hs.calls_eq hi, hs.turn.rotations,
    hs.not_polls⟩
  intro r epCfg hr
  have hurl := hurls r
  rw [hr] at hurl
  split at hurl
  · exact (Option.some.inj hurl).symm
  · cases hurl

end

def threeCalls : List (Event Nat) :=
  [.getCurrentHealthy 0 0, .sendBuffer 1 10 50, .getSection 0, .sendTop 1, .getSection 1,
    .getCurrentHealthy 0 0, .getSection 0]

theorem calls_go_round_three_calls : ∃ (pool : HttpEndpointPool) (l : Logged Nat),
    newHttpEndpointPool (fun _ => true) twoEndpoints = some pool ∧
    Run (LoggedSteps twoEndpoints) ⟨started Nat pool 0, []⟩ threeCalls l ∧
    l.calls.length = 3 ∧ ∀ k ep, l.calls[k]? = some ep → ep = some (k % 2) := by
  have hquiet : ∀ e ∈ threeCalls, e.reportsError = false := by
    intro e he
    have hall : threeCalls.all (fun e => !e.reportsError) = true := rfl
    simpa using all_eq_true.mp hall e he
  obtain ⟨pool, l, hnew, hrun, hlen⟩ : ∃ pool l,
      newHttpEndpointPool (fun _ => true) twoEndpoints = some pool ∧
      Run (LoggedSteps twoEndpoints) ⟨started Nat pool 0, []⟩ threeCalls l ∧ l.calls.length = 3 :=
    ⟨_, _, rfl, Run.of_foldlM rfl, rfl⟩
  exact ⟨pool, l, hnew, hrun, hlen, (calls_go_round rfl hnew hquiet hrun).1⟩

end Lsvmi.HttpPool
