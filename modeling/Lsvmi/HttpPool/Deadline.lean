import Lsvmi.HttpPool.Healthy

/-!
# The deadline of `SendBuffer` and its retries

`SendBuffer` hands the time left until its deadline to `GetCurrentHealthy`, which looks at it only
while the healthy list is empty.  A retry can therefore start after the deadline, in two ways: the
list is not empty when the endpoint is asked for, or the goroutine is held up between getting the
endpoint and calling `client.Do`.
-/

namespace Lsvmi.HttpPool

open Reasoning Function

section

variable {G : Type} {cfg : HttpEndpointPoolConfig} {s s' : State G} {e : Event G}

/-- The event starts a `client.Do` of an attempt after the first, past the deadline of its call. -/
def StartsLate (s : State G) : Event G → Prop
  | .sendStart g => ∃ call ep, s.procs g = .holding call ep ∧ 1 < call.attempt ∧ call.deadline < s.now
  | _ => False

/-- What keeps the retries from being late.  A `GetCurrentHealthy` of a retry that gets the lock
after the deadline finds no healthy endpoint, or the pool shut down on entry; and the clock does not
pass the deadline of a retry that has its endpoint and is about to call `client.Do`. -/
def WithinDeadline (s : State G) : Event G → Prop
  | .getSection g => ∀ call pc, s.procs g = .getting (some call) pc → 1 < call.attempt →
      call.deadline < s.now →
      s.pool.healthy.head = none ∨ (s.pool.shutdown = true ∧ ∃ maxWait, pc = .entering maxWait)
  | .tick d => ∀ g call ep, s.procs g = .holding call ep → 1 < call.attempt →
      s.now + d ≤ call.deadline
  | _ => True

def Punctual (s : State G) : Prop := ∀ g, ¬ StartsLate s (.sendStart g)

theorem punctual_iff : Punctual s ↔
    ∀ g call ep, s.procs g = .holding call ep → 1 < call.attempt → s.now ≤ call.deadline := by
  unfold Punctual StartsLate
  constructor
  · intro h g call ep hg hattempt
    by_contra hlate
    exact h g ⟨call, ep, hg, hattempt, by omega⟩
  · rintro h g ⟨call, ep, hg, hattempt, hlate⟩
    have := h g call ep hg hattempt
    omega

theorem Punctual.not_startsLate (hs : Punctual s) (e : Event G) : ¬ StartsLate s e := by
  cases e with
  | sendStart g => exact hs g
  | _ => exact fun h => h

theorem started_punctual (pool : HttpEndpointPool) (now : Int) : Punctual (started G pool now) := by
  rintro g ⟨call, ep, hg, -⟩
  cases hg

variable [DecidableEq G]

theorem Punctual.update_iff (hs : Punctual s) (g : G) (proc : Proc) (hnow : s'.now = s.now)
    (hprocs : s'.procs = update s.procs g proc) :
    Punctual s' ↔ ∀ call ep, proc = .holding call ep → 1 < call.attempt → s.now ≤ call.deadline := by
  rw [punctual_iff] at hs ⊢
  rw [hnow, hprocs]
  constructor
  · intro h call ep hproc
    exact h g call ep (by rw [update_self, hproc])
  intro h x call ep hx
  by_cases hxg : x = g
  · subst hxg
    rw [update_self] at hx
    exact h call ep hx
  · rw [update_of_ne hxg] at hx
    exact hs x call ep hx

theorem Punctual.update (hs : Punctual s) {g : G} {proc : Proc} (hnow : s'.now = s.now)
    (hprocs : s'.procs = update s.procs g proc)
    (hproc : ∀ call ep, proc ≠ .holding call ep) : Punctual s' :=
  (hs.update_iff g proc hnow hprocs).mpr fun call ep hc => absurd hc (hproc call ep)

theorem returnTo_none_ne_holding (caller : Option SendCall) (call : SendCall) (ep : EpRef) :
    returnTo caller none ≠ .holding call ep := by
  cases caller <;> simp [returnTo]

theorem Punctual.poll_iff (hs : Punctual s) (g : G) (caller : Option SendCall) (deadline : Int) :
    Punctual (s.poll cfg g caller deadline) ↔
      ∀ call, caller = some call → 1 < call.attempt → call.deadline < s.now →
        s.pool.healthy.head = none := by
  unfold State.poll
  split
  · rename_i hhead
    refine iff_of_true ?_ fun _ _ _ _ => hhead
    simp only
    split
    · exact hs.update rfl rfl (returnTo_none_ne_holding caller)
    · exact hs.update rfl rfl fun _ _ hc => by cases hc
  · rename_i head hhead
    let proc := returnTo caller (some (s.pool.useHead cfg head s.now).2)
    refine (hs.update_iff g proc ?_ ?_).trans ?_
    · rfl
    · rfl
    cases caller with
    | none => simp [proc, returnTo]
    | some call =>
      simp only [proc, returnTo, hhead]
      constructor
      · rintro h call' hc hattempt hlate
        cases hc
        have := h call _ rfl hattempt
        omega
      · rintro h call' ep hc hattempt
        cases hc
        by_contra hlate
        exact absurd (h call rfl hattempt (by omega)) (by simp)

theorem Punctual.step_iff (hs : Punctual s) (h : Steps cfg s e s') :
    Punctual s' ↔ WithinDeadline s e := by
  cases enabled_of_step h with
  | @tick d => exact punctual_iff
  | getCurrentHealthy => exact iff_of_true (hs.update rfl rfl fun _ _ hc => by cases hc) trivial
  | @getShutdown g caller maxWait hg hshut =>
    refine iff_of_true (hs.update rfl rfl (returnTo_none_ne_holding caller)) ?_
    intro call pc hpc _ _
    rw [hg] at hpc
    cases hpc
    exact .inr ⟨hshut, maxWait, rfl⟩
  | @getEnter g caller maxWait hg hshut =>
    refine (hs.poll_iff g caller _).trans ⟨?_, ?_⟩
    · intro hhead call pc hpc hattempt hlate
      rw [hg] at hpc
      cases hpc
      exact .inl (hhead call rfl hattempt hlate)
    rintro hcond call rfl hattempt hlate
    rcases hcond call _ hg hattempt hlate with hhead | ⟨hc, -⟩
    · exact hhead
    · rw [hshut] at hc
      cases hc
  | @getPoll g caller deadline wakeAt hg hwake =>
    refine (hs.poll_iff g caller _).trans ⟨?_, ?_⟩
    · intro hhead call pc hpc hattempt hlate
      rw [hg] at hpc
      cases hpc
      exact .inl (hhead call rfl hattempt hlate)
    · rintro hcond call rfl hattempt hlate
      rcases hcond call _ hg hattempt hlate with hhead | ⟨-, maxWait, hc⟩
      · exact hhead
      · cases hc
  | sendBuffer | sendTop | sendStart | sendDone | sendReport | sendNoEndpoint =>
    exact iff_of_true (hs.update rfl rfl fun _ _ hc => by cases hc) trivial
  | @sendCount g call ep outcome hg =>
    refine iff_of_true (hs.update rfl rfl ?_) trivial
    intro call' ep' hc
    unfold afterSend at hc
    split at hc
    · cases hc
    · split at hc <;> cases hc
  | reportError | healthTimer | healthDone | healthCount | healthCancel | healthMove | shutdown
  | cancel => exact iff_of_true hs trivial

/-- As long as every step meets the condition no retry starts late, and the first step that does
not meet it lets one start late. -/
theorem retries_start_by_deadline {pool : HttpEndpointPool} {now : Int} {es : List (Event G)}
    (hrun : Run (fun s e s' => Steps cfg s e s' ∧ WithinDeadline s e) (started G pool now) es s)
    (hstep : Steps cfg s e s') :
    ¬ StartsLate s e ∧ ((∀ g, ¬ StartsLate s' (.sendStart g)) ↔ WithinDeadline s e) := by
  have hs : Punctual s := by
    refine hrun.invariant (started_punctual pool now) ?_
    rintro t f t' ht ⟨hstep, hcond⟩
    exact (ht.step_iff hstep).mpr hcond
  exact ⟨hs.not_startsLate e, hs.step_iff hstep⟩

end

def lenientEndpoint : HttpEndpointPoolConfig :=
  { oneEndpoint with endpoints := [⟨"http://localhost:8428", 2⟩] }

/-- The first attempt of a call with the timeout 50 fails after `d`, and the second one asks for an
endpoint. -/
def retryAfter (d : Nat) : List (Event Unit) :=
  [.sendBuffer () 10 50, .sendTop (), .getSection (), .sendStart (), .tick d,
    .sendDone () ⟨none, some "timeout"⟩, .sendCount (), .sendReport (), .sendTop ()]

-- Only the first attempt asks for an endpoint here, and nobody holds one while the clock ticks.
theorem retryAfter_withinDeadline : ∃ (pool : HttpEndpointPool) (s s' : State Unit),
    newHttpEndpointPool (fun _ => true) lenientEndpoint = some pool ∧
    Run (fun s e s' => Steps lenientEndpoint s e s' ∧ WithinDeadline s e) (started Unit pool 0)
      (retryAfter 20) s ∧
    Steps lenientEndpoint s (.getSection ()) s' ∧ WithinDeadline s (.getSection ()) := by
  refine ⟨_, _, _, rfl, .cons ⟨rfl, trivial⟩ (.cons ⟨rfl, trivial⟩ (.cons ⟨rfl, ?_⟩
    (.cons ⟨rfl, trivial⟩ (.cons ⟨rfl, ?_⟩ (.cons ⟨rfl, trivial⟩ (.cons ⟨rfl, trivial⟩
    (.cons ⟨rfl, trivial⟩ (.cons ⟨rfl, trivial⟩ .start)))))))), rfl, ?_⟩
  · intro call pc hpc hattempt
    cases hpc
    exact absurd hattempt (by decide)
  · intro g call ep hg
    cases hg
  · intro call pc hpc _ hlate
    cases hpc
    exact absurd hlate (by decide)

theorem retries_start_by_deadline_in_time : ∃ (pool : HttpEndpointPool) (s s' : State Unit),
    Run (fun s e s' => Steps lenientEndpoint s e s' ∧ WithinDeadline s e) (started Unit pool 0)
      (retryAfter 20) s ∧
    Steps lenientEndpoint s (.getSection ()) s' ∧ ∀ g, ¬ StartsLate s' (.sendStart g) := by
  obtain ⟨pool, s, s', -, hrun, hstep, hcond⟩ := retryAfter_withinDeadline
  exact ⟨pool, s, s', hrun, hstep, (retries_start_by_deadline hrun hstep).2.mpr hcond⟩

theorem retry_starts_after_deadline : ∃ (pool : HttpEndpointPool) (s s' s'' : State Unit),
    newHttpEndpointPool (fun _ => true) lenientEndpoint = some pool ∧
    Run (Steps lenientEndpoint) (started Unit pool 0) (retryAfter 60) s ∧
    Steps lenientEndpoint s (.getSection ()) s' ∧ StartsLate s' (.sendStart ()) ∧
    Steps lenientEndpoint s' (.sendStart ()) s'' := by
  exact ⟨_, _, _, _, rfl, Run.of_foldlM rfl, rfl, ⟨_, _, rfl, by decide, by decide⟩, rfl⟩

end Lsvmi.HttpPool
