import Mathlib.Algebra.GroupWithZero.Nat
import Lsvmi.HttpPool.Accounts
import Lsvmi.Reasoning.Inventory

/-!
# Stats and accounts

Once all the calls of `SendBuffer` have returned, the stats of the pool are what the accounts say.  In
between, the attempts of a call are in the stats except for the one that `client.Do` has just returned
from.
-/

namespace Lsvmi.HttpPool

open Reasoning List ReturnedCall Function

variable {cfg : HttpEndpointPoolConfig} {validUrl : String → Bool}

section

variable {G : Type} [DecidableEq G] {cfg : HttpEndpointPoolConfig} {s s' : AccountState G}
  {e : Event G} {pool pool' : HttpEndpointPool} {as : List Attempt} {g : G}

def Unanswered (as : List Attempt) : Prop := ∀ a ∈ as, a.answered = false

def CallOk (pool : HttpEndpointPool) (as : List Attempt) : Phase → Prop
  | .outside => True
  | .trying => Unanswered as
  | .returned call ep outcome =>
    ∃ before, as = before ++ [⟨(pool.ep ep).url, call.len, outcome⟩] ∧ Unanswered before

structure ReturnedOk (call : ReturnedCall) : Prop where
  err_eq_none_iff : call.err = none ↔ ∃ a, call.attempts.getLast? = some a ∧ a.accepted = true
  last_of_answered : ∀ before a after, call.attempts = before ++ a :: after → a.answered = true →
    after = []

omit [DecidableEq G] in
theorem CallOk.congr {phase : Phase}
    (h : CallOk pool as phase) (hurl : ∀ r, (pool'.ep r).url = (pool.ep r).url) :
    CallOk pool' as phase := by
  cases phase with
  | outside | trying => exact h
  | returned call ep outcome =>
    obtain ⟨before, rfl, hbefore⟩ := h
    exact ⟨before, by rw [hurl], hbefore⟩

theorem Attempt.accepted_of_unanswered {a : Attempt} (h : a.answered = false) :
    a.accepted = false := by
  rw [Attempt.accepted, h, Bool.false_and]

theorem returnedOk_of_unanswered (h : Unanswered as) (err : SendError) :
    ReturnedOk ⟨as, some err⟩ := by
  refine ⟨iff_of_false (by simp) ?_, ?_⟩
  · rintro ⟨a, hlast, haccepted⟩
    rw [Attempt.accepted_of_unanswered (h a (mem_of_getLast? hlast))] at haccepted
    cases haccepted
  intro before a after has hanswered
  have hmem : a ∈ as := by
    rw [show as = before ++ a :: after from has]
    exact mem_append_right before mem_cons_self
  rw [h a hmem] at hanswered
  cases hanswered

theorem returnedOk_concat {before : List Attempt} (h : Unanswered before) (a : Attempt)
    {err : Option SendError} (herr : err = none ↔ a.accepted) :
    ReturnedOk ⟨before ++ [a], err⟩ := by
  refine ⟨by simpa using herr, ?_⟩
  intro before' a' after has hanswered
  by_contra hafter
  -- otherwise the attempt is one of those before the last
  have hmem : a' ∈ (before' ++ a' :: after).dropLast := by
    rw [dropLast_append_of_ne_nil (by simp), dropLast_cons_of_ne_nil hafter]
    simp
  rw [← has, dropLast_concat] at hmem
  rw [h a' hmem] at hanswered
  cases hanswered

def bookedAttempts (as : List Attempt) : Phase → List Attempt
  | .outside => []
  | .trying => as
  | .returned _ _ _ => as.dropLast

def AccountState.booked (s : AccountState G) (g : G) : Multiset Attempt :=
  ↑(bookedAttempts (s.attempts g) (s.state.procs g).phase)

/-- The attempts in the stats; no other goroutines than `senders` are in a call. -/
def AccountState.counted (s : AccountState G) (senders : Finset G) : Multiset Attempt :=
  ↑(s.returned.flatMap ReturnedCall.attempts) + ∑ g ∈ senders, s.booked g

open AccountState

omit [DecidableEq G] in
theorem booked_of_outside (h : (s.state.procs g).phase = .outside) : s.booked g = 0 := by
  rw [booked, h]
  rfl

theorem counted_insert {senders : Finset G}
    (h : ∀ g ∉ senders, (s.state.procs g).phase = .outside) :
    s.counted (Insert.insert g senders) = s.counted senders := by
  by_cases hg : g ∈ senders
  · rw [Finset.insert_eq_of_mem hg]
  · rw [counted, Finset.sum_insert hg, booked_of_outside (h g hg), zero_add]
    rfl

theorem counted_step {senders : Finset G} {new : Multiset Attempt} (hg : g ∈ senders)
    (hframe : ∀ g', g' ≠ g → s'.booked g' = s.booked g')
    (hnew : ↑(s'.returned.flatMap attempts) + s'.booked g =
      ↑(s.returned.flatMap attempts) + s.booked g + new) :
    s'.counted senders = s.counted senders + new := by
  obtain ⟨rest, hsum, hrest⟩ := exists_sum_rest hg s.booked
  rw [counted, counted, hsum, hrest s'.booked hframe, ← add_assoc, hnew]
  ac_rfl

def StatsOk (pool : HttpEndpointPool) (as : Multiset Attempt) : Prop :=
  ∀ (c : Counter) (url : String),
    c.value (pool.endpointStats url) = UInt64.ofNat (as.map (c.weightOn url)).sum

structure AccountInv (s : AccountState G) : Prop where
  calls : ∀ g, CallOk s.state.pool (s.attempts g) (s.state.procs g).phase
  returned : ∀ call ∈ s.returned, ReturnedOk call
  noHealthyEp : s.state.pool.noHealthyEpErrorCount =
    UInt64.ofNat (s.returned.countP fun call => call.err.any SendError.noHealthyEP)
  stats : ∃ senders : Finset G, (∀ g ∉ senders, (s.state.procs g).phase = .outside) ∧
    StatsOk s.state.pool (s.counted senders)

theorem StatsOk.add {as new : Multiset Attempt} (h : StatsOk pool as)
    (hvalue : ∀ (c : Counter) (url : String), c.value (pool'.endpointStats url) =
      c.value (pool.endpointStats url) + UInt64.ofNat (new.map (c.weightOn url)).sum) :
    StatsOk pool' (as + new) := by
  intro c url
  rw [hvalue, h c url, Multiset.map_add, Multiset.sum_add, UInt64.ofNat_add]

section

variable (hs : AccountInv s)
include hs

omit [DecidableEq G] in
theorem AccountInv.same (hsends : SameSends s.state.pool s'.state.pool)
    (hphase : ∀ g, (s'.state.procs g).phase = (s.state.procs g).phase)
    (hattempts : s'.attempts = s.attempts) (hreturned : s'.returned = s.returned) :
    AccountInv s' := by
  have hcounted : s'.counted = s.counted := by
    have hbooked : s'.booked = s.booked := by
      funext g
      rw [booked, booked, hphase, hattempts]
    unfold counted
    rw [hbooked, hreturned]
  obtain ⟨senders, hsenders, hstats⟩ := hs.stats
  refine ⟨fun g => ?_, hreturned ▸ hs.returned, ?_, senders, fun g hg => ?_, fun c url => ?_⟩
  · rw [hphase, hattempts]
    exact (hs.calls g).congr hsends.url_eq
  · rw [hsends.noHealthyEp_eq, hreturned, hs.noHealthyEp]
  · rw [hphase, hsenders g hg]
  · rw [hsends.value_eq, hcounted, hstats c url]

theorem AccountInv.change (new : Multiset Attempt) (calls : List ReturnedCall)
    (hurl : ∀ r, (s'.state.pool.ep r).url = (s.state.pool.ep r).url)
    (hvalue : ∀ (c : Counter) (url : String), c.value (s'.state.pool.endpointStats url) =
      c.value (s.state.pool.endpointStats url) + UInt64.ofNat (new.map (c.weightOn url)).sum)
    (hnone : s'.state.pool.noHealthyEpErrorCount = s.state.pool.noHealthyEpErrorCount +
      UInt64.ofNat (calls.countP fun call => call.err.any SendError.noHealthyEP))
    (hreturned : s'.returned = s.returned ++ calls) (hcalls : ∀ call ∈ calls, ReturnedOk call)
    (hphase : ∀ g', g' ≠ g → (s'.state.procs g').phase = (s.state.procs g').phase)
    (hattempts : ∀ g', g' ≠ g → s'.attempts g' = s.attempts g')
    (hcall : CallOk s.state.pool (s'.attempts g) (s'.state.procs g).phase)
    (hnew : ↑(calls.flatMap attempts) + s'.booked g = s.booked g + new) : AccountInv s' := by
  obtain ⟨senders, hsenders, hstats⟩ := hs.stats
  have hcounted : s'.counted (Insert.insert g senders) = s.counted senders + new := by
    rw [← counted_insert hsenders]
    refine counted_step (Finset.mem_insert_self g senders) (fun g' hne => ?_) ?_
    · rw [booked, booked, hphase g' hne, hattempts g' hne]
    · rw [hreturned, flatMap_append, ← Multiset.coe_add, add_assoc, hnew, add_assoc]
  refine ⟨fun g' => ?_, fun call hmem => ?_, ?_, Insert.insert g senders, fun g' hg' => ?_, ?_⟩
  · by_cases hne : g' = g
    · rw [hne]
      exact hcall.congr hurl
    · rw [hphase g' hne, hattempts g' hne]
      exact (hs.calls g').congr hurl
  · rw [hreturned] at hmem
    rcases mem_append.mp hmem with hold | hnew
    · exact hs.returned call hold
    · exact hcalls call hnew
  · rw [hnone, hs.noHealthyEp, hreturned, countP_append, UInt64.ofNat_add]
  · rw [Finset.mem_insert, not_or] at hg'
    rw [hphase g' hg'.1, hsenders g' hg'.2]
  · rw [hcounted]
    exact hstats.add hvalue

theorem AccountInv.next (hsends : SameSends s.state.pool s'.state.pool)
    (hphase : ∀ g', g' ≠ g → (s'.state.procs g').phase = (s.state.procs g').phase)
    (hattempts : s'.attempts = update s.attempts g as) (hreturned : s'.returned = s.returned)
    (hcall : CallOk s.state.pool as (s'.state.procs g).phase)
    (hbooked : bookedAttempts as (s'.state.procs g).phase =
      bookedAttempts (s.attempts g) (s.state.procs g).phase) : AccountInv s' := by
  have has : s'.attempts g = as := by rw [hattempts, update_self]
  refine hs.change 0 [] hsends.url_eq (fun c url => ?_) ?_ ?_ (by simp) hphase (fun g' hne => ?_) ?_ ?_
  · rw [hsends.value_eq]
    simp
  · rw [hsends.noHealthyEp_eq]
    simp
  · rw [hreturned, List.append_nil]
  · rw [hattempts, update_of_ne hne]
  · rw [has]
    exact hcall
  · rw [booked, booked, has, hbooked]
    simp

theorem AccountInv.count {call : SendCall} {ep : EpRef} {outcome : Outcome}
    (calls : List ReturnedCall) (hcount : CountedAttempt s.state.pool s'.state.pool
      ⟨(s.state.pool.ep ep).url, call.len, outcome⟩)
    (hphase : ∀ g', g' ≠ g → (s'.state.procs g').phase = (s.state.procs g').phase)
    (hg : (s.state.procs g).phase = .returned call ep outcome)
    (hattempts : s'.attempts = s.attempts) (hreturned : s'.returned = s.returned ++ calls)
    (hcalls : ∀ call ∈ calls, ReturnedOk call)
    (hnone : ∀ call ∈ calls, call.err.any SendError.noHealthyEP = false)
    (hcall : CallOk s.state.pool (s.attempts g) (s'.state.procs g).phase)
    (hbooked : calls.flatMap attempts ++
      bookedAttempts (s.attempts g) (s'.state.procs g).phase = s.attempts g) : AccountInv s' := by
  obtain ⟨before, has, -⟩ : CallOk _ _ (.returned call ep outcome) := hg ▸ hs.calls g
  let a : Attempt := ⟨(s.state.pool.ep ep).url, call.len, outcome⟩
  refine hs.change {a} calls hcount.url_eq (fun c url => ?_) ?_ hreturned hcalls hphase
    (fun g' _ => by rw [hattempts]) (by rw [hattempts]; exact hcall) ?_
  · rw [Multiset.map_singleton, Multiset.sum_singleton]
    exact hcount.value_eq c url
  · rw [hcount.noHealthyEp_eq, countP_eq_zero.mpr (by simpa using hnone)]
    simp
  · rw [booked, booked, hattempts, Multiset.coe_add, hbooked, hg, has]
    simp [bookedAttempts, a, ← Multiset.coe_singleton, Multiset.coe_add]

theorem AccountInv.step (h : AccountSteps cfg s e s') : AccountInv s' := by
  cases entry_of_step h with
  | same hsends hphase hattempts hreturned => exact hs.same hsends hphase hattempts hreturned
  | start g hsends hphase hg hg' hattempts hreturned =>
    refine hs.next hsends hphase hattempts hreturned ?_ ?_
    · rw [hg']
      exact fun a ha => by cases ha
    · rw [hg, hg']
      rfl
  | attempt g call ep outcome hsends hphase hg hg' hattempts hreturned =>
    refine hs.next hsends hphase hattempts hreturned ?_ ?_
    · rw [hg']
      exact ⟨s.attempts g, rfl, (hg ▸ hs.calls g : CallOk _ _ .trying)⟩
    · rw [hg, hg']
      exact dropLast_concat
  | retry g call ep outcome hcount hphase hg hg' hsent hattempts hreturned =>
    obtain ⟨before, has, hbefore⟩ : CallOk _ _ (.returned call ep outcome) := hg ▸ hs.calls g
    refine hs.count [] hcount hphase hg hattempts (by rw [hreturned, List.append_nil]) (by simp)
      (by simp) ?_ ?_
    · rw [hg', has]
      intro a ha
      rcases mem_append.mp ha with ha | ha
      · exact hbefore a ha
      · rw [mem_singleton.mp ha, Attempt.answered_eq, hsent]
        rfl
    · rw [hg']
      rfl
  | finish g call ep outcome err hcount hphase hg hg' herr hother hattempts hreturned =>
    obtain ⟨before, has, hbefore⟩ : CallOk _ _ (.returned call ep outcome) := hg ▸ hs.calls g
    have hok : ReturnedOk ⟨s.attempts g, err⟩ := by
      rw [has]
      exact returnedOk_concat hbefore _ (herr.trans (by rw [Attempt.accepted_eq]))
    refine hs.count [⟨s.attempts g, err⟩] hcount hphase hg hattempts hreturned (by simpa using hok)
      (by simpa using hother) ?_ ?_
    · rw [hg']
      trivial
    · rw [hg']
      simp [bookedAttempts]
  | giveUp g err hurl hstats hcount hphase hg hg' herr hattempts hreturned =>
    have hcall : CallOk _ _ .trying := hg ▸ hs.calls g
    refine hs.change 0 [⟨s.attempts g, some err⟩] hurl (fun c url => ?_) ?_ hreturned
      (by simpa using returnedOk_of_unanswered hcall err) hphase (fun g' _ => by rw [hattempts]) ?_ ?_
    · rw [hstats]
      simp
    · rw [hcount]
      simp [herr]
    · rw [hg']
      trivial
    · rw [booked_of_outside hg', booked, hg]
      simp [bookedAttempts]

end

/-- The stats of the pool are what the calls say, and the calls return what they should. -/
structure Accounts (pool : HttpEndpointPool) (calls : List ReturnedCall) : Prop where
  count : ∀ url, (pool.endpointStats url).sendBufferCount =
    UInt64.ofNat (attemptsOn url calls).length
  errors : ∀ url, (pool.endpointStats url).sendBufferErrorCount =
    UInt64.ofNat ((attemptsOn url calls).countP fun a => !a.accepted)
  bytes : ∀ url, (pool.endpointStats url).sendBufferByteCount =
    UInt64.ofNat (((attemptsOn url calls).filter Attempt.answered).map Attempt.len).sum
  err_eq_none_iff : ∀ call ∈ calls,
    (call.err = none ↔ ∃ a, call.attempts.getLast? = some a ∧ a.accepted = true)
  last_of_answered : ∀ call ∈ calls, ∀ before a after, call.attempts = before ++ a :: after →
    a.answered = true → after = []
  noHealthyEp : pool.noHealthyEpErrorCount =
    UInt64.ofNat (calls.countP fun call => call.err.any SendError.noHealthyEP)

theorem sum_weightOn (c : Counter) (url : String) (as : List Attempt) :
    (as.map (c.weightOn url)).sum = ((as.filter (·.url = url)).map c.weight).sum := by
  show (as.map fun a => if a.url = url then c.weight a else 0).sum = _
  rw [sum_map_ite]
  simp

theorem sum_weight_count (as : List Attempt) : (as.map Counter.count.weight).sum = as.length := by
  show (as.map fun _ => 1).sum = as.length
  simp

theorem sum_weight_errors (as : List Attempt) :
    (as.map Counter.errors.weight).sum = as.countP fun a => !a.accepted := by
  show (as.map fun a => if a.accepted = true then 0 else 1).sum = _
  rw [sum_map_ite, countP_eq_length_filter]
  simp

theorem sum_weight_bytes (as : List Attempt) :
    (as.map Counter.bytes.weight).sum = ((as.filter Attempt.answered).map Attempt.len).sum := by
  show (as.map fun a => if a.answered = true then a.len else 0).sum = _
  rw [sum_map_ite]
  simp

omit [DecidableEq G] in
theorem AccountInv.accounts (hs : AccountInv s) (hout : ∀ g, (s.state.procs g).phase = .outside) :
    Accounts s.state.pool s.returned := by
  obtain ⟨senders, -, hstats⟩ := hs.stats
  have hcounted : s.counted senders = ↑(s.returned.flatMap attempts) := by
    rw [counted, Finset.sum_eq_zero fun g _ => booked_of_outside (hout g), add_zero]
  have hvalue (c : Counter) (url : String) : c.value (s.state.pool.endpointStats url) =
      UInt64.ofNat ((attemptsOn url s.returned).map c.weight).sum := by
    rw [hstats c url, hcounted, Multiset.map_coe, Multiset.sum_coe, sum_weightOn]
    rfl
  refine ⟨fun url => ?_, fun url => ?_, fun url => ?_, ?_, ?_, hs.noHealthyEp⟩
  · rw [← sum_weight_count]
    exact hvalue .count url
  · rw [← sum_weight_errors]
    exact hvalue .errors url
  · rw [← sum_weight_bytes]
    exact hvalue .bytes url
  · exact fun call hcall => (hs.returned call hcall).err_eq_none_iff
  · exact fun call hcall => (hs.returned call hcall).last_of_answered

structure Uncounted (pool : HttpEndpointPool) : Prop where
  value_eq : ∀ (c : Counter) (url : String), c.value (pool.endpointStats url) = 0
  noHealthyEp_eq : pool.noHealthyEpErrorCount = 0

theorem Uncounted.addEndpoint {epCfg : HttpEndpointConfig} (h : Uncounted pool)
    (hadd : addEndpoint validUrl cfg pool epCfg = some pool') : Uncounted pool' := by
  obtain rfl := addEndpoint_eq hadd
  have hregister : Uncounted (pool.register (newHttpEndpoint cfg epCfg)) := by
    refine ⟨fun c url => ?_, h.noHealthyEp_eq⟩
    show c.value (update pool.endpointStats _ newHttpEndpointStats url) = 0
    by_cases hurl : url = (newHttpEndpoint cfg epCfg).url
    · rw [hurl, update_self]
      cases c <;> rfl
    · rw [update_of_ne hurl, h.value_eq]
  have hmove := (kept_moveToHealthy (pool.register (newHttpEndpoint cfg epCfg)) pool.size).sameSends
  exact ⟨fun c url => (hmove.value_eq c url).trans (hregister.value_eq c url),
    hmove.noHealthyEp_eq.trans hregister.noHealthyEp_eq⟩

theorem newHttpEndpointPool_uncounted (h : newHttpEndpointPool validUrl cfg = some pool) :
    Uncounted pool :=
  (Run.of_foldlM h).invariant ⟨fun c _ => by cases c <;> rfl, rfl⟩ fun _ _ _ hp hadd =>
    hp.addEndpoint hadd

omit [DecidableEq G] in
theorem Uncounted.started (h : Uncounted pool) (now : Int) : AccountInv (.started G pool now) := by
  refine ⟨fun _ => trivial, fun call hcall => (by cases hcall), h.noHealthyEp_eq, ∅, fun _ _ => rfl, ?_⟩
  intro c url
  exact h.value_eq c url

/-- Once all the calls of `SendBuffer` in a run have returned, the stats are what the calls say. -/
theorem accounts_of_returned {validUrl : String → Bool} {cfg : HttpEndpointPoolConfig}
    {pool : HttpEndpointPool} {now : Int} {es : List (Event G)} {s : State G}
    (hnew : newHttpEndpointPool validUrl cfg = some pool)
    (hrun : Run (Steps cfg) (started G pool now) es s) (hout : ∀ g, (s.procs g).sending = false) :
    ∃ a, Run (AccountSteps cfg) (.started G pool now) es a ∧ a.state = s ∧
      Accounts s.pool a.returned := by
  obtain ⟨a, ha, rfl⟩ := exists_accounts hrun
  have hinv : AccountInv a :=
    ha.invariant ((newHttpEndpointPool_uncounted hnew).started now) fun _ _ _ hs h => hs.step h
  exact ⟨a, ha, rfl, hinv.accounts fun g => Proc.phase_of_not_sending (hout g)⟩

end

/-- Two calls at once: one is accepted, and the other one gives up after its request failed. -/
def twoSends : List (Event Bool) :=
  [.sendBuffer false 10 0, .sendBuffer true 20 0, .sendTop false, .getSection false, .sendTop true,
    .getSection true, .sendStart false, .sendStart true, .sendDone false ⟨none, some "EOF"⟩,
    .sendDone true ⟨some ⟨204, "204 No Content"⟩, none⟩, .sendCount false, .sendCount true,
    .sendReport false, .sendTop false, .getSection false, .sendNoEndpoint false]

theorem accounts_of_two_sends : ∃ (pool : HttpEndpointPool) (s : State Bool),
    newHttpEndpointPool (fun _ => true) oneEndpoint = some pool ∧
    Run (Steps oneEndpoint) (started Bool pool 0) twoSends s ∧
    (∀ g, (s.procs g).sending = false) ∧
    ∃ a, Run (AccountSteps oneEndpoint) (.started Bool pool 0) twoSends a ∧ a.state = s ∧
      Accounts s.pool a.returned := by
  obtain ⟨pool, s, hnew, hrun, hout⟩ : ∃ pool s,
      newHttpEndpointPool (fun _ => true) oneEndpoint = some pool ∧
      Run (Steps oneEndpoint) (started Bool pool 0) twoSends s ∧ ∀ g, (s.procs g).sending = false :=
    ⟨_, _, rfl, Run.of_foldlM rfl, Bool.forall_bool.mpr ⟨rfl, rfl⟩⟩
  exact ⟨pool, s, hnew, hrun, hout, accounts_of_returned hnew hrun hout⟩

end Lsvmi.HttpPool
