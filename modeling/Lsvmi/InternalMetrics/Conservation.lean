import Lsvmi.InternalMetrics.Execute
import Lsvmi.Reasoning.Runs

/-!
# What is published of the stats of a generator

`SnapStats` copies the entries of the container and clears it, but the map it copies them to keeps
the entries of the generators that had nothing to add.  Such an entry is published once more at
every call until the generator adds to its stats again.
-/

namespace Lsvmi.InternalMetrics

open Reasoning List Finmap

def contribution (us : List Update) (id : Bytes) (k : StatIndex) : UInt64 :=
  ((us.filter fun u => u.id = id).map fun u => u.amount k).sum

def publishedSum (samples : List GenSample) (id : Bytes) (k : StatIndex) : UInt64 :=
  ((samples.filter fun s => s.id = id ∧ s.stat = k).map fun s => UInt64.ofNat s.value).sum

def updates (id : Bytes) (us : List Update) : Bool := us.any fun u => u.id = id

section

variable {id : Bytes} {us vs : List Update} {k : StatIndex} {stats : MetricsGeneratorStats}

theorem contribution_append : contribution (us ++ vs) id k =
    contribution us id k + contribution vs id k := by
  simp only [contribution, filter_append, map_append, sum_append]

theorem contribution_of_not_updates (h : updates id us = false) : contribution us id k = 0 := by
  have hfilter : us.filter (fun u => u.id = id) = [] := by
    rw [filter_eq_nil_iff]
    rw [updates, any_eq_false] at h
    exact h
  rw [contribution, hfilter]
  rfl

theorem contribution_singleton (u : Update) :
    contribution [u] id k = if u.id = id then u.amount k else 0 := by
  by_cases hid : u.id = id <;> simp [contribution, hid]

theorem publishedSum_append (samples samples' : List GenSample) :
    publishedSum (samples ++ samples') id k =
      publishedSum samples id k + publishedSum samples' id k := by
  simp only [publishedSum, filter_append, map_append, sum_append]

theorem publishedSum_of_ne {samples : List GenSample} (h : ∀ s ∈ samples, s.id ≠ id) :
    publishedSum samples id k = 0 := by
  have hfilter : samples.filter (fun s => s.id = id ∧ s.stat = k) = [] := by
    rw [filter_eq_nil_iff]
    intro s hs hmatch
    exact h s hs (of_decide_eq_true hmatch).1
  rw [publishedSum, hfilter]
  rfl

def entryStat (stats : MetricsGeneratorStats) (id : Bytes) (k : StatIndex) : UInt64 :=
  match stats.lookup id with
  | none => 0
  | some gStats => gStats k

theorem publishedSum_genSamples_singleton {id' : Bytes} :
    publishedSum (genSamples stats [id']) id k = if id' = id then entryStat stats id k else 0 := by
  simp only [genSamples, flatMap_cons, flatMap_nil, List.append_nil]
  by_cases hid : id' = id
  · subst hid
    rw [if_pos rfl, entryStat]
    cases stats.lookup id' with
    | none => rfl
    | some gStats => cases k <;> simp [publishedSum, statIndexes]
  · rw [if_neg hid]
    apply publishedSum_of_ne
    intro s hs
    cases hlookup : stats.lookup id' with
    | none => simp [hlookup] at hs
    | some gStats =>
      simp only [hlookup, mem_map] at hs
      obtain ⟨_, _, rfl⟩ := hs
      exact hid

theorem publishedSum_genSamples {order : List Bytes}
    (hnodup : order.Nodup) : publishedSum (genSamples stats order) id k =
      if id ∈ order then entryStat stats id k else 0 := by
  induction order with
  | nil => rfl
  | cons id' order ih =>
    obtain ⟨hnotMem, hnodup⟩ := nodup_cons.mp hnodup
    have hsplit : genSamples stats (id' :: order) =
        genSamples stats [id'] ++ genSamples stats order := by
      simp [genSamples]
    rw [hsplit, publishedSum_append, ih hnodup, publishedSum_genSamples_singleton]
    by_cases hid : id' = id
    · subst hid
      simp [hnotMem]
    · simp [hid, Ne.symm hid]

theorem publishedSum_genSamples_keys {order : List Bytes}
    (hnodup : order.Nodup) (hkeys : order.toFinset = stats.keys) :
    publishedSum (genSamples stats order) id k = entryStat stats id k := by
  rw [publishedSum_genSamples hnodup]
  by_cases hid : id ∈ order
  · rw [if_pos hid]
  · rw [← mem_toFinset, hkeys, Finmap.mem_keys, ← Finmap.lookup_eq_none] at hid
    simp [entryStat, hid]

theorem id_of_mem_ownSamples {cfg : Config} {tsSuffix buf : Bytes} {n : Nat} {s : GenSample}
    (h : s ∈ ownSamples cfg tsSuffix buf n) : s.id = internalMetricsId := by
  simp only [ownSamples, cons_append, nil_append, mem_cons, not_mem_nil, or_false] at h
  obtain rfl | rfl | rfl | rfl := h <;> rfl

theorem publishedSum_ownSamples_invocationCount (cfg : Config) (tsSuffix buf : Bytes) (n : Nat) :
    publishedSum (ownSamples cfg tsSuffix buf n) internalMetricsId .invocationCount = 1 := by
  simp [publishedSum, ownSamples]

end

/-- A state with what was published so far, the `Update` calls since the stats were last collected,
and those of the periods before, the latest period first. -/
structure RunState where
  state : State
  published : List GenSample
  current : List Update
  periods : List (List Update)

def createdRun : RunState := ⟨created, [], [], []⟩

def nextState (cfg : Config) (r : RunState) (e : Event) : Option RunState :=
  (step cfg r.state e).map fun (s, lines) =>
    match e with
    | .update u => { r with state := s, current := r.current ++ [u] }
    | .snapStats => { r with state := s, current := [], periods := r.current :: r.periods }
    | .publish _ => { r with state := s, published := r.published ++ lines }

def Steps (cfg : Config) (r : RunState) (e : Event) (r' : RunState) : Prop :=
  nextState cfg r e = some r'

/-- What was published for `id` is what the `Update` calls before the latest `Execute` added. -/
def Agrees (r : RunState) (id : Bytes) : Prop :=
  ∀ k, publishedSum r.published id k = contribution r.periods.flatten id k

def AgreesAfter (cfg : Config) (id : Bytes) (r : RunState) (e : Event) : Prop :=
  ∀ surr r', e = .publish surr → Steps cfg r e r' → Agrees r' id

def lastUpdated (id : Bytes) (periods : List (List Update)) : Option (List Update) :=
  periods.find? (updates id)

/-- If the event is the end of an `Execute`, then `id` is not the generator that publishes, and
there was an `Update` call for `id` since the `Execute` before, or none at all so far, or those of
the latest period that had any add up to 0. -/
def UpdatedBefore (cfg : Config) (id : Bytes) (r : RunState) (e : Event) : Prop :=
  ∀ surr r', e = .publish surr → Steps cfg r e r' → id ≠ internalMetricsId ∧
    (updates id (r.periods.headD []) = true ∨
      ∀ us, lastUpdated id r.periods.tail = some us → ∀ k, contribution us id k = 0)

/-- The container holds what the current period adds up to, and `metricsGenStats` what the latest
period with an `Update` call for each generator did. -/
structure Collected (r : RunState) : Prop where
  container : ∀ id, r.state.mgs.stats.lookup id =
    if updates id r.current then some (contribution r.current id) else none
  snapshot : ∀ id, r.state.metricsGenStats.lookup id =
    (lastUpdated id r.periods).map fun us => contribution us id
  executing : r.state.executing = true → r.periods ≠ []

section

variable {cfg : Config} {id : Bytes} {r r' : RunState} {e : Event} {surr : Surroundings}

theorem updates_snoc (us : List Update) (u : Update) :
    updates id (us ++ [u]) = (updates id us || u.id = id) := by
  simp [updates]

theorem Collected.lookup_update (h : Collected r) (u : Update) (id : Bytes) :
    (r.state.mgs.update u).stats.lookup id =
      if updates id (r.current ++ [u]) then some (contribution (r.current ++ [u]) id) else none := by
  have hsum : contribution (r.current ++ [u]) id =
      fun k => contribution r.current id k + if u.id = id then u.amount k else 0 := by
    funext k
    rw [contribution_append, contribution_singleton]
  rw [updates_snoc, hsum]
  by_cases hid : u.id = id
  · subst hid
    -- The entry is there already or starts with zeros.
    have hentry : ∀ k, ((r.state.mgs.stats.lookup u.id).getD fun _ => 0) k =
        contribution r.current u.id k := by
      intro k
      rw [h.container]
      cases hupdates : updates u.id r.current with
      | true => rfl
      | false => exact (contribution_of_not_updates hupdates).symm
    simp [MetricsGeneratorStatsContainer.update, hentry]
  · have hne : id ≠ u.id := Ne.symm hid
    simp [MetricsGeneratorStatsContainer.update, lookup_insert_of_ne _ hne, h.container, hid]

theorem Collected.lookup_snapStats (h : Collected r) (id : Bytes) :
    (r.state.mgs.stats ∪ r.state.metricsGenStats).lookup id =
      (lastUpdated id (r.current :: r.periods)).map fun us => contribution us id := by
  rw [lastUpdated, find?_cons]
  cases hupdates : updates id r.current with
  | true =>
    have hlookup : r.state.mgs.stats.lookup id = some (contribution r.current id) := by
      rw [h.container, if_pos hupdates]
    rw [lookup_union_left (mem_of_lookup_eq_some hlookup), hlookup]
    rfl
  | false =>
    have hlookup : r.state.mgs.stats.lookup id = none := by
      rw [h.container, hupdates, if_neg Bool.false_ne_true]
    rw [lookup_union_right (lookup_eq_none.mp hlookup), h.snapshot]
    rfl

theorem steps_snapStats (h : Steps cfg r .snapStats r') : r.state.executing = false ∧
    r' = { r with
      state := ⟨⟨∅⟩, r.state.mgs.stats ∪ r.state.metricsGenStats, true⟩
      current := [], periods := r.current :: r.periods } := by
  obtain ⟨⟨s, lines⟩, hs, rfl⟩ := Option.map_eq_some_iff.mp h
  simp only [step, Option.ite_none_left_eq_some, Bool.not_eq_true] at hs
  obtain ⟨hexec, hs⟩ := hs
  cases hs
  exact ⟨hexec, rfl⟩

theorem steps_publish (h : Steps cfg r (.publish surr) r') :
    (r.state.executing ∧ surr.order.Nodup ∧
      surr.order.toFinset = r.state.metricsGenStats.keys) ∧
    r' = { r with
      state := { r.state with executing := false }
      published := r.published ++ publishedSamples cfg r.state.metricsGenStats surr } := by
  obtain ⟨⟨s, lines⟩, hs, rfl⟩ := Option.map_eq_some_iff.mp h
  simp only [step, Option.ite_none_right_eq_some] at hs
  obtain ⟨hexec, hs⟩ := hs
  cases hs
  exact ⟨hexec, rfl⟩

theorem Collected.step (h : Collected r) (hstep : Steps cfg r e r') : Collected r' := by
  cases e with
  | update u =>
    cases hstep
    exact ⟨h.lookup_update u, h.snapshot, h.executing⟩
  | snapStats =>
    obtain ⟨-, rfl⟩ := steps_snapStats hstep
    exact ⟨fun _ => rfl, h.lookup_snapStats, fun _ => cons_ne_nil _ _⟩
  | publish surr =>
    obtain ⟨-, rfl⟩ := steps_publish hstep
    exact ⟨h.container, h.snapshot, nofun⟩

theorem Collected.entryStat_eq (h : Collected r) (id : Bytes) (k : StatIndex) :
    entryStat r.state.metricsGenStats id k =
      match lastUpdated id r.periods with
      | none => 0
      | some us => contribution us id k := by
  rw [entryStat, h.snapshot]
  cases lastUpdated id r.periods <;> rfl

def RunState.done (r : RunState) : List (List Update) :=
  if r.state.executing then r.periods.tail else r.periods

/-- The sums for `id` agree as far as the stats have been published. -/
structure Inv (id : Bytes) (r : RunState) : Prop where
  collected : Collected r
  agrees : ∀ k, publishedSum r.published id k = contribution r.done.flatten id k
  own : id = internalMetricsId → r.done = []

theorem createdRun_inv (id : Bytes) : Inv id createdRun :=
  ⟨⟨fun _ => rfl, fun _ => rfl, nofun⟩, fun _ => rfl, fun _ => rfl⟩

theorem Inv.agrees_publish_iff (h : Inv id r) (hstep : Steps cfg r (.publish surr) r') :
    ∃ us rest buf n, r.periods = us :: rest ∧ r.done = rest ∧ (Agrees r' id ↔
      ∀ k, entryStat r.state.metricsGenStats id k +
        publishedSum (ownSamples cfg surr.tsSuffix buf n) id k = contribution us id k) := by
  obtain ⟨⟨hexec, hnodup, hkeys⟩, rfl⟩ := steps_publish hstep
  obtain ⟨us, rest, hperiods⟩ := exists_cons_of_ne_nil (h.collected.executing hexec)
  obtain ⟨buf, n, hsamples⟩ : ∃ buf n, publishedSamples cfg r.state.metricsGenStats surr =
      genSamples r.state.metricsGenStats surr.order ++ ownSamples cfg surr.tsSuffix buf n :=
    ⟨_, _, rfl⟩
  have hdone : r.done = rest := by rw [RunState.done, if_pos hexec, hperiods, tail_cons]
  refine ⟨us, rest, buf, n, hperiods, hdone, forall_congr' fun k => ?_⟩
  have hbefore := h.agrees k
  rw [hdone] at hbefore
  rw [hsamples, publishedSum_append, publishedSum_append, hbefore,
    publishedSum_genSamples_keys hnodup hkeys, hperiods, flatten_cons, contribution_append,
    add_comm (contribution us id k), add_right_inj]

theorem Inv.agreesAfter_iff (h : Inv id r) : AgreesAfter cfg id r e ↔ UpdatedBefore cfg id r e := by
  refine forall_congr' fun surr => forall_congr' fun r' => forall_congr' fun he =>
    forall_congr' fun hstep => ?_
  subst he
  obtain ⟨us, rest, buf, n, hperiods, hdone, hiff⟩ := h.agrees_publish_iff hstep
  have hentry := h.collected.entryStat_eq id
  rw [hiff, hperiods, headD_cons, tail_cons]
  rw [hperiods, lastUpdated, find?_cons] at hentry
  by_cases hid : id = internalMetricsId
  · -- This is the first `Execute`, and its invocation has not been added by any `Update`.
    refine iff_of_false (fun hsums => ?_) fun hcond => hcond.1 hid
    obtain rfl : rest = [] := hdone ▸ h.own hid
    subst hid
    have hentry' : entryStat r.state.metricsGenStats internalMetricsId .invocationCount =
        contribution us internalMetricsId .invocationCount := by
      rw [hentry]
      cases hupdates : updates internalMetricsId us with
      | true => rfl
      | false => exact (contribution_of_not_updates hupdates).symm
    have hsum := hsums .invocationCount
    rw [hentry', publishedSum_ownSamples_invocationCount, add_eq_left] at hsum
    exact absurd hsum (by decide)
  · have hown : ∀ k, publishedSum (ownSamples cfg surr.tsSuffix buf n) id k = 0 := fun k =>
      publishedSum_of_ne fun s hs hs' => hid (hs' ▸ id_of_mem_ownSamples hs)
    simp only [hown, add_zero, hid, ne_eq, not_false_eq_true, true_and, hentry]
    cases hupdates : updates id us with
    | true => simp
    | false =>
      -- The entry is the one that an earlier `Execute` has published.
      simp only [contribution_of_not_updates hupdates, Bool.false_eq_true, false_or, lastUpdated]
      cases rest.find? (updates id) <;> simp

theorem Inv.step (h : Inv id r) (hupdated : UpdatedBefore cfg id r e) (hstep : Steps cfg r e r') :
    Inv id r' := by
  have hcollected := h.collected.step hstep
  cases e with
  | update u =>
    cases hstep
    exact ⟨hcollected, h.agrees, h.own⟩
  | snapStats =>
    obtain ⟨hexec, rfl⟩ := steps_snapStats hstep
    have hdone : r.done = r.periods := if_neg (Bool.eq_false_iff.mp hexec)
    have hagrees := h.agrees
    have hown := h.own
    rw [hdone] at hagrees hown
    exact ⟨hcollected, hagrees, hown⟩
  | publish surr =>
    have hagrees : Agrees r' id := h.agreesAfter_iff.mpr hupdated surr r' rfl hstep
    have hne := (hupdated surr r' rfl hstep).1
    obtain ⟨-, rfl⟩ := steps_publish hstep
    exact ⟨hcollected, hagrees, fun hid => absurd hid hne⟩

end

/-- Whatever the interleaving, the sums for `id` agree after every `Execute` exactly if none of them
publishes a left over entry for `id`. -/
theorem published_eq_contributed_iff (cfg : Config) (id : Bytes) (es : List Event) :
    Always (Steps cfg) (AgreesAfter cfg id) createdRun es ↔
      Always (Steps cfg) (UpdatedBefore cfg id) createdRun es :=
  Always.iff_of_invariant (I := Inv id) (H := fun _ _ => True) (fun _ _ h _ => h.agreesAfter_iff)
    (fun _ _ _ h _ hupdated hstep => h.step hupdated hstep) (createdRun_inv id)
    (Always.of_forall_mem (fun _ _ => trivial) _)

def slowGenerator : List Event :=
  let surr : Surroundings := ⟨⟨[], 0⟩, ⟨[], 0⟩, utf8 " 0\n", [utf8 "qdisc_metrics"]⟩
  [.update ⟨utf8 "qdisc_metrics", 3, 5, 120⟩, .snapStats, .publish surr, .snapStats, .publish surr]

theorem left_over_stats_published_again : ∃ r, Run (Steps ⟨[], []⟩) createdRun slowGenerator r ∧
    publishedSum r.published (utf8 "qdisc_metrics") .bytesCount = 240 ∧
    contribution r.periods.flatten (utf8 "qdisc_metrics") .bytesCount = 120 := by
  have hend : (slowGenerator.foldlM (nextState ⟨[], []⟩) createdRun).any (fun r =>
      publishedSum r.published (utf8 "qdisc_metrics") .bytesCount = 240 ∧
      contribution r.periods.flatten (utf8 "qdisc_metrics") .bytesCount = 120) = true := by
    decide +kernel
  obtain ⟨r, hrun, htest⟩ := Run.exists_of_any hend
  exact ⟨r, hrun, of_decide_eq_true htest⟩

end Lsvmi.InternalMetrics
