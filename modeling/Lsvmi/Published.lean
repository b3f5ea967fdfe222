import Mathlib.Data.List.GetD
import Lsvmi.Metrics
import Lsvmi.Reasoning.Replay

/-!
# What has been published

A generator together with all the samples that its calls have written.  Whoever receives the samples
knows the last value of each metric and label set.
-/

namespace Lsvmi

open Reasoning List

section

variable {M L : Type} [DecidableEq M] [DecidableEq L] {samples samples' : List (Sample M L)}
  {metric : M} {labels : L} {value : SampleValue}

def lastPublished (samples : List (Sample M L)) (metric : M) (labels : L) : Option SampleValue :=
  replay (samples.map fun s => ((s.metric, s.labels), s.value)) (metric, labels)

@[simp] theorem lastPublished_nil :
    lastPublished ([] : List (Sample M L)) metric labels = none := rfl

theorem lastPublished_singleton (s : Sample M L) (metric : M) (labels : L) :
    lastPublished [s] metric labels =
      if s.metric = metric ∧ s.labels = labels then some s.value else none := by
  simp [lastPublished, replay]

theorem lastPublished_append (samples samples' : List (Sample M L)) (metric : M) (labels : L) :
    lastPublished (samples ++ samples') metric labels =
      (lastPublished samples' metric labels).or (lastPublished samples metric labels) := by
  rw [lastPublished, map_append, replay_append]
  rfl

theorem lastPublished_eq_none (h : ∀ s ∈ samples, s.metric = metric → s.labels ≠ labels) :
    lastPublished samples metric labels = none := by
  apply replay_eq_none
  intro e he heq
  obtain ⟨s, hs, rfl⟩ := mem_map.mp he
  obtain ⟨hmetric, hlabels⟩ := Prod.mk.inj heq
  exact h s hs hmetric hlabels

theorem lastPublished_eq_some (hmem : ∃ s ∈ samples, s.metric = metric ∧ s.labels = labels)
    (hvalue : ∀ s ∈ samples, s.metric = metric → s.labels = labels → s.value = value) :
    lastPublished samples metric labels = some value := by
  apply replay_eq_some
  · obtain ⟨s, hs, hmetric, hlabels⟩ := hmem
    exact ⟨_, mem_map_of_mem hs, Prod.ext hmetric hlabels⟩
  · intro e he heq
    obtain ⟨s, hs, rfl⟩ := mem_map.mp he
    obtain ⟨hmetric, hlabels⟩ := Prod.mk.inj heq
    exact hvalue s hs hmetric hlabels

theorem lastPublished_flatMap {ι : Type*} {f : ι → List (Sample M L)} {js : List ι} {j : ι}
    (hnodup : js.Nodup) (hj : j ∈ js)
    (hother : ∀ i ∈ js, i ≠ j → ∀ s ∈ f i, s.metric = metric → s.labels ≠ labels) :
    lastPublished (js.flatMap f) metric labels = lastPublished (f j) metric labels := by
  rw [lastPublished, map_flatMap]
  apply replay_flatMap hnodup hj
  intro i hi hne e he heq
  obtain ⟨s, hs, rfl⟩ := mem_map.mp he
  obtain ⟨hmetric, hlabels⟩ := Prod.mk.inj heq
  exact hother i hi hne s hs hmetric hlabels

/-- Among the samples of all the indices, and others behind them, only those of its own index are of
the metric. -/
theorem lastPublished_index {f : Nat → List (Sample M L)} {n i : Nat} (hi : i < n)
    (hother : ∀ j ≠ i, ∀ s ∈ f j, s.metric ≠ metric) (hbehind : ∀ s ∈ samples', s.metric ≠ metric) :
    lastPublished (samples ++ ((range n).flatMap f ++ samples')) metric labels =
      (lastPublished (f i) metric labels).or (lastPublished samples metric labels) := by
  rw [lastPublished_append, lastPublished_append,
    lastPublished_eq_none fun s hs heq => absurd heq (hbehind s hs), Option.none_or,
    lastPublished_flatMap nodup_range (mem_range.mpr hi)
      fun j _ hne s hs heq => absurd heq (hother j hne s hs)]

end

@[simp] theorem Output.emit_nil {M L : Type} (out : Output M L) : out.emit [] = out := by
  simp [Output.emit]

theorem Output.foldl_emit_buf {ι M L : Type} (f : ι → List (Sample M L)) (js : List ι)
    (out : Output M L) :
    (js.foldl (fun out j => out.emit (f j)) out).buf = out.buf ++ js.flatMap f := by
  induction js generalizing out with
  | nil => exact (append_nil _).symm
  | cons j js ih =>
    rw [foldl_cons, ih, flatMap_cons, ← append_assoc]
    rfl

/-- A generator, and all that its calls have written. -/
structure Published (S M L : Type) where
  state : S
  samples : List (Sample M L)

def publish {S C M L : Type} (generate : S → C → Option (Output M L × S)) (p : Published S M L)
    (c : C) : Option (Published S M L) :=
  (generate p.state c).map fun r => ⟨r.2, p.samples ++ r.1.buf⟩

def unpublished {S M L : Type} (state : S) : Published S M L := ⟨state, []⟩

end Lsvmi
