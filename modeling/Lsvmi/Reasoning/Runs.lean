import Mathlib.Data.List.Induction

/-!
# Runs of a partial step function

A run feeds a list of inputs to a system one after the other.  An input may make the system fail,
in which case there is no next state and the run ends there.
-/

namespace Lsvmi.Reasoning

open List

variable {S C : Type*} {step : S → C → S → Prop} {P Q H : S → C → Prop} {I : S → Prop}

/-- `P` holds of every state of the run and the input that is fed to it. -/
def Always (step : S → C → S → Prop) (P : S → C → Prop) : S → List C → Prop
  | _, [] => True
  | s, c :: cs => P s c ∧ ∀ s', step s c s' → Always step P s' cs

variable {cs : List C} {s : S}

/-- The invariant rule: what follows from the invariant holds along the run. -/
theorem Always.of_invariant (hP : ∀ s c, I s → H s c → P s c)
    (hstep : ∀ s c s', I s → H s c → step s c s' → I s') (hs : I s)
    (h : Always step H s cs) : Always step P s cs := by
  induction cs generalizing s with
  | nil => trivial
  | cons c cs ih =>
    obtain ⟨hc, hrest⟩ := h
    exact ⟨hP s c hs hc, fun s' hs' => ih (hstep s c s' hs hc hs') (hrest s' hs')⟩

theorem Always.and (hP : Always step P s cs) (hQ : Always step Q s cs) :
    Always step (fun s c => P s c ∧ Q s c) s cs := by
  induction cs generalizing s with
  | nil => trivial
  | cons c cs ih =>
    exact ⟨⟨hP.1, hQ.1⟩, fun s' hs' => ih (hP.2 s' hs') (hQ.2 s' hs')⟩

/-- Two properties that agree under an invariant hold along the same runs, when the invariant is
kept by the steps that have the property. -/
theorem Always.iff_of_invariant (hiff : ∀ s c, I s → H s c → (P s c ↔ Q s c))
    (hstep : ∀ s c s', I s → H s c → Q s c → step s c s' → I s') (hs : I s)
    (h : Always step H s cs) : Always step P s cs ↔ Always step Q s cs := by
  induction cs generalizing s with
  | nil => exact Iff.rfl
  | cons c cs ih =>
    obtain ⟨hc, hrest⟩ := h
    have hhead := hiff s c hs hc
    constructor
    · intro hP
      have hQ := hhead.mp hP.1
      exact ⟨hQ, fun s' hs' => (ih (hstep s c s' hs hc hQ hs') (hrest s' hs')).mp (hP.2 s' hs')⟩
    · intro hQ
      exact ⟨hhead.mpr hQ.1,
        fun s' hs' => (ih (hstep s c s' hs hc hQ.1 hs') (hrest s' hs')).mpr (hQ.2 s' hs')⟩

theorem Always.of_forall_mem {P : C → Prop} (h : ∀ c ∈ cs, P c) (s : S) :
    Always step (fun _ c => P c) s cs := by
  induction cs generalizing s with
  | nil => trivial
  | cons c cs ih =>
    exact ⟨h c mem_cons_self, fun s' _ => ih (fun d hd => h d (mem_cons_of_mem c hd)) s'⟩

/-- Two runs over the same inputs, whose states stay related: what holds along one of them can be
concluded from what holds along the other. -/
theorem Always.lockstep {T : Type*} {f : S → C → S} {g : T → C → T} {R : S → T → Prop}
    {P P' : S → C → Prop} {Q Q' : T → C → Prop}
    (h : ∀ s t c, R s t → P s c → Q t c → R (f s c) (g t c) ∧ P' s c ∧ Q' t c)
    {t : T} (hR : R s t) (hP : Always (fun s c s' => f s c = s') P s cs)
    (hQ : Always (fun t c t' => g t c = t') Q t cs) :
    Always (fun s c s' => f s c = s') P' s cs ∧ Always (fun t c t' => g t c = t') Q' t cs := by
  induction cs generalizing s t with
  | nil => exact ⟨trivial, trivial⟩
  | cons c cs ih =>
    obtain ⟨hnext, hP', hQ'⟩ := h s t c hR hP.1 hQ.1
    obtain ⟨hPrest, hQrest⟩ := ih hnext (hP.2 _ rfl) (hQ.2 _ rfl)
    exact ⟨⟨hP', fun s' hs' => hs' ▸ hPrest⟩, ⟨hQ', fun t' ht' => ht' ▸ hQrest⟩⟩

/-- A property that is asked for all values of a parameter of the steps.  For each of them the states
follow those of one run, where the condition `Q` is enough, and for the value `x₀` it is needed. -/
theorem Always.forall_iff {X T : Type*} {f : X → S → C → S} {g : T → C → T} {R : X → S → T → Prop}
    {P : X → S → C → Prop} {H Q : T → C → Prop} (x₀ : X)
    (hstep : ∀ x s t c, R x s t → H t c → R x (f x s c) (g t c))
    (hP : ∀ x s t c, R x s t → H t c → Q t c → P x s c)
    (hQ : ∀ s t c, R x₀ s t → H t c → P x₀ s c → Q t c) {s : X → S} {t : T}
    (hR : ∀ x, R x (s x) t) (hH : Always (fun t c t' => g t c = t') H t cs) :
    (∀ x, Always (fun s c s' => f x s c = s') (P x) (s x) cs) ↔
      Always (fun t c t' => g t c = t') Q t cs := by
  constructor
  · intro hall
    have hlock : ∀ s t c, R x₀ s t → P x₀ s c → H t c → R x₀ (f x₀ s c) (g t c) ∧ P x₀ s c ∧ Q t c :=
      fun s t c hR hP hH => ⟨hstep x₀ s t c hR hH, hP, hQ s t c hR hH hP⟩
    exact (Always.lockstep hlock (hR x₀) (hall x₀) hH).2
  intro hQ x
  have hlock : ∀ s t c, R x s t → True → H t c ∧ Q t c → R x (f x s c) (g t c) ∧ P x s c ∧ True :=
    fun s t c hR _ hc => ⟨hstep x s t c hR hc.1, hP x s t c hR hc.1 hc.2, trivial⟩
  exact (Always.lockstep hlock (hR x) (Always.of_forall_mem (fun _ _ => trivial) _)
    (hH.and hQ)).1

/-- The inputs `cs`, in order, lead from `s₀` to `s`. -/
inductive Run (step : S → C → S → Prop) (s₀ : S) : List C → S → Prop
  | start : Run step s₀ [] s₀
  | snoc {cs : List C} {s s' : S} {c : C} (h : Run step s₀ cs s) (hstep : step s c s') :
    Run step s₀ (cs ++ [c]) s'

variable {s₀ : S}

/-- What holds at the start and is kept by every step holds in every state reached. -/
theorem Run.invariant (h : Run step s₀ cs s) (hstart : I s₀)
    (hstep : ∀ s c s', I s → step s c s' → I s') : I s := by
  induction h with
  | start => exact hstart
  | snoc _ hs ih => exact hstep _ _ _ ih hs

theorem Run.of_concat {c : C} (h : Run step s₀ (cs ++ [c]) s) :
    ∃ s₁, Run step s₀ cs s₁ ∧ step s₁ c s := by
  generalize hcs : cs ++ [c] = ds at h
  cases h with
  | start => simp at hcs
  | snoc h hstep =>
    obtain ⟨rfl, hc⟩ := append_inj' hcs rfl
    cases hc
    exact ⟨_, h, hstep⟩

theorem Run.cons {s₁ : S} {c : C} (hstep : step s₀ c s₁)
    (h : Run step s₁ cs s) : Run step s₀ (c :: cs) s := by
  induction h with
  | start => exact .snoc .start hstep
  | snoc _ hlast ih => exact .snoc ih hlast

theorem Run.mono {step' : S → C → S → Prop} (h : Run step s₀ cs s)
    (hstep : ∀ s c s', step s c s' → step' s c s') : Run step' s₀ cs s := by
  induction h with
  | start => exact .start
  | snoc _ hs ih => exact .snoc ih (hstep _ _ _ hs)

theorem Always.after_run {ds : List C} (hrun : Run step s₀ cs s)
    (h : Always step P s₀ (cs ++ ds)) : Always step P s ds := by
  induction hrun generalizing ds with
  | start => exact h
  | @snoc cs s s' c _ hstep ih =>
    rw [append_assoc] at h
    exact (ih h).2 s' hstep

variable {f : S → C → Option S}

theorem Run.of_foldlM
    (h : cs.foldlM f s₀ = some s) : Run (fun s c s' => f s c = some s') s₀ cs s := by
  induction cs using List.reverseRecOn generalizing s with
  | nil =>
    cases h
    exact .start
  | append_singleton cs c ih =>
    rw [foldlM_append] at h
    obtain ⟨s₁, h₁, h₂⟩ := Option.bind_eq_some_iff.mp h
    refine .snoc (ih h₁) ?_
    simpa using h₂

theorem Run.exists_of_any {test : S → Bool} (h : (cs.foldlM f s₀).any test) :
    ∃ s, Run (fun s c s' => f s c = some s') s₀ cs s ∧ test s = true := by
  cases hs : cs.foldlM f s₀ with
  | none =>
    rw [hs] at h
    cases h
  | some s =>
    rw [hs] at h
    exact ⟨s, .of_foldlM hs, h⟩

def checkRun (f : S → C → Option S) (test : S → C → Bool) : S → List C → Bool
  | _, [] => true
  | s, c :: cs => test s c && (f s c).all fun s' => checkRun f test s' cs

theorem Always.of_checkRun (test : S → C → Bool) (htest : ∀ s c, test s c → P s c)
    (h : checkRun f test s cs) : Always (fun s c s' => f s c = some s') P s cs := by
  induction cs generalizing s with
  | nil => trivial
  | cons c cs ih =>
    rw [checkRun, Bool.and_eq_true] at h
    refine ⟨htest s c h.1, fun s' hs' => ih ?_⟩
    rw [hs', Option.all_some] at h
    exact h.2

theorem Always.foldlM_isSome (hP : ∀ s c, P s c → (f s c).isSome)
    (h : Always (fun s c s' => f s c = some s') P s cs) : (cs.foldlM f s).isSome := by
  induction cs generalizing s with
  | nil => rfl
  | cons c cs ih =>
    obtain ⟨s', hs'⟩ := Option.isSome_iff_exists.mp (hP s c h.1)
    rw [foldlM_cons, hs']
    exact ih (h.2 s' hs')

/-- The invariant rule for a loop that may fail. -/
theorem foldlM_invariant (h : cs.foldlM f s₀ = some s)
    (hstart : I s₀) (hstep : ∀ s, ∀ c ∈ cs, ∀ s', I s → f s c = some s' → I s') : I s := by
  induction cs generalizing s₀ with
  | nil =>
    cases h
    exact hstart
  | cons c cs ih =>
    rw [foldlM_cons] at h
    obtain ⟨s₁, h₁, h₂⟩ := Option.bind_eq_some_iff.mp h
    exact ih h₂ (hstep s₀ c mem_cons_self s₁ hstart h₁)
      fun s c hc => hstep s c (mem_cons_of_mem _ hc)

/-- A loop that cannot fail where its invariant holds. -/
theorem foldlM_total (cs : List C) (hstart : I s₀)
    (hstep : ∀ s, ∀ c ∈ cs, I s → ∃ s', f s c = some s' ∧ I s') :
    ∃ s, cs.foldlM f s₀ = some s ∧ I s := by
  induction cs generalizing s₀ with
  | nil => exact ⟨s₀, rfl, hstart⟩
  | cons c cs ih =>
    obtain ⟨s₁, h₁, hs₁⟩ := hstep s₀ c mem_cons_self hstart
    obtain ⟨s, hs, hI⟩ := ih hs₁ fun s c hc => hstep s c (mem_cons_of_mem _ hc)
    refine ⟨s, ?_, hI⟩
    rw [foldlM_cons, h₁]
    exact hs

end Lsvmi.Reasoning
