import Lsvmi.Reasoning.Fprintf

/-!
# Percent signs in a format

A percent sign that was meant as text does not come out as it went in.  In what is printed, a
percent sign is either followed by an exclamation mark, which reports an error, or it is the verb of
a directive that started with another percent sign.  So the percent signs that are followed by
something else get fewer with every directive.
-/

namespace Lsvmi.Reasoning.Fprintf

open List

variable {f : Text}

/-- The number of percent signs that are not followed by an exclamation mark. -/
def bare : Text → Nat
  | [] => 0
  | c :: f => (if c = percent ∧ f.head? ≠ some bang then 1 else 0) + bare f

theorem bare_cons {c : UInt8} (hc : c ≠ percent) (f : Text) : bare (c :: f) = bare f := by
  rw [bare, if_neg fun h => hc h.1, Nat.zero_add]

theorem bare_percent (hf : f.head? ≠ some bang) : bare (percent :: f) = 1 + bare f := by
  rw [bare, if_pos ⟨rfl, hf⟩]

theorem bare_percent_of_bang (hf : f.head? = some bang) : bare (percent :: f) = bare f := by
  rw [bare, if_neg fun h => h.2 hf, Nat.zero_add]

theorem bare_percent_le (f : Text) : bare (percent :: f) ≤ 1 + bare f := by
  by_cases hf : f.head? = some bang
  · rw [bare_percent_of_bang hf]
    exact Nat.le_add_left ..
  · exact Nat.le_of_eq (bare_percent hf)

theorem bare_bang (f : Text) : bare (percent :: bang :: f) = bare f := by
  rw [bare_percent_of_bang rfl, bare_cons (by decide)]

theorem bare_le_of_suffix {g : Text} (h : g <:+ f) : bare g ≤ bare f := by
  obtain ⟨u, rfl⟩ := h
  induction u with
  | nil => exact Nat.le_refl _
  | cons c u ih => exact ih.trans (Nat.le_add_left ..)

theorem bare_eq_zero (h : percent ∉ f) : bare f = 0 := by
  induction f with
  | nil => rfl
  | cons c f ih =>
    rw [bare_cons (ne_of_not_mem_cons h).symm, ih (not_mem_of_not_mem_cons h)]

theorem bare_append {g : Text} (hg : g.head? ≠ some bang) : bare (f ++ g) = bare f + bare g := by
  induction f with
  | nil => rw [nil_append, bare, Nat.zero_add]
  | cons c f ih =>
    have hhead : (f ++ g).head? ≠ some bang ↔ f.head? ≠ some bang := by
      cases f with
      | nil => simpa using hg
      | cons x f => rfl
    rw [cons_append, bare, bare, ih, Nat.add_assoc]
    simp only [hhead]

theorem bare_append_of_zero (hf : bare f = 0) (g : Text) : bare (f ++ g) = bare g := by
  induction f with
  | nil => rfl
  | cons c f ih =>
    obtain ⟨hc, hf⟩ := Nat.add_eq_zero_iff.mp hf
    have hhead : ¬ (c = percent ∧ (f ++ g).head? ≠ some bang) := by
      rintro ⟨rfl, hne⟩
      by_cases hbang : f.head? = some bang
      · exact hne (by simp [head?_append, hbang])
      · rw [if_pos ⟨rfl, hbang⟩] at hc
        cases hc
    rw [cons_append, bare, if_neg hhead, Nat.zero_add, ih hf]

/-- The arguments are printed without percent signs of their own. -/
def Calm {A : Type} (P : Printer A) (args : List A) : Prop :=
  ∀ a ∈ args, percent ∉ P.typeName a ∧ ∀ spec verb, bare (P.printArg spec verb a) = 0

section

variable {A : Type} {P : Printer A} {args : List A}

theorem argNumber_out (numArgs : Nat) (s : Scan) : (argNumber numArgs s).out = s.out := by
  unfold argNumber
  split
  · rfl
  · split
    · dsimp only
      split <;> rfl
    · rfl

theorem readWidth_out {s : Scan} (h : bare s.out = 0) : bare (readWidth P args s).out = 0 := by
  unfold readWidth
  split
  · dsimp only
    split
    · exact (bare_append_of_zero h _).trans (by decide)
    · exact h
  · exact h

theorem readPrec_out {s : Scan} (h : bare s.out = 0) : bare (readPrec P args s).out = 0 := by
  unfold readPrec
  split
  · have hout := argNumber_out args.length
      { s with rest := s.rest.drop 1, goodArgNum := s.goodArgNum && !s.afterIndex }
    have hindex : bare (argNumber args.length { s with
        rest := s.rest.drop 1, goodArgNum := s.goodArgNum && !s.afterIndex }).out = 0 := by
      rw [hout]
      exact h
    dsimp only
    split
    · dsimp only
      split
      · exact hindex
      · exact (bare_append_of_zero hindex _).trans (by decide)
    · exact hindex
  · exact h

theorem scanVerb_out (f : Text) (argNum : Nat) (reordered : Bool) :
    bare (scanVerb P args f argNum reordered).out = 0 := by
  unfold scanVerb
  dsimp only
  have hprec : ∀ s : Scan, bare s.out = 0 → bare (readPrec P args (readWidth P args
      (argNumber args.length s))).out = 0 := by
    intro s hs
    apply readPrec_out
    apply readWidth_out
    rw [argNumber_out]
    exact hs
  split
  · exact hprec _ rfl
  · rw [argNumber_out]
    exact hprec _ rfl

theorem bare_error {verb : Text} (hverb : percent ∉ verb) {note : Text} (hnote : percent ∉ note) :
    bare (text "%!" ++ verb ++ note) = 0 := by
  have hmark : bare (text "%!") = 0 := by decide
  rw [append_assoc, bare_append_of_zero hmark]
  apply bare_eq_zero
  rw [mem_append, not_or]
  exact ⟨hverb, hnote⟩

theorem printVerb_out (hcalm : Calm P args) {s : Scan} (h : bare s.out = 0) :
    bare (printVerb P args s).out = 0 ∨
      ∃ o, (printVerb P args s).out = o ++ [percent] ∧ bare o = 0 ∧
        s.rest = percent :: (printVerb P args s).rest := by
  unfold printVerb
  split
  · exact .inl ((bare_append_of_zero h _).trans (by decide))
  rename_i c f hrest
  dsimp only
  split
  · rename_i hc
    subst c
    -- The one percent sign that is printed is the verb itself, which is used up.
    refine .inr ⟨s.out, rfl, h, ?_⟩
    rw [hrest, runeSize_ascii (by decide)]
    rfl
  · rename_i hc
    have hverb := percent_not_mem_readVerb hc f
    left
    split
    · exact (bare_append_of_zero h _).trans (bare_error hverb (by decide))
    · split
      · exact (bare_append_of_zero h _).trans (bare_error hverb (by decide))
      · rename_i a ha
        exact (bare_append_of_zero h _).trans ((hcalm a (mem_of_getElem? ha)).2 _ _)

theorem directive_out (hcalm : Calm P args) (f : Text) (argNum : Nat) (reordered : Bool) :
    bare (directive P args f argNum reordered).out = 0 ∨
      ∃ o, (directive P args f argNum reordered).out = o ++ [percent] ∧ bare o = 0 ∧
        percent :: (directive P args f argNum reordered).rest <:+ f := by
  have hsuffix : (scanVerb P args f argNum reordered).rest <:+ f :=
    (scanVerb_readsOn (q := 34) (C := []) (by decide) P args (by decide) f argNum reordered).1
  obtain hout | ⟨o, hout, ho, hrest⟩ :=
    printVerb_out hcalm (scanVerb_out (P := P) f argNum reordered)
  · exact .inl hout
  · rw [hrest] at hsuffix
    exact .inr ⟨o, hout, ho, hsuffix⟩

theorem bare_intercalate {sep : Text} (hsep : bare sep = 0) {l : List Text}
    (h : ∀ f ∈ l, bare f = 0) : bare (sep.intercalate l) = 0 := by
  induction l with
  | nil => rfl
  | cons f l ih =>
    have hf := h f mem_cons_self
    cases l with
    | nil => rwa [intercalate_singleton]
    | cons g l =>
      rw [intercalate_cons_cons, append_assoc, bare_append_of_zero hf, bare_append_of_zero hsep]
      exact ih fun x hx => h x (mem_cons_of_mem f hx)

theorem bare_extraArgs (hcalm : Calm P args) (argNum : Nat) (reordered : Bool) :
    bare (extraArgs P args argNum reordered) = 0 := by
  unfold extraArgs
  split
  · rfl
  have hmark : bare (text "%!(EXTRA ") = 0 := by decide
  have hargs : bare ((text ", ").intercalate ((args.drop argNum).map fun a =>
      P.typeName a ++ (text "=" ++ P.printArg {} (text "v") a))) = 0 := by
    refine bare_intercalate (by decide) fun f hf => ?_
    obtain ⟨a, ha, rfl⟩ := mem_map.mp hf
    obtain ⟨htype, hprint⟩ := hcalm a (mem_of_mem_drop ha)
    have hequals : bare (text "=") = 0 := by decide
    rw [bare_append_of_zero (bare_eq_zero htype), bare_append_of_zero hequals]
    exact hprint {} (text "v")
  rw [append_assoc, bare_append_of_zero hmark, bare_append_of_zero hargs]
  rfl

theorem head_printRest (hf : f.head? = some bang) (argNum : Nat) (reordered : Bool) :
    (printRest P args f argNum reordered).head? = some bang := by
  cases f with
  | nil => cases hf
  | cons c f =>
    obtain rfl : c = bang := Option.some.inj hf
    rw [printRest_cons (by decide)]
    rfl

/-- A directive that does not report an error of the verb `!` costs a bare percent sign. -/
theorem bare_directive (hcalm : Calm P args) (hf : f.head? ≠ some bang) (argNum : Nat)
    (reordered : Bool) {k : Nat}
    (hrest : bare (printRest P args (directive P args f argNum reordered).rest
      (directive P args f argNum reordered).argNum
      (directive P args f argNum reordered).reordered) + k ≤
        bare (directive P args f argNum reordered).rest) :
    bare (printRest P args (percent :: f) argNum reordered) + k + 1 ≤ bare (percent :: f) := by
  rw [printRest_percent, bare_percent hf]
  have hsuffix := bare_le_of_suffix (directive_suffix P args f argNum reordered)
  obtain hout | ⟨o, hout, ho, hverb⟩ := directive_out hcalm f argNum reordered
  · rw [bare_append_of_zero hout]
    omega
  have hverb := bare_le_of_suffix hverb
  rw [hout, append_assoc, bare_append_of_zero ho, singleton_append]
  by_cases hbang : (directive P args f argNum reordered).rest.head? = some bang
  · rw [bare_percent_of_bang (head_printRest hbang _ _)]
    omega
  rw [bare_percent hbang] at hverb
  have hle := bare_percent_le (printRest P args (directive P args f argNum reordered).rest
    (directive P args f argNum reordered).argNum
    (directive P args f argNum reordered).reordered)
  omega

theorem printRest_verb (hcalm : Calm P args) {q : UInt8} (hq : stops q) (f : Text)
    (argNum : Nat) (reordered : Bool) :
    ∃ o argNum', printRest P args (percent :: q :: f) argNum reordered =
      o ++ printRest P args f argNum' reordered ∧ bare o = 0 ∧ argNum ≤ argNum' ∧
        (argNum < args.length → argNum < argNum') := by
  rw [printRest_percent]
  by_cases hargs : argNum < args.length
  · obtain ⟨a, ha⟩ : ∃ a, args[argNum]? = some a := ⟨_, getElem?_eq_getElem hargs⟩
    rw [directive_stop hq f reordered ha]
    exact ⟨_, _, rfl, (hcalm a (mem_of_getElem? ha)).2 _ _, Nat.le_succ _,
      fun _ => Nat.lt_succ_self _⟩
  have hpercent : percent ∉ [q] := by
    rw [mem_singleton]
    rintro rfl
    exact absurd hq (by decide)
  rw [directive_missing hq f reordered (Nat.le_of_not_lt hargs)]
  exact ⟨_, _, rfl, bare_error hpercent (by decide), Nat.le_refl _, fun hlt => absurd hlt hargs⟩

/-- Where every percent sign has the verb `!`, each takes an argument away from what follows. -/
theorem printRest_of_bare_eq_zero (hcalm : Calm P args) {u : Text} (hu : bare u = 0) (f : Text)
    (argNum : Nat) (reordered : Bool) :
    ∃ o argNum', printRest P args (u ++ f) argNum reordered =
      o ++ printRest P args f argNum' reordered ∧ argNum ≤ argNum' ∧
        (percent ∈ u → argNum < args.length → argNum < argNum') := by
  -- On the length of `u`: a percent sign is followed by `!`, and the two are one directive.
  induction hn : u.length using Nat.strongRecOn generalizing u argNum with
  | _ n ih =>
  subst hn
  cases u with
  | nil => exact ⟨[], argNum, rfl, Nat.le_refl _, fun hmem => by cases hmem⟩
  | cons c u =>
    by_cases hc : c = percent
    · subst hc
      by_cases hbang : u.head? = some bang
      · obtain ⟨v, rfl⟩ := head?_eq_some_iff.mp hbang
        rw [bare_bang] at hu
        obtain ⟨o, argNum₁, hprint, -, hle₁, hlt⟩ :=
          printRest_verb (q := bang) hcalm (by decide) (v ++ f) argNum reordered
        obtain ⟨o', argNum₂, hprint', hle₂, -⟩ :=
          ih v.length (by simp only [length_cons]; omega) hu argNum₁ rfl
        refine ⟨o ++ o', argNum₂, ?_, hle₁.trans hle₂, fun _ hargs => (hlt hargs).trans_le hle₂⟩
        rw [append_assoc, ← hprint', ← hprint]
        rfl
      · rw [bare_percent hbang] at hu
        omega
    · rw [bare_cons hc] at hu
      obtain ⟨o, argNum', hprint, hle, hlt⟩ := ih u.length (Nat.lt_succ_self _) hu argNum rfl
      refine ⟨c :: o, argNum', ?_, hle, fun hmem hargs => ?_⟩
      · rw [cons_append, printRest_cons hc, hprint]
        rfl
      · obtain heq | hmem := mem_cons.mp hmem
        · exact absurd heq.symm hc
        · exact hlt hmem hargs

/-- The end of a format: it starts with a byte that no directive before it goes beyond, and each of
its own directives prints one argument. -/
structure FixedEnd (P : Printer A) (args : List A) (q : UInt8) (C : Text) : Prop where
  stop : stops q = true
  ne_bang : q ≠ bang
  no_bracket : 93 ∉ q :: C
  last : ¬ [percent] <:+ q :: C
  printed : ∀ argNum reordered, bare (printRest P args C argNum reordered) = 0

variable {q : UInt8} {C : Text} (h : FixedEnd P args q C)
include h

theorem FixedEnd.bare_cons : bare (q :: C) = bare C := by
  apply Fprintf.bare_cons
  rintro rfl
  exact absurd h.stop (by decide)

theorem FixedEnd.directive_nil (hcalm : Calm P args) (hf : f.head? ≠ some bang)
    (htail : q :: C <:+ f) (argNum : Nat) (reordered : Bool)
    (hnil : (directive P args f argNum reordered).rest = []) :
    bare (printRest P args (percent :: f) argNum reordered) + bare C + 1 ≤ bare (percent :: f) := by
  have hle := bare_le_of_suffix htail
  rw [h.bare_cons] at hle
  rw [printRest_percent, bare_percent hf, hnil, printRest_nil]
  obtain hout | ⟨o, -, -, hverb⟩ := directive_out hcalm f argNum reordered
  · rw [bare_append_of_zero hout, bare_extraArgs hcalm]
    omega
  -- The verb would be the last byte of the format.
  rw [hnil] at hverb
  obtain hlast | hlast := suffix_or_suffix_of_suffix hverb htail
  · exact absurd hlast h.last
  · have hlength := hlast.length_le
    rw [length_cons, length_singleton] at hlength
    obtain rfl : C = [] := length_eq_zero_iff.mp (by omega)
    exact absurd (hlast.eq_of_length rfl ▸ suffix_rfl) h.last

/-- Over the text before a fixed end, every bare percent sign is one that does not come out. -/
theorem FixedEnd.bare_printRest (hcalm : Calm P args) (u : Text) (argNum : Nat) (reordered : Bool) :
    bare (printRest P args (u ++ q :: C) argNum reordered) + bare C ≤ bare (u ++ q :: C) ∧
    (bare u ≠ 0 → bare (printRest P args (u ++ q :: C) argNum reordered) + bare C + 1 ≤
      bare (u ++ q :: C)) := by
  -- On the length of `u`, since a directive may go on to anywhere in it.
  induction hn : u.length using Nat.strongRecOn generalizing u argNum reordered with
  | _ n ih =>
  subst hn
  cases u with
  | nil =>
    have hq : q ≠ percent := by
      rintro rfl
      exact absurd h.stop (by decide)
    rw [nil_append, printRest_cons hq, Fprintf.bare_cons hq, h.printed, h.bare_cons]
    exact ⟨Nat.le_of_eq (Nat.zero_add _), fun hbare => absurd rfl hbare⟩
  | cons c u =>
    by_cases hc : c = percent
    · subst hc
      by_cases hbang : u.head? = some bang
      · obtain ⟨v, rfl⟩ := head?_eq_some_iff.mp hbang
        -- The directive `%!` is not counted, and prints nothing that is.
        obtain ⟨o, argNum', hprint, ho, -⟩ :=
          printRest_verb (q := bang) hcalm (by decide) (v ++ q :: C) argNum reordered
        simp only [cons_append, hprint, bare_append_of_zero ho, bare_bang]
        exact ih v.length (by simp only [length_cons]; omega) v argNum' reordered rfl
      · have hhead : (u ++ q :: C).head? ≠ some bang := by
          cases u with
          | nil => exact fun heq => h.ne_bang (Option.some.inj heq)
          | cons x u => exact hbang
        have hstrict : bare (printRest P args (percent :: (u ++ q :: C)) argNum reordered) +
            bare C + 1 ≤ bare (percent :: (u ++ q :: C)) := by
          obtain ⟨hsuffix, hrest⟩ :=
            directive_rest h.stop P args h.no_bracket (u ++ q :: C) argNum reordered
          obtain ⟨v, hv⟩ | hend | hnil := hrest (suffix_append u _)
          · -- The directive ends within `u`.
            apply bare_directive hcalm hhead
            rw [← hv]
            refine (ih v.length ?_ v _ _ rfl).1
            have hlength := hsuffix.length_le
            rw [← hv, length_append, length_append] at hlength
            rw [length_cons]
            omega
          · -- Its verb is the byte `q`.
            apply bare_directive hcalm hhead
            rw [hend, h.printed, Nat.zero_add]
          · exact h.directive_nil hcalm hhead (suffix_append u _) argNum reordered hnil
        exact ⟨by rw [cons_append]; omega, fun _ => hstrict⟩
    · rw [cons_append, printRest_cons hc, Fprintf.bare_cons hc, Fprintf.bare_cons hc,
        Fprintf.bare_cons hc]
      exact ih u.length (Nat.lt_succ_self _) u argNum reordered rfl

end

end Lsvmi.Reasoning.Fprintf
