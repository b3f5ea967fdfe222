import Mathlib.Data.List.TakeWhile

/-!
# Formatted printing

The loop of `fmt.Fprintf`: text is copied, and a directive takes flags, an argument index, a width
and a precision up to its verb.  How an argument is printed for a verb is left to a `Printer`; the
loop decides which argument is printed for which directive, and reports what is wrong with a
directive in the text that it prints.
-/

namespace Lsvmi.Reasoning.Fprintf

open List

abbrev Text := List UInt8

variable {q c : UInt8} {argNum : Nat} {tail : Text}

def text (s : String) : Text := s.toUTF8.data.toList

def percent : UInt8 := 37

def bang : UInt8 := 33

structure Flags where
  sharp : Bool := false
  zero : Bool := false
  plus : Bool := false
  minus : Bool := false
  space : Bool := false
  deriving DecidableEq

structure Spec where
  flags : Flags := {}
  wid : Option Nat := none
  prec : Option Nat := none
  deriving DecidableEq

structure Printer (A : Type) where
  printArg : Spec → Text → A → Text
  /-- The argument as a width or a precision. -/
  asInt : A → Option Int
  typeName : A → Text

/-- Where the loop is in a directive, and what it has printed for it. -/
structure Scan where
  rest : Text
  argNum : Nat
  reordered : Bool
  spec : Spec := {}
  goodArgNum : Bool := true
  afterIndex : Bool := false
  out : Text := []

def readFlags (flags : Flags) : Text → Flags × Text
  | [] => (flags, [])
  | c :: f =>
    if c = 35 then readFlags { flags with sharp := true } f
    -- Zeros are not padded on the right.
    else if c = 48 then readFlags { flags with zero := !flags.minus } f
    else if c = 43 then readFlags { flags with plus := true } f
    else if c = 45 then readFlags { flags with minus := true, zero := false } f
    else if c = 32 then readFlags { flags with space := true } f
    else (flags, c :: f)

def tooLarge (n : Int) : Bool := n.natAbs > 1000000

def isDigit (c : UInt8) : Bool := 48 ≤ c && c ≤ 57

/-- A number that is too large takes the rest of the format with it. -/
def parsenum (n : Option Nat) : Text → Option Nat × Text
  | [] => (n, [])
  | c :: f =>
    if isDigit c then
      if tooLarge (n.getD 0) then (none, [])
      else parsenum (some (10 * n.getD 0 + (c - 48).toNat)) f
    else (n, c :: f)

/-- The number between brackets, of which the opening one has been read. -/
def parseArgNumber (f : Text) : Option Nat × Text :=
  if f.length < 2 ∨ 93 ∉ f then (none, f)
  else
    let rest := (f.dropWhile (· != 93)).drop 1
    match parsenum none (f.takeWhile (· != 93)) with
    | (some n, []) => (some n, rest)
    | _ => (none, rest)

def argNumber (numArgs : Nat) (s : Scan) : Scan :=
  match s.rest with
  | [] => { s with afterIndex := false }
  | c :: f =>
    if c = 91 then
      let (n, rest) := parseArgNumber f
      let s := { s with rest, reordered := true, afterIndex := n.isSome }
      -- Indexes count from 1; a bad one spoils the directive, not the loop.
      if n.any fun n => 1 ≤ n && n ≤ numArgs then { s with argNum := n.getD 0 - 1 }
      else { s with goodArgNum := false }
    else { s with afterIndex := false }

section

variable {A : Type} (P : Printer A) (args : List A)

def intFromArg (argNum : Nat) : Option Int × Nat :=
  match args[argNum]? with
  | none => (none, argNum)
  | some a => ((P.asInt a).filter fun n => !tooLarge n, argNum + 1)

def readWidth (s : Scan) : Scan :=
  if s.rest.head? = some 42 then
    let (n, argNum) := intFromArg P args s.argNum
    let s := { s with rest := s.rest.drop 1, argNum, afterIndex := false }
    match n with
    | none => { s with out := s.out ++ text "%!(BADWIDTH)" }
    | some n =>
      -- A negative width pads on the right, and not with zeros.
      let flags := if n < 0 then { s.spec.flags with minus := true, zero := false }
        else s.spec.flags
      { s with spec := { s.spec with flags, wid := some n.natAbs } }
  else
    let (n, rest) := parsenum none s.rest
    { s with
      rest, spec := { s.spec with wid := n }
      -- An index belongs right before a star or the verb, so `%[3]2d` is bad.
      goodArgNum := s.goodArgNum && !(s.afterIndex && n.isSome) }

def readPrec (s : Scan) : Scan :=
  if s.rest.head? = some 46 then
    let s := argNumber args.length
      { s with rest := s.rest.drop 1, goodArgNum := s.goodArgNum && !s.afterIndex }
    if s.rest.head? = some 42 then
      let (n, argNum) := intFromArg P args s.argNum
      let prec := (n.filter fun n => 0 ≤ n).map Int.toNat
      { s with
        rest := s.rest.drop 1, argNum, afterIndex := false, spec := { s.spec with prec }
        out := if prec.isSome then s.out else s.out ++ text "%!(BADPREC)" }
    else
      let (n, rest) := parsenum none s.rest
      -- A point alone is the precision 0.
      { s with rest, spec := { s.spec with prec := some (n.getD 0) } }
  else s

/-- How many bytes follow `c` in a UTF-8 sequence, and between which bounds the first of them is. -/
def runeTail (c : UInt8) : Nat × UInt8 × UInt8 :=
  if c < 0xC2 then (0, 0, 0)
  else if c ≤ 0xDF then (1, 0x80, 0xBF)
  else if c = 0xE0 then (2, 0xA0, 0xBF)
  else if c = 0xED then (2, 0x80, 0x9F)
  else if c ≤ 0xEF then (2, 0x80, 0xBF)
  else if c = 0xF0 then (3, 0x90, 0xBF)
  else if c = 0xF4 then (3, 0x80, 0x8F)
  else if c < 0xF4 then (3, 0x80, 0xBF)
  else (0, 0, 0)

def runeSize (c : UInt8) (f : Text) : Nat :=
  let (n, lo, hi) := runeTail c
  if n ≤ f.length ∧ f.head?.any (fun x => lo ≤ x && x ≤ hi) ∧
    (f.take n).all fun x => 0x80 ≤ x && x ≤ 0xBF then n + 1 else 1

/-- The verb at the front of a format; a byte that is no UTF-8 is replaced. -/
def readVerb (c : UInt8) (f : Text) : Text :=
  if runeSize c f = 1 ∧ 0x80 ≤ c then [0xEF, 0xBF, 0xBD] else (c :: f).take (runeSize c f)

def printVerb (s : Scan) : Scan :=
  match s.rest with
  | [] => { s with out := s.out ++ text "%!(NOVERB)" }
  | c :: f =>
    let verb := readVerb c f
    let rest := (c :: f).drop (runeSize c f)
    -- Whatever stands between the two percent signs is dropped, and no argument is taken.
    if c = percent then { s with rest, out := s.out ++ [percent] }
    else if !s.goodArgNum then
      { s with rest, out := s.out ++ (text "%!" ++ verb ++ text "(BADINDEX)") }
    else
      match args[s.argNum]? with
      | none => { s with rest, out := s.out ++ (text "%!" ++ verb ++ text "(MISSING)") }
      | some a =>
        { s with rest, out := s.out ++ P.printArg s.spec verb a, argNum := s.argNum + 1 }

def scanVerb (f : Text) (argNum : Nat) (reordered : Bool) : Scan :=
  let (flags, rest) := readFlags {} f
  let s := argNumber args.length { rest, argNum, reordered, spec := { flags } }
  let s := readPrec P args (readWidth P args s)
  if s.afterIndex then s else argNumber args.length s

def directive (f : Text) (argNum : Nat) (reordered : Bool) : Scan :=
  printVerb P args (scanVerb P args f argNum reordered)

def extraArgs (argNum : Nat) (reordered : Bool) : Text :=
  if reordered || args.length ≤ argNum then []
  else text "%!(EXTRA " ++ (text ", ").intercalate ((args.drop argNum).map fun a =>
    P.typeName a ++ (text "=" ++ P.printArg {} (text "v") a)) ++ text ")"

def doPrintf : Nat → Text → Nat → Bool → Text
  | 0, _, _, _ => []
  | _ + 1, [], argNum, reordered => extraArgs P args argNum reordered
  | fuel + 1, c :: f, argNum, reordered =>
    if c = percent then
      let s := directive P args f argNum reordered
      s.out ++ doPrintf fuel s.rest s.argNum s.reordered
    else c :: doPrintf fuel f argNum reordered

def printRest (f : Text) (argNum : Nat) (reordered : Bool) : Text :=
  doPrintf P args (f.length + 1) f argNum reordered

end

def fprintf {A : Type} (P : Printer A) (format : Text) (args : List A) : Text :=
  printRest P args format 0 false

/-! ## The scanners read on

A scanner leaves a suffix of what it is given.  A byte that no directive has before its verb stops
them all, so that what comes after it is not touched, unless a number is too large.
-/

def stops (q : UInt8) : Bool :=
  !(isDigit q || q ∈ [35, 43, 45, 32, 91, 93, 42, 46, percent]) && q < 0x80

def ReadsOn (tail r r' : Text) : Prop := r' <:+ r ∧ (tail <:+ r → tail <:+ r' ∨ r' = [])

theorem ReadsOn.refl (tail r : Text) : ReadsOn tail r r := ⟨suffix_rfl, fun h => .inl h⟩

theorem ReadsOn.trans {r r' r'' : Text} (h : ReadsOn tail r r') (h' : ReadsOn tail r' r'') :
    ReadsOn tail r r'' := by
  refine ⟨h'.1.trans h.1, fun htail => ?_⟩
  obtain htail | rfl := h.2 htail
  · exact h'.2 htail
  · exact .inr (suffix_nil.mp h'.1)

theorem ReadsOn.nil (tail r : Text) : ReadsOn tail r [] := ⟨nil_suffix, fun _ => .inr rfl⟩

theorem dropWhile_readsOn (htail : 93 ∉ tail) {f : Text} (hf : 93 ∈ f) :
    ReadsOn tail f ((f.dropWhile (· != 93)).drop 1) := by
  refine ⟨(drop_suffix 1 _).trans (dropWhile_suffix _), ?_⟩
  rintro ⟨u, rfl⟩
  -- The bracket that is found is the first one, and the tail has none.
  have hu : 93 ∈ u := (mem_append.mp hf).resolve_right htail
  left
  have hne : u.dropWhile (· != 93) ≠ [] := by
    intro hnil
    have hall := dropWhile_eq_nil_iff.mp hnil 93 hu
    cases hall
  rw [dropWhile_append, if_neg (by simpa using hne),
    drop_append_of_le_length (length_pos_iff.mpr hne)]
  exact suffix_append _ _

theorem parseArgNumber_readsOn (htail : 93 ∉ tail) (f : Text) :
    ReadsOn tail f (parseArgNumber f).2 := by
  unfold parseArgNumber
  split
  · exact .refl _ _
  · rename_i hf
    have hrest := dropWhile_readsOn htail (not_not.mp (not_or.mp hf).2)
    split <;> exact hrest

section

variable {q : UInt8} {C : Text} (hq : stops q)

include hq

theorem ReadsOn.cons (hc : stops c = false) (f : Text) : ReadsOn (q :: C) (c :: f) f := by
  refine ⟨suffix_cons c f, fun htail => .inl ?_⟩
  obtain heq | htail := suffix_cons_iff.mp htail
  · rw [head_eq_of_cons_eq heq, hc] at hq
    cases hq
  · exact htail

theorem readFlags_readsOn (flags : Flags) (f : Text) :
    ReadsOn (q :: C) f (readFlags flags f).2 := by
  induction f generalizing flags with
  | nil => exact .refl _ _
  | cons c f ih =>
    rw [readFlags]
    split_ifs with hsharp hzero hplus hminus hspace
    · exact .trans (.cons hq (hsharp ▸ by decide) f) (ih _)
    · exact .trans (.cons hq (hzero ▸ by decide) f) (ih _)
    · exact .trans (.cons hq (hplus ▸ by decide) f) (ih _)
    · exact .trans (.cons hq (hminus ▸ by decide) f) (ih _)
    · exact .trans (.cons hq (hspace ▸ by decide) f) (ih _)
    · exact .refl _ _

theorem parsenum_readsOn (n : Option Nat) (f : Text) : ReadsOn (q :: C) f (parsenum n f).2 := by
  induction f generalizing n with
  | nil => exact .refl _ _
  | cons c f ih =>
    rw [parsenum]
    split_ifs with hdigit hlarge
    · exact .nil _ _
    · exact .trans (.cons hq (by simp [stops, hdigit]) f) (ih _)
    · exact .refl _ _

theorem argNumber_readsOn (hC : 93 ∉ q :: C) (numArgs : Nat) (s : Scan) :
    ReadsOn (q :: C) s.rest (argNumber numArgs s).rest := by
  unfold argNumber
  split
  · exact .refl _ _
  rename_i c f hrest
  split
  · rename_i hc
    have hf : ReadsOn (q :: C) s.rest (parseArgNumber f).2 := by
      rw [hrest]
      exact .trans (.cons hq (hc ▸ by decide) f) (parseArgNumber_readsOn hC f)
    dsimp only
    split <;> exact hf
  · exact .refl _ _

theorem drop_one_readsOn (hc : stops c = false) {r : Text} (hr : r.head? = some c) :
    ReadsOn (q :: C) r (r.drop 1) := by
  cases r with
  | nil => cases hr
  | cons x r =>
    obtain rfl : x = c := Option.some.inj hr
    exact .cons hq hc r

variable {A : Type} (P : Printer A) (args : List A)

theorem readWidth_readsOn (s : Scan) : ReadsOn (q :: C) s.rest (readWidth P args s).rest := by
  unfold readWidth
  split
  · rename_i hstar
    have hrest : ReadsOn (q :: C) s.rest (s.rest.drop 1) := drop_one_readsOn hq (by decide) hstar
    dsimp only
    split <;> exact hrest
  · exact parsenum_readsOn hq none s.rest

theorem readPrec_readsOn (hC : 93 ∉ q :: C) (s : Scan) :
    ReadsOn (q :: C) s.rest (readPrec P args s).rest := by
  unfold readPrec
  split
  · rename_i hpoint
    have hindex : ReadsOn (q :: C) s.rest (argNumber args.length { s with
        rest := s.rest.drop 1, goodArgNum := s.goodArgNum && !s.afterIndex }).rest :=
      .trans (drop_one_readsOn hq (by decide) hpoint) (argNumber_readsOn hq hC _ _)
    dsimp only
    split
    · rename_i hstar
      exact .trans hindex (drop_one_readsOn hq (by decide) hstar)
    · exact .trans hindex (parsenum_readsOn hq none _)
  · exact .refl _ _

end

theorem runeSize_eq (c : UInt8) (f : Text) : ∃ n, runeSize c f = n + 1 ∧ n ≤ f.length ∧
    (∀ x ∈ f.take n, 0x80 ≤ x) ∧ (c < 0x80 → n = 0) := by
  rw [runeSize]
  split
  rename_i n lo hi htail
  split
  · rename_i hsize
    refine ⟨n, rfl, hsize.1, fun x hx => ?_, fun hc => ?_⟩
    · have hbounds := all_eq_true.mp hsize.2.2 x hx
      rw [Bool.and_eq_true, decide_eq_true_eq] at hbounds
      exact hbounds.1
    · have hlt : c < 0xC2 := UInt8.lt_trans hc (by decide)
      rw [runeTail, if_pos hlt] at htail
      cases htail
      rfl
  · exact ⟨0, rfl, Nat.zero_le _, by simp, fun _ => rfl⟩

theorem runeSize_ascii (hc : c < 0x80) (f : Text) : runeSize c f = 1 := by
  obtain ⟨n, hsize, -, -, hascii⟩ := runeSize_eq c f
  rw [hsize, hascii hc]

theorem readVerb_ascii (hc : c < 0x80) (f : Text) : readVerb c f = [c] := by
  rw [readVerb, runeSize_ascii hc, if_neg fun h => UInt8.not_le.mpr hc h.2]
  rfl

theorem percent_not_mem_readVerb (hc : c ≠ percent) (f : Text) : percent ∉ readVerb c f := by
  unfold readVerb
  split
  · decide
  obtain ⟨n, hsize, -, htail, -⟩ := runeSize_eq c f
  rw [hsize, take_succ_cons]
  intro hmem
  obtain heq | hmem := mem_cons.mp hmem
  · exact hc heq.symm
  · exact absurd (htail _ hmem) (by decide)

section

variable {q : UInt8} {C : Text} (hq : stops q) {A : Type} (P : Printer A) (args : List A)

include hq

/-- The verb may be the byte that stops everything else, but is nothing beyond it. -/
theorem drop_runeSize (c : UInt8) (f : Text) (h : q :: C <:+ c :: f) :
    q :: C <:+ (c :: f).drop (runeSize c f) ∨ (c :: f).drop (runeSize c f) = C := by
  obtain ⟨n, hsize, hlength, htail, hascii⟩ := runeSize_eq c f
  have hqlt : q < 0x80 := by
    rw [stops, Bool.and_eq_true, decide_eq_true_eq] at hq
    exact hq.2
  rw [hsize, drop_succ_cons]
  obtain heq | ⟨u, rfl⟩ := suffix_cons_iff.mp h
  · cases heq
    rw [hascii hqlt]
    exact .inr rfl
  left
  -- A verb of several bytes that reached `q` would have it among its last ones, which are no ASCII.
  have hn : n ≤ u.length := by
    by_contra hlt
    have hmem : q ∈ (u ++ q :: C).take n := by
      rw [take_append, mem_append]
      right
      rw [show n - u.length = (n - u.length - 1) + 1 by omega]
      exact mem_cons_self
    exact absurd (htail q hmem) (UInt8.not_le.mpr hqlt)
  rw [drop_append_of_le_length hn]
  exact suffix_append _ _

theorem printVerb_rest (s : Scan) : (printVerb P args s).rest <:+ s.rest ∧
    (q :: C <:+ s.rest → q :: C <:+ (printVerb P args s).rest ∨ (printVerb P args s).rest = C) := by
  unfold printVerb
  split
  · rename_i hrest
    refine ⟨suffix_rfl, fun htail => ?_⟩
    rw [hrest] at htail
    exact absurd (suffix_nil.mp htail) (cons_ne_nil q C)
  rename_i c f hrest
  rw [hrest]
  have hdrop : (c :: f).drop (runeSize c f) <:+ c :: f := drop_suffix _ _
  have hverb := drop_runeSize (C := C) hq c f
  dsimp only
  split
  · exact ⟨hdrop, hverb⟩
  · split
    · exact ⟨hdrop, hverb⟩
    · split <;> exact ⟨hdrop, hverb⟩

theorem scanVerb_readsOn (hC : 93 ∉ q :: C) (f : Text) (argNum : Nat) (reordered : Bool) :
    ReadsOn (q :: C) f (scanVerb P args f argNum reordered).rest := by
  unfold scanVerb
  have hflags := readFlags_readsOn (C := C) hq {} f
  generalize readFlags {} f = flags at hflags
  have hprec := ((hflags.trans (argNumber_readsOn hq hC args.length
    { rest := flags.2, argNum, reordered, spec := { flags := flags.1 } })).trans
    (readWidth_readsOn hq P args _)).trans (readPrec_readsOn hq P args hC _)
  dsimp only
  split
  · exact hprec
  · exact hprec.trans (argNumber_readsOn hq hC _ _)

theorem directive_rest (hC : 93 ∉ q :: C) (f : Text) (argNum : Nat) (reordered : Bool) :
    (directive P args f argNum reordered).rest <:+ f ∧
    (q :: C <:+ f → q :: C <:+ (directive P args f argNum reordered).rest ∨
      (directive P args f argNum reordered).rest = C ∨
      (directive P args f argNum reordered).rest = []) := by
  obtain ⟨hsuffix, hreads⟩ := scanVerb_readsOn hq P args hC f argNum reordered
  obtain ⟨hverb, htail⟩ := printVerb_rest (C := C) hq P args (scanVerb P args f argNum reordered)
  refine ⟨hverb.trans hsuffix, fun hf => ?_⟩
  obtain hrest | hnil := hreads hf
  · obtain hrest | hrest := htail hrest
    · exact .inl hrest
    · exact .inr (.inl hrest)
  · rw [hnil] at hverb
    exact .inr (.inr (suffix_nil.mp hverb))

end

theorem directive_suffix {A : Type} (P : Printer A) (args : List A) (f : Text) (argNum : Nat)
    (reordered : Bool) : (directive P args f argNum reordered).rest <:+ f :=
  (directive_rest (q := 34) (C := []) (by decide) P args (by decide) f argNum reordered).1

/-! ## The loop -/

section

variable {A : Type} {P : Printer A} {args : List A}

theorem doPrintf_fuel {fuel fuel' : Nat} {f : Text} (h : f.length < fuel) (h' : f.length < fuel')
    (argNum : Nat) (reordered : Bool) :
    doPrintf P args fuel f argNum reordered = doPrintf P args fuel' f argNum reordered := by
  -- On the fuel, as a directive may read any number of bytes.
  induction fuel generalizing fuel' f argNum reordered with
  | zero => cases h
  | succ fuel ih =>
    cases fuel' with
    | zero => cases h'
    | succ fuel' =>
      cases f with
      | nil => rfl
      | cons c f =>
        rw [length_cons] at h h'
        rw [doPrintf, doPrintf]
        split
        · have hrest := (directive_suffix P args f argNum reordered).length_le
          exact congrArg _ (ih (by omega) (by omega) _ _)
        · exact congrArg _ (ih (by omega) (by omega) _ _)

theorem printRest_nil (argNum : Nat) (reordered : Bool) :
    printRest P args [] argNum reordered = extraArgs P args argNum reordered := rfl

theorem printRest_cons (hc : c ≠ percent) (f : Text) (argNum : Nat) (reordered : Bool) :
    printRest P args (c :: f) argNum reordered = c :: printRest P args f argNum reordered := by
  rw [printRest, doPrintf, if_neg hc]
  rfl

theorem printRest_percent (f : Text) (argNum : Nat) (reordered : Bool) :
    printRest P args (percent :: f) argNum reordered =
      (directive P args f argNum reordered).out ++
        printRest P args (directive P args f argNum reordered).rest
          (directive P args f argNum reordered).argNum
          (directive P args f argNum reordered).reordered := by
  have hrest := (directive_suffix P args f argNum reordered).length_le
  rw [printRest, doPrintf, if_pos rfl]
  dsimp only
  rw [printRest, doPrintf_fuel (by rw [length_cons]; omega) (Nat.lt_succ_self _)]

theorem printRest_append {u : Text} (hu : percent ∉ u) (f : Text) (argNum : Nat)
    (reordered : Bool) :
    printRest P args (u ++ f) argNum reordered = u ++ printRest P args f argNum reordered := by
  induction u with
  | nil => rfl
  | cons c u ih =>
    have hc : c ≠ percent := (ne_of_not_mem_cons hu).symm
    rw [cons_append, printRest_cons hc, ih (not_mem_of_not_mem_cons hu)]
    rfl

/-! ## Directives with nothing but a verb -/

theorem not_of_stops (hq : stops q) : isDigit q = false ∧
    q ∉ [48, 35, 43, 45, 32, 91, 93, 42, 46, percent] ∧ q < 0x80 := by
  rw [stops, Bool.and_eq_true, Bool.not_eq_true', Bool.or_eq_false_iff, decide_eq_false_iff_not,
    decide_eq_true_eq] at hq
  obtain ⟨⟨hdigit, hmem⟩, hascii⟩ := hq
  refine ⟨hdigit, fun h => ?_, hascii⟩
  obtain rfl | h := mem_cons.mp h
  · cases hdigit
  · exact hmem h

theorem scanVerb_stop (hq : stops q) (f : Text) (argNum : Nat)
    (reordered : Bool) : scanVerb P args (q :: f) argNum reordered =
      { rest := q :: f, argNum := argNum, reordered := reordered } := by
  obtain ⟨hdigit, hmem, -⟩ := not_of_stops hq
  simp only [mem_cons, not_or] at hmem
  simp [scanVerb, readFlags, argNumber, readWidth, readPrec, parsenum, hdigit, hmem]

theorem directive_missing (hq : stops q) (f : Text)
    (reordered : Bool) (h : args.length ≤ argNum) :
    directive P args (q :: f) argNum reordered =
      { rest := f, argNum, reordered, out := text "%!" ++ [q] ++ text "(MISSING)" } := by
  obtain ⟨-, hmem, hascii⟩ := not_of_stops hq
  simp only [mem_cons, not_or] at hmem
  simp [directive, scanVerb_stop hq, printVerb, runeSize_ascii hascii, readVerb_ascii hascii,
    hmem, getElem?_eq_none h]

theorem directive_stop (hq : stops q) (f : Text)
    (reordered : Bool) {a : A} (ha : args[argNum]? = some a) :
    directive P args (q :: f) argNum reordered =
      { rest := f, argNum := argNum + 1, reordered, out := P.printArg {} [q] a } := by
  obtain ⟨-, hmem, hascii⟩ := not_of_stops hq
  simp only [mem_cons, not_or] at hmem
  simp [directive, scanVerb_stop hq, printVerb, runeSize_ascii hascii, readVerb_ascii hascii,
    hmem, ha]

theorem printRest_percent_percent (f : Text) (argNum : Nat) (reordered : Bool) :
    printRest P args (percent :: percent :: f) argNum reordered =
      percent :: printRest P args f argNum reordered := by
  have hdirective : directive P args (percent :: f) argNum reordered =
      { rest := f, argNum, reordered, out := [percent] } := by
    simp [directive, scanVerb, readFlags, argNumber, readWidth, readPrec, parsenum, printVerb,
      runeSize_ascii (show (37 : UInt8) < 0x80 by decide), percent, isDigit]
  rw [printRest_percent, hdirective]
  rfl

theorem directive_prec {d : UInt8} (hq : stops q) (hd : isDigit d) (f : Text)
    (reordered : Bool) {a : A} (ha : args[argNum]? = some a) :
    directive P args (46 :: d :: q :: f) argNum reordered =
      { rest := f, argNum := argNum + 1, reordered, spec := { prec := some (d - 48).toNat }
        out := P.printArg { prec := some (d - 48).toNat } [q] a } := by
  obtain ⟨hdigit, hmem, hascii⟩ := not_of_stops hq
  simp only [mem_cons, not_or] at hmem
  have hbracket : d ≠ 91 := by
    rintro rfl
    cases hd
  have hstar : d ≠ 42 := by
    rintro rfl
    cases hd
  simp [directive, scanVerb, readFlags, argNumber, readWidth, readPrec, parsenum, printVerb,
    runeSize_ascii hascii, readVerb_ascii hascii, hdigit, hd, hmem, hbracket, hstar, ha,
    tooLarge, show isDigit 46 = false by decide]

end

/-! ## Formats in pieces -/

/-- A piece of a format: text, a percent sign, or a directive with the argument it takes and what
is printed for it. -/
inductive Piece (A : Type) where
  | text (u : Text)
  | percent
  | verb (d : Text) (a : A) (out : Text)

namespace Piece

variable {A : Type}

def format : Piece A → Text
  | text u => u
  | percent => [Fprintf.percent, Fprintf.percent]
  | verb d _ _ => Fprintf.percent :: d

def args : Piece A → List A
  | text _ | percent => []
  | verb _ a _ => [a]

def out : Piece A → Text
  | text u => u
  | percent => [Fprintf.percent]
  | verb _ _ o => o

/-- A piece comes out as it says, wherever it stands in a format. -/
def Prints (P : Printer A) : Piece A → Prop
  | text u => Fprintf.percent ∉ u
  | percent => True
  | verb d a o => ∀ args argNum f reordered, args[argNum]? = some a →
    ∃ spec, directive P args (d ++ f) argNum reordered =
      { rest := f, argNum := argNum + 1, reordered, spec, out := o }

theorem prints_verb {P : Printer A} (hq : stops q) (a : A) :
    (verb [q] a (P.printArg {} [q] a)).Prints P :=
  fun _ _ f reordered ha => ⟨{}, directive_stop hq f reordered ha⟩

theorem prints_prec {P : Printer A} {d : UInt8} (hq : stops q) (hd : isDigit d)
    (a : A) : (verb [46, d, q] a (P.printArg { prec := some (d - 48).toNat } [q] a)).Prints P :=
  fun _ _ f reordered ha => ⟨_, directive_prec hq hd f reordered ha⟩

end Piece

theorem printRest_pieces {A : Type} {P : Printer A} {ps : List (Piece A)}
    (h : ∀ p ∈ ps, p.Prints P) (before after : List A) (f : Text) (reordered : Bool) :
    printRest P (before ++ (ps.flatMap Piece.args ++ after)) (ps.flatMap Piece.format ++ f)
      before.length reordered = ps.flatMap Piece.out ++
        printRest P (before ++ (ps.flatMap Piece.args ++ after)) f
          (before.length + (ps.flatMap Piece.args).length) reordered := by
  -- The arguments of the pieces so far move to `before`.
  induction ps generalizing before with
  | nil => rfl
  | cons p ps ih =>
    obtain ⟨hp, hps⟩ := forall_mem_cons.mp h
    cases p with
    | text u =>
      simp only [flatMap_cons, Piece.format, Piece.args, Piece.out, nil_append, append_assoc]
      rw [printRest_append hp, ih hps]
    | percent =>
      simp only [flatMap_cons, Piece.format, Piece.args, Piece.out, nil_append, cons_append]
      rw [printRest_percent_percent, ih hps]
    | verb d a o =>
      have hrest := ih hps (before ++ [a])
      simp only [append_assoc, singleton_append, length_append, length_singleton] at hrest
      obtain ⟨spec, hdirective⟩ := hp (before ++ a :: (ps.flatMap Piece.args ++ after))
        before.length (ps.flatMap Piece.format ++ f) reordered (by simp)
      simp only [flatMap_cons, Piece.format, Piece.args, Piece.out, cons_append,
        append_assoc, nil_append]
      rw [printRest_percent, hdirective]
      dsimp only
      rw [hrest, length_cons, Nat.add_assoc, Nat.add_comm 1]

theorem fprintf_pieces {A : Type} {P : Printer A} {ps : List (Piece A)} (h : ∀ p ∈ ps, p.Prints P) :
    fprintf P (ps.flatMap Piece.format) (ps.flatMap Piece.args) = ps.flatMap Piece.out := by
  have hrest := printRest_pieces h [] [] [] false
  simp only [nil_append, List.append_nil, length_nil, Nat.zero_add] at hrest
  rw [fprintf, hrest, printRest_nil, extraArgs, if_pos (by simp), List.append_nil]

end Lsvmi.Reasoning.Fprintf
