import Lsvmi.Reasoning.Rows

/-!
# The text exposition format

A sample is a line with the name of a metric, its labels in braces, a value and a timestamp, as
programs write it, that is without the optional blanks.  The values of the labels are quoted, with
backslashes, double quotes and newlines escaped.
-/

namespace Lsvmi.Reasoning.Exposition

open List

variable {b rest v : List UInt8} {ls : List (List UInt8 × List UInt8)} {l : List UInt8 × List UInt8}

def quote : UInt8 := 34
def backslash : UInt8 := 92
def newline : UInt8 := 10
def space : UInt8 := 32
def comma : UInt8 := 44
def equals : UInt8 := 61
def leftBrace : UInt8 := 123
def rightBrace : UInt8 := 125

/-! ## The values of labels -/

def escapeByte (c : UInt8) : List UInt8 :=
  if c = backslash then [backslash, backslash]
  else if c = quote then [backslash, quote]
  else if c = newline then [backslash, 110]
  else [c]

def escape (v : List UInt8) : List UInt8 := v.flatMap escapeByte

/-- The byte that stands behind a backslash and `c`. -/
def unescapeByte (c : UInt8) : Option UInt8 :=
  if c = backslash then some backslash
  else if c = quote then some quote
  else if c = 110 then some newline
  else none

/-- Reads an escaped value and the quote that ends it; `escaped` is whether there was a backslash
just before. -/
def readValue (escaped : Bool) : List UInt8 → Option (List UInt8 × List UInt8)
  | [] => none
  | c :: rest =>
    if escaped then
      (unescapeByte c).bind fun x => (readValue false rest).map fun (v, rest) => (x :: v, rest)
    else if c = quote then some ([], rest)
    else if c = newline then none
    else if c = backslash then readValue true rest
    else (readValue false rest).map fun (v, rest) => (c :: v, rest)

def Plain (v : List UInt8) : Prop := ∀ c ∈ v, c ≠ backslash ∧ c ≠ quote ∧ c ≠ newline

instance (v : List UInt8) : Decidable (Plain v) := List.decidableBAll _ v

@[simp] theorem escape_nil : escape [] = [] := rfl

@[simp] theorem escape_cons (c : UInt8) (v : List UInt8) :
    escape (c :: v) = escapeByte c ++ escape v := rfl

theorem escape_append (v v' : List UInt8) : escape (v ++ v') = escape v ++ escape v' :=
  flatMap_append

theorem readValue_escapeByte (c : UInt8) (rest : List UInt8) :
    readValue false (escapeByte c ++ rest) =
      (readValue false rest).map fun (v, rest) => (c :: v, rest) := by
  unfold escapeByte
  split_ifs with hbackslash hquote hnewline
  · subst c
    rfl
  · subst c
    rfl
  · subst c
    rfl
  · rw [singleton_append, readValue, if_neg Bool.false_ne_true, if_neg hquote, if_neg hnewline,
      if_neg hbackslash]

theorem readValue_escape (v rest : List UInt8) :
    readValue false (escape v ++ quote :: rest) = some (v, rest) := by
  induction v with
  | nil => rfl
  | cons c v ih =>
    rw [escape_cons, append_assoc, readValue_escapeByte, ih]
    rfl

def unescape (b : List UInt8) : List UInt8 :=
  ((readValue false (b ++ [quote])).map Prod.fst).getD []

theorem unescape_escape (v : List UInt8) : unescape (escape v) = v := by
  rw [unescape, readValue_escape]
  rfl

/-- Without a newline, a quote that ends the value or a backslash that escapes nothing; `escaped` is
whether there was a backslash just before. -/
def wellEscaped (escaped : Bool) : List UInt8 → Bool
  | [] => !escaped
  | c :: rest =>
    c != newline && (escaped || c != quote) && wellEscaped (!escaped && c == backslash) rest

theorem wellEscaped_escapeByte (c : UInt8) (rest : List UInt8) :
    wellEscaped false (escapeByte c ++ rest) = wellEscaped false rest := by
  unfold escapeByte
  split_ifs with hbackslash hquote hnewline
  · rfl
  · rfl
  · rfl
  · rw [singleton_append, wellEscaped, bne_iff_ne.mpr hnewline, bne_iff_ne.mpr hquote,
      beq_eq_false_iff_ne.mpr hbackslash]
    rfl

theorem wellEscaped_escape (v : List UInt8) : wellEscaped false (escape v) := by
  induction v with
  | nil => rfl
  | cons c v ih => rw [escape_cons, wellEscaped_escapeByte, ih]

theorem escapeByte_of_unescapeByte {c x : UInt8} (h : unescapeByte c = some x) :
    escapeByte x = [backslash, c] := by
  unfold unescapeByte at h
  split_ifs at h
  all_goals
    cases h
    subst c
    rfl

theorem readValue_sound {escaped : Bool} (h : readValue escaped b = some (v, rest)) :
    (if escaped then backslash :: b else b) = escape v ++ quote :: rest := by
  induction b generalizing escaped v with
  | nil => cases h
  | cons c b ih =>
    rw [readValue] at h
    split_ifs at h ⊢ with hescaped hquote hnewline hbackslash
    · obtain ⟨x, hx, h⟩ := Option.bind_eq_some_iff.mp h
      obtain ⟨⟨w, r⟩, hr, hw⟩ := Option.map_eq_some_iff.mp h
      cases hw
      have hb : b = escape w ++ quote :: rest := ih hr
      rw [escape_cons, escapeByte_of_unescapeByte hx, hb]
      rfl
    · subst c
      cases h
      rfl
    · subst c
      exact ih h
    obtain ⟨⟨w, r⟩, hr, hw⟩ := Option.map_eq_some_iff.mp h
    cases hw
    have hb : b = escape w ++ quote :: rest := ih hr
    rw [escape_cons, escapeByte, if_neg hbackslash, if_neg hquote, if_neg hnewline, hb]
    rfl

theorem escape_eq_self (h : Plain v) : escape v = v := by
  induction v with
  | nil => rfl
  | cons c v ih =>
    obtain ⟨hbackslash, hquote, hnewline⟩ := h c mem_cons_self
    rw [escape_cons, escapeByte, if_neg hbackslash, if_neg hquote, if_neg hnewline,
      ih fun x hx => h x (mem_cons_of_mem c hx)]
    rfl

theorem length_le_length_escape (v : List UInt8) : v.length ≤ (escape v).length := by
  induction v with
  | nil => exact Nat.le_refl 0
  | cons c v ih =>
    have hc : 1 ≤ (escapeByte c).length := by
      unfold escapeByte
      split_ifs <;> simp
    rw [escape_cons, length_append, length_cons]
    omega

theorem plain_of_length_escape_le (h : (escape v).length ≤ v.length) : Plain v := by
  induction v with
  | nil =>
    intro c hc
    cases hc
  | cons c v ih =>
    have hv := length_le_length_escape v
    rw [escape_cons, length_append, length_cons] at h
    by_cases hc : c ≠ backslash ∧ c ≠ quote ∧ c ≠ newline
    · obtain ⟨hbackslash, hquote, hnewline⟩ := hc
      rw [escapeByte, if_neg hbackslash, if_neg hquote, if_neg hnewline, length_singleton] at h
      have hplain := ih (by omega)
      intro x hx
      obtain rfl | hx := mem_cons.mp hx
      · exact ⟨hbackslash, hquote, hnewline⟩
      · exact hplain x hx
    · have hlength : (escapeByte c).length = 2 := by
        unfold escapeByte
        split_ifs <;> simp_all
      omega

/-! ## Names and numbers -/

def isLetter (c : UInt8) : Bool := (65 ≤ c && c ≤ 90) || (97 ≤ c && c ≤ 122) || c == 95

def isDigit (c : UInt8) : Bool := 48 ≤ c && c ≤ 57

/-- The bytes of a metric name; a label name has no colons. -/
def isNameByte (c : UInt8) : Bool := isLetter c || isDigit c || c == 58

def isMetricName (name : List UInt8) : Bool :=
  name.head?.any (fun c => isLetter c || c == 58) && name.all isNameByte

def isLabelName (name : List UInt8) : Bool :=
  name.head?.any isLetter && name.all fun c => isLetter c || isDigit c

def isDigits (b : List UInt8) : Bool := b != [] && b.all isDigit

def dropSign : List UInt8 → List UInt8
  | [] => []
  | c :: b => if c = 43 ∨ c = 45 then b else c :: b

def isDecimal (b : List UInt8) : Bool :=
  isDigits (b.takeWhile isDigit) &&
    (b.dropWhile isDigit == [] ||
      ((b.dropWhile isDigit).head? == some 46 && isDigits ((b.dropWhile isDigit).drop 1)))

def isNumber (b : List UInt8) : Bool :=
  isDecimal (dropSign b) || dropSign b == [73, 110, 102] || b == [78, 97, 78]

def isInteger (b : List UInt8) : Bool := isDigits (dropSign b)

theorem not_mem_of_isDigits {x : UInt8} (h : isDigits b) (hx : isDigit x = false) : x ∉ b := by
  intro hmem
  have hall := (Bool.and_eq_true_iff.mp h).2
  rw [all_eq_true.mp hall x hmem] at hx
  cases hx

theorem mem_dropSign {x : UInt8} (h : x ∈ b) (hx : ¬ (x = 43 ∨ x = 45)) : x ∈ dropSign b := by
  cases b with
  | nil => exact h
  | cons c b =>
    rw [dropSign]
    split
    · rename_i hc
      obtain rfl | hmem := mem_cons.mp h
      · exact absurd hc hx
      · exact hmem
    · exact h

theorem newline_not_mem_of_isInteger (h : isInteger b) : newline ∉ b :=
  fun hmem => not_mem_of_isDigits h (by decide) (mem_dropSign hmem (by decide))

theorem space_not_mem_of_isNumber (h : isNumber b) : space ∉ b := by
  intro hmem
  have hmem' := mem_dropSign hmem (by decide)
  rw [isNumber, Bool.or_eq_true, Bool.or_eq_true, beq_iff_eq, beq_iff_eq] at h
  obtain (hdecimal | hinf) | hnan := h
  · obtain ⟨hdigits, hrest⟩ := Bool.and_eq_true_iff.mp hdecimal
    rw [← takeWhile_append_dropWhile (p := isDigit) (l := dropSign b), mem_append] at hmem'
    obtain hmem' | hmem' := hmem'
    · exact not_mem_of_isDigits hdigits (by decide) hmem'
    cases hpoint : (dropSign b).dropWhile isDigit with
    | nil =>
      rw [hpoint] at hmem'
      cases hmem'
    | cons c rest =>
      rw [hpoint] at hmem' hrest
      simp only [head?_cons, drop_one, tail_cons, Bool.or_eq_true,
        Bool.and_eq_true, beq_iff_eq, reduceCtorEq, false_or, Option.some.injEq] at hrest
      obtain ⟨rfl, hfraction⟩ := hrest
      obtain hpoint | hmem' := mem_cons.mp hmem'
      · exact absurd hpoint (by decide)
      · exact not_mem_of_isDigits hfraction (by decide) hmem'
  · rw [hinf] at hmem'
    exact absurd hmem' (by decide)
  · rw [hnan] at hmem
    exact absurd hmem (by decide)

theorem isDigits_takeWhile (h : isDigits b) :
    b.takeWhile isDigit = b ∧ b.dropWhile isDigit = [] := by
  have hall := all_eq_true.mp (Bool.and_eq_true_iff.mp h).2
  exact ⟨takeWhile_eq_self_iff.mpr hall, dropWhile_eq_nil_iff.mpr hall⟩

theorem isNumber_of_isInteger (h : isInteger b) : isNumber b := by
  obtain ⟨htake, hdrop⟩ := isDigits_takeWhile h
  have hdecimal : isDecimal (dropSign b) := by
    rw [isDecimal, htake, hdrop]
    exact Bool.and_eq_true_iff.mpr ⟨h, rfl⟩
  rw [isNumber, hdecimal]
  rfl

theorem isDecimal_point {b' : List UInt8} (h : isDigits b) (h' : isDigits b') :
    isDecimal (b ++ 46 :: b') := by
  have hall := all_eq_true.mp (Bool.and_eq_true_iff.mp h).2
  obtain ⟨htake, hdrop⟩ := takeWhile_append_stop (r := 46 :: b') hall (by simp; decide)
  rw [isDecimal, htake, hdrop, h]
  simp [h']

/-! ## Lines -/

structure Line where
  name : List UInt8
  labels : List (List UInt8 × List UInt8)
  value : List UInt8
  ts : List UInt8
  deriving DecidableEq

def encodeLabel (l : List UInt8 × List UInt8) : List UInt8 :=
  l.1 ++ equals :: quote :: (escape l.2 ++ [quote])

def encodeLabels : List (List UInt8 × List UInt8) → List UInt8
  | [] => []
  | [l] => encodeLabel l
  | l :: l' :: ls => encodeLabel l ++ comma :: encodeLabels (l' :: ls)

def Line.encode (s : Line) : List UInt8 :=
  s.name ++ leftBrace :: (encodeLabels s.labels ++
    rightBrace :: space :: (s.value ++ space :: (s.ts ++ [newline])))

def rawLabel (l : List UInt8 × List UInt8) : List UInt8 :=
  l.1 ++ equals :: quote :: (l.2 ++ [quote])

def rawLabels : List (List UInt8 × List UInt8) → List UInt8
  | [] => []
  | l :: ls => rawLabel l ++ ls.flatMap fun l => comma :: rawLabel l

def Line.raw (s : Line) : List UInt8 :=
  s.name ++ leftBrace :: (rawLabels s.labels ++
    rightBrace :: space :: (s.value ++ space :: (s.ts ++ [newline])))

/-- The names and numbers are as the format has them; the values of the labels are anything. -/
structure Line.WellFormed (s : Line) : Prop where
  name : isMetricName s.name = true
  ne_nil : s.labels ≠ []
  labels : ∀ l ∈ s.labels, isLabelName l.1 = true
  value : isNumber s.value = true
  ts : isInteger s.ts = true

def expect (c : UInt8) : List UInt8 → Option (List UInt8)
  | [] => none
  | x :: b => if x = c then some b else none

def readName (ok : List UInt8 → Bool) (b : List UInt8) : Option (List UInt8 × List UInt8) :=
  let name := b.takeWhile isNameByte
  if ok name then some (name, b.dropWhile isNameByte) else none

def readLabel (b : List UInt8) : Option ((List UInt8 × List UInt8) × List UInt8) := do
  let (name, b) ← readName isLabelName b
  let b ← expect equals b
  let b ← expect quote b
  let (v, b) ← readValue false b
  return ((name, v), b)

def readLabels : Nat → List UInt8 → Option (List (List UInt8 × List UInt8) × List UInt8)
  | 0, _ => none
  | fuel + 1, b => do
    let (l, b) ← readLabel b
    match b with
    | [] => none
    | c :: b =>
      if c = comma then
        let (ls, b) ← readLabels fuel b
        return (l :: ls, b)
      else if c = rightBrace then return ([l], b)
      else none

def readUntil (stop : UInt8) (ok : List UInt8 → Bool) (b : List UInt8) :
    Option (List UInt8 × List UInt8) := do
  let text := b.takeWhile (· != stop)
  let b ← expect stop (b.dropWhile (· != stop))
  if ok text then return (text, b) else none

def decode (b : List UInt8) : Option Line := do
  let (name, b) ← readName isMetricName b
  let b ← expect leftBrace b
  let (labels, b) ← readLabels b.length b
  let b ← expect space b
  let (value, b) ← readUntil space isNumber b
  let (ts, b) ← readUntil newline isInteger b
  if b = [] then return ⟨name, labels, value, ts⟩ else none

theorem expect_cons (c : UInt8) (b : List UInt8) : expect c (c :: b) = some b := if_pos rfl

theorem expect_sound {c : UInt8} (h : expect c b = some rest) : b = c :: rest := by
  cases b with
  | nil => cases h
  | cons x b =>
    rw [expect] at h
    split at h
    · cases h
      subst c
      rfl
    · cases h

section

variable {ok : List UInt8 → Bool} {name b rest : List UInt8} {c : UInt8}

theorem readName_append (hok : ok name) (hall : name.all isNameByte)
    (hc : isNameByte c = false) : readName ok (name ++ c :: rest) = some (name, c :: rest) := by
  have hname := all_eq_true.mp hall
  obtain ⟨htake, hdrop⟩ := takeWhile_append_stop (r := c :: rest) hname (by simpa using hc)
  rw [readName, htake, hdrop]
  exact if_pos hok

theorem readName_sound (h : readName ok b = some (name, rest)) : b = name ++ rest ∧ ok name := by
  rw [readName] at h
  split at h
  · rename_i hok
    cases h
    exact ⟨takeWhile_append_dropWhile.symm, hok⟩
  · cases h

theorem readUntil_append (hok : ok name) (hc : c ∉ name) :
    readUntil c ok (name ++ c :: rest) = some (name, rest) := by
  have hname : ∀ x ∈ name, (x != c) := by
    intro x hx
    exact bne_iff_ne.mpr fun heq => hc (heq ▸ hx)
  obtain ⟨htake, hdrop⟩ :=
    takeWhile_append_stop (p := (· != c)) (r := c :: rest) hname (by simp)
  simp [readUntil, htake, hdrop, expect_cons, hok]

theorem readUntil_sound (h : readUntil c ok b = some (name, rest)) :
    b = name ++ c :: rest ∧ ok name := by
  obtain ⟨b', hb', h⟩ := Option.bind_eq_some_iff.mp h
  split at h
  · rename_i hok
    cases h
    refine ⟨?_, hok⟩
    rw [← expect_sound hb', takeWhile_append_dropWhile]
  · cases h

end

theorem isLabelName_all {name : List UInt8} (h : isLabelName name) : name.all isNameByte := by
  rw [all_eq_true]
  intro c hc
  have hbyte := all_eq_true.mp (Bool.and_eq_true_iff.mp h).2 c hc
  rw [isNameByte, hbyte, Bool.true_or]

theorem readLabel_encodeLabel (h : isLabelName l.1)
    (rest : List UInt8) : readLabel (encodeLabel l ++ rest) = some (l, rest) := by
  have happend : encodeLabel l ++ rest =
      l.1 ++ equals :: quote :: (escape l.2 ++ quote :: rest) := by
    simp [encodeLabel]
  rw [readLabel, happend, readName_append h (isLabelName_all h) (by decide)]
  simp [expect_cons, readValue_escape]

theorem readLabel_sound
    (h : readLabel b = some (l, rest)) : b = encodeLabel l ++ rest ∧ isLabelName l.1 := by
  obtain ⟨⟨name, b₁⟩, hname, h⟩ := Option.bind_eq_some_iff.mp h
  obtain ⟨b₂, hequals, h⟩ := Option.bind_eq_some_iff.mp h
  obtain ⟨b₃, hquote, h⟩ := Option.bind_eq_some_iff.mp h
  obtain ⟨⟨v, b₄⟩, hvalue, h⟩ := Option.bind_eq_some_iff.mp h
  cases h
  obtain ⟨rfl, hok⟩ := readName_sound hname
  have hb₃ : b₃ = escape v ++ quote :: rest := readValue_sound hvalue
  rw [expect_sound hequals, expect_sound hquote, hb₃]
  exact ⟨by simp [encodeLabel], hok⟩

theorem readLabels_encodeLabels (hne : ls ≠ []) (h : ∀ l ∈ ls, isLabelName l.1)
    (rest : List UInt8) {fuel : Nat} (hfuel : ls.length ≤ fuel) :
    readLabels fuel (encodeLabels ls ++ rightBrace :: rest) = some (ls, rest) := by
  induction ls generalizing fuel with
  | nil => exact absurd rfl hne
  | cons l ls ih =>
    cases fuel with
    | zero => cases hfuel
    | succ fuel =>
      have hl := h l mem_cons_self
      cases ls with
      | nil =>
        rw [encodeLabels, readLabels, readLabel_encodeLabel hl]
        rfl
      | cons l' ls =>
        have hrest := ih (cons_ne_nil l' ls) (fun x hx => h x (mem_cons_of_mem l hx))
          (Nat.le_of_succ_le_succ hfuel)
        rw [encodeLabels, append_assoc, readLabels, readLabel_encodeLabel hl]
        simp [hrest]

theorem readLabels_sound {fuel : Nat} (h : readLabels fuel b = some (ls, rest)) :
    b = encodeLabels ls ++ rightBrace :: rest ∧ ls ≠ [] ∧ ∀ l ∈ ls, isLabelName l.1 := by
  induction fuel generalizing b ls with
  | zero => cases h
  | succ fuel ih =>
    obtain ⟨⟨l, b₁⟩, hl, hend⟩ := Option.bind_eq_some_iff.mp h
    obtain ⟨hb, hok⟩ := readLabel_sound hl
    rw [hb]
    cases b₁ with
    | nil => cases hend
    | cons c b₁ =>
      simp only at hend
      split at hend
      · subst c
        obtain ⟨⟨ls', b₂⟩, hls, hend⟩ := Option.bind_eq_some_iff.mp hend
        cases hend
        obtain ⟨hb₁, hne, hall⟩ := ih hls
        refine ⟨?_, cons_ne_nil _ _, forall_mem_cons.mpr ⟨hok, hall⟩⟩
        rw [hb₁]
        cases ls' with
        | nil => exact absurd rfl hne
        | cons l' ls' => simp [encodeLabels]
      · split at hend
        · subst c
          cases hend
          exact ⟨rfl, cons_ne_nil _ _, forall_mem_singleton.mpr hok⟩
        · cases hend

theorem length_le_length_encodeLabels (ls : List (List UInt8 × List UInt8)) :
    ls.length ≤ (encodeLabels ls).length := by
  induction ls with
  | nil => exact Nat.le_refl 0
  | cons l ls ih =>
    cases ls with
    | nil =>
      simp only [encodeLabels, encodeLabel, length_append, length_cons]
      omega
    | cons l' ls =>
      simp only [encodeLabels, length_append, length_cons] at ih ⊢
      omega

theorem decode_encode {s : Line} (h : s.WellFormed) : decode s.encode = some s := by
  have hname : s.name.all isNameByte := (Bool.and_eq_true_iff.mp h.name).2
  have hfuel : s.labels.length ≤ (encodeLabels s.labels ++
      rightBrace :: space :: (s.value ++ space :: (s.ts ++ [newline]))).length := by
    rw [length_append]
    exact Nat.le_add_right_of_le (length_le_length_encodeLabels s.labels)
  rw [decode, Line.encode, readName_append h.name hname (by decide)]
  simp only [Option.bind_eq_bind, Option.bind_some, expect_cons,
    readLabels_encodeLabels h.ne_nil h.labels _ hfuel,
    readUntil_append h.value (space_not_mem_of_isNumber h.value),
    readUntil_append h.ts (newline_not_mem_of_isInteger h.ts)]
  rfl

theorem decode_sound {s : Line} (h : decode b = some s) : b = s.encode ∧ s.WellFormed := by
  obtain ⟨⟨name, b₁⟩, hname, h⟩ := Option.bind_eq_some_iff.mp h
  obtain ⟨b₂, hbrace, h⟩ := Option.bind_eq_some_iff.mp h
  obtain ⟨⟨labels, b₃⟩, hlabels, h⟩ := Option.bind_eq_some_iff.mp h
  obtain ⟨b₄, hspace, h⟩ := Option.bind_eq_some_iff.mp h
  obtain ⟨⟨value, b₅⟩, hvalue, h⟩ := Option.bind_eq_some_iff.mp h
  obtain ⟨⟨ts, b₆⟩, hts, h⟩ := Option.bind_eq_some_iff.mp h
  simp only at h
  split at h
  · rename_i hend
    subst hend
    cases h
    obtain ⟨rfl, hnameOk⟩ := readName_sound hname
    obtain ⟨hb₂, hne, hlabelsOk⟩ := readLabels_sound hlabels
    obtain ⟨rfl, hvalueOk⟩ := readUntil_sound hvalue
    obtain ⟨rfl, htsOk⟩ := readUntil_sound hts
    rw [expect_sound hbrace, hb₂, expect_sound hspace]
    exact ⟨rfl, hnameOk, hne, hlabelsOk, hvalueOk, htsOk⟩
  · cases h

/-! ## Lines written without escaping -/

def escapeLabel (l : List UInt8 × List UInt8) : List UInt8 × List UInt8 := (l.1, escape l.2)

theorem encodeLabels_eq (ls : List (List UInt8 × List UInt8)) :
    encodeLabels ls = rawLabels (ls.map escapeLabel) := by
  induction ls with
  | nil => rfl
  | cons l ls ih =>
    cases ls with
    | nil => simp [encodeLabels, encodeLabel, rawLabels, rawLabel, escapeLabel]
    | cons l' ls =>
      rw [encodeLabels, ih]
      simp [encodeLabel, rawLabels, rawLabel, escapeLabel]

theorem encode_eq_raw (s : Line) :
    s.encode = Line.raw { s with labels := s.labels.map escapeLabel } := by
  rw [Line.encode, Line.raw, encodeLabels_eq]

theorem escapeLabel_eq_self (h : Plain l.2) : escapeLabel l = l := by
  rw [escapeLabel, escape_eq_self h]

theorem length_rawLabel_le (l : List UInt8 × List UInt8) :
    (rawLabel l).length ≤ (rawLabel (escapeLabel l)).length := by
  have hle := length_le_length_escape l.2
  simp only [rawLabel, escapeLabel, length_append, length_cons]
  omega

theorem plain_of_length_rawLabel_le
    (h : (rawLabel (escapeLabel l)).length ≤ (rawLabel l).length) : Plain l.2 := by
  apply plain_of_length_escape_le
  simp only [rawLabel, escapeLabel, length_append, length_cons] at h
  omega

theorem comma_rawLabels (h : ls ≠ []) :
    comma :: rawLabels ls = ls.flatMap fun l => comma :: rawLabel l := by
  cases ls with
  | nil => exact absurd rfl h
  | cons l ls => rfl

theorem plain_of_flatMap_eq (h : (ls.map escapeLabel).flatMap (fun l => comma :: rawLabel l) =
      ls.flatMap fun l => comma :: rawLabel l) : ∀ l ∈ ls, Plain l.2 := by
  have hlength : ∀ ls : List (List UInt8 × List UInt8),
      (ls.flatMap fun l => comma :: rawLabel l).length ≤
        ((ls.map escapeLabel).flatMap fun l => comma :: rawLabel l).length := by
    intro ls
    induction ls with
    | nil => exact Nat.le_refl _
    | cons l ls ih =>
      have hl := length_rawLabel_le l
      simp only [map_cons, flatMap_cons, length_append, length_cons]
      omega
  induction ls with
  | nil =>
    intro l hl
    cases hl
  | cons l ls ih =>
    have hl := length_rawLabel_le l
    have hls := hlength ls
    have heq := congrArg length h
    simp only [map_cons, flatMap_cons, length_append, length_cons] at heq
    -- Escaping never shortens a label, so with equal lengths overall each has kept its own.
    have hplain : Plain l.2 := plain_of_length_rawLabel_le (by omega)
    have hrest : (ls.map escapeLabel).flatMap (fun l => comma :: rawLabel l) =
        ls.flatMap fun l => comma :: rawLabel l := by
      rw [map_cons, flatMap_cons, flatMap_cons, escapeLabel_eq_self hplain] at h
      exact append_cancel_left h
    exact forall_mem_cons.mpr ⟨hplain, ih hrest⟩

theorem raw_eq_encode_iff (s : Line) : s.raw = s.encode ↔ ∀ l ∈ s.labels, Plain l.2 := by
  rw [encode_eq_raw]
  constructor
  · intro h
    have hlabels : rawLabels s.labels = rawLabels (s.labels.map escapeLabel) := by
      obtain ⟨-, h⟩ := cons.inj (append_cancel_left h)
      exact append_cancel_right h
    by_cases hnil : s.labels = []
    · rw [hnil]
      intro l hl
      cases hl
    · apply plain_of_flatMap_eq
      rw [← comma_rawLabels hnil, ← comma_rawLabels fun h => hnil (map_eq_nil_iff.mp h), hlabels]
  · intro h
    have hmap : s.labels.map escapeLabel = s.labels :=
      (map_congr_left fun l hl => escapeLabel_eq_self (h l hl)).trans (map_id _)
    rw [hmap]

theorem decode_eq_some_iff {s : Line} (h : s.WellFormed) : decode b = some s ↔ b = s.encode := by
  constructor
  · intro hb
    exact (decode_sound hb).1
  · rintro rfl
    exact decode_encode h

end Lsvmi.Reasoning.Exposition
