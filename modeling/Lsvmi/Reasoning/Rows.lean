import Mathlib.Data.List.Basic
import Mathlib.Data.List.TakeWhile

/-!
# Rows of words

Text made of rows that end with `nl`, each of them words with blanks around them.  A scanner takes
one word after the other, together with the character behind it.
-/

namespace Lsvmi.Reasoning

open List

variable {α : Type*}

theorem takeWhile_append_stop {p : α → Bool} {l r : List α} (hl : ∀ a ∈ l, p a)
    (hr : ∀ a ∈ r.head?, p a = false) :
    (l ++ r).takeWhile p = l ∧ (l ++ r).dropWhile p = r := by
  rw [takeWhile_append_of_pos hl, dropWhile_append_of_pos hl]
  cases r with
  | nil => simp
  | cons a r => simp [hr a rfl]

def fields (sep : α → Bool) (line : List α) : List (List α) :=
  (line.splitOnP sep).filter (· ≠ [])

theorem fields_nil (sep : α → Bool) : fields sep [] = [] := by
  simp [fields]

variable {sep : α → Bool}

theorem fields_sep {gap : List α} (hgap : ∀ c ∈ gap, sep c)
    (line : List α) : fields sep (gap ++ line) = fields sep line := by
  induction gap with
  | nil => rfl
  | cons c gap ih =>
    rw [forall_mem_cons] at hgap
    rw [← ih hgap.2, cons_append, fields, splitOnP_cons_eq_if_modifyHead, if_pos hgap.1]
    simp [fields]

theorem fields_word {w : List α} (hne : w ≠ []) (hw : ∀ c ∈ w, sep c = false) :
    fields sep w = [w] := by
  rw [fields, splitOnP_eq_singleton (by simpa using hw)]
  simp [hne]

theorem fields_cons {w : List α} (hne : w ≠ []) (hw : ∀ c ∈ w, sep c = false)
    {c : α} (hc : sep c) (line : List α) : fields sep (w ++ c :: line) = w :: fields sep line := by
  rw [fields, splitOnP_append_cons_of_forall_mem (by simpa using hw) c hc]
  simp [fields, hne]

theorem fields_append_cons {c : α} (hc : sep c) (left right : List α) :
    fields sep (left ++ c :: right) = fields sep left ++ fields sep right := by
  rw [fields, splitOnP_append_cons _ _ hc, filter_append, fields, fields]

variable [DecidableEq α] (blank : α → Bool) (nl : α)

def isWordChar (c : α) : Bool := !blank c && c != nl

/-- Skip blanks, and take the word behind them.  The result is the word, the character that ends it
and what follows that character. -/
def nextWord (buf : List α) : List α × Option α × List α :=
  let buf := buf.dropWhile blank
  let rest := buf.dropWhile (isWordChar blank nl)
  (buf.takeWhile (isWordChar blank nl), rest.head?, rest.tail)

structure IsWord (w : List α) : Prop where
  ne_nil : w ≠ []
  chars : ∀ c ∈ w, isWordChar blank nl c = true

instance (w : List α) : Decidable (IsWord blank nl w) :=
  decidable_of_iff (w ≠ [] ∧ w.all (isWordChar blank nl) = true)
    ⟨fun h => ⟨h.1, all_eq_true.mp h.2⟩, fun h => ⟨h.ne_nil, all_eq_true.mpr h.chars⟩⟩

variable {blank nl}

/-- Behind blanks the scanner finds the word up to the next separator, an empty one at the end of
the row. -/
theorem nextWord_eq {gap w : List α} {c : α} (text : List α) (hgap : ∀ c ∈ gap, blank c)
    (hw : ∀ c ∈ w, isWordChar blank nl c) (hc : isWordChar blank nl c = false)
    (hfirst : w = [] → blank c = false) :
    nextWord blank nl (gap ++ w ++ c :: text) = (w, some c, text) := by
  have hskip : (gap ++ w ++ c :: text).dropWhile blank = w ++ c :: text := by
    rw [append_assoc, dropWhile_append_of_pos hgap]
    cases w with
    | nil => rw [nil_append, dropWhile_cons_of_neg (by simp [hfirst rfl])]
    | cons a w =>
      have ha : isWordChar blank nl a := hw a mem_cons_self
      rw [cons_append, dropWhile_cons_of_neg]
      simp only [isWordChar, Bool.and_eq_true, Bool.not_eq_true'] at ha
      simp [ha.1]
  obtain ⟨htake, hdrop⟩ := takeWhile_append_stop (r := c :: text) hw (by simpa using hc)
  unfold nextWord
  simp only
  rw [hskip, htake, hdrop]
  rfl

theorem isWordChar_nl : isWordChar blank nl nl = false := by
  simp [isWordChar]

theorem isWordChar_of_blank {c : α} (hc : blank c) : isWordChar blank nl c = false := by
  simp [isWordChar, hc]

/-- The number of characters two texts have in common at their start. -/
def commonLen : List α → List α → Nat
  | a :: as, b :: bs => if a = b then commonLen as bs + 1 else 0
  | _, _ => 0

theorem take_commonLen (as bs : List α) :
    as.take (commonLen as bs) = bs.take (commonLen as bs) := by
  induction as generalizing bs with
  | nil => cases bs <;> simp [commonLen]
  | cons a as ih =>
    cases bs with
    | nil => rfl
    | cons b bs =>
      by_cases hab : a = b
      · simp [commonLen, hab, ih bs]
      · simp [commonLen, hab]

theorem commonLen_le_left (as bs : List α) : commonLen as bs ≤ as.length := by
  induction as generalizing bs with
  | nil => cases bs <;> exact Nat.le_refl _
  | cons a as ih =>
    cases bs with
    | nil => exact Nat.zero_le _
    | cons b bs =>
      rw [commonLen, length_cons]
      split
      · exact Nat.succ_le_succ (ih bs)
      · exact Nat.zero_le _

theorem commonLen_append_self (as bs : List α) : commonLen (as ++ bs) as = as.length := by
  induction as with
  | nil => cases bs <;> rfl
  | cons a as ih => simp [commonLen, ih]

/-- A line that does not have the end-of-line character in it, compared with the start of a text,
agrees at most with the first line of the text. -/
theorem commonLen_le {line cached : List α} (text : List α) (hcached : nl ∉ cached) :
    commonLen (line ++ nl :: text) cached ≤ line.length := by
  by_contra hlt
  apply hcached
  have hmem : nl ∈ (line ++ nl :: text).take (commonLen (line ++ nl :: text) cached) := by
    rw [mem_take_iff_getElem]
    refine ⟨line.length, ?_, by simp⟩
    simp only [length_append, length_cons]
    omega
  rw [take_commonLen] at hmem
  exact mem_of_mem_take hmem

def firstLine (nl : α) (text : List α) : List α := text.takeWhile (· ≠ nl)

def afterLine (nl : α) (text : List α) : List α := (text.dropWhile (· ≠ nl)).tail

def lines (nl : α) : List α → List (List α)
  | [] => []
  | c :: text =>
    if c = nl then [] :: lines nl text
    else match lines nl text with
      | [] => [[c]]
      | line :: rest => (c :: line) :: rest

@[simp] theorem firstLine_nil (nl : α) : firstLine nl [] = [] := rfl

variable {text : List α}

theorem lines_of_ne_nil {nl : α} (h : text ≠ []) :
    lines nl text = firstLine nl text :: lines nl (afterLine nl text) := by
  induction text with
  | nil => exact absurd rfl h
  | cons c text ih =>
    by_cases hc : c = nl
    · simp [lines, firstLine, afterLine, hc]
    · by_cases htext : text = []
      · simp [lines, firstLine, afterLine, hc, htext]
      · simp [lines, hc, ih htext, firstLine, afterLine]

theorem firstLine_append {nl : α} {part : List α} (hpart : nl ∉ part) (text : List α) :
    firstLine nl (part ++ text) = part ++ firstLine nl text := by
  rw [firstLine, takeWhile_append_of_pos]
  · rfl
  · intro c hc
    simpa using ne_of_mem_of_not_mem hc hpart

theorem afterLine_append {nl : α} {part : List α} (hpart : nl ∉ part) (text : List α) :
    afterLine nl (part ++ text) = afterLine nl text := by
  rw [afterLine, dropWhile_append_of_pos]
  · rfl
  · intro c hc
    simpa using ne_of_mem_of_not_mem hc hpart

theorem firstLine_nl (nl : α) (text : List α) : firstLine nl (nl :: text) = [] := by
  simp [firstLine]

theorem afterLine_nl (nl : α) (text : List α) : afterLine nl (nl :: text) = text := by
  simp [afterLine]

theorem nl_notMem_firstLine (nl : α) (text : List α) : nl ∉ firstLine nl text := by
  intro hmem
  simpa using mem_takeWhile_imp hmem

theorem length_afterLine_lt {nl : α} (h : text ≠ []) :
    (afterLine nl text).length < text.length := by
  have hdrop := (dropWhile_sublist (l := text) (· ≠ nl)).length_le
  have hpos := length_pos_iff.mpr h
  rw [afterLine, length_tail]
  omega

variable (hnl : blank nl = false)
include hnl

theorem firstLine_dropWhile (text : List α) :
    firstLine nl (text.dropWhile blank) = (firstLine nl text).dropWhile blank := by
  induction text with
  | nil => rfl
  | cons c text ih =>
    by_cases hc : blank c
    · have hne : c ≠ nl := by
        rintro rfl
        rw [hnl] at hc
        cases hc
      rw [dropWhile_cons_of_pos hc, ih]
      simp [firstLine, hne, hc]
    · rw [dropWhile_cons_of_neg hc]
      by_cases hne : c = nl
      · simp [firstLine, hne]
      · simp [firstLine, hne, hc]

theorem afterLine_dropWhile (text : List α) :
    afterLine nl (text.dropWhile blank) = afterLine nl text := by
  have hpart : nl ∉ text.takeWhile blank := by
    intro hmem
    rw [mem_takeWhile_imp hmem] at hnl
    cases hnl
  have h := afterLine_append hpart (text.dropWhile blank)
  rw [takeWhile_append_dropWhile] at h
  exact h.symm

omit hnl in
theorem nextWord_length {buf : List α} (h : buf ≠ []) :
    (Reasoning.nextWord blank nl buf).2.2.length < buf.length := by
  have h₁ := (dropWhile_sublist (l := buf) blank).length_le
  have h₂ := (dropWhile_sublist (l := buf.dropWhile blank) (isWordChar blank nl)).length_le
  have hpos := length_pos_iff.mpr h
  show ((buf.dropWhile blank).dropWhile (isWordChar blank nl)).tail.length < buf.length
  rw [length_tail]
  omega

end Lsvmi.Reasoning
