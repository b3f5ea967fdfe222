import Lsvmi.Reasoning.Rows

/-!
# Words with blanks between them

A text that is cut into lines and words, seen from its start: blanks, and behind them a word, the
end of the line or nothing.  The words of a line together with the blanks between them are the text
from the first one to the last one.
-/

namespace Lsvmi.Reasoning

open List

variable {α : Type*} {blank : α → Bool} {nl : α} {gap : List α}

theorem nl_notMem_blanks (hnl : blank nl = false) (hgap : ∀ c ∈ gap, blank c) : nl ∉ gap := by
  intro hmem
  rw [hgap nl hmem] at hnl
  cases hnl

theorem fields_blanks (hgap : ∀ c ∈ gap, blank c) : fields blank gap = [] := by
  have h := fields_sep hgap []
  rwa [append_nil, fields_nil] at h

variable {line : List α}

theorem blanks_of_fields_eq_nil (h : fields blank line = []) : ∀ c ∈ line, blank c := by
  induction line with
  | nil => exact nofun
  | cons c line ih =>
    by_cases hc : blank c
    · have hgap : ∀ b ∈ [c], blank b := by simpa using hc
      have hline : fields blank line = [] := by
        rw [← h, ← singleton_append, fields_sep hgap]
      exact forall_mem_cons.mpr ⟨hc, ih hline⟩
    · rw [fields, splitOnP_cons_eq_if_modifyHead, if_neg hc] at h
      obtain ⟨w, ws, hsplit⟩ := exists_cons_of_ne_nil (splitOnP_ne_nil blank line)
      simp [hsplit] at h

variable [DecidableEq α]

/-- The text is blanks and the characters of a word, which is the next one, and behind them the text
ends, the line ends or there is another blank. -/
theorem nextWord_cases (blank : α → Bool) (nl : α) (text : List α) :
    ∃ gap w tail, text = gap ++ w ++ tail ∧ (∀ c ∈ gap, blank c) ∧
      (∀ c ∈ w, isWordChar blank nl c) ∧
      nextWord blank nl text = (w, tail.head?, tail.tail) ∧
      (tail = [] ∨ (∃ rest, tail = nl :: rest) ∨
        ∃ c rest, tail = c :: rest ∧ blank c ∧ w ≠ []) := by
  refine ⟨text.takeWhile blank, (text.dropWhile blank).takeWhile (isWordChar blank nl),
    (text.dropWhile blank).dropWhile (isWordChar blank nl), ?_, fun _ hc => mem_takeWhile_imp hc,
    fun _ hc => mem_takeWhile_imp hc, rfl, ?_⟩
  · rw [append_assoc, takeWhile_append_dropWhile, takeWhile_append_dropWhile]
  cases htail : (text.dropWhile blank).dropWhile (isWordChar blank nl) with
  | nil => exact .inl rfl
  | cons c rest =>
    have hc : isWordChar blank nl c = false := by
      have h := head_dropWhile_not (isWordChar blank nl) (l := text.dropWhile blank)
        (by simp [htail])
      simpa [htail] using h
    by_cases hcnl : c = nl
    · exact .inr (.inl ⟨rest, by rw [hcnl]⟩)
    have hblank : blank c := by simpa [isWordChar, hcnl] using hc
    refine .inr (.inr ⟨c, rest, rfl, hblank, fun hw => ?_⟩)
    -- without a word the blanks would not have ended before `c`
    have hdrop := takeWhile_append_dropWhile (p := isWordChar blank nl) (l := text.dropWhile blank)
    rw [hw, htail, nil_append] at hdrop
    have h := head_dropWhile_not blank (l := text) (by simp [← hdrop])
    simp [← hdrop, hblank] at h

variable {w : List α}

theorem IsWord.blank_eq_false (hw : ∀ c ∈ w, isWordChar blank nl c) : ∀ c ∈ w, blank c = false := by
  intro c hc
  have h := hw c hc
  simp only [isWordChar, Bool.and_eq_true, Bool.not_eq_true'] at h
  exact h.1

theorem nl_notMem_word (hw : ∀ c ∈ w, isWordChar blank nl c) : nl ∉ w := by
  intro hmem
  have h := hw nl hmem
  simp [isWordChar] at h

variable {part : List α}

section

variable (hpart : nl ∉ part)
include hpart

theorem firstLine_of_notMem : firstLine nl part = part := by
  have h := firstLine_append hpart []
  rwa [append_nil, firstLine_nil, append_nil] at h

theorem afterLine_of_notMem : afterLine nl part = [] := by
  have h := afterLine_append hpart []
  rwa [append_nil] at h

theorem firstLine_append_nl (rest : List α) : firstLine nl (part ++ nl :: rest) = part := by
  rw [firstLine_append hpart, firstLine_nl, append_nil]

theorem afterLine_append_nl (rest : List α) : afterLine nl (part ++ nl :: rest) = rest := by
  rw [afterLine_append hpart, afterLine_nl]

end

variable {text : List α}

theorem firstLine_append_afterLine (h : nl ∈ text) :
    firstLine nl text ++ nl :: afterLine nl text = text := by
  have hne : text.dropWhile (· ≠ nl) ≠ [] := by
    rw [ne_eq, dropWhile_eq_nil_iff]
    exact fun hall => by simpa using hall nl h
  obtain ⟨c, rest, hdrop⟩ := exists_cons_of_ne_nil hne
  have hc : c = nl := by
    have hhead := head?_dropWhile_not (· ≠ nl) text
    rw [hdrop] at hhead
    simpa using hhead
  rw [firstLine, afterLine, hdrop, tail_cons, ← hc, ← hdrop, hc]
  exact takeWhile_append_dropWhile

theorem lines_cons (hline : nl ∉ line) (rest : List α) :
    lines nl (line ++ nl :: rest) = line :: lines nl rest := by
  rw [lines_of_ne_nil (by simp), firstLine_append_nl hline, afterLine_append_nl hline]

@[elab_as_elim] theorem lines_induction (nl : α) {P : List α → Prop}
    (last : ∀ line, nl ∉ line → P line)
    (cons : ∀ line rest, nl ∉ line → P rest → P (line ++ nl :: rest)) (text : List α) : P text := by
  induction hlen : text.length using Nat.strong_induction_on generalizing text with
  | _ n ih =>
    by_cases hnl : nl ∈ text
    · rw [← firstLine_append_afterLine hnl]
      exact cons _ _ (nl_notMem_firstLine nl text)
        (ih _ (hlen ▸ length_afterLine_lt (ne_nil_of_mem hnl)) _ rfl)
    · exact last text hnl

theorem lines_append (text rest : List α) :
    lines nl (text ++ nl :: rest) = lines nl (text ++ [nl]) ++ lines nl rest := by
  induction text using lines_induction nl with
  | last line hline =>
    rw [lines_cons hline, lines_cons hline]
    simp [lines]
  | cons line text hline ih =>
    rw [append_assoc, append_assoc, cons_append, cons_append, lines_cons hline, lines_cons hline, ih,
      cons_append]

theorem nl_notMem_of_mem_lines (h : line ∈ lines nl text) : nl ∉ line := by
  induction hlen : text.length using Nat.strong_induction_on generalizing text with
  | _ n ih =>
    by_cases hne : text = []
    · subst hne
      cases h
    · rw [lines_of_ne_nil hne, mem_cons] at h
      rcases h with rfl | h
      · exact nl_notMem_firstLine nl text
      · exact ih _ (hlen ▸ length_afterLine_lt hne) h rfl

theorem line_cases (nl : α) (text : List α) :
    ∃ line tail, text = line ++ tail ∧ nl ∉ line ∧ (tail = [] ∨ ∃ rest, tail = nl :: rest) ∧
      firstLine nl text = line ∧ afterLine nl text = tail.tail := by
  by_cases h : nl ∈ text
  · exact ⟨firstLine nl text, nl :: afterLine nl text, (firstLine_append_afterLine h).symm,
      nl_notMem_firstLine nl text, .inr ⟨_, rfl⟩, rfl, rfl⟩
  · exact ⟨text, [], (append_nil text).symm, h, .inl rfl, firstLine_of_notMem h,
      afterLine_of_notMem h⟩

theorem fields_blanks_word (hgap : ∀ c ∈ gap, blank c)
    (hw : IsWord blank nl w) : fields blank (gap ++ w) = [w] := by
  rw [fields_sep hgap, fields_word hw.ne_nil (IsWord.blank_eq_false hw.chars)]

theorem fields_blanks_word_cons {c : α} (hgap : ∀ c ∈ gap, blank c)
    (hw : IsWord blank nl w) (hc : blank c) (rest : List α) :
    fields blank (gap ++ w ++ c :: rest) = w :: fields blank rest := by
  rw [append_assoc, fields_sep hgap, fields_cons hw.ne_nil (IsWord.blank_eq_false hw.chars) hc]

theorem line_blanks_word_cons (hnl : blank nl = false) {c : α} (hgap : ∀ c ∈ gap, blank c)
    (hw : IsWord blank nl w) (hc : blank c) (rest : List α) :
    firstLine nl (gap ++ w ++ c :: rest) = gap ++ w ++ c :: firstLine nl rest ∧
      fields blank (firstLine nl (gap ++ w ++ c :: rest)) = w :: fields blank (firstLine nl rest) ∧
      afterLine nl (gap ++ w ++ c :: rest) = afterLine nl rest ∧
      (nl ∈ gap ++ w ++ c :: rest ↔ nl ∈ rest) := by
  have hpart : nl ∉ gap ++ w ++ [c] := by
    have hne : nl ≠ c := by
      rintro rfl
      rw [hc] at hnl
      cases hnl
    simp [nl_notMem_blanks hnl hgap, nl_notMem_word hw.chars, hne]
  have htext : gap ++ w ++ c :: rest = gap ++ w ++ [c] ++ rest := by simp
  have hline : firstLine nl (gap ++ w ++ c :: rest) = gap ++ w ++ c :: firstLine nl rest := by
    rw [htext, firstLine_append hpart]
    simp
  refine ⟨hline, ?_, ?_, ?_⟩
  · rw [hline, fields_blanks_word_cons hgap hw hc]
  · rw [htext, afterLine_append hpart]
  · rw [htext, mem_append]
    exact or_iff_right hpart

/-- The next word of any text, seen from the line it is in: there is none, the line ends with it, or
the words behind it are those of the rest. -/
theorem nextWord_line (hnl : blank nl = false) {sep : Option α} {rest : List α}
    (hnext : nextWord blank nl text = (w, sep, rest)) :
    (w = [] ∧ fields blank (firstLine nl text) = [] ∧ rest = afterLine nl text ∧
      (sep = some nl ∨ rest = [])) ∨
    (w ≠ [] ∧ ∃ words, fields blank (firstLine nl text) = w :: words ∧
      ((sep = some nl ∧ words = [] ∧ rest = afterLine nl text) ∨
        (sep ≠ some nl ∧ words = fields blank (firstLine nl rest) ∧
          afterLine nl rest = afterLine nl text))) := by
  obtain ⟨gap, w', tail, rfl, hgap, hw, hcut, htail⟩ := nextWord_cases blank nl text
  obtain ⟨rfl, rfl, rfl⟩ : w = w' ∧ sep = tail.head? ∧ rest = tail.tail := by
    simpa using hnext.symm.trans hcut
  have hpart : nl ∉ gap ++ w := by
    simp [nl_notMem_blanks hnl hgap, nl_notMem_word hw]
  rcases htail with rfl | ⟨rest, rfl⟩ | ⟨c, rest, rfl, hc, hne⟩
  · rw [append_nil, firstLine_of_notMem hpart, afterLine_of_notMem hpart]
    by_cases hne : w = []
    · refine .inl ⟨hne, ?_, rfl, .inr rfl⟩
      rw [hne, append_nil, fields_blanks hgap]
    · exact .inr ⟨hne, [], fields_blanks_word hgap ⟨hne, hw⟩, .inr ⟨nofun, rfl, rfl⟩⟩
  · rw [firstLine_append_nl hpart, afterLine_append_nl hpart]
    by_cases hne : w = []
    · refine .inl ⟨hne, ?_, rfl, .inl rfl⟩
      rw [hne, append_nil, fields_blanks hgap]
    · exact .inr ⟨hne, [], fields_blanks_word hgap ⟨hne, hw⟩, .inl ⟨rfl, rfl, rfl⟩⟩
  · obtain ⟨-, hwords, hafter, -⟩ := line_blanks_word_cons hnl hgap ⟨hne, hw⟩ hc rest
    refine .inr ⟨hne, _, hwords, .inr ⟨fun hsep => ?_, rfl, hafter.symm⟩⟩
    rw [head?_cons, Option.some.injEq] at hsep
    rw [← hsep, hc] at hnl
    cases hnl

theorem nextWord_blanks (nl : α) (hgap : ∀ c ∈ gap, blank c) :
    nextWord blank nl gap = ([], none, []) := by
  have hdrop : gap.dropWhile blank = [] := by simpa using hgap
  rw [nextWord, hdrop]
  rfl

/-- Words with blanks between them, and nothing around them. -/
inductive Spaced (blank : α → Bool) (nl : α) : List (List α) → List α → Prop
  | last {w : List α} (hw : IsWord blank nl w) : Spaced blank nl [w] w
  | word {w gap text : List α} {words : List (List α)} (hw : IsWord blank nl w) (hne : gap ≠ [])
    (hgap : ∀ c ∈ gap, blank c = true) (hwords : Spaced blank nl words text) :
    Spaced blank nl (w :: words) (w ++ gap ++ text)

variable {words : List (List α)}

omit [DecidableEq α] in
theorem exists_blank_cons {gap : List α} (hne : gap ≠ []) (hgap : ∀ c ∈ gap, blank c) :
    ∃ c gap', gap = c :: gap' ∧ blank c ∧ ∀ c ∈ gap', blank c := by
  obtain ⟨c, gap', rfl⟩ := exists_cons_of_ne_nil hne
  exact ⟨c, gap', rfl, forall_mem_cons.mp hgap⟩

theorem Spaced.isWord (h : Spaced blank nl words text) : ∀ w ∈ words, IsWord blank nl w := by
  induction h with
  | last hw => simpa using hw
  | word hw _ _ _ ih => exact forall_mem_cons.mpr ⟨hw, ih⟩

theorem Spaced.split {ws ws' : List (List α)} (h : Spaced blank nl (ws ++ ws') text)
    (hws : ws ≠ []) (hws' : ws' ≠ []) :
    ∃ text₁ gap text₂, text = text₁ ++ gap ++ text₂ ∧ gap ≠ [] ∧ (∀ c ∈ gap, blank c) ∧
      Spaced blank nl ws text₁ ∧ Spaced blank nl ws' text₂ := by
  induction ws generalizing text with
  | nil => exact absurd rfl hws
  | cons w ws ih =>
    cases ws with
    | nil =>
      cases h with
      | last hw => exact absurd rfl hws'
      | word hw hne hgap hwords => exact ⟨_, _, _, rfl, hne, hgap, .last hw, hwords⟩
    | cons v ws =>
      cases h with
      | word hw hne hgap hwords =>
        obtain ⟨text₁, gap', text₂, rfl, hne', hgap', h₁, h₂⟩ := ih hwords (cons_ne_nil v ws)
        exact ⟨_, gap', text₂, by simp, hne', hgap', .word hw hne hgap h₁, h₂⟩

omit [DecidableEq α] in
theorem fields_gap (hne : gap ≠ []) (hgap : ∀ c ∈ gap, blank c) (left right : List α) :
    fields blank (left ++ gap ++ right) = fields blank left ++ fields blank right := by
  obtain ⟨c, gap, rfl, hc, hgap⟩ := exists_blank_cons hne hgap
  rw [append_assoc, cons_append, fields_append_cons hc, fields_sep hgap]

omit [DecidableEq α] in
theorem fields_append_blanks (hgap : ∀ c ∈ gap, blank c) (line : List α) :
    fields blank (line ++ gap) = fields blank line := by
  by_cases hne : gap = []
  · rw [hne, append_nil]
  · have h := fields_gap hne hgap line []
    rwa [append_nil, fields_nil, append_nil] at h

theorem Spaced.fields_eq (h : Spaced blank nl words text) : fields blank text = words := by
  induction h with
  | last hw => exact fields_word hw.ne_nil (IsWord.blank_eq_false hw.chars)
  | word hw hne hgap _ ih =>
    rw [fields_gap hne hgap, ih, fields_word hw.ne_nil (IsWord.blank_eq_false hw.chars),
      singleton_append]

theorem spaced_intercalate (sep : α) (hsep : blank sep)
    (hne : words ≠ []) (hwords : ∀ w ∈ words, IsWord blank nl w) :
    Spaced blank nl words ([sep].intercalate words) := by
  induction words with
  | nil => exact absurd rfl hne
  | cons w words ih =>
    rw [forall_mem_cons] at hwords
    cases words with
    | nil =>
      rw [intercalate_singleton]
      exact .last hwords.1
    | cons v words =>
      rw [intercalate_cons_cons]
      exact .word hwords.1 (by simp) (by simpa using hsep) (ih (cons_ne_nil v words) hwords.2)

theorem exists_spaced (hnl : nl ∉ line) (hne : fields blank line ≠ []) :
    ∃ gap text gap', line = gap ++ text ++ gap' ∧ (∀ c ∈ gap, blank c) ∧
      (∀ c ∈ gap', blank c) ∧ Spaced blank nl (fields blank line) text := by
  induction hlen : line.length using Nat.strong_induction_on generalizing line with
  | _ n ih =>
    obtain ⟨gap, w, tail, rfl, hgap, hw, -, rfl | ⟨rest, rfl⟩ | ⟨c, rest, rfl, hc, hwne⟩⟩ :=
      nextWord_cases blank nl line
    · rw [append_nil] at hne ⊢
      have hwne : w ≠ [] := by
        rintro rfl
        rw [append_nil] at hne
        exact hne (fields_blanks hgap)
      refine ⟨gap, w, [], by simp, hgap, nofun, ?_⟩
      rw [fields_blanks_word hgap ⟨hwne, hw⟩]
      exact .last ⟨hwne, hw⟩
    · exact absurd (by simp) hnl
    rw [fields_blanks_word_cons hgap ⟨hwne, hw⟩ hc]
    by_cases hrest : fields blank rest = []
    · refine ⟨gap, w, c :: rest, rfl, hgap, ?_, ?_⟩
      · exact forall_mem_cons.mpr ⟨hc, blanks_of_fields_eq_nil hrest⟩
      · rw [hrest]
        exact .last ⟨hwne, hw⟩
    have hshort : rest.length < n := by
      simp only [length_append, length_cons] at hlen
      omega
    obtain ⟨gap₁, text, gap₂, hline, hgap₁, hgap₂, hspaced⟩ :=
      ih rest.length hshort (fun h => hnl (by simp [h])) hrest rfl
    refine ⟨gap, w ++ c :: gap₁ ++ text, gap₂, ?_, hgap, hgap₂, ?_⟩
    · conv_lhs => rw [hline]
      simp
    · exact .word ⟨hwne, hw⟩ (cons_ne_nil c gap₁) (forall_mem_cons.mpr ⟨hc, hgap₁⟩) hspaced

end Lsvmi.Reasoning
