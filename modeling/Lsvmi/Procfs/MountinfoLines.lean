import Lsvmi.Procfs.Mountinfo

/-!
# The lines of a mountinfo content

What becomes of a line depends on its words: an entry ends with the third word behind the first `-`
that is not one of the six leading words.  A line may be rejected, accepted, also without its last
word, or have the scanner run over the end of the content.
-/

namespace Lsvmi.Procfs

open Reasoning List Option

variable {info : MountinfoParsedLine} {i : Nat} {w : Bytes}

/-! ## The words of an entry -/

/-- The number of words that complete an entry which has got to the field with index `i`. -/
def wordsNeeded (i : Nat) (words : List Bytes) : Option Nat :=
  if i ≤ mountinfoOptionalFields then
    ((words.drop (mountinfoOptionalFields - i)).idxOf? [45]).map
      (· + (mountinfoNumFields - 1 - i))
  else some (mountinfoNumFields - i)

def fieldIndexAfter (i : Nat) (word : Bytes) : Nat :=
  if i = mountinfoOptionalFields then if word = [45] then i + 2 else i else i + 1

theorem fieldNums : mountinfoOptionalFields = 6 ∧ mountinfoNumFields = 11 := ⟨rfl, rfl⟩

theorem wordsNeeded_cons (hi : i < mountinfoNumFields) (word : Bytes) (words : List Bytes) :
    wordsNeeded i (word :: words) = (wordsNeeded (fieldIndexAfter i word) words).map (· + 1) := by
  have hnums := fieldNums
  rcases Nat.lt_trichotomy i mountinfoOptionalFields with hlt | rfl | hgt
  · have hdrop : mountinfoOptionalFields - i = mountinfoOptionalFields - (i + 1) + 1 := by omega
    rw [fieldIndexAfter, if_neg (by omega), wordsNeeded, if_pos (by omega), wordsNeeded,
      if_pos (by omega), hdrop, drop_succ_cons, Option.map_map]
    congr 1
    funext k
    simp only [Function.comp_apply]
    omega
  · rw [fieldIndexAfter, if_pos rfl, wordsNeeded, if_pos (Nat.le_refl _), Nat.sub_self,
      drop_zero, idxOf?_cons]
    by_cases hword : word = [45]
    · rw [if_pos (by simpa using hword), if_pos hword, wordsNeeded, if_neg (by omega)]
      rfl
    · rw [if_neg (by simpa using hword), if_neg hword, wordsNeeded, if_pos (Nat.le_refl _),
        Nat.sub_self, drop_zero, Option.map_map, Option.map_map]
      rfl
  · rw [fieldIndexAfter, if_neg (by omega), wordsNeeded, if_neg (by omega), wordsNeeded,
      if_neg (by omega), Option.map_some]
    congr 1
    omega

theorem wordsNeeded_nil (i : Nat) :
    wordsNeeded i [] = if i ≤ mountinfoOptionalFields then none else some (mountinfoNumFields - i) := by
  simp [wordsNeeded]

theorem fieldIndexAfter_le (hi : i < mountinfoNumFields) (word : Bytes) :
    fieldIndexAfter i word ≤ mountinfoNumFields := by
  have hnums := fieldNums
  rw [fieldIndexAfter]
  split
  · split <;> omega
  · omega

theorem fieldIndexAfter_eq_numFields (hi : i < mountinfoNumFields) (word : Bytes) :
    fieldIndexAfter i word = mountinfoNumFields ↔ wordsNeeded i [] = some 1 := by
  have hnums := fieldNums
  rw [wordsNeeded_nil, fieldIndexAfter]
  by_cases h : i ≤ mountinfoOptionalFields
  · rw [if_pos h]
    refine iff_of_false ?_ nofun
    split
    · split <;> omega
    · omega
  · rw [if_neg h, if_neg (by omega), some.injEq]
    omega

/-! ## The turns of the loop -/

theorem slice_append (w tail : Bytes) : slice (w ++ tail) tail = w := by
  rw [slice, length_append, Nat.add_sub_cancel, take_left]

theorem slice_self (text : Bytes) : slice text text = [] := by
  rw [slice, Nat.sub_self, take_zero]

theorem length_assignField (info : MountinfoParsedLine) (optionalFields : Option (Bytes × Bytes))
    (wordStart wordEnd : Bytes) :
    (assignField info optionalFields wordStart wordEnd).1.length =
      fieldIndexAfter info.length (slice wordStart wordEnd) := by
  by_cases hlen : info.length = mountinfoOptionalFields
  · by_cases hword : slice wordStart wordEnd = [45]
    all_goals simp [assignField, fieldIndexAfter, hlen, hword]
  · simp [assignField, fieldIndexAfter, hlen]

section Turns

variable (optionalFields : Option (Bytes × Bytes)) {info : MountinfoParsedLine} {gap w : Bytes}

theorem mountinfoFields_blanks (hlt : info.length < mountinfoNumFields) (hne : gap ≠ [])
    (hgap : ∀ c ∈ gap, isWhitespace c) : mountinfoFields info optionalFields gap = none := by
  have hdrop : gap.dropWhile isWhitespace = [] := by simpa using hgap
  rw [mountinfoFields, if_neg (by simp [hne, hlt]), if_pos hdrop]

theorem mountinfoFields_turn (tail : Bytes) (hlt : info.length < mountinfoNumFields)
    (hgap : ∀ c ∈ gap, isWhitespace c) (hw : ∀ c ∈ w, isWordChar isWhitespace newline c)
    (htail : ∀ c ∈ tail.head?, isWordChar isWhitespace newline c = false)
    (hne : w = [] → tail.head? = some newline) :
    mountinfoFields info optionalFields (gap ++ w ++ tail) =
      if tail.head? = some newline then
        some ⟨(assignField info optionalFields (w ++ tail) tail).1, tail.tail, true⟩
      else
        mountinfoFields (assignField info optionalFields (w ++ tail) tail).1
          (assignField info optionalFields (w ++ tail) tail).2 tail.tail := by
  have hstart : (gap ++ w ++ tail).dropWhile isWhitespace = w ++ tail := by
    rw [append_assoc, dropWhile_append_of_pos hgap]
    cases w with
    | nil =>
      obtain ⟨rest, rfl⟩ : ∃ rest, tail = newline :: rest := head?_eq_some_iff.mp (hne rfl)
      rfl
    | cons c w =>
      have hc := IsWord.blank_eq_false hw c mem_cons_self
      rw [cons_append, dropWhile_cons_of_neg (by simp [hc])]
  have hstop : (w ++ tail).dropWhile (isWordChar isWhitespace newline) = tail :=
    (takeWhile_append_stop hw htail).2
  have hstart_ne : w ++ tail ≠ [] := by
    cases w with
    | nil =>
      intro h
      have := hne rfl
      rw [nil_append] at h
      rw [h] at this
      cases this
    | cons c w => exact cons_ne_nil c _
  have hbuf : gap ++ w ++ tail ≠ [] := by
    rw [append_assoc]
    exact append_ne_nil_of_right_ne_nil gap hstart_ne
  have hgo := not_or.mpr ⟨hbuf, Nat.not_le.mpr hlt⟩
  rw [mountinfoFields, if_neg hgo, hstart, if_neg hstart_ne]
  simp only [hstop]

theorem mountinfoFields_end (hlt : info.length < mountinfoNumFields)
    (hgap : ∀ c ∈ gap, isWhitespace c) (hw : IsWord isWhitespace newline w) :
    mountinfoFields info optionalFields (gap ++ w) =
      some ⟨(assignField info optionalFields w []).1, [], false⟩ := by
  have h := mountinfoFields_turn optionalFields [] hlt hgap hw.chars nofun
    fun hnil => absurd hnil hw.ne_nil
  rw [append_nil, append_nil] at h
  rw [h, head?_nil, if_neg nofun, mountinfoFields, if_pos (.inl rfl)]
  rfl

variable (rest : Bytes) (hlt : info.length < mountinfoNumFields)
include rest hlt

theorem mountinfoFields_newline (hgap : ∀ c ∈ gap, isWhitespace c)
    (hw : ∀ c ∈ w, isWordChar isWhitespace newline c) :
    mountinfoFields info optionalFields (gap ++ w ++ newline :: rest) =
      some ⟨(assignField info optionalFields (w ++ newline :: rest) (newline :: rest)).1, rest,
        true⟩ := by
  rw [mountinfoFields_turn optionalFields (newline :: rest) hlt hgap hw (by simp [isWordChar_nl])
    fun _ => rfl, head?_cons, if_pos rfl]
  rfl

theorem mountinfoFields_word {c : UInt8} (hgap : ∀ c ∈ gap, isWhitespace c)
    (hw : IsWord isWhitespace newline w) (hc : isWhitespace c) :
    mountinfoFields info optionalFields (gap ++ w ++ c :: rest) =
      mountinfoFields (assignField info optionalFields (w ++ c :: rest) (c :: rest)).1
        (assignField info optionalFields (w ++ c :: rest) (c :: rest)).2 rest := by
  have hne : (c :: rest).head? ≠ some newline := by
    intro h
    cases h
    cases hc
  rw [mountinfoFields_turn optionalFields (c :: rest) hlt hgap hw.chars
    (by simp [isWordChar_of_blank hc]) (fun hnil => absurd hnil hw.ne_nil), if_neg hne]
  rfl

end Turns

/-! ## The end of the content -/

def EndsInBlanks (text : Bytes) : Prop := text ≠ [] ∧ ∀ c ∈ text.rtake 2, isWhitespace c = true

def EndsInBlank (text : Bytes) : Prop := ∀ c ∈ text.rtake 1, isWhitespace c = true

instance (text : Bytes) : Decidable (EndsInBlanks text) := inferInstanceAs (Decidable (_ ∧ _))

instance (text : Bytes) : Decidable (EndsInBlank text) :=
  inferInstanceAs (Decidable (∀ c ∈ text.rtake 1, isWhitespace c = true))

theorem endsInBlank_concat (text : Bytes) (c : UInt8) :
    EndsInBlank (text ++ [c]) ↔ isWhitespace c := by
  simp [EndsInBlank]

theorem endsInBlanks_concat (text : Bytes) (c : UInt8) :
    EndsInBlanks (text ++ [c]) ↔ EndsInBlank text ∧ isWhitespace c := by
  rw [EndsInBlanks, EndsInBlank, rtake_concat_succ, forall_mem_append]
  simp

theorem not_endsInBlank_word (part : Bytes) (hw : IsWord isWhitespace newline w) :
    ¬ EndsInBlank (part ++ w) := by
  obtain ⟨w', c, hconcat⟩ := (eq_nil_or_concat' w).resolve_left hw.ne_nil
  have hc : isWhitespace c = false := IsWord.blank_eq_false hw.chars c (by simp [hconcat])
  rw [hconcat, ← append_assoc, endsInBlank_concat, hc]
  exact nofun

theorem not_endsInBlanks_word (part : Bytes) (hw : IsWord isWhitespace newline w) :
    ¬ EndsInBlanks (part ++ w) := by
  obtain ⟨w', c, hconcat⟩ := (eq_nil_or_concat' w).resolve_left hw.ne_nil
  have hc : isWhitespace c = false := IsWord.blank_eq_false hw.chars c (by simp [hconcat])
  rw [hconcat, ← append_assoc, endsInBlanks_concat, hc]
  exact fun h => nomatch h.2

theorem endsInBlank_cons {c : UInt8} (part text : Bytes) (hc : isWhitespace c) :
    EndsInBlank (part ++ c :: text) ↔ EndsInBlank text := by
  rcases eq_nil_or_concat' text with rfl | ⟨text', d, rfl⟩
  · exact iff_of_true ((endsInBlank_concat part c).mpr hc) nofun
  · rw [← cons_append, ← append_assoc, endsInBlank_concat, endsInBlank_concat]

theorem endsInBlanks_cons {c : UInt8} {text : Bytes} (part : Bytes) (hc : isWhitespace c)
    (hne : text ≠ []) : EndsInBlanks (part ++ c :: text) ↔ EndsInBlanks text := by
  obtain ⟨text', d, rfl⟩ := (eq_nil_or_concat' text).resolve_left hne
  rw [← cons_append, ← append_assoc, endsInBlanks_concat, endsInBlanks_concat,
    endsInBlank_cons part text' hc]

/-! ## What the loop comes to -/

def Incomplete (i : Nat) (words : List Bytes) : Prop :=
  ∀ n ∈ wordsNeeded i words, words.length < n

/-- What the loop over the fields comes to, from the field with index `i` on. -/
structure FieldsSpec (i : Nat) (buf : Bytes) (r : Option FieldsEnd) : Prop where
  complete : ∀ n ∈ wordsNeeded i (fields isWhitespace (firstLine newline buf)),
    n ≤ (fields isWhitespace (firstLine newline buf)).length →
    ∃ e, r = some e ∧ e.info.length = mountinfoNumFields ∧
      (if e.eol then [] else fields isWhitespace (firstLine newline e.buf)) =
        (fields isWhitespace (firstLine newline buf)).drop n ∧
      (if e.eol then e.buf else afterLine newline e.buf) = afterLine newline buf
  lineEnd : Incomplete i (fields isWhitespace (firstLine newline buf)) → newline ∈ buf →
    ∃ info, r = some ⟨info, afterLine newline buf, true⟩ ∧ info.length ≤ mountinfoNumFields ∧
      (info.length = mountinfoNumFields ↔
        wordsNeeded i (fields isWhitespace (firstLine newline buf)) =
            some ((fields isWhitespace (firstLine newline buf)).length + 1) ∧
          EndsInBlank (firstLine newline buf))
  contentEnd : Incomplete i (fields isWhitespace (firstLine newline buf)) → newline ∉ buf →
    ¬ EndsInBlanks buf → ∃ info, r = some ⟨info, [], false⟩ ∧ info.length < mountinfoNumFields
  outOfRange : Incomplete i (fields isWhitespace (firstLine newline buf)) → newline ∉ buf →
    EndsInBlanks buf → r = none

theorem wordsNeeded_eq_zero {words : List Bytes} (h : wordsNeeded i words = some 0) :
    mountinfoNumFields ≤ i := by
  have hnums := fieldNums
  rw [wordsNeeded] at h
  split at h
  · obtain ⟨k, -, hk⟩ := map_eq_some_iff.mp h
    omega
  · rw [some.injEq] at h
    omega

theorem wordsNeeded_full (words : List Bytes) : wordsNeeded mountinfoNumFields words = some 0 := by
  rw [wordsNeeded, if_neg (by decide), Nat.sub_self]

section

variable (hi : i < mountinfoNumFields)
include hi

theorem fieldIndexAfter_of_needed {n : Nat} {words : List Bytes}
    (hn : n ∈ wordsNeeded i (w :: words)) (hle : n ≤ 1) :
    n = 1 ∧ fieldIndexAfter i w = mountinfoNumFields := by
  rw [wordsNeeded_cons hi] at hn
  obtain ⟨k, hk, rfl⟩ := map_eq_some_iff.mp hn
  obtain rfl : k = 0 := by omega
  exact ⟨rfl, Nat.le_antisymm (fieldIndexAfter_le hi w) (wordsNeeded_eq_zero hk)⟩

theorem wordsNeeded_of_full (hfull : fieldIndexAfter i w = mountinfoNumFields)
    (words : List Bytes) : wordsNeeded i (w :: words) = some 1 := by
  rw [wordsNeeded_cons hi, hfull, wordsNeeded_full]
  rfl

theorem incomplete_cons (w : Bytes) (words : List Bytes) :
    Incomplete i (w :: words) ↔ Incomplete (fieldIndexAfter i w) words := by
  simp [Incomplete, wordsNeeded_cons hi]

end

section Spec

variable {i : Nat} {gap w : Bytes} (hi : i < mountinfoNumFields) (hgap : ∀ c ∈ gap, isWhitespace c)
  {c : UInt8}

include hi hgap

theorem fieldsSpec_blanks (hne : gap ≠ []) : FieldsSpec i gap none := by
  have hnl := nl_notMem_blanks isWhitespace_newline hgap
  have hwords : fields isWhitespace (firstLine newline gap) = [] := by
    rw [firstLine_of_notMem hnl, fields_blanks hgap]
  constructor
  · intro n hn hle
    rw [hwords] at hn hle
    obtain rfl : n = 0 := Nat.le_zero.mp hle
    exact absurd (wordsNeeded_eq_zero hn) (Nat.not_le.mpr hi)
  · exact fun _ h => absurd h hnl
  · exact fun _ _ h => absurd ⟨hne, fun c hc => hgap c (mem_of_mem_drop hc)⟩ h
  · exact fun _ _ _ => rfl

theorem fieldsSpec_end (hw : IsWord isWhitespace newline w)
    (hinfo : info.length = fieldIndexAfter i w) :
    FieldsSpec i (gap ++ w) (some ⟨info, [], false⟩) := by
  have hnl : newline ∉ gap ++ w := by
    simp [nl_notMem_blanks isWhitespace_newline hgap, nl_notMem_word hw.chars]
  have hwords : fields isWhitespace (firstLine newline (gap ++ w)) = [w] := by
    rw [firstLine_of_notMem hnl, fields_blanks_word hgap hw]
  constructor
  · intro n hn hle
    rw [hwords] at hn hle
    obtain ⟨rfl, hfull⟩ := fieldIndexAfter_of_needed hi hn hle
    refine ⟨_, rfl, hinfo.trans hfull, ?_, ?_⟩
    · rw [hwords]
      rfl
    · rw [afterLine_of_notMem hnl]
      rfl
  · exact fun _ h => absurd h hnl
  · intro hinc _ _
    rw [hwords] at hinc
    refine ⟨info, rfl, hinfo ▸ Nat.lt_of_le_of_ne (fieldIndexAfter_le hi w) fun hfull => ?_⟩
    exact absurd (hinc 1 (wordsNeeded_of_full hi hfull [])) (Nat.lt_irrefl 1)
  · exact fun _ _ h => absurd h (not_endsInBlanks_word gap hw)

theorem fieldsSpec_newline (hw : IsWord isWhitespace newline w) (rest : Bytes)
    (hinfo : info.length = fieldIndexAfter i w) :
    FieldsSpec i (gap ++ w ++ newline :: rest) (some ⟨info, rest, true⟩) := by
  have hnl : newline ∉ gap ++ w := by
    simp [nl_notMem_blanks isWhitespace_newline hgap, nl_notMem_word hw.chars]
  have hwords : fields isWhitespace (firstLine newline (gap ++ w ++ newline :: rest)) = [w] := by
    rw [firstLine_append_nl hnl, fields_blanks_word hgap hw]
  have hmem : newline ∈ gap ++ w ++ newline :: rest := by simp
  constructor
  · intro n hn hle
    rw [hwords] at hn hle
    obtain ⟨rfl, hfull⟩ := fieldIndexAfter_of_needed hi hn hle
    refine ⟨_, rfl, hinfo.trans hfull, ?_, ?_⟩
    · rw [hwords]
      rfl
    · rw [afterLine_append_nl hnl]
      rfl
  · intro hinc _
    rw [hwords] at hinc
    have hfull : fieldIndexAfter i w ≠ mountinfoNumFields := fun hfull =>
      absurd (hinc 1 (wordsNeeded_of_full hi hfull [])) (Nat.lt_irrefl 1)
    rw [afterLine_append_nl hnl, firstLine_append_nl hnl]
    refine ⟨info, rfl, hinfo ▸ fieldIndexAfter_le hi w, ?_⟩
    exact iff_of_false (hinfo ▸ hfull) fun h => not_endsInBlank_word gap hw h.2
  all_goals exact fun _ h => absurd hmem h

theorem fieldsSpec_newline_blanks (rest : Bytes) (hinfo : info.length = fieldIndexAfter i []) :
    FieldsSpec i (gap ++ newline :: rest) (some ⟨info, rest, true⟩) := by
  have hnl := nl_notMem_blanks isWhitespace_newline hgap
  have hwords : fields isWhitespace (firstLine newline (gap ++ newline :: rest)) = [] := by
    rw [firstLine_append_nl hnl, fields_blanks hgap]
  have hmem : newline ∈ gap ++ newline :: rest := by simp
  constructor
  · intro n hn hle
    rw [hwords] at hn hle
    obtain rfl : n = 0 := Nat.le_zero.mp hle
    exact absurd (wordsNeeded_eq_zero hn) (Nat.not_le.mpr hi)
  · intro _ _
    have hblank : EndsInBlank gap := fun c hc => hgap c (mem_of_mem_drop hc)
    rw [hwords, afterLine_append_nl hnl, firstLine_append_nl hnl]
    refine ⟨info, rfl, hinfo ▸ fieldIndexAfter_le hi [], ?_⟩
    rw [hinfo, fieldIndexAfter_eq_numFields hi]
    exact (and_iff_left hblank).symm
  all_goals exact fun _ h => absurd hmem h

variable (hw : IsWord isWhitespace newline w) (hc : isWhitespace c)
include hw hc

theorem fieldsSpec_word_full (rest : Bytes) (hinfo : info.length = fieldIndexAfter i w)
    (hfull : info.length = mountinfoNumFields) :
    FieldsSpec i (gap ++ w ++ c :: rest) (some ⟨info, rest, false⟩) := by
  obtain ⟨-, hwords, hafter, -⟩ := line_blanks_word_cons isWhitespace_newline hgap hw hc rest
  have hneeded := wordsNeeded_of_full hi (hinfo.symm.trans hfull)
    (fields isWhitespace (firstLine newline rest))
  have hdone : ¬ Incomplete i (w :: fields isWhitespace (firstLine newline rest)) := by
    intro hinc
    have := hinc 1 hneeded
    simp at this
  constructor
  · intro n hn _
    rw [hwords, hneeded] at hn
    cases hn
    refine ⟨_, rfl, hfull, ?_, ?_⟩
    · rw [hwords]
      rfl
    · rw [hafter]
      rfl
  all_goals exact fun hinc => absurd (hwords ▸ hinc) hdone

theorem fieldsSpec_word_last (hinfo : info.length = fieldIndexAfter i w)
    (hlt : info.length < mountinfoNumFields) :
    FieldsSpec i (gap ++ w ++ [c]) (some ⟨info, [], false⟩) := by
  obtain ⟨-, hwords, -, hmem⟩ := line_blanks_word_cons isWhitespace_newline hgap hw hc []
  constructor
  · intro n hn hle
    rw [hwords] at hn hle
    exact absurd (hinfo.trans (fieldIndexAfter_of_needed hi hn hle).2) (Nat.ne_of_lt hlt)
  · exact fun _ h => nomatch hmem.mp h
  · exact fun _ _ _ => ⟨info, rfl, hlt⟩
  · intro _ _ h
    exact absurd ((endsInBlanks_concat _ _).mp h).1 (not_endsInBlank_word gap hw)

theorem fieldsSpec_word_more {rest : Bytes} (hrest : rest ≠ []) {k : Nat} {r : Option FieldsEnd}
    (hk : k = fieldIndexAfter i w) (hspec : FieldsSpec k rest r) :
    FieldsSpec i (gap ++ w ++ c :: rest) r := by
  obtain ⟨hline, hwords, hafter, hmem⟩ := line_blanks_word_cons isWhitespace_newline hgap hw hc rest
  have hneeded := wordsNeeded_cons hi w (fields isWhitespace (firstLine newline rest))
  rw [← hk] at hneeded
  have hinc := incomplete_cons hi w (fields isWhitespace (firstLine newline rest))
  rw [← hk] at hinc
  constructor
  · intro n hn hle
    rw [hwords, hneeded] at hn
    obtain ⟨k, hk, rfl⟩ := map_eq_some_iff.mp hn
    rw [hwords, length_cons] at hle
    obtain ⟨e, hr, hlen, hdrop, hbuf⟩ := hspec.complete k hk (Nat.le_of_succ_le_succ hle)
    exact ⟨e, hr, hlen, by rw [hdrop, hwords, drop_succ_cons], by rw [hbuf, hafter]⟩
  · intro h hnl
    rw [hwords] at h
    obtain ⟨info', hr, hle, hiff⟩ := hspec.lineEnd (hinc.mp h) (hmem.mp hnl)
    refine ⟨info', by rw [hr, hafter], hle, ?_⟩
    rw [hiff, hwords, hneeded, hline, endsInBlank_cons _ _ hc, length_cons]
    simp
  · intro h hnl hblanks
    rw [hwords] at h
    rw [endsInBlanks_cons _ hc hrest] at hblanks
    exact hspec.contentEnd (hinc.mp h) (fun hm => hnl (hmem.mpr hm)) hblanks
  · intro h hnl hblanks
    rw [hwords] at h
    rw [endsInBlanks_cons _ hc hrest] at hblanks
    exact hspec.outOfRange (hinc.mp h) (fun hm => hnl (hmem.mpr hm)) hblanks

theorem fieldsSpec_word {rest : Bytes} {r : Option FieldsEnd}
    (hinfo : info.length = fieldIndexAfter i w)
    (hstop : rest = [] ∨ info.length = mountinfoNumFields → r = some ⟨info, rest, false⟩)
    (hgo : rest ≠ [] → info.length < mountinfoNumFields → FieldsSpec info.length rest r) :
    FieldsSpec i (gap ++ w ++ c :: rest) r := by
  by_cases hfull : info.length = mountinfoNumFields
  · rw [hstop (.inr hfull)]
    exact fieldsSpec_word_full hi hgap hw hc rest hinfo hfull
  have hlt := Nat.lt_of_le_of_ne (hinfo ▸ fieldIndexAfter_le hi w) hfull
  by_cases hrest : rest = []
  · rw [hstop (.inl hrest), hrest]
    exact fieldsSpec_word_last hi hgap hw hc hinfo hlt
  · exact fieldsSpec_word_more hi hgap hw hc hrest hinfo (hgo hrest hlt)

end Spec

theorem mountinfoFields_spec (optionalFields : Option (Bytes × Bytes))
    {buf : Bytes} (hlt : info.length < mountinfoNumFields) (hbuf : buf ≠ []) :
    FieldsSpec info.length buf (mountinfoFields info optionalFields buf) := by
  induction hlen : buf.length using Nat.strong_induction_on generalizing info optionalFields buf with
  | _ n ih =>
    obtain ⟨gap, w, tail, rfl, hgap, hw, -, rfl | ⟨rest, rfl⟩ | ⟨c, rest, rfl, hc, hwne⟩⟩ :=
      nextWord_cases isWhitespace newline buf
    · by_cases hwne : w = []
      · subst hwne
        rw [append_nil, append_nil] at hbuf ⊢
        rw [mountinfoFields_blanks optionalFields hlt hbuf hgap]
        exact fieldsSpec_blanks hlt hgap hbuf
      · rw [append_nil, mountinfoFields_end optionalFields hlt hgap ⟨hwne, hw⟩]
        refine fieldsSpec_end hlt hgap ⟨hwne, hw⟩ ?_
        rw [length_assignField, ← append_nil w, slice_append, append_nil]
    · rw [mountinfoFields_newline optionalFields rest hlt hgap hw]
      have hinfo := length_assignField info optionalFields (w ++ newline :: rest) (newline :: rest)
      rw [slice_append] at hinfo
      by_cases hwne : w = []
      · subst hwne
        rw [append_nil]
        exact fieldsSpec_newline_blanks hlt hgap rest hinfo
      · exact fieldsSpec_newline hlt hgap ⟨hwne, hw⟩ rest hinfo
    · rw [mountinfoFields_word optionalFields rest hlt hgap ⟨hwne, hw⟩ hc]
      have hinfo := length_assignField info optionalFields (w ++ c :: rest) (c :: rest)
      rw [slice_append] at hinfo
      refine fieldsSpec_word hlt hgap ⟨hwne, hw⟩ hc hinfo ?_ ?_
      · intro hstop
        rw [mountinfoFields, if_pos (hstop.imp_right fun h => Nat.le_of_eq h.symm)]
      · intro hrest hlt'
        refine ih rest.length ?_ _ hlt' hrest rfl
        simp only [length_append, length_cons] at hlen
        omega

end Lsvmi.Procfs
