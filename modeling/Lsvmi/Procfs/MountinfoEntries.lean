import Lsvmi.Procfs.MountinfoLines

/-!
# The entries of a mountinfo content

An entry is written with blanks between its fields.  Reading the line gives the fields back, with
the optional fields as the text from the first one to the last one, and every line that has all its
fields is one that an entry is written as.
-/

namespace Lsvmi.Procfs

open Reasoning List Option

abbrev Blanks (gap : Bytes) : Prop := ∀ c ∈ gap, isWhitespace c = true

theorem blanks_cons {c : UInt8} {gap : Bytes} :
    Blanks (c :: gap) ↔ isWhitespace c ∧ Blanks gap := forall_mem_cons

def AllFields (line : Bytes) : Prop :=
  wordsNeeded 0 (fields isWhitespace line) = some (fields isWhitespace line).length

instance (line : Bytes) : Decidable (AllFields line) := inferInstanceAs (Decidable (_ = _))

structure MountEntry where
  leading : List Bytes
  optional : List Bytes
  trailing : List Bytes
  length_leading : leading.length = mountinfoOptionalFields
  length_trailing : trailing.length = 3
  isWord : ∀ w ∈ leading ++ optional ++ trailing, IsWord isWhitespace newline w
  separator_notMem : [45] ∉ optional

namespace MountEntry

/-- The entry is written as the line, and the optional fields as the text. -/
inductive Rendered (e : MountEntry) : Bytes → Bytes → Prop
  | bare {gap lead gap₁ trail gap₂ : Bytes} (hopt : e.optional = []) (hgap : Blanks gap)
    (hlead : Spaced isWhitespace newline e.leading lead) (hne₁ : gap₁ ≠ []) (hgap₁ : Blanks gap₁)
    (htrail : Spaced isWhitespace newline ([45] :: e.trailing) trail) (hgap₂ : Blanks gap₂) :
    Rendered e [] (gap ++ lead ++ gap₁ ++ trail ++ gap₂)
  | optional {gap lead gap₁ text gap₂ trail gap₃ : Bytes} (hgap : Blanks gap)
    (hlead : Spaced isWhitespace newline e.leading lead) (hne₁ : gap₁ ≠ []) (hgap₁ : Blanks gap₁)
    (htext : Spaced isWhitespace newline e.optional text) (hne₂ : gap₂ ≠ []) (hgap₂ : Blanks gap₂)
    (htrail : Spaced isWhitespace newline ([45] :: e.trailing) trail) (hgap₃ : Blanks gap₃) :
    Rendered e text (gap ++ lead ++ gap₁ ++ text ++ gap₂ ++ trail ++ gap₃)

def parsedLine (e : MountEntry) (text : Bytes) : MountinfoParsedLine :=
  e.leading ++ [text, [45]] ++ e.trailing

theorem Rendered.fields_eq {e : MountEntry} {text line : Bytes} (h : e.Rendered text line) :
    fields isWhitespace line = e.leading ++ (e.optional ++ [45] :: e.trailing) := by
  cases h with
  | bare hopt hgap hlead hne₁ hgap₁ htrail hgap₂ =>
    rw [append_assoc _ _ (_ : Bytes), fields_gap hne₁ hgap₁, fields_sep hgap, hlead.fields_eq,
      hopt, fields_append_blanks hgap₂, htrail.fields_eq, nil_append]
  | optional hgap hlead hne₁ hgap₁ htext hne₂ hgap₂ htrail hgap₃ =>
    rw [append_assoc _ _ (_ : Bytes), fields_gap hne₂ hgap₂, fields_gap hne₁ hgap₁,
      fields_sep hgap, hlead.fields_eq, htext.fields_eq, fields_append_blanks hgap₃,
      htrail.fields_eq, append_assoc]

end MountEntry

section Reading

variable {words : List Bytes} {text gap : Bytes} {info : MountinfoParsedLine} {c : UInt8}

theorem assignField_word (optionalFields : Option (Bytes × Bytes))
    (hne : info.length ≠ mountinfoOptionalFields) {w tail : Bytes} :
    assignField info optionalFields (w ++ tail) tail = (info ++ [w], optionalFields) := by
  rw [assignField, if_neg hne, slice_append]

section

variable (h : Spaced isWhitespace newline words text) (optionalFields : Option (Bytes × Bytes))
  (hgap : Blanks gap) (hc : isWhitespace c) (rest : Bytes)
include h optionalFields hgap hc rest

theorem mountinfoFields_words (hlen : info.length + words.length ≤ mountinfoOptionalFields) :
    mountinfoFields info optionalFields (gap ++ text ++ c :: rest) =
      mountinfoFields (info ++ words) optionalFields rest := by
  have hnums := fieldNums
  induction h generalizing info gap with
  | @last w hw =>
    rw [length_singleton] at hlen
    rw [mountinfoFields_word optionalFields rest (by omega) hgap hw hc, assignField_word _ (by omega)]
  | @word w gap' text words hw hne hgap' hwords ih =>
    rw [length_cons] at hlen
    obtain ⟨c', gap', rfl, hc', hgap'⟩ := exists_blank_cons hne hgap'
    have htext : gap ++ (w ++ c' :: gap' ++ text) ++ c :: rest =
        gap ++ w ++ c' :: (gap' ++ text ++ c :: rest) := by simp
    rw [htext, mountinfoFields_word optionalFields _ (by omega) hgap hw hc',
      assignField_word _ (by omega), ih hgap' (by simp only [length_append, length_singleton]; omega)]
    simp

theorem mountinfoFields_optional (hlen : info.length = mountinfoOptionalFields)
    (hsep : [45] ∉ words) :
    mountinfoFields info optionalFields (gap ++ text ++ c :: rest) =
      mountinfoFields info
        (some ((optionalFields.map Prod.fst).getD (text ++ c :: rest), c :: rest)) rest := by
  have hlt : info.length < mountinfoNumFields := by
    rw [hlen]
    decide
  have hassign (optionalFields : Option (Bytes × Bytes)) {w : Bytes} (hw : w ≠ [45]) (tail : Bytes) :
      assignField info optionalFields (w ++ tail) tail =
        (info, some ((optionalFields.map Prod.fst).getD (w ++ tail), tail)) := by
    rw [assignField, if_pos hlen, slice_append]
    cases optionalFields with
    | none => simp only [getD_none, map_none, if_neg hw]
    | some _ => simp only [getD_some, map_some, if_neg hw]
  induction h generalizing gap optionalFields with
  | @last w hw =>
    rw [mem_singleton] at hsep
    rw [mountinfoFields_word optionalFields rest hlt hgap hw hc, hassign _ (Ne.symm hsep)]
  | @word w gap' text words hw hne hgap' hwords ih =>
    rw [mem_cons, not_or] at hsep
    obtain ⟨c', gap', rfl, hc', hgap'⟩ := exists_blank_cons hne hgap'
    have htext : gap ++ (w ++ c' :: gap' ++ text) ++ c :: rest =
        gap ++ w ++ c' :: (gap' ++ text ++ c :: rest) := by simp
    rw [htext, mountinfoFields_word optionalFields _ hlt hgap hw hc',
      hassign _ (Ne.symm hsep.1), ih _ hgap' hsep.2]
    simp

end

theorem mountinfoFields_separator (optionalFields : Option (Bytes × Bytes)) (hgap : Blanks gap)
    (hc : isWhitespace c) (rest : Bytes) (hlen : info.length = mountinfoOptionalFields)
    (htext : (optionalFields.elim [] fun p => slice p.1 p.2) = text) :
    ∃ optionalFields', mountinfoFields info optionalFields (gap ++ [45] ++ c :: rest) =
      mountinfoFields (info ++ [text, [45]]) optionalFields' rest := by
  have hlt : info.length < mountinfoNumFields := by
    rw [hlen]
    decide
  have hw : IsWord isWhitespace newline [45] := by decide
  rw [mountinfoFields_word optionalFields rest hlt hgap hw hc, assignField, if_pos hlen, slice_append]
  subst htext
  cases optionalFields with
  | none =>
    simp only [getD_none, if_true, slice_self]
    exact ⟨_, rfl⟩
  | some p =>
    simp only [getD_some, if_true]
    exact ⟨_, rfl⟩

theorem mountinfoFields_last (h : Spaced isWhitespace newline words text)
    (optionalFields : Option (Bytes × Bytes)) (hgap : Blanks gap) {tail : Bytes}
    (htail : ∀ c ∈ tail.head?, isWordChar isWhitespace newline c = false)
    (hgt : mountinfoOptionalFields < info.length)
    (hlen : info.length + words.length = mountinfoNumFields) :
    mountinfoFields info optionalFields (gap ++ text ++ tail) =
      some ⟨info ++ words, tail.tail, tail.head? = some newline⟩ := by
  induction h generalizing info gap with
  | @last w hw =>
    rw [length_singleton] at hlen
    rw [mountinfoFields_turn optionalFields tail (by omega) hgap hw.chars htail
      (fun hnil => absurd hnil hw.ne_nil), assignField_word _ hgt.ne']
    by_cases hnl : tail.head? = some newline
    · rw [if_pos hnl, decide_eq_true hnl]
    · have hfull : mountinfoNumFields ≤ (info ++ [w]).length := by
        rw [length_append, length_singleton]
        omega
      rw [if_neg hnl, mountinfoFields, if_pos (.inr hfull), decide_eq_false hnl]
  | @word w gap' text words hw hne hgap' hwords ih =>
    rw [length_cons] at hlen
    obtain ⟨c', gap', rfl, hc', hgap'⟩ := exists_blank_cons hne hgap'
    have htext : gap ++ (w ++ c' :: gap' ++ text) ++ tail =
        gap ++ w ++ c' :: (gap' ++ text ++ tail) := by simp
    have hlen' : (info ++ [w]).length = info.length + 1 := by simp
    rw [htext, mountinfoFields_word optionalFields _ (by omega) hgap hw hc', assignField_word _ hgt.ne']
    show mountinfoFields (info ++ [w]) optionalFields _ = _
    rw [ih hgap' (by omega) (by omega)]
    simp

end Reading

namespace MountEntry

variable {e : MountEntry} {text line : Bytes} {tail : Bytes}

theorem mountinfoFields_trailing {info : MountinfoParsedLine}
    {optionalFields : Option (Bytes × Bytes)} {gap trail : Bytes} (hgap : Blanks gap)
    (htrail : Spaced isWhitespace newline ([45] :: e.trailing) trail)
    (htail : ∀ c ∈ tail.head?, isWordChar isWhitespace newline c = false)
    (hlen : info.length = mountinfoOptionalFields)
    (htext : (optionalFields.elim [] fun p => slice p.1 p.2) = text) :
    mountinfoFields info optionalFields (gap ++ trail ++ tail) =
      some ⟨info ++ [text, [45]] ++ e.trailing, tail.tail, tail.head? = some newline⟩ := by
  have hnums := fieldNums
  have htrailing := e.length_trailing
  generalize hws : e.trailing = ws at htrail htrailing ⊢
  cases htrail with
  | last => cases htrailing
  | @word w gap' trail ws hw hne hgap' hwords =>
    obtain ⟨c, gap', rfl, hc, hgap'⟩ := exists_blank_cons hne hgap'
    obtain ⟨optionalFields', hsep⟩ := mountinfoFields_separator optionalFields hgap hc
      (gap' ++ trail ++ tail) hlen htext
    have hbuf : gap ++ ([45] ++ c :: gap' ++ trail) ++ tail =
        gap ++ [45] ++ c :: (gap' ++ trail ++ tail) := by simp
    have hlen' : (info ++ [text, [45]]).length = info.length + 2 := by simp
    rw [hbuf, hsep, mountinfoFields_last hwords optionalFields' hgap' htail (by omega) (by omega)]

theorem mountinfoFields_rendered (h : e.Rendered text line)
    (htail : tail = [] ∨ ∃ rest, tail = newline :: rest) :
    ∃ gap, Blanks gap ∧ mountinfoFields [] none (line ++ tail) =
      some ⟨e.parsedLine text, (gap ++ tail).tail, (gap ++ tail).head? = some newline⟩ := by
  have hchar (gap : Bytes) (hgap : Blanks gap) :
      ∀ c ∈ (gap ++ tail).head?, isWordChar isWhitespace newline c = false := by
    intro c hc
    cases gap with
    | nil =>
      rcases htail with rfl | ⟨rest, rfl⟩
      · cases hc
      · cases hc
        exact isWordChar_nl
    | cons b gap =>
      cases hc
      exact isWordChar_of_blank (blanks_cons.mp hgap).1
  cases h with
  | @bare gap lead gap₁ trail gap₂ hopt hgap hlead hne₁ hgap₁ htrail hgap₂ =>
    refine ⟨gap₂, hgap₂, ?_⟩
    obtain ⟨c, gap₁, rfl, hc, hgap₁⟩ := exists_blank_cons hne₁ hgap₁
    have hbuf : gap ++ lead ++ c :: gap₁ ++ trail ++ gap₂ ++ tail =
        gap ++ lead ++ c :: (gap₁ ++ trail ++ (gap₂ ++ tail)) := by simp
    rw [hbuf, mountinfoFields_words hlead none hgap hc _
      (by rw [e.length_leading, length_nil, Nat.zero_add]), nil_append,
      mountinfoFields_trailing hgap₁ htrail (hchar gap₂ hgap₂) e.length_leading rfl]
    rfl
  | @optional gap lead gap₁ text gap₂ trail gap₃ hgap hlead hne₁ hgap₁ htext hne₂ hgap₂ htrail hgap₃ =>
    refine ⟨gap₃, hgap₃, ?_⟩
    obtain ⟨c, gap₁, rfl, hc, hgap₁⟩ := exists_blank_cons hne₁ hgap₁
    obtain ⟨c', gap₂, rfl, hc', hgap₂⟩ := exists_blank_cons hne₂ hgap₂
    have hbuf : gap ++ lead ++ c :: gap₁ ++ text ++ c' :: gap₂ ++ trail ++ gap₃ ++ tail =
        gap ++ lead ++ c :: (gap₁ ++ text ++ c' :: (gap₂ ++ trail ++ (gap₃ ++ tail))) := by simp
    rw [hbuf, mountinfoFields_words hlead none hgap hc _
      (by rw [e.length_leading, length_nil, Nat.zero_add]), nil_append,
      mountinfoFields_optional htext none hgap₁ hc' _ e.length_leading e.separator_notMem,
      mountinfoFields_trailing hgap₂ htrail (hchar gap₃ hgap₃) e.length_leading rfl,
      elim_some, map_none, getD_none, slice_append]
    rfl

theorem mountinfoLine_rendered (h : e.Rendered text line) (lineNum : Nat)
    (htail : tail = [] ∨ ∃ rest, tail = newline :: rest) :
    mountinfoLine lineNum (line ++ tail) = some (.ok (e.parsedLine text, tail.tail)) := by
  obtain ⟨gap, hgap, hfields⟩ := mountinfoFields_rendered h htail
  have hfull : ¬ (e.parsedLine text).length < mountinfoNumFields := by
    simp [parsedLine, e.length_leading, e.length_trailing, mountinfoOptionalFields,
      mountinfoNumFields]
  rw [mountinfoLine, hfields]
  simp only [if_neg hfull]
  cases gap with
  | nil =>
    rcases htail with rfl | ⟨rest, rfl⟩
    · rfl
    · rfl
  | cons c gap =>
    rw [blanks_cons] at hgap
    have hne : some c ≠ some newline := by
      intro h
      cases h
      cases hgap.1
    have hnext : (nextField (gap ++ tail)).1 = [] ∧ (nextField (gap ++ tail)).2.2 = tail.tail := by
      rcases htail with rfl | ⟨rest, rfl⟩
      · have h := nextWord_blanks newline hgap.2
        rw [append_nil, nextField, h]
        exact ⟨rfl, rfl⟩
      · have h := nextWord_eq (w := []) rest hgap.2 (by simp) isWordChar_nl fun _ => isWhitespace_newline
        rw [append_nil] at h
        rw [nextField, h]
        exact ⟨rfl, rfl⟩
    simp [hne, hnext.1, hnext.2]

end MountEntry

theorem exists_words {words : List Bytes} (h : wordsNeeded 0 words = some words.length) :
    ∃ leading optional trailing, words = leading ++ (optional ++ [45] :: trailing) ∧
      leading.length = mountinfoOptionalFields ∧ trailing.length = 3 ∧ [45] ∉ optional := by
  have hnums := fieldNums
  rw [wordsNeeded, if_pos (Nat.zero_le _), Nat.sub_zero, Nat.sub_zero] at h
  obtain ⟨k, hk, hlen⟩ := map_eq_some_iff.mp h
  obtain ⟨hlt, hsep, hfirst⟩ := idxOf?_eq_some_iff.mp hk
  refine ⟨words.take mountinfoOptionalFields, (words.drop mountinfoOptionalFields).take k,
    (words.drop mountinfoOptionalFields).drop (k + 1), ?_, ?_, ?_, ?_⟩
  · rw [← hsep, ← drop_eq_getElem_cons hlt, take_append_drop, take_append_drop]
  · rw [length_take]
    omega
  · rw [length_drop, length_drop]
    omega
  · intro hmem
    obtain ⟨j, hj, hword⟩ := mem_take_iff_getElem.mp hmem
    exact hfirst j (by omega) hword

theorem AllFields.exists_rendered {line : Bytes} (h : AllFields line) (hnl : newline ∉ line) :
    ∃ (e : MountEntry) (text : Bytes), e.Rendered text line := by
  obtain ⟨leading, optional, trailing, hwords, hleading, htrailing, hsep⟩ := exists_words h
  have hlead_ne : leading ≠ [] := by
    rintro rfl
    cases hleading
  have hne : fields isWhitespace line ≠ [] := by
    rw [hwords]
    exact append_ne_nil_of_left_ne_nil hlead_ne _
  obtain ⟨gap, text, gap', rfl, hgap, hgap', hspaced⟩ := exists_spaced hnl hne
  rw [hwords] at hspaced
  have hisWord := hspaced.isWord
  let e : MountEntry := ⟨leading, optional, trailing, hleading, htrailing, by
    intro w hw
    apply hisWord
    simp only [mem_append, mem_cons] at hw ⊢
    tauto, hsep⟩
  obtain ⟨lead, gap₁, text₁, rfl, hne₁, hgap₁, hlead, hspaced₁⟩ := hspaced.split hlead_ne (by simp)
  by_cases hopt : optional = []
  · subst hopt
    refine ⟨e, [], ?_⟩
    have h := MountEntry.Rendered.bare (e := e) rfl hgap hlead hne₁ hgap₁ hspaced₁ hgap'
    simpa using h
  obtain ⟨text, gap₂, trail, rfl, hne₂, hgap₂, htext, htrail⟩ :=
    hspaced₁.split hopt (cons_ne_nil _ _)
  refine ⟨e, text, ?_⟩
  have h := MountEntry.Rendered.optional (e := e) hgap hlead hne₁ hgap₁ htext hne₂ hgap₂ htrail hgap'
  simpa using h

inductive RenderedContent : List (MountEntry × Bytes) → Bytes → Prop
  | nil : RenderedContent [] []
  | cons {e : MountEntry} {text line content : Bytes} {entries : List (MountEntry × Bytes)}
    (hline : e.Rendered text line) (hcontent : RenderedContent entries content) :
    RenderedContent ((e, text) :: entries) (line ++ newline :: content)

namespace Mountinfo

theorem updateLines_rendered {entries : List (MountEntry × Bytes)} {content : Bytes}
    (h : RenderedContent entries content) (lineNum : Nat) (parsedLines : List MountinfoParsedLine) :
    updateLines lineNum parsedLines content =
      some (parsedLines ++ entries.map fun entry => entry.1.parsedLine entry.2, none) := by
  induction h generalizing lineNum parsedLines with
  | nil => rw [updateLines, if_pos rfl, map_nil, append_nil]
  | @cons e text line content entries hline hcontent ih =>
    have hread := MountEntry.mountinfoLine_rendered hline lineNum (.inr ⟨content, rfl⟩)
    rw [updateLines_of_ne_nil (by simp), hread]
    show updateLines (lineNum + 1) (parsedLines ++ [e.parsedLine text]) content = _
    rw [ih, map_cons, append_assoc, singleton_append]

/-- What is rendered is parsed. -/
theorem update_rendered (mountinfo : Mountinfo) (entries : List (MountEntry × Bytes))
    (h : RenderedContent entries mountinfo.content) :
    mountinfo.update =
      some ({ mountinfo with
        parsedLines := entries.map fun entry => entry.1.parsedLine entry.2 }, none) := by
  rw [update, updateLines_rendered h]
  rfl

def sharedMount : MountEntry where
  leading := ["36", "35", "98:0", "/", "/mnt", "rw"].map utf8
  optional := ["shared:1", "master:2"].map utf8
  trailing := ["ext4", "/dev/sda1", "rw"].map utf8
  length_leading := rfl
  length_trailing := rfl
  isWord := by decide
  separator_notMem := by decide

theorem update_rendered_shared :
    ({ newMountinfo with
        content := utf8 "36 35 98:0 / /mnt rw shared:1\tmaster:2 - ext4 /dev/sda1 rw\n" } :
          Mountinfo).update =
      some ({ newMountinfo with
        content := utf8 "36 35 98:0 / /mnt rw shared:1\tmaster:2 - ext4 /dev/sda1 rw\n"
        parsedLines := [sharedMount.parsedLine (utf8 "shared:1\tmaster:2")] }, none) := by
  refine update_rendered _ [(sharedMount, utf8 "shared:1\tmaster:2")] ?_
  have hlead : Spaced isWhitespace newline sharedMount.leading (utf8 "36 35 98:0 / /mnt rw") :=
    spaced_intercalate 32 rfl (by decide) (by decide)
  have htext : Spaced isWhitespace newline sharedMount.optional (utf8 "shared:1\tmaster:2") :=
    spaced_intercalate 9 rfl (by decide) (by decide)
  have htrail : Spaced isWhitespace newline ([45] :: sharedMount.trailing)
      (utf8 "- ext4 /dev/sda1 rw") :=
    spaced_intercalate 32 rfl (by decide) (by decide)
  have hline : sharedMount.Rendered (utf8 "shared:1\tmaster:2")
      (utf8 "36 35 98:0 / /mnt rw shared:1\tmaster:2 - ext4 /dev/sda1 rw") := by
    have hnone : Blanks [] := forall_mem_nil _
    have hspace : Blanks [32] := forall_mem_singleton.mpr rfl
    have h := MountEntry.Rendered.optional hnone hlead (cons_ne_nil 32 []) hspace htext
      (cons_ne_nil 32 []) hspace htrail hnone
    exact h
  exact .cons hline .nil

end Mountinfo

end Lsvmi.Procfs
