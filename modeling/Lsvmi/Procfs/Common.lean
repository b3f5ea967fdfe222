import Mathlib.Tactic.MkIffOfInductiveProp
import Mathlib.Data.List.DropRight
import Lsvmi.Metrics
import Lsvmi.Reasoning.SpacedWords

/-!
# Common to the parsers

The parsers read a file into a buffer and go through it from left to right.  A position in the
buffer is represented by what lies behind it.
-/

namespace Lsvmi.Procfs

open Reasoning List Option

variable {buf word : Bytes}

section

variable (p : UInt8 → Prop) [DecidablePred p]

-- Only the bytes of a text are gone through, not all there are.
instance (priority := 2000) (text : Bytes) : Decidable (∀ c ∈ text, p c) := List.decidableBAll ..

instance (priority := 2000) decidableForallByte (c? : Option UInt8) : Decidable (∀ c ∈ c?, p c) :=
  Option.decidableForallMem ..

end

/-- `ReadFile`, which stops at `maxReadSize` bytes unless that is 0; the flag is for a potential
truncation. -/
def readFile (maxReadSize : Nat) (file : Bytes) : Bytes × Bool :=
  if maxReadSize = 0 ∨ file.length < maxReadSize then (file, false)
  else (file.take maxReadSize, true)

def parseFile {α : Type} (maxReadSize : Nat) (truncation : α) (parse : Bytes → α) (file : Bytes) : α :=
  let (buf, truncated) := readFile maxReadSize file
  if truncated then truncation else parse buf

theorem parseFile_eq {α : Type} {maxReadSize : Nat} (h : maxReadSize ≠ 0) (truncation : α)
    (parse : Bytes → α) (file : Bytes) :
    parseFile maxReadSize truncation parse file =
      if file.length < maxReadSize then parse file else truncation := by
  by_cases hlength : file.length < maxReadSize
  · simp [parseFile, readFile, hlength]
  · simp [parseFile, readFile, hlength, h]

def isWhitespace (c : UInt8) : Bool := c = 32 || c = 9

def newline : UInt8 := 10

def isWhitespaceNl (c : UInt8) : Bool := isWhitespace c || c = newline

theorem isWhitespace_newline : isWhitespace newline = false := rfl

def isDigit (c : UInt8) : Bool := c - 48 < 10

def nextField (buf : Bytes) : Bytes × Option UInt8 × Bytes := nextWord isWhitespace newline buf

theorem nextField_of_nil (h : (nextField buf).1 = []) :
    (nextField buf).2.2 = afterLine newline buf ∧
      fields isWhitespace (firstLine newline buf) = [] := by
  rcases nextWord_line isWhitespace_newline (rfl : nextField buf = _) with
    ⟨-, hwords, hrest, -⟩ | ⟨hne, -⟩
  · exact ⟨hrest, hwords⟩
  · exact absurd h hne

theorem nextField_of_blank (h : fields isWhitespace (firstLine newline buf) = []) :
    (nextField buf).1 = [] ∧ (nextField buf).2.2 = afterLine newline buf := by
  rcases nextWord_line isWhitespace_newline (rfl : nextField buf = _) with
    ⟨hnil, -, hrest, -⟩ | ⟨-, words, hwords, -⟩
  · exact ⟨hnil, hrest⟩
  · cases h.symm.trans hwords

def invalidDigit (word : Bytes) : Option UInt8 := word.find? fun c => !isDigit c

theorem invalidDigit_eq_none (h : ∀ c ∈ word, isDigit c) : invalidDigit word = none := by
  rw [invalidDigit, find?_eq_none]
  intro c hc
  simp [h c hc]

def decimal (name : Bytes) : Nat := name.foldl (fun v c => 10 * v + (c - 48).toNat) 0

-- The sum of the two shifts is the value times 10.
theorem foldl_digits32 (word : Bytes) :
    word.foldl (fun (v : UInt32) c => (v <<< 3) + (v <<< 1) + (c - 48).toUInt32) 0 =
      UInt32.ofNat (decimal word) := by
  have hten (v : UInt32) : (v <<< 3) + (v <<< 1) = 10 * v := by
    rw [← UInt32.toBitVec_inj]
    simp only [UInt32.toBitVec_add, UInt32.toBitVec_mul]
    simp
    bv_omega
  apply foldl_hom UInt32.ofNat
  intro v c
  rw [hten, UInt32.ofNat_add, UInt32.ofNat_mul, UInt32.ofNat_uInt8ToNat]
  rfl

theorem foldl_digits64 (word : Bytes) :
    word.foldl (fun (v : UInt64) c => (v <<< 3) + (v <<< 1) + (c - 48).toUInt64) 0 =
      UInt64.ofNat (decimal word) := by
  have hten (v : UInt64) : (v <<< 3) + (v <<< 1) = 10 * v := by
    rw [← UInt64.toBitVec_inj]
    simp only [UInt64.toBitVec_add, UInt64.toBitVec_mul]
    simp
    bv_omega
  apply foldl_hom UInt64.ofNat
  intro v c
  rw [hten, UInt64.ofNat_add, UInt64.ofNat_mul, UInt64.ofNat_uInt8ToNat]
  rfl

def getCurrentLine (buf : Bytes) : Bytes := buf.takeWhile (· ≠ newline)

theorem takeWhile_line {line : Bytes} (h : newline ∉ line) (text : Bytes) :
    (line ++ newline :: text).takeWhile (· ≠ newline) = line ∧
      (line ++ newline :: text).dropWhile (· ≠ newline) = newline :: text := by
  apply takeWhile_append_stop
  · intro c hc
    simpa using ne_of_mem_of_not_mem hc h
  · simp

theorem mem_dropWhile_isWhitespace {line : Bytes} {c : UInt8} (h : c ∈ line)
    (hc : isWhitespace c = false) : c ∈ line.dropWhile isWhitespace := by
  rw [← takeWhile_append_dropWhile (p := isWhitespace) (l := line), mem_append] at h
  refine h.resolve_left fun hblank => ?_
  rw [mem_takeWhile_imp hblank] at hc
  cases hc

theorem dropWhile_isWhitespace_line (line text : Bytes) :
    (line ++ newline :: text).dropWhile isWhitespace =
      line.dropWhile isWhitespace ++ newline :: text := by
  induction line with
  | nil => rfl
  | cons c line ih =>
    by_cases hc : isWhitespace c
    · simp [hc, ih]
    · simp [hc]

/-- The number of bytes of the space that the text starts with, as `unicode.IsSpace` has it; 0 if
there is none. -/
def spaceLen : Bytes → Nat
  | 0xC2 :: 0x85 :: _ => 2
  | 0xC2 :: 0xA0 :: _ => 2
  | 0xE1 :: 0x9A :: 0x80 :: _ => 3
  | 0xE2 :: 0x80 :: c :: _ =>
    if 0x80 ≤ c && c ≤ 0x8A || c = 0xA8 || c = 0xA9 || c = 0xAF then 3 else 0
  | 0xE2 :: 0x81 :: 0x9F :: _ => 3
  | 0xE3 :: 0x80 :: 0x80 :: _ => 3
  | c :: _ => if 9 ≤ c && c ≤ 13 || c = 32 then 1 else 0
  | [] => 0

/-- The bytes of the text, each with whether it belongs to a space; the first `n` ones do. -/
def markSpaces : Nat → Bytes → List (UInt8 × Bool)
  | _, [] => []
  | n + 1, c :: text => (c, true) :: markSpaces n text
  | 0, c :: text =>
    match spaceLen (c :: text) with
    | 0 => (c, false) :: markSpaces 0 text
    | n + 1 => (c, true) :: markSpaces n text

def stringsFields (text : Bytes) : List Bytes :=
  (fields Prod.snd (markSpaces 0 text)).map fun field => field.map Prod.fst

def trimSpace (text : Bytes) : Bytes :=
  (((markSpaces 0 text).dropWhile Prod.snd).rdropWhile Prod.snd).map Prod.fst

/-- The line has as many words as are looked for, and its newline stands right behind the last
one. -/
def EndsInWord (n : Nat) (buf : Bytes) : Prop :=
  0 < n ∧ (fields isWhitespace (firstLine newline buf)).length = n ∧ newline ∈ buf ∧
    ∀ c ∈ (firstLine newline buf).getLast?, isWhitespace c = false

theorem endsInWord_one {rest : Bytes} (hnext : nextField buf = (word, some newline, rest))
    (hword : word ≠ []) : EndsInWord 1 buf := by
  obtain ⟨gap, w, tail, rfl, hgap, hw, hcut, htail⟩ := nextWord_cases isWhitespace newline buf
  obtain ⟨rfl, hsep, rfl⟩ : word = w ∧ some newline = tail.head? ∧ rest = tail.tail := by
    simpa using hnext.symm.trans hcut
  obtain ⟨rest, rfl⟩ : ∃ rest, tail = newline :: rest := head?_eq_some_iff.mp hsep.symm
  have hpart : newline ∉ gap ++ word := by
    simp [nl_notMem_blanks isWhitespace_newline hgap, nl_notMem_word hw]
  have hlast : (gap ++ word).getLast? = word.getLast? := by
    rw [getLast?_append, or_of_isSome]
    simpa using hword
  refine ⟨Nat.one_pos, ?_, by simp, ?_⟩
  · rw [firstLine_append_nl hpart, fields_blanks_word hgap ⟨hword, hw⟩]
    rfl
  · rw [firstLine_append_nl hpart, hlast]
    exact fun c hc => IsWord.blank_eq_false hw c (mem_of_getLast? hc)

theorem endsInWord_succ {rest : Bytes} {sep : Option UInt8}
    (hnext : nextField buf = (word, sep, rest)) (hword : word ≠ []) (hsep : sep ≠ some newline)
    (n : Nat) : EndsInWord (n + 1) buf ↔ EndsInWord n rest := by
  obtain ⟨gap, w, tail, rfl, hgap, hw, hcut, htail⟩ := nextWord_cases isWhitespace newline buf
  obtain ⟨rfl, rfl, rfl⟩ : word = w ∧ sep = tail.head? ∧ rest = tail.tail := by
    simpa using hnext.symm.trans hcut
  have hpart : newline ∉ gap ++ word := by
    simp [nl_notMem_blanks isWhitespace_newline hgap, nl_notMem_word hw]
  unfold EndsInWord
  rcases htail with rfl | ⟨rest, rfl⟩ | ⟨c, rest, rfl, hc, -⟩
  · -- there is no newline in the rest of the text
    rw [List.append_nil]
    simp [hpart]
  · exact absurd rfl hsep
  obtain ⟨hline, hfields, -, hmem⟩ :=
    line_blanks_word_cons isWhitespace_newline hgap ⟨hword, hw⟩ hc rest
  rw [hfields, hline, hmem, length_cons, tail_cons]
  have hlast : (gap ++ word ++ c :: firstLine newline rest).getLast? =
      (c :: firstLine newline rest).getLast? := by
    rw [getLast?_append, or_of_isSome]
    simp
  rw [hlast]
  cases n with
  | zero =>
    -- the last character of the line is a blank
    refine iff_of_false ?_ fun h => absurd h.1 (Nat.lt_irrefl 0)
    rintro ⟨-, hlen, -, hend⟩
    have hblank := blanks_of_fields_eq_nil (eq_nil_of_length_eq_zero (Nat.succ.inj hlen))
    obtain ⟨d, hd⟩ : ∃ d, (c :: firstLine newline rest).getLast? = some d :=
      ⟨_, getLast?_eq_some_getLast (cons_ne_nil _ _)⟩
    have hfalse := hend d hd
    rcases mem_cons.mp (mem_of_getLast? hd) with rfl | hmem
    · rw [hc] at hfalse
      cases hfalse
    · rw [hblank d hmem] at hfalse
      cases hfalse
  | succ n =>
    rw [Nat.add_left_inj]
    by_cases hlen : (fields isWhitespace (firstLine newline rest)).length = n + 1
    · have hne : firstLine newline rest ≠ [] := by
        intro hnil
        rw [hnil, fields_nil] at hlen
        cases hlen
      have hsame : (c :: firstLine newline rest).getLast? = (firstLine newline rest).getLast? := by
        rw [getLast?_cons, getLast?_eq_some_getLast hne]
        rfl
      rw [hsame]
      simp
    · simp [hlen]

section ValueFields

variable {α : Type} (fieldValue : Nat → Bytes → α)

/-- The loop over at most `n` values, with the ones found before; a character that is not a digit
is an error.  The result is the values, the rest of the buffer and whether the end of the line was
seen. -/
def valueFields : Nat → Bytes → List α → Except UInt8 (List α × Bytes × Bool)
  | 0, buf, values => .ok (values, buf, false)
  | n + 1, buf, values =>
    let (word, sep, buf) := nextField buf
    match invalidDigit word with
    | some c => .error c
    | none =>
      if word = [] then .ok (values, buf, sep = some newline)
      else
        let values := values ++ [fieldValue values.length word]
        if sep = some newline then .ok (values, buf, true)
        else valueFields n buf values

/-- What is left of a line whose words have been read, where `text` follows the line. -/
def LineEnd (text buf : Bytes) (eol : Bool) : Prop :=
  if eol then buf = text
  else fields isWhitespace (firstLine newline buf) = [] ∧ afterLine newline buf = text

omit fieldValue in
theorem nextField_of_lineEnd {text buf : Bytes} (h : LineEnd text buf false) :
    (nextField buf).1 = [] ∧ (nextField buf).2.2 = text := by
  obtain ⟨hword, hrest⟩ := nextField_of_blank h.1
  exact ⟨hword, hrest.trans h.2⟩

structure ValuesRead (n : Nat) (buf : Bytes) (first : Nat) (found : List α) (rest : Bytes)
    (eol : Bool) : Prop where
  found_eq : found = ((fields isWhitespace (firstLine newline buf)).take n).mapIdx
    (fun i => fieldValue (first + i))
  words_rest : (if eol then [] else fields isWhitespace (firstLine newline rest)) =
    (fields isWhitespace (firstLine newline buf)).drop n
  after_rest : (if eol then rest else afterLine newline rest) = afterLine newline buf
  eol_iff : n ≤ (fields isWhitespace (firstLine newline buf)).length →
    (eol = true ↔ EndsInWord n buf)

theorem valueFields_cases (n : Nat) (buf : Bytes) (values : List α) :
    ((∃ word ∈ (fields isWhitespace (firstLine newline buf)).take n, invalidDigit word ≠ none) ∧
      ∃ c, valueFields fieldValue n buf values = .error c) ∨
    ((∀ word ∈ (fields isWhitespace (firstLine newline buf)).take n, invalidDigit word = none) ∧
      ∃ found rest eol, valueFields fieldValue n buf values = .ok (values ++ found, rest, eol) ∧
        ValuesRead fieldValue n buf values.length found rest eol) := by
  induction n generalizing buf values with
  | zero =>
    refine .inr ⟨by simp, [], buf, false, by simp [valueFields], by simp, rfl, rfl, ?_⟩
    exact fun _ => iff_of_false (by simp) fun h => absurd h.1 (Nat.lt_irrefl 0)
  | succ n ih =>
    rcases hnext : nextField buf with ⟨word, sep, rest⟩
    rcases nextWord_line isWhitespace_newline hnext with ⟨rfl, hwords, rfl, hend⟩ |
      ⟨hword, words, hwords, hrest⟩
    · refine .inr ⟨by simp [hwords], [], afterLine newline buf, sep = some newline, ?_,
        by simp [hwords], ?_, ?_, fun hle => absurd hle (by simp [hwords])⟩
      · simp [valueFields, hnext, invalidDigit]
      all_goals rcases hend with hend | hend <;>
        simp [hend, hwords, firstLine_of_notMem, afterLine_of_notMem, fields_nil]
    by_cases hvalid : invalidDigit word = none
    swap
    · obtain ⟨c, hc⟩ := ne_none_iff_exists'.mp hvalid
      exact .inl ⟨⟨word, by simp [hwords], hvalid⟩, c, by simp [valueFields, hnext, hc]⟩
    rcases hrest with ⟨rfl, rfl, rfl⟩ | ⟨hsep, rfl, hafter⟩
    · refine .inr ⟨by simp [hwords, hvalid], [fieldValue values.length word],
        afterLine newline buf, true, ?_, ?_⟩
      · simp [valueFields, hnext, hword, hvalid]
      · refine ⟨by simp [hwords], by simp [hwords], rfl, fun hle => iff_of_true rfl ?_⟩
        rw [hwords] at hle
        obtain rfl : n = 0 := by simpa using hle
        exact endsInWord_one hnext hword
    · have hturn : valueFields fieldValue (n + 1) buf values =
          valueFields fieldValue n rest (values ++ [fieldValue values.length word]) := by
        simp [valueFields, hnext, hword, hvalid, hsep]
      rw [hturn, hwords]
      rcases ih rest (values ++ [fieldValue values.length word]) with
        ⟨⟨w, hw, hbad⟩, herror⟩ | ⟨hall, found, rest', eol, heq, hread⟩
      · exact .inl ⟨⟨w, by simp [hw], hbad⟩, herror⟩
      refine .inr ⟨by simpa [hvalid] using hall, fieldValue values.length word :: found, rest',
        eol, by simp [heq], ?_⟩
      refine ⟨?_, by simpa [hwords] using hread.words_rest, hread.after_rest.trans hafter, ?_⟩
      · rw [hread.found_eq, hwords]
        simp [mapIdx_cons, Nat.add_assoc, Nat.add_comm 1]
      · intro hle
        rw [hwords] at hle
        rw [endsInWord_succ hnext hword hsep]
        exact hread.eol_iff (by simpa using hle)

theorem valueFields_fields (n : Nat) (buf : Bytes) (values : List α)
    (hn : (fields isWhitespace (firstLine newline buf)).length ≤ n)
    (hdigits : ∀ word ∈ fields isWhitespace (firstLine newline buf), ∀ c ∈ word, isDigit c) :
    ∃ rest eol, valueFields fieldValue n buf values =
        .ok (values ++ (fields isWhitespace (firstLine newline buf)).mapIdx
          (fun i => fieldValue (values.length + i)), rest, eol) ∧
      LineEnd (afterLine newline buf) rest eol := by
  rcases valueFields_cases fieldValue n buf values with ⟨⟨word, hword, hbad⟩, -⟩ |
    ⟨-, found, rest, eol, heq, hread⟩
  · exact absurd (invalidDigit_eq_none (hdigits word (mem_of_mem_take hword))) hbad
  have hfound := hread.found_eq
  have hrest := hread.words_rest
  rw [take_of_length_le hn] at hfound
  rw [drop_eq_nil_of_le hn] at hrest
  refine ⟨rest, eol, by rw [heq, hfound], ?_⟩
  cases eol with
  | true => exact hread.after_rest
  | false => exact ⟨hrest, hread.after_rest⟩

end ValueFields

end Lsvmi.Procfs
