import Lsvmi.Procfs.Interrupts

/-!
# What the parser reads as the line of an IRQ

The search for the colon misses a newline that is the first character which is not a digit: a line
of blanks and digits, or an empty one, is read together with the next line, and the newline becomes
part of the name.  What `Parse` does with a content follows from the lines as they are read.
-/

namespace Lsvmi.Procfs

open Reasoning List

variable (interrupts : Interrupts) (info : InterruptsInfo) (scanNum : Nat) {buf : Bytes}

def isDigitsLine (line : Bytes) : Bool := (line.dropWhile isWhitespace).all isDigit

/-! ## The lines as they are read -/

structure IrqText where
  text : Bytes
  /-- a newline follows -/
  terminated : Bool
  deriving DecidableEq, Repr

namespace IrqText

def body (t : IrqText) : Bytes := t.text.dropWhile isWhitespace

def name (t : IrqText) : Bytes := t.body.takeWhile (· ≠ 58)

def columns (t : IrqText) : Bytes := (t.body.dropWhile (· ≠ 58)).tail

def words (t : IrqText) : List Bytes := fields isWhitespace t.columns

def irq [UnicodeUpper] (t : IrqText) : Bytes := toUpper t.name

def isNum (t : IrqText) : Bool := t.name.all isDigit

def values (n : Nat) (t : IrqText) : List UInt64 := (t.words.take n).map counterValue

@[mk_iff] structure HasCounters [UnicodeUpper] (n : Nat) (t : IrqText) : Prop where
  colon : 58 ∈ t.text
  digits : ∀ word ∈ t.words.take n, invalidDigit word = none
  count : n ≤ t.words.length ∨ irqWithFewerCpuCount t.irq = true

/-- The number of an IRQ, with the newline right behind the last counter. -/
@[mk_iff] structure Undescribed (n : Nat) (t : IrqText) : Prop where
  isNum : t.isNum = true
  terminated : t.terminated = true
  pos : 0 < n
  count : t.words.length = n
  last : ∀ c ∈ t.columns.getLast?, isWhitespace c = false

instance [UnicodeUpper] (n : Nat) (t : IrqText) : Decidable (t.HasCounters n) :=
  decidable_of_iff' _ (hasCounters_iff n t)

instance (n : Nat) (t : IrqText) : Decidable (t.Undescribed n) :=
  decidable_of_iff' _ (undescribed_iff n t)

def Accepted [UnicodeUpper] (n : Nat) (t : IrqText) : Prop := t.HasCounters n ∧ ¬ t.Undescribed n

instance [UnicodeUpper] (n : Nat) (t : IrqText) : Decidable (t.Accepted n) :=
  inferInstanceAs (Decidable (_ ∧ _))

end IrqText

/-- The first line is read together with the second one. -/
def joinsLines (buf : Bytes) : Bool := isDigitsLine (firstLine newline buf) && decide (newline ∈ buf)

def firstIrqText (buf : Bytes) : IrqText :=
  if joinsLines buf then
    let rest := afterLine newline buf
    ⟨firstLine newline buf ++ newline :: firstLine newline rest, newline ∈ rest⟩
  else ⟨firstLine newline buf, newline ∈ buf⟩

def afterIrqText (buf : Bytes) : Bytes :=
  if joinsLines buf then afterLine newline (afterLine newline buf) else afterLine newline buf

theorem length_afterIrqText_lt (h : buf ≠ []) : (afterIrqText buf).length < buf.length := by
  have hlt : (afterLine newline buf).length < buf.length := length_afterLine_lt h
  unfold afterIrqText
  split
  · by_cases hrest : afterLine newline buf = []
    · rw [hrest]
      exact length_pos_iff.mpr h
    · exact Nat.lt_trans (length_afterLine_lt hrest) hlt
  · exact hlt

def irqTexts (buf : Bytes) : List IrqText :=
  if buf = [] then [] else firstIrqText buf :: irqTexts (afterIrqText buf)
termination_by buf.length
decreasing_by
  rename_i h
  exact length_afterIrqText_lt h

theorem irqTexts_of_ne_nil (h : buf ≠ []) :
    irqTexts buf = firstIrqText buf :: irqTexts (afterIrqText buf) := by
  rw [irqTexts, if_neg h]

/-! ## The search for the colon -/

variable {t : IrqText}

theorem scanIrq_name {name : Bytes} (hname : ∀ c ∈ name, c ≠ 58 ∧ c ≠ newline) (irqIsNum : Bool)
    (seen text : Bytes) :
    scanIrq irqIsNum seen (name ++ 58 :: text) =
      some (seen ++ name, irqIsNum && name.all isDigit, text) := by
  induction name generalizing irqIsNum seen with
  | nil => simp [scanIrq]
  | cons c name ih =>
    rw [forall_mem_cons] at hname
    rw [cons_append, scanIrq, if_neg hname.1.1]
    cases hc : irqIsNum && !isDigit c with
    | true =>
      obtain ⟨rfl, hdigit⟩ : irqIsNum = true ∧ isDigit c = false := by simpa using hc
      simp [ih hname.2, hdigit]
    | false =>
      have hsame : (irqIsNum && isDigit c) = irqIsNum := by
        cases irqIsNum <;> simp_all
      simp [ih hname.2, hname.1.2, ← Bool.and_assoc, hsame]

theorem scanIrq_false_none (h : 58 ∉ firstLine newline buf) (seen : Bytes) :
    scanIrq false seen buf = none := by
  induction buf generalizing seen with
  | nil => rfl
  | cons c buf ih =>
    by_cases hc : c = newline
    · subst hc
      rfl
    have hline : firstLine newline (c :: buf) = c :: firstLine newline buf := by
      simp [firstLine, hc]
    rw [hline, mem_cons, not_or] at h
    rw [scanIrq, if_neg (Ne.symm h.1)]
    simp [hc, ih h.2]

theorem scanIrq_digits {digits : Bytes} (h : ∀ c ∈ digits, isDigit c) (seen buf : Bytes) :
    scanIrq true seen (digits ++ buf) = scanIrq true (seen ++ digits) buf := by
  induction digits generalizing seen with
  | nil => simp
  | cons c digits ih =>
    rw [forall_mem_cons] at h
    have hcolon : c ≠ 58 := by
      rintro rfl
      exact absurd h.1 (by decide)
    have hnl : c ≠ newline := by
      rintro rfl
      exact absurd h.1 (by decide)
    rw [cons_append, scanIrq, if_neg hcolon]
    simp [h.1, hnl, ih h.2]

theorem scanIrq_joined {digits : Bytes} (h : ∀ c ∈ digits, isDigit c) (buf : Bytes) :
    scanIrq true [] (digits ++ newline :: buf) = scanIrq false (digits ++ [newline]) buf := by
  rw [scanIrq_digits h]
  rfl

theorem scanIrq_none (hcolon : 58 ∉ firstLine newline buf)
    (hjoins : newline ∈ buf → (firstLine newline buf).all isDigit = false) (seen : Bytes) :
    scanIrq true seen buf = none := by
  induction buf generalizing seen with
  | nil => rfl
  | cons c buf ih =>
    have hnl : c ≠ newline := by
      rintro rfl
      have h := hjoins mem_cons_self
      rw [firstLine_nl] at h
      cases h
    have hline : firstLine newline (c :: buf) = c :: firstLine newline buf := by
      simp [firstLine, hnl]
    rw [hline, mem_cons, not_or] at hcolon
    rw [hline] at hjoins
    rw [scanIrq, if_neg (Ne.symm hcolon.1)]
    cases hdigit : isDigit c with
    | false =>
      simp only [Bool.not_false, Bool.and_true, if_true]
      exact scanIrq_false_none hcolon.2 _
    | true =>
      have hrest := ih hcolon.2 (fun hmem => by simpa [hdigit] using hjoins (by simp [hmem]))
      simp [hnl, hrest]

theorem dropWhile_isWhitespace_append {line tail : Bytes}
    (htail : tail = [] ∨ ∃ rest, tail = newline :: rest) :
    (line ++ tail).dropWhile isWhitespace = line.dropWhile isWhitespace ++ tail := by
  rcases htail with rfl | ⟨rest, rfl⟩
  · rw [append_nil, append_nil]
  · exact dropWhile_isWhitespace_line line rest

theorem firstLine_append_tail {line tail : Bytes} (hline : newline ∉ line)
    (htail : tail = [] ∨ ∃ rest, tail = newline :: rest) :
    firstLine newline (line ++ tail) = line ∧ afterLine newline (line ++ tail) = tail.tail := by
  rcases htail with rfl | ⟨rest, rfl⟩
  · rw [append_nil, firstLine_of_notMem hline, afterLine_of_notMem hline]
    exact ⟨rfl, rfl⟩
  · exact ⟨firstLine_append_nl hline rest, afterLine_append_nl hline rest⟩

theorem colon_notMem_of_isDigitsLine {line : Bytes} (h : isDigitsLine line) : 58 ∉ line := by
  intro hmem
  cases all_eq_true.mp h 58 (mem_dropWhile_isWhitespace hmem rfl)

/-- The colon is found in the text that is read as one line, or there is none in it. -/
def ScansText (buf : Bytes) (t : IrqText) (remaining : Bytes) : Prop :=
  (58 ∉ t.text ∧ scanIrq true [] (buf.dropWhile isWhitespace) = none) ∨
    (58 ∈ t.text ∧ ∃ rest,
      scanIrq true [] (buf.dropWhile isWhitespace) = some (t.name, t.isNum, rest) ∧
      firstLine newline rest = t.columns ∧ (newline ∈ rest ↔ t.terminated = true) ∧
      afterLine newline rest = remaining)

section

variable {line part front tail : Bytes}

open IrqText

theorem scansText_of_parts {irqIsNum : Bool} (hbody : t.body = front ++ part)
    (hscan : scanIrq true [] (buf.dropWhile isWhitespace) = scanIrq irqIsNum front (part ++ tail))
    (hnum : irqIsNum = front.all isDigit) (hfront : 58 ∉ front) (hnl : newline ∉ part)
    (htail : tail = [] ∨ ∃ rest, tail = newline :: rest)
    (hterm : t.terminated = true ↔ newline ∈ tail)
    (hnone : 58 ∉ part → scanIrq irqIsNum front (part ++ tail) = none) :
    ScansText buf t tail.tail := by
  have hcolon : 58 ∈ t.text ↔ 58 ∈ part := by
    have hmem : 58 ∈ t.text ↔ 58 ∈ t.body :=
      ⟨fun h => mem_dropWhile_isWhitespace h rfl, fun h => (dropWhile_sublist _).mem h⟩
    rw [hmem, hbody, mem_append, or_iff_right hfront]
  unfold ScansText
  rw [hscan, hcolon]
  by_cases hfound : 58 ∈ part
  · have hparts := firstLine_append_afterLine hfound
    have hname : t.name = front ++ firstLine 58 part := by
      rw [name, hbody]
      exact firstLine_append hfront part
    have hcolumns : t.columns = afterLine 58 part := by
      rw [columns, hbody]
      exact afterLine_append hfront part
    have hsplit : part ++ tail = firstLine 58 part ++ 58 :: (afterLine 58 part ++ tail) := by
      rw [← cons_append, ← append_assoc, hparts]
    rw [← hparts] at hnl
    simp only [mem_append, mem_cons, not_or] at hnl
    obtain ⟨hfirst, hafter⟩ := firstLine_append_tail hnl.2.2 htail
    refine .inr ⟨hfound, _, ?_, hfirst.trans hcolumns.symm, ?_, hafter⟩
    · rw [hsplit, scanIrq_name, isNum, hname, all_append, hnum]
      intro c hc
      exact ⟨by simpa using mem_takeWhile_imp hc, ne_of_mem_of_not_mem hc hnl.1⟩
    · rw [mem_append, or_iff_right hnl.2.2, hterm]
  · exact .inl ⟨hfound, hnone hfound⟩

theorem scansText_single (hnl : newline ∉ line) (htail : tail = [] ∨ ∃ rest, tail = newline :: rest)
    (hjoins : isDigitsLine line → tail = []) :
    ScansText (line ++ tail) ⟨line, newline ∈ tail⟩ tail.tail := by
  have hbody : newline ∉ line.dropWhile isWhitespace :=
    fun hmem => hnl ((dropWhile_sublist _).mem hmem)
  refine scansText_of_parts (show _ = [] ++ line.dropWhile isWhitespace from rfl) ?_ rfl
    not_mem_nil hbody htail decide_eq_true_iff ?_
  · rw [dropWhile_isWhitespace_append htail]
    rfl
  intro hcolon
  have hfirst := (firstLine_append_tail hbody htail).1
  refine scanIrq_none (by rwa [hfirst]) (fun hmem => ?_) []
  rw [hfirst, Bool.eq_false_iff]
  intro hdigits
  rw [hjoins hdigits, append_nil] at hmem
  exact hbody hmem

theorem scansText_pair (hdigits : isDigitsLine line) {line' : Bytes}
    (hnl' : newline ∉ line') (htail : tail = [] ∨ ∃ rest, tail = newline :: rest) :
    ScansText (line ++ newline :: (line' ++ tail)) ⟨line ++ newline :: line', newline ∈ tail⟩
      tail.tail := by
  have hcolon : 58 ∉ line.dropWhile isWhitespace :=
    fun hmem => colon_notMem_of_isDigitsLine hdigits ((dropWhile_sublist _).mem hmem)
  refine scansText_of_parts ?_ ?_ ?_ ?_ hnl' htail decide_eq_true_iff fun hnone =>
    scanIrq_false_none ?_ (line.dropWhile isWhitespace ++ [newline])
  · rw [body, dropWhile_isWhitespace_line, append_assoc, singleton_append]
  · rw [dropWhile_isWhitespace_line, scanIrq_joined (all_eq_true.mp hdigits)]
  · -- the newline is not a digit
    rw [all_append, show all [newline] isDigit = false from rfl, Bool.and_false]
  · rw [mem_append, not_or]
    exact ⟨hcolon, by decide⟩
  · rwa [(firstLine_append_tail hnl' htail).1]

end

theorem scansText_first (buf : Bytes) : ScansText buf (firstIrqText buf) (afterIrqText buf) := by
  obtain ⟨line, tail, hbuf, hnl, htail, hfirst, hafter⟩ := line_cases newline buf
  have hmem : newline ∈ buf ↔ newline ∈ tail := by
    rw [hbuf, mem_append, or_iff_right hnl]
  unfold firstIrqText afterIrqText
  cases hjoins : joinsLines buf with
  | false =>
    simp only [hfirst, hafter, hmem, Bool.false_eq_true, if_false]
    rw [hbuf]
    refine scansText_single hnl htail fun hdigits => htail.resolve_right ?_
    rintro ⟨rest, rfl⟩
    simp [joinsLines, hfirst, hdigits, hmem] at hjoins
  | true =>
    obtain ⟨hdigits, hnewline⟩ : isDigitsLine line ∧ newline ∈ tail := by
      simpa [joinsLines, hfirst, hmem] using hjoins
    obtain ⟨rest, rfl⟩ : ∃ rest, tail = newline :: rest := by
      refine htail.resolve_left ?_
      rintro rfl
      cases hnewline
    rw [tail_cons] at hafter
    obtain ⟨line', tail', hrest, hnl', htail', hfirst', hafter'⟩ := line_cases newline rest
    have hmem' : newline ∈ rest ↔ newline ∈ tail' := by
      rw [hrest, mem_append, or_iff_right hnl']
    simp only [hfirst, hafter, hfirst', hafter', hmem', if_true]
    rw [hbuf, hrest]
    exact scansText_pair hdigits hnl' htail'

/-! ## The verdict on a line -/

def InterruptsError.isPanic : InterruptsError → Bool
  | .indexOutOfRange _ => true
  | _ => false

theorem toUpper_of_ascii [UnicodeUpper] {name : Bytes} (h : ∀ c ∈ name, c < 128) :
    toUpper name = asciiUpper name := by
  rw [toUpper, if_pos]
  simpa using h

theorem toUpper_of_digits [UnicodeUpper] {name : Bytes} (h : ∀ c ∈ name, isDigit c) :
    toUpper name = name := by
  have hlt : ∀ c ∈ name, c < 97 := by
    intro c hc
    have hdigit := h c hc
    simp only [isDigit, decide_eq_true_eq] at hdigit
    by_contra hle
    rw [UInt8.not_lt] at hle
    have hle' : (48 : UInt8) ≤ c := UInt8.le_trans (by decide) hle
    rw [UInt8.lt_iff_toNat_lt, UInt8.toNat_sub_of_le c 48 hle'] at hdigit
    rw [UInt8.le_iff_toNat_le] at hle
    simp only [UInt8.reduceToNat] at hdigit hle
    omega
  have hsame : ∀ c ∈ name, (if 97 ≤ c ∧ c ≤ 122 then c - 32 else c) = id c :=
    fun c hc => if_neg fun hle => UInt8.not_lt.mpr hle.1 (hlt c hc)
  rw [toUpper_of_ascii fun c hc => UInt8.lt_trans (hlt c hc) (by decide), asciiUpper,
    map_congr_left hsame, map_id]

theorem IrqText.irqWithFewerCpuCount_of_isNum [UnicodeUpper] (h : t.isNum) :
    irqWithFewerCpuCount t.irq = false := by
  have hdigits : ∀ c ∈ t.name, isDigit c := all_eq_true.mp h
  rw [irq, toUpper_of_digits hdigits, Bool.eq_false_iff]
  intro hfew
  simp only [irqWithFewerCpuCount, Bool.or_eq_true, decide_eq_true_eq] at hfew
  rcases hfew with hname | hname
  · exact absurd (hdigits 69 (by rw [hname]; simp)) (by decide)
  · exact absurd (hdigits 77 (by rw [hname]; simp)) (by decide)

open Interrupts

/-- What becomes of a line: one that has its counters is entered, unless the end of the line is right
behind the last one and a description is looked for. -/
inductive LineVerdict [UnicodeUpper] (scanNum lineNum : Nat) (t : IrqText) (remaining : Bytes) :
    Except InterruptsError (Interrupts × InterruptsInfo × Bytes) → Prop
  | entered (h : t.Accepted interrupts.numCounters) (irqInfo : InterruptsIrqInfo)
    (irqChanged : Bool) : LineVerdict scanNum lineNum t remaining
      (.ok (interrupts.store t.irq (t.values interrupts.numCounters),
        info.found t.irq irqInfo irqChanged scanNum, remaining))
  | panics (h : t.HasCounters interrupts.numCounters) (h' : t.Undescribed interrupts.numCounters) :
    LineVerdict scanNum lineNum t remaining (.error (.indexOutOfRange lineNum))
  | rejected (h : ¬ t.HasCounters interrupts.numCounters) {e : InterruptsError}
    (he : e.isPanic = false) : LineVerdict scanNum lineNum t remaining (.error e)

theorem parseLine_read [UnicodeUpper] (lineNum : Nat)
    {rest rest' remaining : Bytes} {values : List UInt64} {eol : Bool}
    (hscan : scanIrq true [] (buf.dropWhile isWhitespace) = some (t.name, t.isNum, rest))
    (hcolumns : firstLine newline rest = t.columns) (hterm : newline ∈ rest ↔ t.terminated)
    (hafter : afterLine newline rest = remaining)
    (hvalues : valueFields (fun _ => counterValue) interrupts.numCounters rest [] =
      .ok (values, rest', eol))
    (hread : ValuesRead (fun _ => counterValue) interrupts.numCounters rest 0 values rest' eol)
    (hcounters : t.HasCounters interrupts.numCounters)
    (hfew : ¬ (values.length < interrupts.numCounters ∧ irqWithFewerCpuCount t.irq = false)) :
    LineVerdict interrupts info scanNum lineNum t remaining
      (interrupts.parseLine info scanNum lineNum buf) := by
  have hfew' : ¬ (values.length < interrupts.numCounters ∧
      irqWithFewerCpuCount (toUpper t.name) = false) := hfew
  obtain rfl : values = t.values interrupts.numCounters := by
    rw [hread.found_eq, hcolumns, IrqText.values]
    exact ext_getElem? fun i => by simp only [getElem?_mapIdx, getElem?_map, IrqText.words]
  rw [parseLine, hscan]
  cases hnum : t.isNum with
  | false =>
    have hnot : ¬ t.Undescribed interrupts.numCounters := by
      intro h
      rw [h.isNum] at hnum
      cases hnum
    have hremain : (if eol = true then rest' else (rest'.dropWhile (· ≠ newline)).tail) = remaining :=
      hread.after_rest.trans hafter
    simp only [hvalues, if_neg hfew', hremain]
    exact .entered ⟨hcounters, hnot⟩ _ _
  | true =>
    -- the line has all the columns, and nothing behind them if its newline has been seen
    have hle : interrupts.numCounters ≤ t.words.length := by
      refine hcounters.count.resolve_right ?_
      rw [IrqText.irqWithFewerCpuCount_of_isNum hnum]
      exact Bool.false_ne_true
    have heol := hread.eol_iff (by rw [hcolumns]; exact hle)
    rw [EndsInWord, hcolumns, hterm] at heol
    cases eol with
    | true =>
      obtain ⟨hpos, hcount, hterminated, hlast⟩ := heol.mp rfl
      simp only [hvalues, if_neg hfew']
      exact .panics hcounters ⟨hnum, hterminated, hpos, hcount, hlast⟩
    | false =>
      have hnot : ¬ t.Undescribed interrupts.numCounters := by
        intro h
        cases heol.mpr ⟨h.pos, h.count, h.terminated, h.last⟩
      have hremain : ((rest'.dropWhile isWhitespace).dropWhile (· ≠ newline)).tail =
          remaining := by
        have h : afterLine newline (rest'.dropWhile isWhitespace) = afterLine newline rest' :=
          afterLine_dropWhile isWhitespace_newline rest'
        exact h.trans (hread.after_rest.trans hafter)
      simp only [hvalues, if_neg hfew', hremain]
      exact .entered ⟨hcounters, hnot⟩ _ _

theorem parseLine_verdict [UnicodeUpper] (lineNum : Nat) (buf : Bytes) :
    LineVerdict interrupts info scanNum lineNum (firstIrqText buf) (afterIrqText buf)
      (interrupts.parseLine info scanNum lineNum buf) := by
  rcases scansText_first buf with ⟨hcolon, hscan⟩ | ⟨hcolon, rest, hscan, hcolumns, hterm, hafter⟩
  · rw [parseLine, hscan]
    exact .rejected (fun h => hcolon h.colon) rfl
  generalize firstIrqText buf = t at hcolon hscan hcolumns hterm ⊢
  rcases valueFields_cases (fun _ => counterValue) interrupts.numCounters rest [] with
    ⟨⟨word, hword, hbad⟩, c, hvalues⟩ | ⟨hdigits, values, rest', eol, hvalues, hread⟩
  · rw [hcolumns] at hword
    rw [parseLine, hscan]
    simp only [hvalues]
    exact .rejected (fun h => hbad (h.digits word hword)) rfl
  rw [hcolumns] at hdigits
  have hlength : values.length = min interrupts.numCounters t.words.length := by
    rw [hread.found_eq, hcolumns, length_mapIdx, length_take]
    rfl
  rw [nil_append] at hvalues
  by_cases hfew : values.length < interrupts.numCounters ∧ irqWithFewerCpuCount t.irq = false
  · have hnot : ¬ t.HasCounters interrupts.numCounters := by
      intro h
      rcases h.count with hle | hfew'
      · omega
      · rw [hfew.2] at hfew'
        cases hfew'
    have hfew' : values.length < interrupts.numCounters ∧
      irqWithFewerCpuCount (toUpper t.name) = false := hfew
    rw [parseLine, hscan]
    simp only [hvalues, if_pos hfew']
    exact .rejected hnot rfl
  have hcounters : t.HasCounters interrupts.numCounters := by
    refine ⟨hcolon, hdigits, ?_⟩
    cases hcount : irqWithFewerCpuCount t.irq with
    | true => exact .inr rfl
    | false =>
      have hnot : ¬ values.length < interrupts.numCounters := fun h => hfew ⟨h, hcount⟩
      exact .inl (by omega)
  exact parseLine_read interrupts info scanNum lineNum hscan hcolumns hterm hafter hvalues hread
    hcounters hfew

/-! ## The verdict on a content -/

def firstRejected [UnicodeUpper] (n : Nat) (text : Bytes) : Option IrqText :=
  (irqTexts text).find? fun t => !decide (t.Accepted n)

def Interrupts.storeAll [UnicodeUpper] (interrupts : Interrupts) (texts : List IrqText) :
    Interrupts :=
  texts.foldl (fun interrupts t => interrupts.store t.irq (t.values interrupts.numCounters))
    interrupts

theorem storeAll_cpus [UnicodeUpper] (interrupts : Interrupts) (texts : List IrqText) :
    (interrupts.storeAll texts).numCounters = interrupts.numCounters ∧
      (interrupts.storeAll texts).cpuList = interrupts.cpuList := by
  induction texts generalizing interrupts with
  | nil => exact ⟨rfl, rfl⟩
  | cons t texts ih => exact ih (interrupts.store t.irq (t.values interrupts.numCounters))

theorem lookup_storeAll_of_notMem [UnicodeUpper] {interrupts : Interrupts} {texts : List IrqText}
    {irq : Bytes} (h : irq ∉ texts.map IrqText.irq) :
    (interrupts.storeAll texts).counters.lookup irq = interrupts.counters.lookup irq := by
  induction texts generalizing interrupts with
  | nil => rfl
  | cons t texts ih =>
    rw [map_cons, mem_cons, not_or] at h
    exact (ih h.2).trans (Finmap.lookup_insert_of_ne _ h.1)

structure EnteredInfo [UnicodeUpper] (scanNum : Nat) (texts : List IrqText)
    (info info' : InterruptsInfo) : Prop where
  found : ∀ irq ∈ texts.map IrqText.irq, ∃ irqInfo,
    info'.irqInfo.lookup irq = some irqInfo ∧ irqInfo.scanNum = scanNum
  others : ∀ irq, irq ∉ texts.map IrqText.irq →
    info'.irqInfo.lookup irq = info.irqInfo.lookup irq
  header_eq : info'.cpuHeaderLine = info.cpuHeaderLine
  changed_eq : info'.cpuListChanged = info.cpuListChanged

theorem EnteredInfo.cons [UnicodeUpper] {texts : List IrqText} {info info' : InterruptsInfo}
    {irqInfo : InterruptsIrqInfo} {irqChanged : Bool}
    (h : EnteredInfo scanNum texts (info.found t.irq irqInfo irqChanged scanNum) info') :
    EnteredInfo scanNum (t :: texts) info info' := by
  refine ⟨?_, ?_, h.header_eq, h.changed_eq⟩
  · intro irq hirq
    by_cases hrest : irq ∈ texts.map IrqText.irq
    · exact h.found irq hrest
    obtain rfl : irq = t.irq := (mem_cons.mp hirq).resolve_right hrest
    refine ⟨{ irqInfo with scanNum }, ?_, rfl⟩
    rw [h.others _ hrest]
    exact Finmap.lookup_insert _
  · intro irq hirq
    rw [map_cons, mem_cons, not_or] at hirq
    rw [h.others irq hirq.2]
    exact Finmap.lookup_insert_of_ne _ hirq.1

theorem parseLines_verdict [UnicodeUpper] (fuel lineNum : Nat) (interrupts : Interrupts)
    (info : InterruptsInfo) (buf : Bytes) (hfuel : buf.length ≤ fuel) :
    (firstRejected interrupts.numCounters buf = none ∧
      ∃ info', parseLines scanNum fuel lineNum interrupts info buf =
          .ok (interrupts.storeAll (irqTexts buf), info') ∧
        EnteredInfo scanNum (irqTexts buf) info info') ∨
    ∃ t e, firstRejected interrupts.numCounters buf = some t ∧
      parseLines scanNum fuel lineNum interrupts info buf = .error e ∧
      (e.isPanic ↔ t.HasCounters interrupts.numCounters) := by
  induction fuel generalizing lineNum interrupts info buf with
  | zero =>
    obtain rfl : buf = [] := eq_nil_of_length_eq_zero (Nat.le_zero.mp hfuel)
    rw [firstRejected, irqTexts, if_pos rfl]
    exact .inl ⟨rfl, info, rfl, nofun, fun _ _ => rfl, rfl, rfl⟩
  | succ fuel ih =>
    by_cases hne : buf = []
    · subst hne
      rw [firstRejected, irqTexts, if_pos rfl]
      exact .inl ⟨rfl, info, rfl, nofun, fun _ _ => rfl, rfl, rfl⟩
    have hlt := length_afterIrqText_lt hne
    have hfirst : firstRejected interrupts.numCounters buf =
        if (firstIrqText buf).Accepted interrupts.numCounters then
          firstRejected interrupts.numCounters (afterIrqText buf)
        else some (firstIrqText buf) := by
      rw [firstRejected, irqTexts_of_ne_nil hne, find?_cons]
      by_cases haccepted : (firstIrqText buf).Accepted interrupts.numCounters
      · simp [haccepted, firstRejected]
      · simp [haccepted]
    have hstep : parseLines scanNum (fuel + 1) lineNum interrupts info buf =
        (interrupts.parseLine info scanNum lineNum buf >>= fun r =>
          parseLines scanNum fuel (lineNum + 1) r.1 r.2.1 r.2.2) :=
      parseLines.eq_3 _ _ _ _ _ _ hne
    rw [hfirst, hstep]
    have hverdict := parseLine_verdict interrupts info scanNum lineNum buf
    generalize interrupts.parseLine info scanNum lineNum buf = result at hverdict ⊢
    cases hverdict with
    | entered haccepted irqInfo irqChanged =>
      rw [if_pos haccepted, irqTexts_of_ne_nil hne]
      rcases ih (lineNum + 1) (interrupts.store (firstIrqText buf).irq
        ((firstIrqText buf).values interrupts.numCounters))
        (info.found (firstIrqText buf).irq irqInfo irqChanged scanNum) (afterIrqText buf)
        (by omega) with ⟨hnone, info', hrest, hentered⟩ | ⟨t, e, hsome, hrest, he⟩
      · exact .inl ⟨hnone, info', hrest, hentered.cons⟩
      · exact .inr ⟨t, e, hsome, hrest, he⟩
    | panics hcounters hundescribed =>
      rw [if_neg fun h => h.2 hundescribed]
      exact .inr ⟨_, _, rfl, rfl, iff_of_true rfl hcounters⟩
    | @rejected hcounters e he =>
      rw [if_neg fun h => hcounters h.1]
      exact .inr ⟨_, e, rfl, rfl, iff_of_false (by rw [he]; exact Bool.false_ne_true) hcounters⟩

def isCpuSpec (cpu : Bytes) : Bool := 3 < cpu.length && (cpu.drop 3).all isDigit

/-- The number of counters that the lines must have, if the first line is accepted. -/
def headerCounters (interrupts : Interrupts) (info : InterruptsInfo) (buf : Bytes) : Option Nat :=
  let line := firstLine newline buf
  if buf = [] ∨ info.cpuHeaderLine = line then some interrupts.numCounters
  else if (stringsFields line).all isCpuSpec then some (stringsFields line).length
  else none

theorem cpuNum_eq (cpu : Bytes) :
    cpuNum cpu = if isCpuSpec cpu then .ok (cpuNumber cpu) else .error cpu := by
  unfold cpuNum isCpuSpec
  by_cases hlen : cpu.length ≤ 3
  · simp [hlen, Nat.not_lt.mpr hlen]
  have hvalid : invalidDigit (cpu.drop 3) = none ↔ (cpu.drop 3).all isDigit := by
    simp [invalidDigit]
  cases hdigit : invalidDigit (cpu.drop 3) with
  | none => simp [hlen, Nat.lt_of_not_le hlen, hvalid.mp hdigit]
  | some c =>
    have hbad : (cpu.drop 3).all isDigit = false := by
      rw [Bool.eq_false_iff, ne_eq, ← hvalid, hdigit]
      exact Option.some_ne_none c
    simp [hlen, hbad]

theorem mapM_cpuNum_cases (words : List Bytes) :
    (words.all isCpuSpec ∧ ∃ cpus, words.mapM cpuNum = .ok cpus ∧ cpus.length = words.length) ∨
    (words.all isCpuSpec = false ∧ ∃ cpu, words.mapM cpuNum = .error cpu) := by
  induction words with
  | nil => exact .inl ⟨rfl, [], rfl, rfl⟩
  | cons w words ih =>
    rw [all_cons, mapM_cons, cpuNum_eq]
    cases hw : isCpuSpec w with
    | false => exact .inr ⟨rfl, w, rfl⟩
    | true =>
      rcases ih with ⟨hall, cpus, hcpus, hlen⟩ | ⟨hbad, cpu, hcpu⟩
      · refine .inl ⟨hall, cpuNumber w :: cpus, ?_, by simp [hlen]⟩
        rw [hcpus]
        rfl
      · refine .inr ⟨hbad, cpu, ?_⟩
        rw [hcpu]
        rfl

theorem Interrupts.parseHeader_line {info : InterruptsInfo} (hinfo : newline ∉ info.cpuHeaderLine)
    (buf : Bytes) :
    interrupts.parseHeader info buf =
      if info.cpuHeaderLine = firstLine newline buf then
        .ok (interrupts, info, afterLine newline buf)
      else match interrupts.updateCpuList info (firstLine newline buf) with
        | .error cpu => .error (.invalidCpuSpec cpu)
        | .ok (interrupts, info) =>
          .ok (interrupts, { info with cpuListChanged := true }, afterLine newline buf) := by
  obtain ⟨line, tail, hbuf, hnl, htail, hfirst, hafter⟩ := line_cases newline buf
  rw [hfirst, hafter, hbuf]
  unfold parseHeader
  by_cases heq : info.cpuHeaderLine = line
  · have hsame : ¬ (line.length ≠ line.length ∨ (tail ≠ [] ∧ tail.head? ≠ some newline)) := by
      rcases htail with rfl | ⟨rest, rfl⟩ <;> simp
    rw [heq, commonLen_append_self, if_pos rfl]
    simp only [drop_left, if_neg hsame]
  have hle : commonLen (line ++ tail) info.cpuHeaderLine ≤ line.length := by
    rcases htail with rfl | ⟨rest, rfl⟩
    · rw [List.append_nil]
      exact commonLen_le_left line info.cpuHeaderLine
    · exact commonLen_le rest hinfo
  have hcommon := take_commonLen (line ++ tail) info.cpuHeaderLine
  rw [if_neg heq]
  generalize commonLen (line ++ tail) info.cpuHeaderLine = pos at hle hcommon
  have hnl' : newline ∉ line.drop pos := fun hmem => hnl (mem_of_mem_drop hmem)
  rw [take_append_of_le_length hle] at hcommon
  have hchanged : pos ≠ info.cpuHeaderLine.length ∨ (line.drop pos ++ tail ≠ [] ∧
      (line.drop pos ++ tail).head? ≠ some newline) := by
    by_contra hcontra
    push Not at hcontra
    obtain ⟨hpos, hhead⟩ := hcontra
    -- the part that is not in common starts with the end of the line, so that there is none
    have hend : line.drop pos = [] := by
      cases hdrop : line.drop pos with
      | nil => rfl
      | cons c line =>
        rw [hdrop] at hhead hnl'
        have hc : c = newline := by simpa using hhead (by simp)
        exact absurd (by simp [hc]) hnl'
    rw [hpos, take_length] at hcommon
    rw [hpos] at hend
    exact heq (by rw [← hcommon, take_of_length_le (drop_eq_nil_iff.mp hend)])
  have hcut : (line.drop pos ++ tail).takeWhile (· ≠ newline) = line.drop pos ∧
      (line.drop pos ++ tail).dropWhile (· ≠ newline) = tail := by
    rcases htail with rfl | ⟨rest, rfl⟩
    · rw [List.append_nil, takeWhile_eq_self_iff, dropWhile_eq_nil_iff]
      exact ⟨fun c hc => by simpa using ne_of_mem_of_not_mem hc hnl',
        fun c hc => by simpa using ne_of_mem_of_not_mem hc hnl'⟩
    · exact takeWhile_line hnl' rest
  simp only [take_append_of_le_length hle, drop_append_of_le_length hle]
  rw [if_pos hchanged, hcut.1, hcut.2]
  have hsplit := take_append_drop pos line
  cases hupdate : interrupts.updateCpuList info line with
  | error cpu | ok result => simp only [hsplit, hupdate]

theorem parse_cases [UnicodeUpper] {info : InterruptsInfo} (hinfo : newline ∉ info.cpuHeaderLine) (buf : Bytes) :
    (headerCounters interrupts info buf = none ∧
      ∃ cpu, interrupts.parse info buf = .error (.invalidCpuSpec cpu)) ∨
    ∃ checked : Interrupts, ∃ checkedInfo : InterruptsInfo,
      headerCounters interrupts info buf = some checked.numCounters ∧
      checked.counters = interrupts.counters ∧ checkedInfo.irqInfo = info.irqInfo ∧
      newline ∉ checkedInfo.cpuHeaderLine ∧
      interrupts.parse info buf =
        (parseLines (info.scanNum + 1) (afterLine newline buf).length 2 checked
          checkedInfo (afterLine newline buf) >>= fun r =>
            pure (r.1.removeOutOfScope r.2 (info.scanNum + 1))) := by
  by_cases hempty : buf = []
  · subst hempty
    refine .inr ⟨interrupts, { info with irqChanged := false, cpuListChanged := false }, ?_, rfl, rfl,
      hinfo, rfl⟩
    rw [headerCounters]
    exact if_pos (.inl rfl)
  have hinfo' : newline ∉ { info with irqChanged := false, cpuListChanged := false }.cpuHeaderLine :=
    hinfo
  have hheader := interrupts.parseHeader_line hinfo' buf
  unfold parse headerCounters
  simp only [hempty, false_or, if_false, hheader]
  by_cases hsame : info.cpuHeaderLine = firstLine newline buf
  · simp only [if_pos hsame]
    exact .inr ⟨interrupts, { info with irqChanged := false, cpuListChanged := false }, rfl, rfl, rfl,
      hinfo, rfl⟩
  simp only [if_neg hsame, updateCpuList]
  rcases mapM_cpuNum_cases (stringsFields (firstLine newline buf)) with
    ⟨hall, cpus, hcpus, hlen⟩ | ⟨hbad, cpu, hcpu⟩
  · rw [hall, hcpus]
    refine .inr ⟨_, _, ?_, ?_, ?_, ?_, rfl⟩
    · rw [if_pos rfl, ← hlen]
    · rfl
    · rfl
    · exact nl_notMem_firstLine newline buf
  · rw [hbad, hcpu]
    exact .inl ⟨rfl, cpu, rfl⟩

/-! ## Lines without a colon -/

theorem joinsLines_eq_false (h : isDigitsLine (firstLine newline buf) = false) :
    firstIrqText buf = ⟨firstLine newline buf, newline ∈ buf⟩ ∧
      afterIrqText buf = afterLine newline buf := by
  have hjoins : joinsLines buf = false := by rw [joinsLines, h, Bool.false_and]
  rw [firstIrqText, afterIrqText, hjoins]
  exact ⟨rfl, rfl⟩

theorem irqTexts_text (h : ∀ line ∈ lines newline buf, isDigitsLine line = false) :
    (irqTexts buf).map IrqText.text = lines newline buf := by
  induction hlen : buf.length using Nat.strong_induction_on generalizing buf with
  | _ n ih =>
    by_cases hne : buf = []
    · subst hne
      rw [irqTexts, if_pos rfl]
      rfl
    rw [lines_of_ne_nil hne, forall_mem_cons] at h
    obtain ⟨hfirst, hafter⟩ := joinsLines_eq_false h.1
    have hlt : (afterLine newline buf).length < buf.length := length_afterLine_lt hne
    rw [irqTexts_of_ne_nil hne, lines_of_ne_nil hne, map_cons, hfirst, hafter,
      ih _ (hlen ▸ hlt) h.2 rfl]

theorem nl_mem_toUpper [UnicodeUpper] {name : Bytes} :
    newline ∈ toUpper name ↔ newline ∈ name := by
  have hupper : ∀ c : UInt8, (if 97 ≤ c ∧ c ≤ 122 then c - 32 else c) = newline ↔ c = newline := by
    intro c
    by_cases hc : 97 ≤ c ∧ c ≤ 122
    · rw [if_pos hc]
      refine iff_of_false ?_ ?_
      · intro h
        have hc' : c = newline + 32 := by rw [← h, UInt8.sub_add_cancel]
        rw [hc'] at hc
        exact absurd hc.1 (by decide)
      · rintro rfl
        exact absurd hc.1 (by decide)
    · rw [if_neg hc]
  unfold toUpper
  split
  · simp [asciiUpper, mem_map, hupper]
  · exact UnicodeUpper.nl_mem_iff name

/-- No entry whose key has a newline outlives the next scan. -/
def NoNewlineLeft (interrupts : Interrupts) (info : InterruptsInfo) : Prop :=
  ∀ irq, newline ∈ irq → irq ∈ interrupts.counters ∨ irq ∈ info.irqInfo →
    ∃ irqInfo, info.irqInfo.lookup irq = some irqInfo ∧ irqInfo.scanNum ≠ info.scanNum + 1

namespace Interrupts

/-- `Parse` returns an error if a line behind the header has no colon, and if it returns nil there
is no key with a newline. -/
def NoticesLines [UnicodeUpper] (interrupts : Interrupts) (info : InterruptsInfo) (buf : Bytes) : Prop :=
  ((∃ line ∈ lines newline (afterLine newline buf), 58 ∉ line) →
    ∃ e, interrupts.parse info buf = .error e ∧ e.isPanic = false) ∧
  ∀ interrupts' info', interrupts.parse info buf = .ok (interrupts', info') →
    ∀ irq, irq ∈ interrupts'.counters ∨ irq ∈ info'.irqInfo → newline ∉ irq

theorem mem_removeOutOfScope (irq : Bytes) :
    (irq ∈ (interrupts.removeOutOfScope info scanNum).1.counters ∨
        irq ∈ (interrupts.removeOutOfScope info scanNum).2.irqInfo) ↔
      (irq ∈ interrupts.counters ∨ irq ∈ info.irqInfo) ∧
        ¬ ∃ irqInfo, info.irqInfo.lookup irq = some irqInfo ∧ irqInfo.scanNum ≠ scanNum := by
  simp only [← Finmap.lookup_isSome, removeOutOfScope, lookup_filterMapEntries]
  rcases Option.eq_none_or_eq_some (info.irqInfo.lookup irq) with hnone | ⟨irqInfo, hsome⟩
  · cases interrupts.counters.lookup irq <;> simp [hnone]
  · by_cases hscan : irqInfo.scanNum = scanNum
    all_goals cases interrupts.counters.lookup irq <;> simp [hsome, hscan]

theorem mem_after_lines [UnicodeUpper] {interrupts checked : Interrupts}
    {info checkedInfo info' : InterruptsInfo} {text : Bytes}
    (hcounters : checked.counters = interrupts.counters)
    (hinfo : checkedInfo.irqInfo = info.irqInfo)
    (hentered : EnteredInfo scanNum (irqTexts text) checkedInfo info')
    (hlines : ∀ line ∈ lines newline text, isDigitsLine line = false) {irq : Bytes}
    (hirq : newline ∈ irq) :
    (irq ∈ ((checked.storeAll (irqTexts text)).removeOutOfScope info' scanNum).1.counters ∨
        irq ∈ ((checked.storeAll (irqTexts text)).removeOutOfScope info' scanNum).2.irqInfo) ↔
      (irq ∈ interrupts.counters ∨ irq ∈ info.irqInfo) ∧
        ¬ ∃ irqInfo, info.irqInfo.lookup irq = some irqInfo ∧ irqInfo.scanNum ≠ scanNum := by
  have hnew : irq ∉ (irqTexts text).map IrqText.irq := by
    intro hmem
    obtain ⟨t, ht, rfl⟩ := mem_map.mp hmem
    have hline : t.text ∈ lines newline text := by
      rw [← irqTexts_text hlines]
      exact mem_map_of_mem ht
    have hname : newline ∈ t.name := nl_mem_toUpper.mp hirq
    exact nl_notMem_of_mem_lines hline ((dropWhile_sublist _).mem ((takeWhile_sublist _).mem hname))
  rw [mem_removeOutOfScope, hentered.others irq hnew, hinfo]
  simp only [← Finmap.lookup_isSome, lookup_storeAll_of_notMem hnew, hentered.others irq hnew,
    hcounters, hinfo]

/-- A line without a colon is noticed, unless it is read together with the next one in a content
that is accepted, or the process ends at the line of a number before; and there is no key with a
newline unless one is left from a scan that failed. -/
theorem noticesLines_iff [UnicodeUpper] (interrupts : Interrupts) {info : InterruptsInfo}
    (hinfo : newline ∉ info.cpuHeaderLine) (buf : Bytes) :
    interrupts.NoticesLines info buf ↔
      ∀ n, headerCounters interrupts info buf = some n →
        (firstRejected n (afterLine newline buf) = none →
          (∀ line ∈ lines newline (afterLine newline buf), isDigitsLine line = false) ∧
            NoNewlineLeft interrupts info) ∧
        ∀ t, firstRejected n (afterLine newline buf) = some t → t.HasCounters n →
          ∀ line ∈ lines newline (afterLine newline buf), 58 ∈ line := by
  unfold NoticesLines
  rcases parse_cases interrupts hinfo buf with ⟨hnone, cpu, hparse⟩ |
    ⟨checked, checkedInfo, hsome, hcounters, hirqInfo, -, hparse⟩
  · rw [hnone, hparse]
    exact iff_of_true ⟨fun _ => ⟨_, rfl, rfl⟩, fun _ _ h => by cases h⟩ fun _ h => by cases h
  rw [hsome, hparse]
  simp only [Option.some.injEq, forall_eq']
  rcases parseLines_verdict (info.scanNum + 1) (afterLine newline buf).length 2 checked checkedInfo
    (afterLine newline buf) (Nat.le_refl _) with
    ⟨hall, info', hlines, hentered⟩ | ⟨t, e, hfirst, hlines, he⟩
  · -- every line has been entered
    rw [hlines, hall]
    have haccepted : ∀ t ∈ irqTexts (afterLine newline buf), t.Accepted checked.numCounters := by
      simpa [firstRejected] using hall
    have hmem {irq : Bytes} (hdigits) (hirq : newline ∈ irq) :=
      mem_after_lines (info.scanNum + 1) hcounters hirqInfo hentered hdigits hirq
    constructor
    · rintro ⟨herror, hkeys⟩
      refine ⟨fun _ => ?_, fun _ h => by cases h⟩
      have hdigits : ∀ line ∈ lines newline (afterLine newline buf), isDigitsLine line = false := by
        intro line hline
        rw [Bool.eq_false_iff]
        intro h
        obtain ⟨e, he, -⟩ := herror ⟨line, hline, colon_notMem_of_isDigitsLine h⟩
        cases he
      refine ⟨hdigits, fun irq hirq hbefore => ?_⟩
      by_contra hnot
      exact hkeys _ _ rfl irq ((hmem hdigits hirq).mpr ⟨hbefore, hnot⟩) hirq
    · rintro ⟨hcond, -⟩
      obtain ⟨hdigits, hleft⟩ := hcond rfl
      constructor
      · rintro ⟨line, hline, hcolon⟩
        rw [← irqTexts_text hdigits] at hline
        obtain ⟨t, ht, rfl⟩ := mem_map.mp hline
        exact absurd (haccepted t ht).1.colon hcolon
      · intro interrupts'' info'' hok irq hafter hirq
        cases hok
        obtain ⟨hbefore, hnot⟩ := (hmem hdigits hirq).mp hafter
        exact hnot (hleft irq hirq hbefore)
  · rw [hlines, hfirst]
    constructor
    · rintro ⟨herror, -⟩
      refine ⟨fun h => (by cases h), fun t' ht hcount line hline => ?_⟩
      cases ht
      by_contra hcolon
      obtain ⟨e', he', hpanic⟩ := herror ⟨line, hline, hcolon⟩
      cases he'
      rw [he.mpr hcount] at hpanic
      cases hpanic
    · rintro ⟨-, hcond⟩
      refine ⟨?_, fun _ _ h => by cases h⟩
      rintro ⟨line, hline, hcolon⟩
      refine ⟨e, rfl, ?_⟩
      rw [Bool.eq_false_iff]
      intro hpanic
      exact hcolon (hcond t rfl (he.mp hpanic) line hline)

theorem noticesLines_name_without_colon :
    newInterrupts.NoticesLines newInterruptsInfo (utf8 "CPU0\n1: 5 IO-APIC\nERR\n") := by
  refine (noticesLines_iff newInterrupts (by decide) _).mpr fun n hn => ?_
  obtain rfl : n = 1 := by
    rw [show headerCounters newInterrupts newInterruptsInfo _ = some 1 by decide +kernel] at hn
    exact (Option.some.inj hn).symm
  have hfirst : firstRejected 1 (afterLine newline (utf8 "CPU0\n1: 5 IO-APIC\nERR\n")) =
      some ⟨utf8 "ERR", true⟩ := by decide +kernel
  rw [hfirst]
  refine ⟨fun h => (by cases h), fun t ht hcount => ?_⟩
  cases ht
  exact absurd hcount (by decide +kernel)

/-- A line of digits becomes part of the name in the next line. -/
theorem digits_line_not_noticed :
    utf8 "123" ∈ lines newline (afterLine newline (utf8 "CPU0\n123\n4: 5\n")) ∧ 58 ∉ utf8 "123" ∧
      ∃ result, newInterrupts.parse newInterruptsInfo (utf8 "CPU0\n123\n4: 5\n") = .ok result ∧
        utf8 "123\n4" ∈ result.1.counters ∧ utf8 "123\n4" ∈ result.2.irqInfo := by
  refine ⟨by decide +kernel, by decide +kernel, ?_⟩
  have hkeys : ((newInterrupts.parse newInterruptsInfo (utf8 "CPU0\n123\n4: 5\n")).toOption.map
      fun result => decide (utf8 "123\n4" ∈ result.1.counters ∧ utf8 "123\n4" ∈ result.2.irqInfo)) =
        some true := by decide +kernel
  cases hparse : newInterrupts.parse newInterruptsInfo (utf8 "CPU0\n123\n4: 5\n") with
  | error e =>
    rw [hparse] at hkeys
    cases hkeys
  | ok result =>
    rw [hparse] at hkeys
    exact ⟨result, rfl, by simpa [Except.toOption] using hkeys⟩

end Interrupts

end Lsvmi.Procfs
