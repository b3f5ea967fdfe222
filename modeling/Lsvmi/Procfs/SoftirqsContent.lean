import Lsvmi.Procfs.Softirqs

/-!
# The contents of /proc/softirqs

What a content says is read off its lines: the CPUs of the columns are in the first one, each of the
others has a softirq and its counters.  An object that accepts a content holds what it says, apart
from softirqs that it does not know it has.
-/

namespace Lsvmi.Procfs

open Reasoning List Option

variable {counters counters' : CounterSlice} {softirqs' : Softirqs} {buf irq rest : Bytes}

/-! ## What a content says -/

def headerCpus (line : Bytes) : List Int64 := (stringsFields line).map cpuNumber

def contentCpus (buf : Bytes) : List Int64 := headerCpus (firstLine newline buf)

def lineIrq (line : Bytes) : Bytes := (line.dropWhile isWhitespace).takeWhile (· ≠ 58)

def lineCounters (line : Bytes) : List UInt64 :=
  (fields isWhitespace ((line.dropWhile isWhitespace).dropWhile (· ≠ 58)).tail).map
    fun word => UInt64.ofNat (decimal word)

def linesCounters (lines : List Bytes) : List (Bytes × List UInt64) :=
  lines.map fun line => (lineIrq line, lineCounters line)

/-- The counters of a softirq, those of its last line if there are several. -/
def contentCounters (buf : Bytes) (irq : Bytes) : Option (List UInt64) :=
  replay (linesCounters (lines newline (afterLine newline buf))) irq

def contentIrqs (buf : Bytes) : List Bytes := (lines newline (afterLine newline buf)).map lineIrq

theorem replay_linesCounters_cons (line : Bytes) (rest : List Bytes) (irq : Bytes) :
    replay (linesCounters (line :: rest)) irq = (replay (linesCounters rest) irq).or
      (if lineIrq line = irq then some (lineCounters line) else none) := by
  have hsplit : linesCounters (line :: rest) =
      [(lineIrq line, lineCounters line)] ++ linesCounters rest := rfl
  rw [hsplit, replay_append]
  rfl

theorem contentCounters_isSome_iff : (contentCounters buf irq).isSome ↔ irq ∈ contentIrqs buf := by
  unfold contentCounters contentIrqs
  induction lines newline (afterLine newline buf) with
  | nil => simp [linesCounters]
  | cons line rest ih =>
    rw [replay_linesCounters_cons, isSome_or, Bool.or_eq_true, ih, map_cons, mem_cons]
    by_cases hirq : lineIrq line = irq
    · simp [hirq]
    · simp [hirq, Ne.symm hirq]

/-! ## The counters of a line -/

section

variable (h : softirqName buf = some (irq, rest))
include h

theorem softirqName_parts :
    buf.dropWhile isWhitespace = irq ++ [58] ++ rest ∧ ∀ c ∈ irq, c ≠ 58 ∧ c ≠ newline := by
  simp only [softirqName] at h
  split at h
  · rename_i hcolon
    cases h
    have htail := eq_cons_of_mem_head? hcolon
    constructor
    · rw [append_assoc, singleton_append, ← htail, takeWhile_append_dropWhile]
    · intro c hc
      simpa using mem_takeWhile_imp hc
  · cases h

theorem softirqName_tail :
    lineIrq (firstLine newline buf) = irq ∧
      (((firstLine newline buf).dropWhile isWhitespace).dropWhile (· ≠ 58)).tail =
        firstLine newline rest ∧
      afterLine newline buf = afterLine newline rest := by
  obtain ⟨hskip, hirq⟩ := softirqName_parts h
  have hname : ∀ c ∈ irq, decide (c ≠ 58) := fun c hc => decide_eq_true (hirq c hc).1
  -- the part up to the colon is in the first line
  have hpart : newline ∉ irq ++ [58] := by
    rw [mem_append]
    rintro (hmem | hmem)
    · exact (hirq newline hmem).2 rfl
    · exact absurd hmem (by decide)
  have hline : (firstLine newline buf).dropWhile isWhitespace =
      irq ++ 58 :: firstLine newline rest := by
    rw [← firstLine_dropWhile isWhitespace_newline, hskip, firstLine_append hpart,
      append_assoc, singleton_append]
  obtain ⟨htake, hdrop⟩ := takeWhile_append_stop (r := 58 :: firstLine newline rest) hname (by simp)
  refine ⟨?_, ?_, ?_⟩
  · rw [lineIrq, hline, htake]
  · rw [hline, hdrop, tail_cons]
  · rw [← afterLine_dropWhile isWhitespace_newline, hskip, afterLine_append hpart]

theorem softirqName_spec :
    lineIrq (firstLine newline buf) = irq ∧
      lineCounters (firstLine newline buf) =
        (fields isWhitespace (firstLine newline rest)).map counterValue ∧
      afterLine newline buf = afterLine newline rest := by
  obtain ⟨hirq, htail, hafter⟩ := softirqName_tail h
  refine ⟨hirq, ?_, hafter⟩
  rw [lineCounters, htail]
  exact map_congr_left fun word _ => (foldl_digits64 word).symm

end

open CounterSlice

theorem CounterSlice.take_set {s : CounterSlice} {i : Nat} (h : i < s.len) (value : UInt64) :
    (s.set i value).backing.take (i + 1) = s.backing.take i ++ [value] := by
  have hlt : i < s.backing.length := Nat.lt_of_lt_of_le h s.len_le
  have hlength := length_take_of_le (Nat.le_of_lt hlt)
  rw [set, List.take_set, take_succ_eq_append_getElem hlt,
    set_append_right _ _ (Nat.le_of_eq hlength), hlength, Nat.sub_self]
  rfl

theorem softirqCounters_spec {n i j : Nat} {eol : Bool}
    (h : softirqCounters n i counters buf = some (counters', .ok (j, rest, eol))) :
    ∃ words, j = i + words.length ∧ words.length ≤ n ∧ counters'.len = counters.len ∧
      (words ≠ [] → j ≤ counters.len) ∧
      counters'.backing.take j = counters.backing.take i ++ words.map counterValue ∧
      fields isWhitespace (firstLine newline buf) =
        words ++ (if eol then [] else fields isWhitespace (firstLine newline rest)) ∧
      (if eol then rest else afterLine newline rest) = afterLine newline buf := by
  -- on the columns that are left; `words` are those that have been read
  induction n generalizing i counters buf with
  | zero =>
    cases h
    exact ⟨[], rfl, Nat.le_refl 0, rfl, fun h => absurd rfl h, by simp, by simp, by simp⟩
  | succ n ih =>
    rcases hfield : nextField buf with ⟨word, sep, buf'⟩
    rw [softirqCounters] at h
    simp only [hfield] at h
    cases hinvalid : invalidDigit word with
    | some c =>
      simp only [hinvalid] at h
      cases h
    | none =>
      simp only [hinvalid] at h
      rcases nextWord_line isWhitespace_newline hfield with ⟨rfl, hnext, rfl, hend⟩ |
        ⟨hword, words', hnext, hline⟩
      · cases h
        refine ⟨[], rfl, Nat.zero_le _, rfl, fun h => absurd rfl h, by simp, ?_, ?_⟩
        all_goals rcases hend with hend | hend <;>
          simp [hend, hnext, firstLine_of_notMem, afterLine_of_notMem, fields_nil]
      rw [if_neg hword] at h
      by_cases hlt : i < counters.len
      swap
      · rw [if_neg hlt] at h
        cases h
      rw [if_pos hlt] at h
      have htake := take_set hlt (counterValue word)
      rcases hline with ⟨rfl, rfl, rfl⟩ | ⟨heol, rfl, hafter⟩
      · cases h
        exact ⟨[word], rfl, by simp, rfl, fun _ => hlt, htake, by simpa using hnext, by simp⟩
      rw [if_neg heol] at h
      obtain ⟨words, hj, hle, hlen, hbound, hvalues, hwords, hrest⟩ := ih h
      refine ⟨word :: words, ?_, ?_, hlen, ?_, ?_, ?_, hrest.trans hafter⟩
      · rw [hj, length_cons]
        omega
      · rw [length_cons]
        omega
      · intro _
        cases words with
        | nil =>
          rw [hj]
          exact hlt
        | cons w words => exact hbound (cons_ne_nil w words)
      · rw [hvalues, htake]
        simp
      · rw [hnext, hwords]
        rfl

theorem softirqCounters_all {n j : Nat} {eol : Bool} (hlen : counters.len ≤ n)
    (h : softirqCounters n 0 counters buf = some (counters', .ok (j, rest, eol))) (hall : n ≤ j) :
    ∃ words, words.length = n ∧ n ≤ counters.len ∧ counters'.values = words.map counterValue ∧
      fields isWhitespace (firstLine newline buf) =
        words ++ (if eol then [] else fields isWhitespace (firstLine newline rest)) ∧
      (if eol then rest else afterLine newline rest) = afterLine newline buf := by
  obtain ⟨words, hj, hle, hlen', hbound, hvalues, hwords, hrest⟩ := softirqCounters_spec h
  have hcount : words.length = n := by omega
  have hfull : counters.len = j := by
    by_cases hnil : words = []
    · rw [hnil, length_nil] at hj hcount
      omega
    · have := hbound hnil
      omega
  refine ⟨words, hcount, hfull ▸ hall, ?_, hwords, hrest⟩
  rw [values, hlen', hfull, hvalues]
  rfl

/-! ## The line of a softirq -/

namespace Softirqs

variable {softirqs before : Softirqs} {scanNum : Nat} {buf : Bytes}

theorem irqCounters_len_le (softirqs : Softirqs) (irq : Bytes) :
    (softirqs.irqCounters irq).len ≤ softirqs.numCounters := by
  unfold irqCounters
  split
  · exact Nat.le_refl _
  split
  · exact Nat.le_refl _
  · split
    · exact Nat.le_refl _
    · omega

theorem parseLine_spec {lineNum : Nat} {rest : Bytes}
    (h : softirqs.parseLine scanNum lineNum buf = some (softirqs', .ok rest)) :
    rest = afterLine newline buf ∧
      softirqs.numCounters ≤ (softirqs.irqCounters (lineIrq (firstLine newline buf))).len ∧
      ∃ counters : CounterSlice, counters.values = lineCounters (firstLine newline buf) ∧
        (lineCounters (firstLine newline buf)).length = softirqs.numCounters ∧
        softirqs' = { softirqs with
          counters := softirqs.counters.insert (lineIrq (firstLine newline buf)) counters
          irqScanNum := softirqs.irqScanNum.insert (lineIrq (firstLine newline buf)) scanNum } := by
  rw [parseLine] at h
  cases hname : softirqName buf with
  | none =>
    simp only [hname] at h
    cases h
  | some e =>
    obtain ⟨irq, buf₁⟩ := e
    obtain ⟨hirq, hcounters, hafter⟩ := softirqName_spec hname
    simp only [hname] at h
    rcases hloop : softirqCounters softirqs.numCounters 0 (softirqs.irqCounters irq) buf₁ with
      - | ⟨counters, c | ⟨counterIndex, buf₂, eol⟩⟩
    · simp only [hloop] at h
      cases h
    · simp only [hloop] at h
      cases h
    simp only [hloop] at h
    split at h
    · cases h
    rename_i henough
    obtain ⟨words, hcount, hfits, hall, hwords, hrest⟩ := softirqCounters_all
      (irqCounters_len_le softirqs irq) hloop (Nat.le_of_not_lt henough)
    -- nothing else is in the line
    have hend : fields isWhitespace (firstLine newline buf₁) = words ∧
        rest = afterLine newline buf₁ ∧
        softirqs' = { softirqs with
          counters := softirqs.counters.insert irq counters
          irqScanNum := softirqs.irqScanNum.insert irq scanNum } := by
      cases eol with
      | true =>
        simp only [if_true, append_nil] at h hwords hrest
        cases h
        exact ⟨hwords, hrest, rfl⟩
      | false =>
        simp only [Bool.false_eq_true, if_false] at h hwords hrest
        by_cases hword : (nextField buf₂).1 = []
        · rw [if_pos hword] at h
          cases h
          obtain ⟨hrest', hnone⟩ := nextField_of_nil hword
          rw [hnone, append_nil] at hwords
          exact ⟨hwords, hrest'.trans hrest, rfl⟩
        · rw [if_neg hword] at h
          cases h
    obtain ⟨hfields, hrest', hsoftirqs⟩ := hend
    rw [hirq, hcounters, hfields, hafter]
    exact ⟨hrest', hfits, counters, hall, by rw [length_map, hcount], hsoftirqs⟩

/-! ## `Parse` -/

/-- What an object is for a header line, and the scans it knows of. -/
structure Ok (softirqs : Softirqs) : Prop where
  numCounters_eq : softirqs.numCounters = (headerCpus softirqs.cpuHeaderLine).length
  cpuList_eq : softirqs.cpuList = cpuListOf (headerCpus softirqs.cpuHeaderLine)
  scanNum_le : ∀ irq n, softirqs.irqScanNum.lookup irq = some n → n ≤ softirqs.scanNum

theorem ok_new : newSoftirqs.Ok :=
  ⟨rfl, rfl, fun irq n h => by cases h⟩

theorem Ok.clone (h : softirqs.Ok) : (softirqs.clone false).Ok :=
  ⟨h.numCounters_eq, h.cpuList_eq, fun irq n h => by cases h⟩

theorem mapM_cpuNum {words : List Bytes} {cpus : List Int64}
    (h : words.mapM cpuNum = .ok cpus) : cpus = words.map cpuNumber := by
  induction words generalizing cpus with
  | nil =>
    cases h
    rfl
  | cons word words ih =>
    rw [mapM_cons] at h
    have hword : ∀ n, cpuNum word = .ok n → n = cpuNumber word := by
      intro n hn
      unfold cpuNum at hn
      split at hn
      · cases hn
      · split at hn
        · cases hn
        · cases hn
          rfl
    cases hfirst : cpuNum word with
    | error e =>
      rw [hfirst] at h
      cases h
    | ok n =>
      cases hrest : words.mapM cpuNum with
      | error e =>
        rw [hfirst, hrest] at h
        cases h
      | ok ns =>
        rw [hfirst, hrest] at h
        cases h
        rw [map_cons, hword n hfirst, ih hrest]

theorem parseHeader_cases (softirqs : Softirqs) (line : Bytes) :
    (line = softirqs.cpuHeaderLine ∧
      softirqs.parseHeader line = ({ softirqs with cpuListChanged := false }, none)) ∨
    (line ≠ softirqs.cpuHeaderLine ∧
      softirqs.parseHeader line = ({ softirqs with
        cpuList := cpuListOf (headerCpus line), cpuListChanged := true
        numCounters := (stringsFields line).length, cpuHeaderLine := line }, none)) ∨
    ∃ e, softirqs.parseHeader line =
      ({ softirqs with numCounters := (stringsFields line).length }, some e) := by
  rw [parseHeader]
  by_cases hsame : line = softirqs.cpuHeaderLine
  · exact .inl ⟨hsame, if_pos hsame⟩
  rw [if_neg hsame, updateCounterIndexToCpuNumMap]
  cases hcpus : (stringsFields line).mapM cpuNum with
  | error cpu => exact .inr (.inr ⟨_, rfl⟩)
  | ok cpus =>
    rw [mapM_cpuNum hcpus]
    exact .inr (.inl ⟨hsame, rfl⟩)

theorem parseHeader_spec {line : Bytes} (h : softirqs.Ok)
    (hparse : softirqs.parseHeader line = (softirqs', none)) :
    softirqs'.Ok ∧ softirqs'.cpuHeaderLine = line ∧
      softirqs'.cpuListChanged = decide (line ≠ softirqs.cpuHeaderLine) ∧
      softirqs'.counters = softirqs.counters ∧ softirqs'.irqScanNum = softirqs.irqScanNum := by
  rcases parseHeader_cases softirqs line with ⟨hsame, heq⟩ | ⟨hother, heq⟩ | ⟨e, heq⟩
  · cases heq.symm.trans hparse
    exact ⟨⟨h.numCounters_eq, h.cpuList_eq, h.scanNum_le⟩, hsame.symm, by simp [hsame], rfl, rfl⟩
  · cases heq.symm.trans hparse
    exact ⟨⟨by simp [headerCpus], rfl, h.scanNum_le⟩, rfl, by simp [hother], rfl, rfl⟩
  · cases heq.symm.trans hparse

/-- The object after the lines have been entered at the scan `scanNum`. -/
structure Entered (scanNum : Nat) (before : Softirqs) (lines : List Bytes) (softirqs : Softirqs) :
    Prop where
  counters : ∀ irq, (softirqs.counters.lookup irq).map CounterSlice.values =
    (replay (linesCounters lines) irq).or ((before.counters.lookup irq).map CounterSlice.values)
  found : ∀ irq, softirqs.irqScanNum.lookup irq =
    ((replay (linesCounters lines) irq).map fun _ => scanNum).or (before.irqScanNum.lookup irq)
  columns : ∀ irq counters, replay (linesCounters lines) irq = some counters →
    counters.length = before.numCounters
  frame : ∃ counters irqScanNum, softirqs = { before with counters, irqScanNum }

theorem Entered.nil (scanNum : Nat) (softirqs : Softirqs) : Entered scanNum softirqs [] softirqs :=
  ⟨fun _ => rfl, fun _ => rfl, fun _ _ h => (by cases h), _, _, rfl⟩

theorem Entered.cons {line : Bytes}
    {rest : List Bytes} (hvalues : counters.values = lineCounters line)
    (hlength : (lineCounters line).length = before.numCounters) (h : Entered scanNum { before with
      counters := before.counters.insert (lineIrq line) counters
      irqScanNum := before.irqScanNum.insert (lineIrq line) scanNum } rest softirqs) :
    Entered scanNum before (line :: rest) softirqs := by
  -- a later line of the same softirq takes precedence
  refine ⟨fun irq => ?_, fun irq => ?_, fun irq counters' hcounters => ?_, h.frame⟩
  · rw [h.counters irq, replay_linesCounters_cons, Option.or_assoc]
    congr 1
    by_cases hirq : lineIrq line = irq
    · rw [if_pos hirq, ← hirq, Finmap.lookup_insert, Option.map_some, hvalues]
      rfl
    · rw [if_neg hirq, Finmap.lookup_insert_of_ne _ (Ne.symm hirq)]
      rfl
  · rw [h.found irq, replay_linesCounters_cons, Option.map_or, Option.or_assoc]
    congr 1
    by_cases hirq : lineIrq line = irq
    · rw [if_pos hirq, ← hirq, Finmap.lookup_insert]
      rfl
    · rw [if_neg hirq, Finmap.lookup_insert_of_ne _ (Ne.symm hirq)]
      rfl
  · rw [replay_linesCounters_cons] at hcounters
    rcases Option.or_eq_some_iff.mp hcounters with hrest | ⟨-, hline⟩
    · exact h.columns irq counters' hrest
    · split at hline
      · cases hline
        exact hlength
      · cases hline

theorem parseLines_spec {fuel lineNum : Nat} (hfuel : buf.length ≤ fuel)
    (h : parseLines scanNum fuel lineNum before buf = some (softirqs, none)) :
    Entered scanNum before (lines newline buf) softirqs := by
  induction fuel generalizing lineNum before buf with
  | zero =>
    obtain rfl : buf = [] := eq_nil_of_length_eq_zero (Nat.le_zero.mp hfuel)
    cases h
    exact .nil scanNum _
  | succ fuel ih =>
    cases buf with
    | nil =>
      cases h
      exact .nil scanNum _
    | cons b buf =>
      have hshort : (afterLine newline (b :: buf)).length < (b :: buf).length :=
        length_afterLine_lt (cons_ne_nil b buf)
      rw [lines_of_ne_nil (cons_ne_nil b buf)]
      simp only [parseLines] at h
      rcases hline : before.parseLine scanNum lineNum (b :: buf) with - | ⟨softirqs₁, e | rest⟩
      · simp only [hline] at h
        cases h
      · simp only [hline] at h
        cases h
      · simp only [hline] at h
        obtain ⟨rfl, -, counters, hvalues, hlength, rfl⟩ := parseLine_spec hline
        exact .cons hvalues hlength (ih (by omega) h)

/-- The object that has accepted the content, for what it was before. -/
structure Accepted (before : Softirqs) (buf : Bytes) (softirqs : Softirqs) : Prop where
  ok : softirqs.Ok
  header : buf ≠ [] → softirqs.cpuHeaderLine = firstLine newline buf ∧
    softirqs.cpuListChanged = decide (firstLine newline buf ≠ before.cpuHeaderLine)
  unchanged : softirqs.cpuListChanged = false → softirqs.cpuHeaderLine = before.cpuHeaderLine
  /-- softirqs that are not in the content stay if the object has not found them before -/
  counters : ∀ irq, (softirqs.counters.lookup irq).map CounterSlice.values =
    (contentCounters buf irq).or (if (before.irqScanNum.lookup irq).isSome then none
      else (before.counters.lookup irq).map CounterSlice.values)
  found : ∀ irq, (softirqs.irqScanNum.lookup irq).isSome = (contentCounters buf irq).isSome
  columns : ∀ irq counters, contentCounters buf irq = some counters →
    counters.length = (contentCpus buf).length

theorem Entered.removeOutOfScope {lines : List Bytes} (h : Entered scanNum before lines softirqs)
    (hbefore : ∀ irq n, before.irqScanNum.lookup irq = some n → n ≠ scanNum) (irq : Bytes) :
    ((softirqs.removeOutOfScope scanNum).counters.lookup irq).map values =
        (replay (linesCounters lines) irq).or (if (before.irqScanNum.lookup irq).isSome then none
          else (before.counters.lookup irq).map values) ∧
      (softirqs.removeOutOfScope scanNum).irqScanNum.lookup irq =
        (replay (linesCounters lines) irq).map fun _ => scanNum := by
  have hcounters := h.counters irq
  have hfound := h.found irq
  cases hlines : replay (linesCounters lines) irq with
  | some counters =>
    rw [hlines] at hcounters hfound
    simpa [Softirqs.removeOutOfScope, hfound] using hcounters
  | none =>
    rw [hlines, none_or] at hcounters
    rw [hlines, map_none, none_or] at hfound
    cases hold : before.irqScanNum.lookup irq with
    | none => simpa [Softirqs.removeOutOfScope, hfound, hold] using hcounters
    | some n => simp [Softirqs.removeOutOfScope, hfound, hold, hbefore irq n hold]

theorem Ok.ne_next (h : softirqs.Ok) (irq : Bytes) (n : Nat)
    (hn : softirqs.irqScanNum.lookup irq = some n) : n ≠ softirqs.scanNum + 1 := by
  have := h.scanNum_le irq n hn
  omega

theorem parse_ok_iff (hne : buf ≠ []) :
    before.parse buf = some (softirqs, none) ↔
      ∃ softirqs₁ softirqs₂, before.parseHeader (firstLine newline buf) = (softirqs₁, none) ∧
        parseLines (before.scanNum + 1) (afterLine newline buf).length 2 softirqs₁
          (afterLine newline buf) = some (softirqs₂, none) ∧
        softirqs = softirqs₂.removeOutOfScope (before.scanNum + 1) := by
  rw [parse, if_neg hne]
  rcases before.parseHeader (firstLine newline buf) with ⟨softirqs₁, - | e⟩
  · dsimp only
    rcases hlines : parseLines (before.scanNum + 1) (afterLine newline buf).length 2 softirqs₁
      (afterLine newline buf) with - | ⟨softirqs₂, - | e⟩
    · simp [hlines]
    · simp [hlines, eq_comm]
    · simp [hlines]
  · simp

theorem parse_spec (h : before.Ok)
    (hparse : before.parse buf = some (softirqs, none)) : Accepted before buf softirqs := by
  by_cases hnil : buf = []
  · rw [parse, if_pos hnil] at hparse
    subst hnil
    cases hparse
    have hspec := (Entered.nil (before.scanNum + 1) before).removeOutOfScope h.ne_next
    refine ⟨⟨h.numCounters_eq, h.cpuList_eq, fun irq n hn => ?_⟩, fun hne => absurd rfl hne,
      fun _ => rfl, fun irq => (hspec irq).1, fun irq => ?_, fun irq counters hcs => by cases hcs⟩
    · rw [(hspec irq).2] at hn
      cases hn
    · rw [(hspec irq).2]
      rfl
  · obtain ⟨softirqs₁, softirqs₂, hheader, hlines, rfl⟩ := (parse_ok_iff hnil).mp hparse
    obtain ⟨hok, hline, hchanged, hcounters, hirqScanNum⟩ := parseHeader_spec h hheader
    have hentered := parseLines_spec (Nat.le_refl _) hlines
    have hspec := hentered.removeOutOfScope (by rw [hirqScanNum]; exact h.ne_next)
    rw [hcounters, hirqScanNum] at hspec
    obtain ⟨counters, irqScanNum, rfl⟩ := hentered.frame
    refine ⟨⟨hok.numCounters_eq, hok.cpuList_eq, fun irq n hn => ?_⟩, fun _ => ⟨hline, hchanged⟩,
      fun hsame => ?_, fun irq => (hspec irq).1, fun irq => ?_, fun irq cs hcs => ?_⟩
    · rw [(hspec irq).2] at hn
      obtain ⟨_, _, rfl⟩ := map_eq_some_iff.mp hn
      exact Nat.le_refl _
    · exact hline.trans (by simpa using hchanged.symm.trans hsame)
    · rw [(hspec irq).2, isSome_map]
      rfl
    · rw [hentered.columns irq cs hcs, hok.numCounters_eq, hline]
      rfl

end Softirqs

end Lsvmi.Procfs
