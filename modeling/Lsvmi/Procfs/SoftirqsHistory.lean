import Lsvmi.Procfs.InterruptsContent
import Lsvmi.Procfs.SoftirqsContent
import Lsvmi.Reasoning.Runs

/-!
# Contents of /proc/softirqs parsed one after the other

A slice that was made for more columns is cut when there are fewer of them, and is not extended
again while it has the capacity.  A clone has the softirqs of its original without the scan in which
they were found.  Apart from that, an object parses a well-formed content as a new one does.
-/

namespace Lsvmi.Procfs

open Reasoning List

variable {before : Softirqs} {scanNum lineNum : Nat} {counters : CounterSlice} {irq : Bytes}
  {e : Option SoftirqsError}

/-! ## Well-formed contents -/

def lineWords (line : Bytes) : List Bytes :=
  fields isWhitespace ((line.dropWhile isWhitespace).dropWhile (· ≠ 58)).tail

/-- The line of a softirq, with `n` numbers behind the colon. -/
@[mk_iff] structure IsSoftirqLine (n : Nat) (line : Bytes) : Prop where
  colon : 58 ∈ line
  columns : (lineWords line).length = n
  digits : ∀ word ∈ lineWords line, ∀ c ∈ word, isDigit c = true

instance (n : Nat) (line : Bytes) : Decidable (IsSoftirqLine n line) :=
  decidable_of_iff' _ (isSoftirqLine_iff n line)

/-- A line with the CPUs, and lines with a number for each of them. -/
@[mk_iff] structure SoftirqsWellFormed (buf : Bytes) : Prop where
  ne_nil : buf ≠ []
  cpus : ∀ cpu ∈ stringsFields (firstLine newline buf), IsCpu cpu
  lines : ∀ line ∈ lines newline (afterLine newline buf), IsSoftirqLine (contentCpus buf).length line

instance (buf : Bytes) : Decidable (SoftirqsWellFormed buf) :=
  decidable_of_iff' _ (softirqsWellFormed_iff buf)

/-! ## A line that is well formed -/

theorem softirqCounters_total {n i : Nat} {buf : Bytes} (hroom : i + n ≤ counters.len)
    (hwords : n ≤ (fields isWhitespace (firstLine newline buf)).length)
    (hdigits : ∀ word ∈ fields isWhitespace (firstLine newline buf), ∀ c ∈ word, isDigit c) :
    ∃ counters' rest eol,
      softirqCounters n i counters buf = some (counters', .ok (i + n, rest, eol)) := by
  induction n generalizing i counters buf with
  | zero => exact ⟨counters, buf, false, rfl⟩
  | succ n ih =>
    rcases hfield : nextField buf with ⟨word, sep, buf'⟩
    rcases nextWord_line isWhitespace_newline hfield with ⟨-, hnext, -⟩ |
      ⟨hword, words', hnext, hline⟩
    · rw [hnext] at hwords
      cases hwords
    rw [hnext] at hwords hdigits
    have hvalid := invalidDigit_eq_none (hdigits word (by simp))
    have hlt : i < counters.len := by omega
    rw [softirqCounters]
    simp only [hfield, hvalid, hword, if_false, if_pos hlt]
    rcases hline with ⟨rfl, rfl, -⟩ | ⟨heol, rfl, -⟩
    · -- the last word of the line is the last column
      obtain rfl : n = 0 := by simpa using hwords
      exact ⟨_, _, _, rfl⟩
    rw [if_neg heol]
    have hwords' : n ≤ (fields isWhitespace (firstLine newline buf')).length := by
      simpa using hwords
    have hroom' : i + 1 + n ≤ (counters.set i (counterValue word)).len := by
      show i + 1 + n ≤ counters.len
      omega
    obtain ⟨counters', rest, eol, hloop⟩ := ih hroom' hwords' fun w hw => hdigits w (by simp [hw])
    exact ⟨counters', rest, eol, by rw [hloop, Nat.add_right_comm, Nat.add_assoc]⟩

theorem head?_dropWhile_name {text : Bytes} (h : 58 ∈ firstLine newline text) :
    (text.dropWhile fun c => c ≠ 58 && c ≠ newline).head? = some 58 := by
  induction text with
  | nil => cases h
  | cons c text ih =>
    by_cases hcolon : c = 58
    · rw [dropWhile_cons_of_neg (by simp [hcolon]), head?_cons, hcolon]
    by_cases hnl : c = newline
    · rw [hnl, firstLine_nl] at h
      cases h
    · rw [dropWhile_cons_of_pos (by simp [hcolon, hnl])]
      refine ih ?_
      rw [firstLine, takeWhile_cons_of_pos (by simpa using hnl), mem_cons] at h
      exact h.resolve_left (Ne.symm hcolon)

theorem softirqName_of_colon {buf : Bytes} (h : 58 ∈ firstLine newline buf) :
    ∃ irq rest, softirqName buf = some (irq, rest) := by
  have hmem : 58 ∈ firstLine newline (buf.dropWhile isWhitespace) := by
    rw [firstLine_dropWhile isWhitespace_newline]
    exact mem_dropWhile_isWhitespace h rfl
  exact ⟨_, _, if_pos (head?_dropWhile_name hmem)⟩

namespace Softirqs

variable {softirqs : Softirqs} {buf : Bytes}

/-- There is an element for every column in the slice that the softirq gets. -/
def Fits (softirqs : Softirqs) (irq : Bytes) : Prop :=
  softirqs.numCounters ≤ (softirqs.irqCounters irq).len

theorem parseLine_total (scanNum lineNum : Nat)
    (hline : IsSoftirqLine softirqs.numCounters (firstLine newline buf))
    (hfits : softirqs.Fits (lineIrq (firstLine newline buf))) :
    ∃ softirqs' rest, softirqs.parseLine scanNum lineNum buf = some (softirqs', .ok rest) := by
  obtain ⟨irq, rest, hname⟩ := softirqName_of_colon hline.colon
  obtain ⟨hirq, htail, -⟩ := softirqName_tail hname
  have hcolumns := hline.columns
  have hdigits := hline.digits
  rw [lineWords, htail] at hcolumns hdigits
  rw [hirq] at hfits
  have hroom : 0 + softirqs.numCounters ≤ (softirqs.irqCounters irq).len := by
    rw [Nat.zero_add]
    exact hfits
  obtain ⟨counters, rest', eol, hloop⟩ := softirqCounters_total hroom hcolumns.symm.le hdigits
  rw [Nat.zero_add] at hloop
  obtain ⟨words, hj, -, -, -, -, hwords, -⟩ := softirqCounters_spec hloop
  rw [parseLine]
  simp only [hname, hloop, Nat.lt_irrefl, if_false]
  cases eol with
  | true => exact ⟨_, _, rfl⟩
  | false =>
    -- there is no word left in the line
    have hnone : fields isWhitespace (firstLine newline rest') = [] := by
      rw [hwords, length_append] at hcolumns
      simp only [Bool.false_eq_true, if_false] at hcolumns
      exact eq_nil_of_length_eq_zero (by omega)
    simp only [Bool.false_eq_true, if_false, if_pos (nextField_of_blank hnone).1]
    exact ⟨_, _, rfl⟩

theorem fits_insert {irq' : Bytes} (hlen : counters.len = softirqs.numCounters) :
    Fits { softirqs with
      counters := softirqs.counters.insert irq counters
      irqScanNum := softirqs.irqScanNum.insert irq scanNum } irq' ↔
        irq' = irq ∨ softirqs.Fits irq' := by
  by_cases hirq : irq' = irq
  · refine iff_of_true ?_ (.inl hirq)
    have hroom : ¬ counters.backing.length < softirqs.numCounters := by
      have := counters.len_le
      omega
    rw [Fits, irqCounters, hirq]
    simp [Finmap.lookup_insert, hroom, hlen]
  · rw [or_iff_right hirq, Fits, Fits, irqCounters, irqCounters]
    simp only [Finmap.lookup_insert_of_ne _ hirq]

theorem parseLines_total_iff (scanNum lineNum : Nat) {fuel : Nat} (hfuel : buf.length ≤ fuel)
    (hlines : ∀ line ∈ lines newline buf, IsSoftirqLine before.numCounters line) :
    (∃ softirqs, parseLines scanNum fuel lineNum before buf = some (softirqs, none)) ↔
      ∀ line ∈ lines newline buf, before.Fits (lineIrq line) := by
  induction fuel generalizing lineNum before buf with
  | zero =>
    obtain rfl : buf = [] := eq_nil_of_length_eq_zero (Nat.le_zero.mp hfuel)
    exact iff_of_true ⟨before, rfl⟩ nofun
  | succ fuel ih =>
    cases buf with
    | nil => exact iff_of_true ⟨before, rfl⟩ nofun
    | cons b buf =>
      have hshort : (afterLine newline (b :: buf)).length < (b :: buf).length :=
        length_afterLine_lt (cons_ne_nil b buf)
      rw [lines_of_ne_nil (cons_ne_nil b buf), forall_mem_cons] at hlines ⊢
      by_cases hfits : before.Fits (lineIrq (firstLine newline (b :: buf)))
      · obtain ⟨softirqs₁, rest, hline⟩ := parseLine_total scanNum lineNum hlines.1 hfits
        obtain ⟨rfl, -, counters, hvalues, hlength, rfl⟩ := parseLine_spec hline
        have hlen : counters.len = before.numCounters := by
          rw [← hlength, ← hvalues, CounterSlice.values, length_take_of_le counters.len_le]
        simp only [parseLines, hline]
        rw [and_iff_right hfits]
        refine Iff.trans (ih _ (by omega) ?_) (forall₂_congr fun line _ => ?_)
        · exact hlines.2
        · rw [fits_insert hlen]
          refine or_iff_right_of_imp fun hirq => ?_
          rw [hirq]
          exact hfits
      · refine iff_of_false ?_ fun h => hfits h.1
        rintro ⟨softirqs, h⟩
        simp only [parseLines] at h
        rcases hline : before.parseLine scanNum lineNum (b :: buf) with - | ⟨softirqs₁, e | rest⟩
        · simp only [hline] at h
          cases h
        · simp only [hline] at h
          cases h
        · exact hfits (parseLine_spec hline).2.1

/-! ## Histories -/

/-- The objects that well-formed contents and clones lead to, from a new object on. -/
inductive Reached : Softirqs → Prop
  | new : Reached newSoftirqs
  | parse {before softirqs : Softirqs} {buf : Bytes} (h : Reached before)
    (hbuf : SoftirqsWellFormed buf) (hparse : before.parse buf = some (softirqs, none)) :
    Reached softirqs
  | clone {softirqs : Softirqs} (h : Reached softirqs) : Reached (softirqs.clone false)

theorem Reached.ok (h : Reached softirqs) : softirqs.Ok := by
  induction h with
  | new => exact ok_new
  | parse _ _ hparse ih => exact (parse_spec ih hparse).ok
  | clone _ ih => exact ih.clone

/-- `Parse` returns without an error, and leaves the columns and counters that a new object gets
from the content. -/
def ParsesAsNew (before : Softirqs) (buf : Bytes) : Prop :=
  ∃ softirqs fresh, before.parse buf = some (softirqs, none) ∧
    newSoftirqs.parse buf = some (fresh, none) ∧ softirqs.numCounters = fresh.numCounters ∧
    softirqs.cpuList = fresh.cpuList ∧
    ∀ irq, (softirqs.counters.lookup irq).map CounterSlice.values =
      (fresh.counters.lookup irq).map CounterSlice.values

/-- No softirq of the content has a slice that was cut to fewer columns and has the capacity for
those of the content.  The object knows when it found each of the other softirqs it has. -/
structure HistoryFits (before : Softirqs) (buf : Bytes) : Prop where
  slices : ∀ irq ∈ contentIrqs buf, ∀ counters, before.counters.lookup irq = some counters →
    ¬ (counters.len < (contentCpus buf).length ∧ (contentCpus buf).length ≤ counters.backing.length)
  found : ∀ irq, irq ∉ contentIrqs buf → (before.counters.lookup irq).isSome = true →
    (before.irqScanNum.lookup irq).isSome = true

theorem fits_iff (softirqs : Softirqs) (irq : Bytes) :
    softirqs.Fits irq ↔ ∀ counters, softirqs.counters.lookup irq = some counters →
      ¬ (counters.len < softirqs.numCounters ∧ softirqs.numCounters ≤ counters.backing.length) := by
  rw [Fits, irqCounters]
  cases softirqs.counters.lookup irq with
  | none => exact iff_of_true (Nat.le_refl _) nofun
  | some counters =>
    simp only [Option.some.injEq, forall_eq']
    split
    · rename_i hsmall
      exact iff_of_true (Nat.le_refl _) fun h => absurd hsmall (Nat.not_lt.mpr h.2)
    · split
      · rename_i hmore
        exact iff_of_true (Nat.le_refl _) fun h => absurd hmore (Nat.lt_asymm h.1)
      · omega

theorem parseHeader_total (softirqs : Softirqs) (hbuf : SoftirqsWellFormed buf) :
    ∃ softirqs', softirqs.parseHeader (firstLine newline buf) = (softirqs', none) := by
  rw [parseHeader]
  split
  · exact ⟨_, rfl⟩
  · rw [updateCounterIndexToCpuNumMap]
    simp only [Procfs.mapM_cpuNum hbuf.cpus]
    exact ⟨_, rfl⟩

theorem parse_total_iff (h : before.Ok) (hbuf : SoftirqsWellFormed buf) :
    (∃ softirqs, before.parse buf = some (softirqs, none)) ↔
      ∀ irq ∈ contentIrqs buf, ∀ counters, before.counters.lookup irq = some counters →
        ¬ (counters.len < (contentCpus buf).length ∧
          (contentCpus buf).length ≤ counters.backing.length) := by
  obtain ⟨softirqs₁, hheader⟩ := parseHeader_total before hbuf
  obtain ⟨hok, hline, -, hcounters, -⟩ := parseHeader_spec h hheader
  have hcolumns : softirqs₁.numCounters = (contentCpus buf).length := by
    rw [hok.numCounters_eq, hline]
    rfl
  have hlines := hbuf.lines
  rw [← hcolumns] at hlines
  have hiff := parseLines_total_iff (before.scanNum + 1) 2
    (Nat.le_refl (afterLine newline buf).length) hlines
  simp only [fits_iff, hcolumns, hcounters] at hiff
  rw [contentIrqs, forall_mem_map, ← hiff]
  simp only [parse_ok_iff hbuf.ne_nil]
  constructor
  · rintro ⟨_, _, softirqs₂, hheader', hlines, -⟩
    rw [hheader] at hheader'
    cases hheader'
    exact ⟨softirqs₂, hlines⟩
  · rintro ⟨softirqs₂, hlines⟩
    exact ⟨_, softirqs₁, softirqs₂, hheader, hlines, rfl⟩

theorem Ok.historyFits_iff (h : before.Ok) (hbuf : SoftirqsWellFormed buf) :
    ParsesAsNew before buf ↔ HistoryFits before buf := by
  obtain ⟨fresh, hfresh⟩ := (parse_total_iff ok_new hbuf).mpr fun _ _ _ h => by cases h
  have hnew := parse_spec ok_new hfresh
  have hnewCounters : ∀ irq, (fresh.counters.lookup irq).map CounterSlice.values =
      contentCounters buf irq := by
    intro irq
    rw [hnew.counters irq]
    exact Option.or_none
  have hnone {irq : Bytes} (hirq : irq ∉ contentIrqs buf) : contentCounters buf irq = none := by
    rw [← contentCounters_isSome_iff] at hirq
    simpa using hirq
  constructor
  · rintro ⟨softirqs, fresh', hparse, hfresh', -, -, hcounters⟩
    rw [hfresh] at hfresh'
    cases hfresh'
    have hspec := parse_spec h hparse
    refine ⟨(parse_total_iff h hbuf).mp ⟨softirqs, hparse⟩, fun irq hirq hhas => ?_⟩
    have heq := hcounters irq
    rw [hspec.counters irq, hnewCounters irq, hnone hirq, Option.none_or] at heq
    by_contra hunknown
    rw [if_neg hunknown, Option.map_eq_none_iff] at heq
    rw [heq] at hhas
    cases hhas
  · intro hfits
    obtain ⟨softirqs, hparse⟩ := (parse_total_iff h hbuf).mpr hfits.slices
    have hspec := parse_spec h hparse
    have hheader := (hspec.header hbuf.ne_nil).1
    have hnewHeader := (hnew.header hbuf.ne_nil).1
    refine ⟨softirqs, fresh, hparse, hfresh, ?_, ?_, fun irq => ?_⟩
    · rw [hspec.ok.numCounters_eq, hnew.ok.numCounters_eq, hheader, hnewHeader]
    · rw [hspec.ok.cpuList_eq, hnew.ok.cpuList_eq, hheader, hnewHeader]
    rw [hspec.counters irq, hnewCounters irq]
    by_cases hirq : irq ∈ contentIrqs buf
    · obtain ⟨counters, hcounters⟩ :=
        Option.isSome_iff_exists.mp (contentCounters_isSome_iff.mpr hirq)
      rw [hcounters]
      rfl
    rw [hnone hirq, Option.none_or]
    by_cases hknown : (before.irqScanNum.lookup irq).isSome
    · rw [if_pos hknown]
    · rw [if_neg hknown, Option.map_eq_none_iff]
      by_contra hhas
      exact hknown (hfits.found irq hirq (Option.isSome_iff_ne_none.mpr hhas))

/-- After any contents and clones, the next content is parsed as by a new object if and only if the
slices and scans that were kept fit. -/
theorem parsesAsNew_iff {before : Softirqs} (h : Reached before) {buf : Bytes}
    (hbuf : SoftirqsWellFormed buf) : ParsesAsNew before buf ↔ HistoryFits before buf :=
  h.ok.historyFits_iff hbuf

theorem Accepted.of_new {content : Bytes} (h : Accepted newSoftirqs content softirqs)
    (hlookup : softirqs.counters.lookup irq = some counters) :
    counters.len = (contentCpus content).length ∧
      (softirqs.irqScanNum.lookup irq).isSome := by
  have hvalues := h.counters irq
  rw [hlookup] at hvalues
  cases hcontent : contentCounters content irq with
  | none =>
    rw [hcontent] at hvalues
    cases hvalues
  | some values =>
    rw [hcontent, Option.some_or, Option.map_some, Option.some.injEq] at hvalues
    have hlength := h.columns irq values hcontent
    rw [← hvalues, CounterSlice.values, length_take_of_le counters.len_le] at hlength
    exact ⟨hlength, by rw [h.found irq, hcontent]; rfl⟩

theorem Accepted.historyFits {content : Bytes} (h : Accepted newSoftirqs content softirqs)
    (hle : (contentCpus buf).length ≤ (contentCpus content).length) : HistoryFits softirqs buf := by
  refine ⟨fun irq _ counters hcounters hcut => ?_, fun irq _ hhas => ?_⟩
  · have hlen := (h.of_new hcounters).1
    omega
  · obtain ⟨counters, hcounters⟩ := Option.isSome_iff_exists.mp hhas
    exact (h.of_new hcounters).2

/-- A CPU and a softirq are gone. -/
theorem parsesAsNew_cpu_gone :
    ∃ softirqs, Reached softirqs ∧ ParsesAsNew softirqs (utf8 "CPU1\nTIMER: 5\n") := by
  have hfirst : SoftirqsWellFormed (utf8 "CPU0 CPU1\nTIMER: 1 2\nRCU: 3 4\n") := by decide +kernel
  obtain ⟨softirqs, hparse⟩ := (parse_total_iff ok_new hfirst).mpr fun _ _ _ h => by cases h
  have hreached : Reached softirqs := .parse .new hfirst hparse
  refine ⟨softirqs, hreached, (parsesAsNew_iff hreached (by decide +kernel)).mpr ?_⟩
  exact (parse_spec ok_new hparse).historyFits (by decide +kernel)

def afterContents (contents : List Bytes) : Option Softirqs :=
  contents.foldlM (fun softirqs buf => match softirqs.parse buf with
    | some (softirqs, none) => some softirqs
    | _ => none) newSoftirqs

theorem reached_afterContents {contents : List Bytes}
    (hcontents : ∀ buf ∈ contents, SoftirqsWellFormed buf)
    (h : afterContents contents = some softirqs) : Reached softirqs := by
  refine foldlM_invariant h .new fun before buf hbuf after hbefore hstep => ?_
  split at hstep
  · rename_i hparse
    cases hstep
    exact .parse hbefore (hcontents buf hbuf) hparse
  · cases hstep

/-- A CPU comes back: the slice of the softirq still has room for two counters, and one element. -/
theorem cpu_back_index_out_of_range :
    ∃ softirqs, Reached softirqs ∧ SoftirqsWellFormed (utf8 "CPU0 CPU1\nTIMER: 4 5\n") ∧
      ¬ ParsesAsNew softirqs (utf8 "CPU0 CPU1\nTIMER: 4 5\n") := by
  have hall : ∀ buf ∈ [utf8 "CPU0 CPU1\nTIMER: 1 2\n", utf8 "CPU0\nTIMER: 3\n"],
      SoftirqsWellFormed buf := by decide +kernel
  have hsome : (afterContents [utf8 "CPU0 CPU1\nTIMER: 1 2\n", utf8 "CPU0\nTIMER: 3\n"]).isSome =
      true := by decide +kernel
  have hnone : ((afterContents [utf8 "CPU0 CPU1\nTIMER: 1 2\n", utf8 "CPU0\nTIMER: 3\n"]).bind
      (·.parse (utf8 "CPU0 CPU1\nTIMER: 4 5\n"))).isNone = true := by decide +kernel
  obtain ⟨softirqs, hsoftirqs⟩ := Option.isSome_iff_exists.mp hsome
  rw [hsoftirqs, Option.bind_some] at hnone
  refine ⟨softirqs, reached_afterContents hall hsoftirqs, by decide +kernel, ?_⟩
  rintro ⟨_, _, hparse, -⟩
  rw [hparse] at hnone
  cases hnone

/-! ## A first line that is rejected -/

/-- The objects that any contents lead to, whether or not they are accepted, and their clones. -/
inductive Used : Softirqs → Prop
  | new : Used newSoftirqs
  | parse {before softirqs : Softirqs} {buf : Bytes} {e : Option SoftirqsError} (h : Used before)
    (hparse : before.parse buf = some (softirqs, e)) : Used softirqs
  | clone {softirqs : Softirqs} (h : Used softirqs) (full : Bool) : Used (softirqs.clone full)

/-- The lines behind the first one leave what is known of the columns. -/
structure SameColumns (before softirqs : Softirqs) : Prop where
  numCounters_eq : softirqs.numCounters = before.numCounters
  cpuList_eq : softirqs.cpuList = before.cpuList
  cpuHeaderLine_eq : softirqs.cpuHeaderLine = before.cpuHeaderLine

theorem SameColumns.refl (softirqs : Softirqs) : SameColumns softirqs softirqs := ⟨rfl, rfl, rfl⟩

theorem parseLine_sameColumns {result : Except SoftirqsError Bytes}
    (h : before.parseLine scanNum lineNum buf = some (softirqs, result)) :
    SameColumns before softirqs := by
  unfold parseLine at h
  dsimp only at h
  repeat' split at h
  all_goals cases h
  all_goals exact ⟨rfl, rfl, rfl⟩

theorem parseLines_sameColumns {fuel : Nat}
    (h : parseLines scanNum fuel lineNum before buf = some (softirqs, e)) :
    SameColumns before softirqs := by
  induction fuel generalizing lineNum before buf with
  | zero =>
    cases buf <;> cases h <;> exact .refl _
  | succ fuel ih =>
    cases buf with
    | nil =>
      cases h
      exact .refl _
    | cons b buf =>
      simp only [parseLines] at h
      rcases hline : before.parseLine scanNum lineNum (b :: buf) with - | ⟨softirqs₁, e | rest⟩
      · simp only [hline] at h
        cases h
      · simp only [hline] at h
        cases h
        exact parseLine_sameColumns hline
      · simp only [hline] at h
        obtain ⟨hnum, hlist, hheader⟩ := parseLine_sameColumns hline
        obtain ⟨hnum', hlist', hheader'⟩ := ih h
        exact ⟨hnum'.trans hnum, hlist'.trans hlist, hheader'.trans hheader⟩

theorem parse_sameColumns (hne : buf ≠ []) (h : before.parse buf = some (softirqs, e)) :
    SameColumns (before.parseHeader (firstLine newline buf)).1 softirqs := by
  rw [parse, if_neg hne] at h
  rcases hheader : before.parseHeader (firstLine newline buf) with ⟨softirqs₁, - | e'⟩
  · simp only [hheader] at h
    rcases hlines : parseLines (before.scanNum + 1) (afterLine newline buf).length 2 softirqs₁
      (afterLine newline buf) with - | ⟨softirqs₂, - | e'⟩
    · simp only [hlines] at h
      cases h
    · simp only [hlines] at h
      cases h
      obtain ⟨hnum, hlist, hline⟩ := parseLines_sameColumns hlines
      exact ⟨hnum, hlist, hline⟩
    · simp only [hlines] at h
      cases h
      exact parseLines_sameColumns hlines
  · simp only [hheader] at h
    cases h
    exact .refl _

theorem parseHeader_cpuList
    (h : softirqs.cpuList = cpuListOf (headerCpus softirqs.cpuHeaderLine)) (line : Bytes) :
    (softirqs.parseHeader line).1.cpuList =
      cpuListOf (headerCpus (softirqs.parseHeader line).1.cpuHeaderLine) := by
  rcases parseHeader_cases softirqs line with ⟨-, heq⟩ | ⟨-, heq⟩ | ⟨e, heq⟩
  · rw [heq]
    exact h
  · rw [heq]
  · rw [heq]
    exact h

theorem Used.cpuList_eq (h : Used softirqs) :
    softirqs.cpuList = cpuListOf (headerCpus softirqs.cpuHeaderLine) := by
  induction h with
  | new => rfl
  | @parse before softirqs buf e _ hparse ih =>
    by_cases hne : buf = []
    · rw [Softirqs.parse, if_pos hne] at hparse
      cases hparse
      exact ih
    · obtain ⟨-, hlist, hline⟩ := parse_sameColumns hne hparse
      rw [hlist, hline]
      exact parseHeader_cpuList ih _
  | clone _ _ ih => exact ih

def RejectsHeader (softirqs : Softirqs) (buf : Bytes) : Prop :=
  buf ≠ [] ∧ (softirqs.parseHeader (firstLine newline buf)).2.isSome = true

theorem RejectsHeader.parse_eq (h : softirqs.RejectsHeader buf) :
    ∃ e, softirqs.parse buf = some ({ softirqs with
      numCounters := (stringsFields (firstLine newline buf)).length }, some e) := by
  obtain ⟨hne, hrejected⟩ := h
  rcases parseHeader_cases softirqs (firstLine newline buf) with ⟨-, heq⟩ | ⟨-, heq⟩ | ⟨e, heq⟩
  · rw [heq] at hrejected
    cases hrejected
  · rw [heq] at hrejected
    cases hrejected
  · refine ⟨e, ?_⟩
    rw [parse, if_neg hne]
    simp only [heq]

theorem rejectsHeader_of_not_cpu (hne : buf ≠ [])
    (hline : firstLine newline buf ≠ softirqs.cpuHeaderLine)
    (hcpus : ((stringsFields (firstLine newline buf)).mapM cpuNum).isOk = false) :
    softirqs.RejectsHeader buf := by
  refine ⟨hne, ?_⟩
  rw [parseHeader, if_neg hline, updateCounterIndexToCpuNumMap]
  cases hwords : (stringsFields (firstLine newline buf)).mapM cpuNum with
  | error cpu => rfl
  | ok cpus =>
    rw [hwords] at hcpus
    cases hcpus

theorem removeOutOfScope_scanNum {n : Nat}
    (h : (softirqs.removeOutOfScope scanNum).irqScanNum.lookup irq = some n) : n = scanNum := by
  cases hold : softirqs.irqScanNum.lookup irq with
  | none => simp [removeOutOfScope, hold] at h
  | some m =>
    by_cases hm : m = scanNum
    · simp [removeOutOfScope, hold, hm] at h
      exact h.symm
    · simp [removeOutOfScope, hold, hm] at h

theorem parse_accepted (hne : buf ≠ []) (h : before.parse buf = some (softirqs, none)) :
    softirqs.cpuHeaderLine = firstLine newline buf ∧
      ∀ irq n, softirqs.irqScanNum.lookup irq = some n → n ≤ softirqs.scanNum := by
  obtain ⟨softirqs₁, softirqs₂, hheader, hlines, rfl⟩ := (parse_ok_iff hne).mp h
  refine ⟨(parseLines_sameColumns hlines).cpuHeaderLine_eq.trans ?_,
    fun irq n hn => (removeOutOfScope_scanNum hn).le⟩
  rcases parseHeader_cases before (firstLine newline buf) with ⟨hsame, heq⟩ | ⟨-, heq⟩ | ⟨e, heq⟩
  · cases heq.symm.trans hheader
    exact hsame.symm
  · cases heq.symm.trans hheader
    rfl
  · cases heq.symm.trans hheader

/-- A content with the columns of the one that was accepted before is parsed as by a new object if and
only if the line that was rejected in between has as many words, and what was kept fits. -/
theorem parsesAsNew_after_rejected_iff {before softirqs softirqs' : Softirqs}
    {content rejected buf : Bytes} {e : Option SoftirqsError} (h : Used before)
    (hcontent : SoftirqsWellFormed content) (hparse : before.parse content = some (softirqs, none))
    (hrejected : softirqs.RejectsHeader rejected)
    (hparse' : softirqs.parse rejected = some (softirqs', e)) (hbuf : SoftirqsWellFormed buf)
    (hheader : firstLine newline buf = firstLine newline content) :
    ParsesAsNew softirqs' buf ↔
      (stringsFields (firstLine newline rejected)).length =
        (stringsFields (firstLine newline content)).length ∧ HistoryFits softirqs buf := by
  obtain ⟨hline, hscans⟩ := parse_accepted hcontent.ne_nil hparse
  obtain ⟨e', heq⟩ := hrejected.parse_eq
  obtain ⟨rfl, -⟩ := Prod.mk.inj (Option.some.inj (heq.symm.trans hparse'))
  have hlist := (Used.parse h hparse).cpuList_eq
  by_cases hcount : (stringsFields (firstLine newline rejected)).length =
      (stringsFields (firstLine newline content)).length
  · have hok : Ok { softirqs with
        numCounters := (stringsFields (firstLine newline rejected)).length } := by
      refine ⟨?_, hlist, hscans⟩
      show _ = (headerCpus softirqs.cpuHeaderLine).length
      rw [hcount, hline, headerCpus, length_map]
    rw [hok.historyFits_iff hbuf]
    exact ⟨fun hfits => ⟨hcount, hfits.slices, hfits.found⟩,
      fun hfits => ⟨hfits.2.slices, hfits.2.found⟩⟩
  · -- the first line is the one that is kept, and with it the number of columns
    refine iff_of_false ?_ fun hfits => hcount hfits.1
    rintro ⟨softirqs₁, fresh, hnext, hfresh, hnum, -⟩
    have hkept := (parse_sameColumns hbuf.ne_nil hnext).numCounters_eq
    rw [parseHeader, if_pos (hheader.trans hline.symm)] at hkept
    have hnew := parse_spec ok_new hfresh
    refine hcount (hkept.symm.trans (hnum.trans ?_))
    rw [hnew.ok.numCounters_eq, (hnew.header hbuf.ne_nil).1, hheader, headerCpus, length_map]

/-- The line that is rejected has two words, like the one of the CPUs. -/
theorem parsesAsNew_after_rejected_two_words :
    ∃ softirqs softirqs' e,
      newSoftirqs.parse (utf8 "CPU0 CPU1\nTIMER: 1 2\n") = some (softirqs, none) ∧
      softirqs.parse (utf8 "CPU0 CPU\n") = some (softirqs', some e) ∧
      ParsesAsNew softirqs' (utf8 "CPU0 CPU1\nTIMER: 3 4\nRCU: 5 6\n") := by
  have hfirst : SoftirqsWellFormed (utf8 "CPU0 CPU1\nTIMER: 1 2\n") := by decide +kernel
  obtain ⟨softirqs, hparse⟩ := (parse_total_iff ok_new hfirst).mpr fun _ _ _ h => by cases h
  have hrejected : softirqs.RejectsHeader (utf8 "CPU0 CPU\n") := by
    refine rejectsHeader_of_not_cpu (by decide +kernel) ?_ (by decide +kernel)
    rw [(parse_accepted hfirst.ne_nil hparse).1]
    decide +kernel
  obtain ⟨e, hparse'⟩ := hrejected.parse_eq
  refine ⟨softirqs, _, e, hparse, hparse', ?_⟩
  refine (parsesAsNew_after_rejected_iff .new hfirst hparse hrejected hparse' (by decide +kernel)
    (by decide +kernel)).mpr ⟨by decide +kernel, ?_⟩
  exact (parse_spec ok_new hparse).historyFits (by decide +kernel)

/-- The line that is rejected has three words, and counters for three CPUs are missed afterwards. -/
theorem rejected_line_changes_columns :
    ∃ softirqs softirqs' softirqs'' e,
      newSoftirqs.parse (utf8 "CPU0 CPU1\nTIMER: 1 2\n") = some (softirqs, none) ∧
      softirqs.parse (utf8 "CPU0 CPU1 CPU\n") = some (softirqs', some e) ∧
      SoftirqsWellFormed (utf8 "CPU0 CPU1\nTIMER: 3 4\n") ∧
      softirqs'.parse (utf8 "CPU0 CPU1\nTIMER: 3 4\n") =
        some (softirqs'', some (.missingIrqs 2 (utf8 "TIMER: 3 4") 3 2)) := by
  have hfirst : (newSoftirqs.parse (utf8 "CPU0 CPU1\nTIMER: 1 2\n")).map Prod.snd = some none := by
    decide +kernel
  have hlast : (((newSoftirqs.parse (utf8 "CPU0 CPU1\nTIMER: 1 2\n")).bind
      (·.1.parse (utf8 "CPU0 CPU1 CPU\n"))).bind
        (·.1.parse (utf8 "CPU0 CPU1\nTIMER: 3 4\n"))).map Prod.snd =
      some (some (.missingIrqs 2 (utf8 "TIMER: 3 4") 3 2)) := by decide +kernel
  obtain ⟨⟨softirqs, _⟩, hparse, rfl⟩ := Option.map_eq_some_iff.mp hfirst
  have hrejected : softirqs.RejectsHeader (utf8 "CPU0 CPU1 CPU\n") := by
    refine rejectsHeader_of_not_cpu (by decide +kernel) ?_ (by decide +kernel)
    rw [(parse_accepted (by decide +kernel) hparse).1]
    decide +kernel
  obtain ⟨e, hparse'⟩ := hrejected.parse_eq
  rw [hparse, Option.bind_some, hparse', Option.bind_some] at hlast
  obtain ⟨⟨softirqs'', _⟩, hparse'', rfl⟩ := Option.map_eq_some_iff.mp hlast
  exact ⟨softirqs, _, softirqs'', e, hparse, hparse', by decide +kernel, hparse''⟩

end Softirqs

end Lsvmi.Procfs
