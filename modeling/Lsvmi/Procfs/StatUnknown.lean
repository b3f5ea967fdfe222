import Lsvmi.Procfs.StatWords

/-!
# Text that is not known to the parser of /proc/stat

A line of /proc/stat may have more fields than are known, and there may be lines with prefixes that
are not known.  The words of both are read where a prefix is expected, and they change nothing if and
only if none of them can be taken for a prefix.
-/

namespace Lsvmi.Procfs

open Reasoning List

namespace Stat

variable {word text : Bytes} {as : Actions} {stat : Stat}

/-! ## The words and the result -/

theorem removeOutOfScope_numCpus (stat : Stat) (scanNum : UInt64) :
    (stat.removeOutOfScope scanNum).numCpus = stat.numCpus := rfl

theorem removeOutOfScope_numericFields (stat : Stat) (scanNum : UInt64) :
    (stat.removeOutOfScope scanNum).numericFields = stat.numericFields := rfl

theorem parse_eq (stat : Stat) (file : Bytes) :
    stat.parse file = if file.length < statMaxReadSize then stat.parseBuf file
      else (stat, some .potentialTruncation) := parseFile_eq (by decide) _ _ _

theorem parse_actions (stat : Stat) {buf : Bytes} (hlength : buf.length < statMaxReadSize) :
    let as := contentActions (statWords buf)
    let after := as.run (stat.scanNum + 1) { stat with numCpus := 0 }
    (stat.parse buf).2.isSome = as.failed ∧
      (stat.parse buf).1 =
        if as.failed then after else after.removeOutOfScope (stat.scanNum + 1) := by
  rw [parse_eq, if_pos hlength]
  obtain ⟨hrun, hfailed⟩ := parseLines_actions (stat.scanNum + 1) buf.length 1
    { stat with numCpus := 0 } (.inl ⟨rfl, rfl⟩ : LineRest [] buf buf) (Nat.le_refl _)
  rw [lineActions, Actions.none_andThen] at hrun hfailed
  rcases hparse : parseLines (stat.scanNum + 1) buf.length 1 { stat with numCpus := 0 } buf with
    ⟨after, _ | e⟩
  · simp only [hparse, Option.isSome_none] at hrun hfailed
    simp [parseBuf, hparse, ← hrun, ← hfailed]
  · simp only [hparse, Option.isSome_some] at hrun hfailed
    simp [parseBuf, hparse, ← hrun, ← hfailed]

/-- `Parse` ends with an error for both contents or for none of them, and it leaves the same values. -/
def SameResult (stat : Stat) (buf buf' : Bytes) : Prop :=
  (stat.parse buf).2.isSome = (stat.parse buf').2.isSome ∧
    (stat.parse buf).1.cpu = (stat.parse buf').1.cpu ∧
    (stat.parse buf).1.numCpus = (stat.parse buf').1.numCpus ∧
    (stat.parse buf).1.numericFields = (stat.parse buf').1.numericFields

theorem sameResult_of_actions (stat : Stat) {buf buf' : Bytes}
    (hlength : buf.length ≤ buf'.length) (hlength' : buf'.length < statMaxReadSize)
    (h : contentActions (statWords buf) = contentActions (statWords buf')) :
    SameResult stat buf buf' := by
  obtain ⟨hfailed, hresult⟩ := parse_actions stat (hlength.trans_lt hlength')
  obtain ⟨hfailed', hresult'⟩ := parse_actions stat hlength'
  rw [SameResult, hfailed, hresult, hfailed', hresult', h]
  exact ⟨rfl, rfl, rfl, rfl⟩

theorem contentActions_append (content content' : List (List Bytes)) :
    contentActions (content ++ content') =
      (contentActions content).andThen (contentActions content') := by
  induction content with
  | nil => rfl
  | cons words content ih =>
    rw [cons_append, contentActions_cons, contentActions_cons, ih, Actions.andThen_assoc]

/-! ## Words that do nothing -/

/-- The word cannot be taken for a prefix: it does not begin like the prefix of a CPU, nor is it a
part of that prefix, nor one of the other prefixes. -/
def Inert (word : Bytes) : Prop :=
  ¬ statCpuPrefix <+: word ∧ ¬ word <+: statCpuPrefix ∧
    word ∉ statPrefixToDstIndexList.map Prod.fst

instance (word : Bytes) : Decidable (Inert word) :=
  inferInstanceAs (Decidable (_ ∧ _ ∧ _))

theorem isCpuPrefix_iff (word : Bytes) :
    isCpuPrefix word ↔ statCpuPrefix <+: word ∨ word <+: statCpuPrefix := by
  have htake : word.take statCpuPrefix.length <+: word := take_prefix _ _
  rw [isCpuPrefix, isPrefixOf_iff_prefix]
  constructor
  · intro h
    by_cases hlen : word.length ≤ statCpuPrefix.length
    · rw [take_of_length_le hlen] at h
      exact .inr h
    · have heq := h.eq_of_length_le (by rw [length_take]; omega)
      exact .inl (heq ▸ htake)
  · rintro (h | h)
    · rw [← prefix_iff_eq_take.mp h]
    · exact htake.trans h

theorem dstIndexList_eq_nil (h : word ∉ statPrefixToDstIndexList.map Prod.fst) :
    dstIndexList word = [] := by
  have hlookup : statPrefixToDstIndexList.lookup word = none := by
    rw [lookup_eq_none_iff]
    intro entry hentry
    have hne : word ≠ entry.1 := fun heq => h (heq ▸ mem_map_of_mem hentry)
    simpa using hne
  rw [dstIndexList, hlookup]
  rfl

theorem Inert.isCpuPrefix (h : Inert word) : isCpuPrefix word = false := by
  rw [Bool.eq_false_iff, ne_eq, isCpuPrefix_iff]
  exact not_or.mpr ⟨h.1, h.2.1⟩

theorem lineActions_inert {words : List Bytes} (hwords : ∀ word ∈ words, Inert word)
    (more : List Bytes) : lineActions (words ++ more) = lineActions more := by
  induction words with
  | nil => rfl
  | cons word words ih =>
    rw [forall_mem_cons] at hwords
    have hlist := dstIndexList_eq_nil hwords.1.2.2
    have hnum : numFields word = 0 := by simp [numFields, hwords.1.isCpuPrefix, hlist]
    have hnone : prefixActions word [] = .none := by
      simp [prefixActions, hwords.1.isCpuPrefix, hlist, fieldActions, countActions]
    rw [cons_append, lineActions, hnum, take_zero, drop_zero, hnone,
      Actions.none_andThen, ih hwords.2]

theorem lineActions_known (word : Bytes) {fields : List Bytes}
    (hfields : fields.length = numFields word) (more : List Bytes) :
    lineActions (word :: (fields ++ more)) =
      (prefixActions word fields).andThen (lineActions more) := by
  rw [lineActions, ← hfields, take_left, drop_left]

/-! ## Ignored text -/

def isKnown (word : Bytes) : Bool :=
  (statPrefixToDstIndexList.map Prod.fst).contains word ||
    (statCpuPrefix.isPrefixOf word && (word.drop statCpuPrefix.length).all isDigit)

/-- The first word of a line, if it has one, is not known. -/
def UnknownLine (line : Bytes) : Prop :=
  ∀ word ∈ (fields isWhitespace line).head?, isKnown word = false

def LineStart (before : Bytes) : Prop := before = [] ∨ ∃ part, before = part ++ [newline]

def WordEnd (text : Bytes) : Prop := ∀ c ∈ text.head?, isWhitespace c = true ∨ c = newline

/-- The line begins with a known prefix and all its known fields, and `extra` is behind them.  If the
first word of a line is not known, it has no known fields. -/
def KnownFields (known extra : Bytes) : Prop :=
  (WordEnd extra ∧ ∃ word values, fields isWhitespace known = word :: values ∧
    isKnown word = true ∧ values.length = numFields word) ∨
  (known = [] ∧ fields isWhitespace extra ≠ [] ∧ UnknownLine extra)

/-- The words change nothing in any content that stays below the limit of the read, and for any
object: neither as a line of their own, if the first one is not known, nor behind the known fields of
a line, where some of them may be already when the others are appended. -/
structure IgnoredText (text : Bytes) : Prop where
  line : UnknownLine text → ∀ (stat : Stat) (before after : Bytes), LineStart before →
    (before ++ (text ++ newline :: after)).length < statMaxReadSize →
    SameResult stat (before ++ after) (before ++ (text ++ newline :: after))
  words : ∀ (stat : Stat) (before known extra more after : Bytes), LineStart before →
    newline ∉ known ++ extra ++ more → KnownFields known extra → WordEnd more → WordEnd after →
    fields isWhitespace extra ++ fields isWhitespace more = fields isWhitespace text →
    (before ++ (known ++ extra ++ more ++ after)).length < statMaxReadSize →
    SameResult stat (before ++ (known ++ extra ++ after)) (before ++ (known ++ extra ++ more ++ after))

theorem statWords_lineStart {before : Bytes} (h : LineStart before) (after : Bytes) :
    statWords (before ++ after) = statWords before ++ statWords after := by
  rcases h with rfl | ⟨part, rfl⟩
  · rfl
  · rw [append_assoc, singleton_append, statWords, lines_append, map_append]
    rfl

theorem fields_wordEnd (h : WordEnd text) (part : Bytes) :
    fields isWhitespace (part ++ firstLine newline text) =
      fields isWhitespace part ++ fields isWhitespace (firstLine newline text) := by
  cases text with
  | nil => rw [firstLine_nil, append_nil, fields_nil, append_nil]
  | cons c text =>
    by_cases hnl : c = newline
    · rw [hnl, firstLine_nl, append_nil, fields_nil, append_nil]
    have hc : isWhitespace c := (h c rfl).resolve_right hnl
    have hfirst : firstLine newline (c :: text) = c :: firstLine newline text := by
      simp [firstLine, hnl]
    have hskip : fields isWhitespace (c :: firstLine newline text) =
        fields isWhitespace (firstLine newline text) :=
      fields_append_cons hc [] (firstLine newline text)
    rw [hfirst, fields_append_cons hc, hskip]

theorem statWords_line {line after : Bytes} (hline : newline ∉ line)
    (hwords : fields isWhitespace line ≠ []) (hafter : WordEnd after) :
    statWords (line ++ after) =
      (fields isWhitespace line ++ fields isWhitespace (firstLine newline after)) ::
        statWords (afterLine newline after) := by
  have hne : line ++ after ≠ [] := by
    intro h
    rw [(append_eq_nil_iff.mp h).1, fields_nil] at hwords
    exact hwords rfl
  rw [statWords_of_ne_nil hne, firstLine_append hline, afterLine_append hline, fields_wordEnd hafter]

theorem fields_append_wordEnd {part : Bytes} (hnl : newline ∉ text) (h : WordEnd text) :
    fields isWhitespace (part ++ text) = fields isWhitespace part ++ fields isWhitespace text := by
  have hfields := fields_wordEnd h part
  rwa [firstLine_of_notMem hnl] at hfields

theorem KnownFields.fields_append {known extra : Bytes} (h : KnownFields known extra)
    (hnl : newline ∉ extra) :
    fields isWhitespace (known ++ extra) = fields isWhitespace known ++ fields isWhitespace extra ∧
      fields isWhitespace (known ++ extra) ≠ [] := by
  rcases h with ⟨hend, word, values, hknown, _, _⟩ | ⟨rfl, hextra, _⟩
  · rw [fields_append_wordEnd hnl hend, hknown]
    exact ⟨rfl, by simp⟩
  · rw [fields_nil]
    exact ⟨rfl, hextra⟩

theorem KnownFields.actions {known extra : Bytes} (h : KnownFields known extra) :
    ∃ as : Actions, ∀ words, lineActions (fields isWhitespace known ++ words) =
      as.andThen (lineActions words) := by
  rcases h with ⟨_, word, values, hknown, _, hvalues⟩ | ⟨rfl, _, _⟩
  · refine ⟨prefixActions word values, fun words => ?_⟩
    rw [hknown, cons_append, lineActions_known word hvalues]
  · exact ⟨.none, fun words => by rw [fields_nil]; rfl⟩

theorem IgnoredText.of_inert (hnl : newline ∉ text)
    (h : ∀ word ∈ fields isWhitespace text, Inert word) : IgnoredText text := by
  have hnone : lineActions (fields isWhitespace text) = .none := by
    have h := lineActions_inert h []
    rwa [append_nil, lineActions] at h
  refine ⟨?_, ?_⟩
  · intro _ stat before after hbefore hlength
    refine sameResult_of_actions stat (by simp; omega) hlength ?_
    rw [statWords_lineStart hbefore, statWords_lineStart hbefore, contentActions_append,
      contentActions_append]
    have hline : statWords (text ++ newline :: after) =
        fields isWhitespace text :: statWords after := by
      rw [statWords, lines_cons hnl]
      rfl
    rw [hline, contentActions_cons, hnone, Actions.none_andThen]
  · intro stat before known extra more after hbefore hline hknown hmore hafter hwords hlength
    refine sameResult_of_actions stat (by simp) hlength ?_
    have hmoreLine : newline ∉ more := fun hmem => hline (mem_append_right _ hmem)
    have hextraLine : newline ∉ known ++ extra := fun hmem => hline (mem_append_left _ hmem)
    have hextra : newline ∉ extra := fun hmem => hextraLine (mem_append_right _ hmem)
    obtain ⟨hfields, hne⟩ := hknown.fields_append hextra
    have hfields' : fields isWhitespace (known ++ extra ++ more) =
        fields isWhitespace known ++ fields isWhitespace text := by
      rw [fields_append_wordEnd hmoreLine hmore, hfields, append_assoc, hwords]
    have hne' : fields isWhitespace (known ++ extra ++ more) ≠ [] := by
      rw [fields_append_wordEnd hmoreLine hmore]
      exact append_ne_nil_of_left_ne_nil hne _
    have hextraInert : ∀ word ∈ fields isWhitespace extra, Inert word := by
      intro word hword
      exact h word (hwords ▸ mem_append_left _ hword)
    obtain ⟨as, has⟩ := hknown.actions
    rw [statWords_lineStart hbefore, statWords_lineStart hbefore, contentActions_append,
      contentActions_append, statWords_line hextraLine hne hafter,
      statWords_line hline hne' hafter, contentActions_cons, contentActions_cons,
      hfields, hfields', append_assoc, append_assoc, has, has]
    -- the words behind the known fields, old and new, do nothing
    rw [lineActions_inert hextraInert, lineActions_inert h]

/-! ## Words that are taken for a prefix -/

def Seen (as : Actions) : Prop :=
  as.failed = true ∨ (∃ cpuNum, .found cpuNum true ∈ as.actions) ∨
    .found statCpuAll false ∈ as.actions ∨
    ∃ i val, i < statNumericNumStats ∧ .value .numeric i val ∈ as.actions

theorem mem_andThen {bs : Actions} {action : Action} (hok : as.failed = false) :
    action ∈ (as.andThen bs).actions ↔ action ∈ as.actions ∨ action ∈ bs.actions := by
  rw [Actions.andThen, hok]
  exact mem_append

theorem Seen.andThen (h : Seen as) (bs : Actions) : Seen (as.andThen bs) := by
  by_cases hfailed : as.failed
  · rw [Actions.andThen_of_failed as bs hfailed]
    exact .inl hfailed
  have hmem {action : Action} (haction : action ∈ as.actions) :
      action ∈ (as.andThen bs).actions :=
    (mem_andThen (Bool.eq_false_iff.mpr hfailed)).mpr (.inl haction)
  rcases h with h | ⟨cpuNum, h⟩ | h | ⟨i, val, hi, h⟩
  · exact absurd h hfailed
  · exact .inr (.inl ⟨cpuNum, hmem h⟩)
  · exact .inr (.inr (.inl (hmem h)))
  · exact .inr (.inr (.inr ⟨i, val, hi, hmem h⟩))

theorem dstIndexList_numeric (hword : word ∈ statPrefixToDstIndexList.map Prod.fst)
    (hcpu : isCpuPrefix word = false) :
    ∃ i indexList, dstIndexList word = i :: indexList ∧ i < statNumericNumStats := by
  have hall : ∀ word ∈ statPrefixToDstIndexList.map Prod.fst, isCpuPrefix word = false →
      ∃ i ∈ (dstIndexList word).head?, i < statNumericNumStats := by decide
  obtain ⟨i, hi, hlt⟩ := hall word hword hcpu
  exact ⟨i, _, (eq_cons_of_mem_head? hi), hlt⟩

theorem prefixActions_seen (h : ¬ Inert word) (words : List Bytes) :
    Seen (prefixActions word (words.take (numFields word))) := by
  by_cases hcpu : isCpuPrefix word
  · rw [prefixActions, if_pos hcpu]
    by_cases hdigits : invalidDigit (word.drop statCpuPrefix.length) = none
    · rw [if_pos hdigits]
      apply Seen.andThen
      by_cases hlen : word.length = statCpuPrefix.length
      · refine .inr (.inr (.inl ?_))
        simp [Actions.one, cpuNum, hlen]
      · refine .inr (.inl ⟨cpuNum word, ?_⟩)
        simp [Actions.one, hlen]
    · rw [if_neg hdigits]
      exact .inl rfl
  · have hmem : word ∈ statPrefixToDstIndexList.map Prod.fst := by
      by_contra hmem
      rw [isCpuPrefix_iff, not_or] at hcpu
      exact h ⟨hcpu.1, hcpu.2, hmem⟩
    obtain ⟨i, indexList, hlist, hi⟩ := dstIndexList_numeric hmem (Bool.eq_false_iff.mpr hcpu)
    rw [prefixActions, if_neg hcpu, numFields, if_neg hcpu, hlist, length_cons]
    -- the first field is there and has a value, or there is an error
    cases words with
    | nil => exact .inl rfl
    | cons field words =>
      rw [take_succ_cons, fieldActions]
      by_cases hvalid : invalidDigit field = none
      · rw [if_pos hvalid, Actions.andThen_assoc]
        refine Seen.andThen (.inr (.inr (.inr ⟨i, fieldVal field, hi, ?_⟩))) _
        exact mem_singleton_self _
      · rw [if_neg hvalid]
        exact .inl rfl

theorem lineActions_seen {words : List Bytes} (h : ¬ ∀ word ∈ words, Inert word) :
    Seen (lineActions words) := by
  induction words with
  | nil => exact absurd (fun _ hmem => by cases hmem) h
  | cons word words ih =>
    by_cases hword : Inert word
    · have hrest : ¬ ∀ word ∈ words, Inert word := by
        intro hwords
        exact h (forall_mem_cons.mpr ⟨hword, hwords⟩)
      have hskip := lineActions_inert (forall_mem_singleton.mpr hword) words
      rw [singleton_append] at hskip
      rw [hskip]
      exact ih hrest
    · rw [lineActions]
      exact (prefixActions_seen hword words).andThen _

/-! ## What the actions leave -/

def isCounted : Action → Bool
  | .found _ counted => counted
  | .value _ _ _ => false

theorem apply_numCpus (scanNum : UInt64) (stat : Stat) (action : Action) :
    (apply scanNum stat action).numCpus = stat.numCpus + if isCounted action then 1 else 0 := by
  cases action with
  | found cpuNum counted => cases counted <;> rfl
  | value dst i val => cases dst <;> rfl

theorem run_numCpus (scanNum : UInt64) (as : Actions) (stat : Stat) :
    (as.run scanNum stat).numCpus = stat.numCpus + as.actions.countP isCounted := by
  rcases as with ⟨actions, failed⟩
  show (actions.foldl (apply scanNum) stat).numCpus = stat.numCpus + actions.countP isCounted
  induction actions generalizing stat with
  | nil => rfl
  | cons action actions ih =>
    rw [foldl_cons, ih, apply_numCpus, countP_cons]
    omega

def WasFound (scanNum : UInt64) (cpuNum : Int64) (stat : Stat) : Prop :=
  ∃ values, stat.cpu.lookup cpuNum = some values ∧ cpuScanNum values = scanNum

/-- No value is stored where the scan# is. -/
def ValueIndex (as : Actions) : Prop :=
  ∀ dst i val, .value dst i val ∈ as.actions → i < statCpuScanNumber

theorem ValueIndex.andThen {bs : Actions} (has : ValueIndex as) (hbs : ValueIndex bs) :
    ValueIndex (as.andThen bs) := by
  intro dst i val hmem
  by_cases hfailed : as.failed
  · rw [Actions.andThen_of_failed as bs hfailed] at hmem
    exact has dst i val hmem
  · rcases (mem_andThen (Bool.eq_false_iff.mpr hfailed)).mp hmem with hmem | hmem
    · exact has dst i val hmem
    · exact hbs dst i val hmem

theorem ValueIndex.of_nil (h : as.actions = []) : ValueIndex as := by
  intro dst i val hmem
  rw [h] at hmem
  cases hmem

theorem dstIndexList_lt (word : Bytes) : ∀ i ∈ dstIndexList word, i < statCpuScanNumber := by
  by_cases hmem : word ∈ statPrefixToDstIndexList.map Prod.fst
  · have hall : ∀ word ∈ statPrefixToDstIndexList.map Prod.fst,
        ∀ i ∈ dstIndexList word, i < statCpuScanNumber := by decide
    exact hall word hmem
  · rw [dstIndexList_eq_nil hmem]
    intro i hi
    cases hi

theorem fieldActions_valueIndex (dst : Dst) {indexList : List Nat}
    (hlist : ∀ i ∈ indexList, i < statCpuScanNumber) (words : List Bytes) :
    ValueIndex (fieldActions dst indexList words) := by
  induction indexList generalizing words with
  | nil => cases words <;> exact .of_nil rfl
  | cons i indexList ih =>
    rw [forall_mem_cons] at hlist
    cases words with
    | nil => exact .of_nil rfl
    | cons word words =>
      rw [fieldActions]
      by_cases hvalid : invalidDigit word = none
      · rw [if_pos hvalid]
        refine .andThen ?_ (ih hlist.2 words)
        intro dst' i' val hmem
        cases mem_singleton.mp hmem
        exact hlist.1
      · rw [if_neg hvalid]
        exact .of_nil rfl

theorem countActions_valueIndex (want got : Nat) : ValueIndex (countActions want got) := by
  rw [countActions]
  split <;> exact .of_nil rfl

theorem prefixActions_valueIndex (word : Bytes) (fields : List Bytes) :
    ValueIndex (prefixActions word fields) := by
  have hfields (dst : Dst) (word : Bytes) (want : Nat) :
      ValueIndex ((fieldActions dst (dstIndexList word) fields).andThen
        (countActions want fields.length)) :=
    .andThen (fieldActions_valueIndex dst (dstIndexList_lt word) fields)
      (countActions_valueIndex want fields.length)
  rw [prefixActions]
  split
  · split
    · refine .andThen ?_ (hfields _ _ _)
      intro dst i val hmem
      cases mem_singleton.mp hmem
    · exact .of_nil rfl
  · exact hfields _ _ _

theorem lineActions_valueIndex (words : List Bytes) : ValueIndex (lineActions words) := by
  induction words using lineActions.induct with
  | case1 => exact .of_nil (by rw [lineActions]; rfl)
  | case2 word words ih =>
    rw [lineActions]
    exact .andThen (prefixActions_valueIndex word _) ih

theorem cpuScanNum_set (values) (i : Nat) (val : UInt64) :
    cpuScanNum (Vector.setIfInBounds values i val) =
      if i = statCpuScanNumber then val else cpuScanNum values :=
  Vector.getElem_setIfInBounds _

theorem apply_found (scanNum : UInt64) (cpuNum : Int64) (counted : Bool) (stat : Stat) :
    WasFound scanNum cpuNum (apply scanNum stat (.found cpuNum counted)) :=
  ⟨_, Finmap.lookup_insert _, by rw [cpuScanNum_set, if_pos rfl]⟩

theorem apply_wasFound {scanNum : UInt64} {cpuNum : Int64} {action : Action}
    (hindex : ∀ dst i val, action = .value dst i val → i < statCpuScanNumber)
    (h : WasFound scanNum cpuNum stat) : WasFound scanNum cpuNum (apply scanNum stat action) := by
  obtain ⟨values, hlookup, hscan⟩ := h
  cases action with
  | found cpuNum' counted =>
    by_cases heq : cpuNum = cpuNum'
    · exact heq ▸ apply_found scanNum cpuNum counted stat
    · exact ⟨values, (Finmap.lookup_insert_of_ne _ heq).trans hlookup, hscan⟩
  | value dst i val =>
    cases dst with
    | numeric => exact ⟨values, hlookup, hscan⟩
    | cpu cpuNum' =>
      by_cases heq : cpuNum = cpuNum'
      · subst heq
        have hi := Nat.ne_of_lt (hindex _ _ _ rfl)
        refine ⟨_, Finmap.lookup_insert _, ?_⟩
        rw [hlookup, Option.getD_some, cpuScanNum_set, if_neg hi, hscan]
      · exact ⟨values, (Finmap.lookup_insert_of_ne _ heq).trans hlookup, hscan⟩

theorem run_wasFound (hindex : ValueIndex as) {cpuNum : Int64} {counted : Bool}
    (hmem : .found cpuNum counted ∈ as.actions) (scanNum : UInt64) (stat : Stat) :
    WasFound scanNum cpuNum (as.run scanNum stat) := by
  obtain ⟨before, after, hactions⟩ := append_of_mem hmem
  rw [Actions.run, hactions, foldl_append, foldl_cons]
  have hafter : ∀ action ∈ after, ∀ dst i val, action = .value dst i val → i < statCpuScanNumber := by
    intro action haction dst i val heq
    apply hindex dst i val
    rw [hactions, ← heq]
    simp [haction]
  -- it is found, and stays so
  have hfound := apply_found scanNum cpuNum counted (before.foldl (apply scanNum) stat)
  exact foldlRecOn after (apply scanNum) hfound
    (fun stat hstat action haction => apply_wasFound (hafter action haction) hstat)

theorem apply_numericFields {stat' : Stat} {i : Nat}
    (h : stat.numericFields[i]? = stat'.numericFields[i]?) (scanNum : UInt64) (action : Action) :
    (apply scanNum stat action).numericFields[i]? =
      (apply scanNum stat' action).numericFields[i]? := by
  cases action with
  | found cpuNum counted => exact h
  | value dst j val =>
    cases dst with
    | cpu cpuNum => exact h
    | numeric =>
      show (stat.numericFields.setIfInBounds j val)[i]? = (stat'.numericFields.setIfInBounds j val)[i]?
      rw [Vector.getElem?_setIfInBounds, Vector.getElem?_setIfInBounds, h]

theorem run_numericFields {i : Nat} {val : UInt64}
    (hmem : .value .numeric i val ∈ as.actions) (scanNum : UInt64) (stat stat' : Stat) :
    (as.run scanNum stat).numericFields[i]? = (as.run scanNum stat').numericFields[i]? := by
  obtain ⟨before, after, hactions⟩ := append_of_mem hmem
  rw [Actions.run, Actions.run, hactions, foldl_append, foldl_append, foldl_cons, foldl_cons]
  have hstored (stat : Stat) : (apply scanNum stat (.value .numeric i val)).numericFields[i]? =
      if i < statNumericNumStats then some val else none := by
    show (stat.numericFields.setIfInBounds i val)[i]? = _
    rw [Vector.getElem?_setIfInBounds, if_pos rfl]
  apply foldl_rel (r := fun stat stat' : Stat => stat.numericFields[i]? = stat'.numericFields[i]?)
  · rw [hstored, hstored]
  · exact fun action _ stat stat' hsame => apply_numericFields hsame scanNum action

/-! ## The ignored text -/

def cpuLine : Bytes := utf8 "cpu0 0 0 0 0 0 0 0 0 0 0"

def cpuLineActions : Actions :=
  ⟨.found 0 true :: (List.range statCpuNumStats).map (fun i => .value (.cpu 0) i 0), false⟩

theorem fields_cpuLine :
    fields isWhitespace cpuLine = utf8 "cpu0" :: replicate statCpuNumStats (utf8 "0") := by
  decide +kernel

theorem length_cpuLine (hlength : text.length + 25 < statMaxReadSize) :
    (cpuLine ++ 32 :: text).length < statMaxReadSize := by
  rw [length_append, length_cons, show cpuLine.length = 24 by decide]
  omega

section

variable (hnl : newline ∉ text)
include hnl

theorem cpuLine_line : newline ∉ cpuLine ++ 32 :: text := by
  rw [mem_append, mem_cons]
  rintro (h | h | h)
  · exact absurd h (by decide)
  · exact absurd h (by decide)
  · exact hnl h

theorem contentActions_cpuLine :
    contentActions (statWords (cpuLine ++ 32 :: text)) =
      cpuLineActions.andThen (lineActions (fields isWhitespace text)) := by
  have hfields : fields isWhitespace (cpuLine ++ 32 :: text) =
      utf8 "cpu0" :: (replicate statCpuNumStats (utf8 "0") ++ fields isWhitespace text) := by
    rw [fields_append_cons rfl, fields_cpuLine, cons_append]
  have hline := cpuLine_line hnl
  have hend : WordEnd [] := fun c hc => by cases hc
  have hwords := statWords_line hline (by rw [hfields]; simp) hend
  have hknown : prefixActions (utf8 "cpu0") (replicate statCpuNumStats (utf8 "0")) =
      cpuLineActions := by decide +kernel
  rw [append_nil] at hwords
  rw [hwords, hfields, firstLine_nil, fields_nil, append_nil, contentActions_cons,
    lineActions_known _ (by decide), hknown]
  exact Actions.andThen_none _

variable (hlength : text.length + 25 < statMaxReadSize)
include hlength

theorem sameResult_cpuLine (h : SameResult stat cpuLine (cpuLine ++ 32 :: text)) :
    let as := lineActions (fields isWhitespace text)
    let scanNum := stat.scanNum + 1
    let after := cpuLineActions.run scanNum { stat with numCpus := 0 }
    as.failed = false ∧
      (after.removeOutOfScope scanNum).cpu = ((as.run scanNum after).removeOutOfScope scanNum).cpu ∧
      after.numCpus = (as.run scanNum after).numCpus ∧
      after.numericFields = (as.run scanNum after).numericFields := by
  have hcpuLine : contentActions (statWords cpuLine) = cpuLineActions := by decide +kernel
  obtain ⟨hfailed, hresult⟩ := parse_actions stat (show cpuLine.length < _ by decide)
  obtain ⟨hfailed', hresult'⟩ := parse_actions stat (length_cpuLine hlength)
  rw [hcpuLine] at hfailed hresult
  rw [contentActions_cpuLine hnl, Actions.failed_andThen _ _ rfl] at hfailed' hresult'
  obtain ⟨hsame, hcpu, hnumCpus, hnumeric⟩ := h
  have hok : (lineActions (fields isWhitespace text)).failed = false := by
    rw [← hfailed', ← hsame, hfailed]
    rfl
  rw [if_neg (show ¬ cpuLineActions.failed = true by decide)] at hresult
  rw [hok, if_neg Bool.false_ne_true, Actions.run_andThen _ _ _ _ rfl] at hresult'
  rw [hresult, hresult'] at hcpu hnumCpus hnumeric
  rw [removeOutOfScope_numCpus, removeOutOfScope_numCpus] at hnumCpus
  rw [removeOutOfScope_numericFields, removeOutOfScope_numericFields] at hnumeric
  exact ⟨hok, hcpu, hnumCpus, hnumeric⟩

theorem not_seen_of_sameResult (h : ∀ stat, SameResult stat cpuLine (cpuLine ++ 32 :: text)) :
    ¬ Seen (lineActions (fields isWhitespace text)) := by
  obtain ⟨hok, hcpu, hnumCpus, hnumeric⟩ := sameResult_cpuLine hnl hlength (h newStat)
  rintro (hfailed | ⟨cpuNum, hmem⟩ | hmem | ⟨i, val, hi, hmem⟩)
  · rw [hok] at hfailed
    cases hfailed
  · -- one more CPU is counted
    have hcount : 0 < (lineActions (fields isWhitespace text)).actions.countP isCounted :=
      countP_pos_iff.mpr ⟨_, hmem, rfl⟩
    rw [run_numCpus _ (lineActions (fields isWhitespace text))] at hnumCpus
    omega
  · -- there are values for all the CPUs
    have hnone : ((cpuLineActions.run (newStat.scanNum + 1) { newStat with numCpus := 0 }).removeOutOfScope
        (newStat.scanNum + 1)).cpu.lookup statCpuAll = none := by decide +kernel
    obtain ⟨values, hlookup, hscan⟩ := run_wasFound (lineActions_valueIndex (fields isWhitespace text))
      hmem (newStat.scanNum + 1) (cpuLineActions.run (newStat.scanNum + 1) { newStat with numCpus := 0 })
    rw [hcpu, removeOutOfScope, lookup_filterMapEntries, hlookup] at hnone
    simp [hscan] at hnone
  · -- the value is one of two different ones
    let ones : Stat := { newStat with numericFields := .replicate _ 1 }
    obtain ⟨_, _, _, hnumeric'⟩ := sameResult_cpuLine hnl hlength (h ones)
    have hstored := run_numericFields hmem (newStat.scanNum + 1)
      (cpuLineActions.run (newStat.scanNum + 1) { newStat with numCpus := 0 })
      (cpuLineActions.run (newStat.scanNum + 1) { ones with numCpus := 0 })
    rw [← hnumeric, ← hnumeric'] at hstored
    have hvalues : (Vector.replicate statNumericNumStats (0 : UInt64))[i]? =
        (Vector.replicate statNumericNumStats (1 : UInt64))[i]? := hstored
    rw [Vector.getElem?_replicate, Vector.getElem?_replicate, if_pos hi, if_pos hi] at hvalues
    cases hvalues

end

theorem SameResult.length_lt {content content' : Bytes} (h : SameResult stat content content')
    (hnone : (stat.parse content).2 = none) : content'.length < statMaxReadSize := by
  by_contra hlength
  have hsame := h.1
  rw [hnone, parse_eq _ content', if_neg hlength] at hsame
  cases hsame

/-- A text changes nothing, where the content stays below the limit of the read, exactly if none of
its words can be taken for a prefix.  A content that is accepted has to stay below the limit. -/
theorem ignoredText_iff {text : Bytes} (hnl : newline ∉ text)
    (hlength : text.length + 25 < statMaxReadSize) :
    (IgnoredText text ↔ ∀ word ∈ fields isWhitespace text, Inert word) ∧
      ∀ (stat : Stat) (content content' : Bytes), (stat.parse content).2 = none →
        SameResult stat content content' → content'.length < statMaxReadSize := by
  refine ⟨⟨?_, .of_inert hnl⟩, fun stat content content' hnone hsame => hsame.length_lt hnone⟩
  · intro h
    by_contra hwords
    refine not_seen_of_sameResult hnl hlength (fun stat => ?_) (lineActions_seen hwords)
    have hline : newline ∉ cpuLine ++ [] ++ 32 :: text := by
      rw [append_nil]
      exact cpuLine_line hnl
    have hend : WordEnd [] := fun c hc => by cases hc
    have hmore : WordEnd (32 :: text) := fun c hc => .inl (by cases hc; rfl)
    have hknown : KnownFields cpuLine [] :=
      .inl ⟨hend, utf8 "cpu0", _, fields_cpuLine, by decide, by decide⟩
    have hfields : fields isWhitespace [] ++ fields isWhitespace (32 :: text) =
        fields isWhitespace text := by
      rw [fields_nil]
      exact fields_append_cons rfl [] text
    have h := h.words stat [] cpuLine [] (32 :: text) [] (.inl rfl) hline hknown hmore hend hfields
    simp only [nil_append, append_nil] at h
    exact h (length_cpuLine hlength)

theorem ignoredText_softirq :
    newline ∉ utf8 "softirq 1 2 ksoftirqd" ∧ IgnoredText (utf8 "softirq 1 2 ksoftirqd") ∧
      ¬ IgnoredText (utf8 "softirq 1 cp") := by
  refine ⟨by decide, (ignoredText_iff (by decide) (by decide)).1.mpr (by decide +kernel), fun h => ?_⟩
  exact absurd ((ignoredText_iff (by decide) (by decide)).1.mp h) (by decide +kernel)

/-- A prefix inside a line that is not known is read, and so is a part of the prefix of a CPU behind
the known fields. -/
theorem unknown_words_read :
    UnknownLine (utf8 "softirq ctxt 5") ∧
      (newStat.parse (utf8 "ctxt 1\n")).1.numericFields ≠
        (newStat.parse (utf8 "ctxt 1\nsoftirq ctxt 5\n")).1.numericFields ∧
      (newStat.parse (utf8 "ctxt 1\n")).2 = none ∧
      (newStat.parse (utf8 "ctxt 1 c\n")).2 =
        some (.invalidValueCount 2 (utf8 "c") statCpuMinNumFields 0) := by
  refine ⟨?_, by decide +kernel, by decide +kernel, by decide +kernel⟩
  rw [UnknownLine]
  decide +kernel

end Stat

end Lsvmi.Procfs
