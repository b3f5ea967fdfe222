import Lsvmi.Procfs.Stat

/-!
# What the words of a /proc/stat do

What `Parse` does to an object is a list of actions that depends on the words of the lines only,
cut short by the first error.  A word that is no known prefix, and cannot be taken for the one of a
CPU, does nothing where a prefix is expected.
-/

namespace Lsvmi.Procfs

open Reasoning List

variable {result : Stat × Except StatError Bytes}

namespace Stat

variable {words : List Bytes} {text buf word : Bytes}

inductive Action where
  /-- a CPU is found, which may be counted -/
  | found (cpuNum : Int64) (counted : Bool)
  | value (dst : Dst) (i : Nat) (val : UInt64)
  deriving DecidableEq, Repr

def apply (scanNum : UInt64) (stat : Stat) : Action → Stat
  | .found cpuNum counted =>
    { stat with numCpus := if counted then stat.numCpus + 1 else stat.numCpus }.foundCpu scanNum
      cpuNum
  | .value dst i val => stat.store dst i val

/-- Actions, and whether an error follows them. -/
structure Actions where
  actions : List Action
  failed : Bool
  deriving DecidableEq, Repr

variable (as bs : Actions) (stat : Stat)

namespace Actions

def none : Actions := ⟨[], false⟩

def fail : Actions := ⟨[], true⟩

def one (action : Action) : Actions := ⟨[action], false⟩

def andThen (as bs : Actions) : Actions :=
  if as.failed then as else ⟨as.actions ++ bs.actions, bs.failed⟩

@[simp] theorem none_andThen : none.andThen as = as := rfl

@[simp] theorem andThen_none : as.andThen none = as := by
  rcases as with ⟨actions, _ | _⟩
  · simp [andThen, none]
  · rfl

theorem andThen_assoc (cs : Actions) : (as.andThen bs).andThen cs = as.andThen (bs.andThen cs) := by
  rcases as with ⟨as, _ | _⟩
  · rcases bs with ⟨bs, _ | _⟩
    all_goals simp [andThen]
  · rfl

def run (scanNum : UInt64) (as : Actions) (stat : Stat) : Stat :=
  as.actions.foldl (apply scanNum) stat

theorem run_andThen (scanNum : UInt64) (as bs : Actions) (stat : Stat) (h : as.failed = false) :
    (as.andThen bs).run scanNum stat = bs.run scanNum (as.run scanNum stat) := by
  rw [andThen, h]
  exact foldl_append

theorem andThen_of_failed (h : as.failed) : as.andThen bs = as :=
  if_pos h

theorem failed_andThen (h : as.failed = false) : (as.andThen bs).failed = bs.failed := by
  rw [andThen, h]
  rfl

end Actions

def fieldActions (dst : Dst) : List Nat → List Bytes → Actions
  | i :: indexList, word :: words =>
    if invalidDigit word = none then
      (Actions.one (.value dst i (fieldVal word))).andThen (fieldActions dst indexList words)
    else .fail
  | _, _ => .none

def numFields (word : Bytes) : Nat :=
  if isCpuPrefix word then statCpuNumStats else (dstIndexList word).length

/-- The error for a line that has fewer fields than it must have. -/
def countActions (want got : Nat) : Actions := if got < want then .fail else .none

def prefixActions (word : Bytes) (fields : List Bytes) : Actions :=
  if isCpuPrefix word then
    if invalidDigit (word.drop statCpuPrefix.length) = none then
      (Actions.one (.found (cpuNum word) (decide (word.length ≠ statCpuPrefix.length)))).andThen
        ((fieldActions (.cpu (cpuNum word)) (dstIndexList statCpuPrefix) fields).andThen
          (countActions statCpuMinNumFields fields.length))
    else .fail
  else
    (fieldActions .numeric (dstIndexList word) fields).andThen
      (countActions (dstIndexList word).length fields.length)

/-- A line is read as one prefix after the other. -/
def lineActions : List Bytes → Actions
  | [] => .none
  | word :: words =>
    (prefixActions word (words.take (numFields word))).andThen
      (lineActions (words.drop (numFields word)))
termination_by words => words.length
decreasing_by
  rw [length_drop, length_cons]
  omega

def contentActions (content : List (List Bytes)) : Actions :=
  content.foldr (fun words as => (lineActions words).andThen as) .none

theorem contentActions_cons (words : List Bytes) (content : List (List Bytes)) :
    contentActions (words :: content) = (lineActions words).andThen (contentActions content) := rfl

def statWords (buf : Bytes) : List (List Bytes) := (lines newline buf).map (fields isWhitespace)

/-- What is left of a line that has these words, and of the text behind it. -/
def LineRest (words : List Bytes) (text rest : Bytes) : Prop :=
  (words = [] ∧ rest = text) ∨
    (fields isWhitespace (firstLine newline rest) = words ∧ afterLine newline rest = text)

theorem nextField_length_le (buf : Bytes) : (nextField buf).2.2.length ≤ buf.length := by
  by_cases hne : buf = []
  · subst hne
    exact Nat.le_refl _
  · exact Nat.le_of_lt (nextWord_length hne)

theorem parseFields_actions (dst : Dst) (scanNum : UInt64) (indexList : List Nat) (fieldIndex : Nat)
    (stat : Stat) (buf : Bytes) (hwords : fields isWhitespace (firstLine newline buf) = words) :
    ((fieldActions dst indexList words).failed ∧ ∃ e,
      parseFields dst indexList fieldIndex stat buf =
        ((fieldActions dst indexList words).run scanNum stat, .error e)) ∨
    ((fieldActions dst indexList words).failed = false ∧ ∃ rest,
      parseFields dst indexList fieldIndex stat buf =
        ((fieldActions dst indexList words).run scanNum stat,
          .ok (fieldIndex + min indexList.length words.length, rest)) ∧
      LineRest (words.drop indexList.length) (afterLine newline buf) rest ∧
      rest.length ≤ buf.length) := by
  induction indexList generalizing fieldIndex stat buf words with
  | nil =>
    refine .inr ⟨by cases words <;> rfl, buf, ?_, .inr ⟨hwords, rfl⟩, Nat.le_refl _⟩
    cases words <;> simp [parseFields, fieldActions, Actions.none, Actions.run]
  | cons i indexList ih =>
    have hle := nextField_length_le buf
    rcases hnext : nextField buf with ⟨word, sep, rest⟩
    simp only [hnext] at hle
    rcases nextWord_line isWhitespace_newline hnext with ⟨rfl, hfields, hrest, -⟩ |
      ⟨hword, words', hfields, hline⟩
    · rw [hwords] at hfields
      subst hfields
      refine .inr ⟨rfl, rest, ?_, .inl ⟨rfl, hrest⟩, hle⟩
      simp [parseFields, hnext, invalidDigit, fieldActions, Actions.none, Actions.run]
    rw [hwords] at hfields
    by_cases hvalid : invalidDigit word = none
    · rcases hline with ⟨rfl, rfl, hafter⟩ | ⟨hsep, rfl, hafter⟩
      · subst hfields
        refine .inr ⟨?_, rest, ?_, .inl ⟨by simp, hafter⟩, hle⟩
        · cases indexList <;> simp [fieldActions, hvalid] <;> rfl
        · cases indexList <;>
            simp [parseFields, hnext, hword, hvalid, fieldActions, Actions.one, Actions.run, apply]
      · subst hfields
        have hactions : fieldActions dst (i :: indexList)
            (word :: fields isWhitespace (firstLine newline rest)) =
            (Actions.one (.value dst i (fieldVal word))).andThen
              (fieldActions dst indexList (fields isWhitespace (firstLine newline rest))) := by
          simp [fieldActions, hvalid]
        have hturn : parseFields dst (i :: indexList) fieldIndex stat buf =
            parseFields dst indexList (fieldIndex + 1) (stat.store dst i (fieldVal word)) rest := by
          simp [parseFields, hnext, hword, hvalid, hsep]
        rw [hactions, hturn, Actions.run_andThen _ _ _ _ rfl]
        rcases ih (fieldIndex + 1) (stat.store dst i (fieldVal word)) rest rfl with
          ⟨hfailed, e, heq⟩ | ⟨hok, rest', heq, hrest', hlen⟩
        · exact .inl ⟨hfailed, e, heq⟩
        rw [hafter] at hrest'
        refine .inr ⟨hok, rest', ?_, hrest', by omega⟩
        have hcount : fieldIndex + 1 + min indexList.length
            (fields isWhitespace (firstLine newline rest)).length =
            fieldIndex + min (i :: indexList).length
              (word :: fields isWhitespace (firstLine newline rest)).length := by
          rw [length_cons, length_cons]
          omega
        rw [heq, hcount]
        rfl
    · refine .inl ?_
      obtain ⟨c, hc⟩ := Option.ne_none_iff_exists'.mp hvalid
      rw [hfields]
      refine ⟨by simp [fieldActions, hvalid, Actions.fail],
        (c, getCurrentLine ((buf.dropWhile isWhitespace).dropWhile isDigit)), ?_⟩
      simp [parseFields, hnext, hc, fieldActions, Actions.fail, Actions.run]

theorem fieldActions_take (dst : Dst) (indexList : List Nat) (words : List Bytes) :
    fieldActions dst indexList (words.take indexList.length) = fieldActions dst indexList words := by
  induction indexList generalizing words with
  | nil => cases words <;> rfl
  | cons i indexList ih =>
    cases words with
    | nil => rfl
    | cons word words =>
      rw [length_cons, take_succ_cons, fieldActions, fieldActions, ih]

theorem countActions_eq (want got : Nat) :
    as.andThen (countActions want got) = ⟨as.actions, as.failed || decide (got < want)⟩ := by
  rcases as with ⟨actions, _ | _⟩
  · by_cases hgot : got < want
    · simp [countActions, Actions.andThen, Actions.fail, hgot]
    · simp [countActions, Actions.andThen, Actions.none, hgot]
  · rfl

/-- A part of the loop that does what the actions do, and leaves the rest of a line. -/
def Does (as : Actions) (scanNum : UInt64) (stat : Stat) (words : List Bytes) (text : Bytes)
    (length : Nat) (result : Stat × Except StatError Bytes) : Prop :=
  (as.failed = true ∧ ∃ e, result = (as.run scanNum stat, .error e)) ∨
    (as.failed = false ∧ ∃ rest, result = (as.run scanNum stat, .ok rest) ∧
      LineRest words text rest ∧ rest.length ≤ length)

theorem Does.mono {as : Actions} {scanNum : UInt64} {stat : Stat} {length length' : Nat}
    (h : Does as scanNum stat words text length result) (hle : length ≤ length') :
    Does as scanNum stat words text length' result := by
  rcases h with h | ⟨hok, rest, heq, hrest, hlength⟩
  · exact .inl h
  · exact .inr ⟨hok, rest, heq, hrest, Nat.le_trans hlength hle⟩

theorem Does.one {as : Actions} {scanNum : UInt64} {stat : Stat} {length : Nat} (action : Action)
    (h : Does as scanNum (apply scanNum stat action) words text length result) :
    Does ((Actions.one action).andThen as) scanNum stat words text length result := by
  rcases h with h | h
  · exact .inl h
  · exact .inr h

theorem parseValues_does (scanNum : UInt64) (lineNum : Nat) (line : Bytes) (dst : Dst)
    (indexList : List Nat) (minNumValues : Nat) {rest : Bytes} {sep : Option UInt8}
    (hnext : nextField buf = (word, sep, rest)) (hword : word ≠ [])
    (hwords : fields isWhitespace (firstLine newline buf) = word :: words) :
    Does ((fieldActions dst indexList (words.take indexList.length)).andThen
        (countActions minNumValues (words.take indexList.length).length))
      scanNum stat (words.drop indexList.length) (afterLine newline buf) rest.length
      (stat.parseValues lineNum line dst indexList minNumValues sep rest) := by
  obtain ⟨rfl, -⟩ | ⟨-, words', hfields, hline⟩ := nextWord_line isWhitespace_newline hnext
  · exact absurd rfl hword
  obtain rfl : words = words' := (cons.inj (hwords.symm.trans hfields)).2
  rw [fieldActions_take, countActions_eq, length_take]
  rcases hline with ⟨hsep, rfl, hafter⟩ | ⟨hsep, hrest, hafter⟩
  · have hnone : fieldActions dst indexList [] = .none := by cases indexList <;> rfl
    by_cases hcount : 0 < minNumValues
    · refine .inl ⟨by simp [hcount], .invalidValueCount lineNum line minNumValues 0, ?_⟩
      simp only [parseValues, if_pos hsep, if_pos hcount, hnone]
      rfl
    · refine .inr ⟨by simp [hcount, hnone, Actions.none], rest, ?_, .inl ⟨by simp, hafter⟩,
        Nat.le_refl _⟩
      simp only [parseValues, if_pos hsep, if_neg hcount, hnone]
      rfl
  · rcases parseFields_actions dst scanNum indexList 0 stat rest hrest.symm with
      ⟨hfailed, e, heq⟩ | ⟨hok, rest', heq, hrest', hle⟩
    · refine .inl ⟨by simp [hfailed], .invalidDigit lineNum e.2 e.1, ?_⟩
      simp only [parseValues, if_neg hsep, heq]
      rfl
    rw [hafter] at hrest'
    rw [Nat.zero_add] at heq
    by_cases hcount : min indexList.length words.length < minNumValues
    · refine .inl ⟨by simp [hcount], .invalidValueCount lineNum line minNumValues
        (min indexList.length words.length), ?_⟩
      simp only [parseValues, if_neg hsep, heq, if_pos hcount]
      rfl
    · refine .inr ⟨by simp [hcount, hok], rest', ?_, hrest', hle⟩
      simp only [parseValues, if_neg hsep, heq, if_neg hcount]
      rfl

theorem nextField_of_fields (hwords : fields isWhitespace (firstLine newline buf) = word :: words) :
    ∃ sep rest, nextField buf = (word, sep, rest) ∧ word ≠ [] ∧ rest.length < buf.length := by
  have hbuf : buf ≠ [] := by
    intro h
    rw [h] at hwords
    cases hwords
  have hlt : (nextField buf).2.2.length < buf.length := nextWord_length hbuf
  rcases hnext : nextField buf with ⟨word', sep, rest⟩
  rw [hnext] at hlt
  rcases nextWord_line isWhitespace_newline hnext with ⟨-, hfields, -⟩ | ⟨hword, words', hfields, -⟩
  · cases hwords.symm.trans hfields
  · obtain rfl : word = word' := (cons.inj (hwords.symm.trans hfields)).1
    exact ⟨sep, rest, rfl, hword, hlt⟩

theorem numFields_cpu (hcpu : isCpuPrefix word) :
    numFields word = (dstIndexList statCpuPrefix).length := by
  rw [numFields, if_pos hcpu]
  decide

theorem parseLine_does (scanNum : UInt64) (lineNum : Nat)
    (hwords : fields isWhitespace (firstLine newline buf) = word :: words) :
    Does (prefixActions word (words.take (numFields word))) scanNum stat
      (words.drop (numFields word)) (afterLine newline buf) (buf.length - 1)
      (stat.parseLine scanNum lineNum buf) := by
  obtain ⟨sep, rest, hnext, hword, hlt⟩ := nextField_of_fields hwords
  have hlength := Nat.le_sub_one_of_lt hlt
  by_cases hcpu : isCpuPrefix word
  · by_cases hdigits : invalidDigit (word.drop statCpuPrefix.length) = none
    · let found := Action.found (cpuNum word) (decide (word.length ≠ statCpuPrefix.length))
      have hfound : apply scanNum stat found =
          (if word.length = statCpuPrefix.length then stat
            else { stat with numCpus := stat.numCpus + 1 }).foundCpu scanNum (cpuNum word) := by
        by_cases hlen : word.length = statCpuPrefix.length <;> simp [found, apply, hlen]
      have h := parseValues_does (apply scanNum stat found) scanNum lineNum (getCurrentLine buf)
        (.cpu (cpuNum word)) (dstIndexList statCpuPrefix) statCpuMinNumFields hnext hword hwords
      simp only [parseLine, hnext, hcpu, if_true, hdigits, if_neg hword, prefixActions,
        numFields_cpu hcpu, ← hfound]
      exact (h.one found).mono hlength
    · obtain ⟨c, hc⟩ := Option.ne_none_iff_exists'.mp hdigits
      refine .inl ⟨by simp [prefixActions, hcpu, hc, Actions.fail],
        .invalidCpuNum lineNum (getCurrentLine buf) c, ?_⟩
      simp only [parseLine, hnext, hcpu, if_true, hc, prefixActions, reduceCtorEq, if_false]
      rfl
  · have h := parseValues_does stat scanNum lineNum (getCurrentLine buf) .numeric
      (dstIndexList word) (dstIndexList word).length hnext hword hwords
    have hnum : numFields word = (dstIndexList word).length := if_neg hcpu
    simp only [parseLine, hnext, if_neg hcpu, if_neg hword, prefixActions, hnum]
    exact h.mono hlength

theorem parseLine_blank (scanNum : UInt64) (lineNum : Nat)
    (hwords : fields isWhitespace (firstLine newline buf) = []) :
    stat.parseLine scanNum lineNum buf = (stat, .ok (afterLine newline buf)) := by
  obtain ⟨hword, hrest⟩ := nextField_of_blank hwords
  rcases hnext : nextField buf with ⟨word, sep, rest⟩
  rw [hnext] at hword hrest
  subst hword hrest
  simp [parseLine, hnext, isCpuPrefix, invalidDigit]

theorem statWords_of_ne_nil (hne : buf ≠ []) :
    statWords buf =
      fields isWhitespace (firstLine newline buf) :: statWords (afterLine newline buf) := by
  rw [statWords, lines_of_ne_nil hne, map_cons, statWords]

theorem parseLines_nil (scanNum : UInt64) (fuel lineNum : Nat) (stat : Stat) :
    parseLines scanNum fuel lineNum stat [] = (stat, none) := by
  cases fuel <;> rfl

theorem LineRest.of_nil (h : LineRest words text []) : words = [] ∧ text = [] := by
  rcases h with ⟨hwords, htext⟩ | ⟨hwords, htext⟩
  · exact ⟨hwords, htext.symm⟩
  · exact ⟨hwords.symm, htext.symm⟩

theorem LineRest.actions (h : LineRest words text buf) (hne : buf ≠ []) :
    (lineActions words).andThen (contentActions (statWords text)) =
      (lineActions (fields isWhitespace (firstLine newline buf))).andThen
        (contentActions (statWords (afterLine newline buf))) := by
  rcases h with ⟨rfl, rfl⟩ | ⟨rfl, rfl⟩
  · rw [lineActions, statWords_of_ne_nil hne, contentActions_cons, Actions.none_andThen]
  · rfl

theorem parseLines_actions (scanNum : UInt64) (fuel lineNum : Nat) (stat : Stat)
    (hrest : LineRest words text buf) (hfuel : buf.length ≤ fuel) :
    let as := (lineActions words).andThen (contentActions (statWords text))
    (parseLines scanNum fuel lineNum stat buf).1 = as.run scanNum stat ∧
      (parseLines scanNum fuel lineNum stat buf).2.isSome = as.failed := by
  induction fuel generalizing lineNum stat words text buf with
  | zero =>
    obtain rfl := length_eq_zero_iff.mp (Nat.le_zero.mp hfuel)
    obtain ⟨rfl, rfl⟩ := hrest.of_nil
    rw [parseLines_nil, lineActions]
    exact ⟨rfl, rfl⟩
  | succ fuel ih =>
    by_cases hne : buf = []
    · subst hne
      obtain ⟨rfl, rfl⟩ := hrest.of_nil
      rw [parseLines_nil, lineActions]
      exact ⟨rfl, rfl⟩
    simp only [hrest.actions hne, parseLines.eq_3 scanNum lineNum stat buf fuel hne]
    cases hwords : fields isWhitespace (firstLine newline buf) with
    | nil =>
      have hlt : (afterLine newline buf).length < buf.length := length_afterLine_lt hne
      simp only [parseLine_blank stat scanNum lineNum hwords]
      exact ih (lineNum + 1) stat (.inl ⟨rfl, rfl⟩) (by omega)
    | cons word words =>
      rw [lineActions, Actions.andThen_assoc]
      rcases parseLine_does stat scanNum lineNum hwords with
        ⟨hfailed, e, heq⟩ | ⟨hok, rest, heq, hrest', hlt⟩
      · rw [heq, Actions.andThen_of_failed _ _ hfailed]
        exact ⟨rfl, hfailed.symm⟩
      · simp only [heq, Actions.run_andThen _ _ _ _ hok, Actions.failed_andThen _ _ hok]
        exact ih (lineNum + 1) _ hrest' (by omega)

end Stat

end Lsvmi.Procfs
