import Lsvmi.Procfs.NetSnmp
import Lsvmi.Reasoning.Replay

/-!
# The contents of /proc/net/snmp

What a content says is read off its lines: the names are the fields of the first line of a pair, the
values the words of the second one.  The object makes no difference to it, because the line info
that is kept for a line is the one that would be built for the line.
-/

namespace Lsvmi.Procfs

open Reasoning List

variable {lineInfo : NetSnmpLineInfo} {netSnmp : NetSnmp} {buf : Bytes}
  {values values' : List UInt32}

/-- The loop over the pairs of lines, with the line info built for every header line. -/
def readPairs : Nat → Nat → List UInt32 → Bytes → List UInt32 × Option NetSnmpError
  | _, _, values, [] => (values, none)
  | 0, _, values, _ => (values, none)
  | fuel + 1, infoIndex, values, buf =>
    let line := firstLine newline buf
    match buildSnmpLineInfo line with
    | none => (values, some (.invalidLine (2 * infoIndex) line))
    | some lineInfo =>
      match afterLine newline buf with
      | [] => (values, none)
      | buf =>
        match snmpData (2 * infoIndex + 2) (getCurrentLine buf) lineInfo values buf with
        | (values, .error e) => (values, some e)
        | (values, .ok buf) => readPairs fuel (infoIndex + 1) values buf

namespace NetSnmp

def LineInfoOk (netSnmp : NetSnmp) : Prop :=
  ∀ lineInfo ∈ netSnmp.lineInfo, buildSnmpLineInfo lineInfo.line = some lineInfo

theorem lineInfoOk_new : newNetSnmp.LineInfoOk := nofun

theorem LineInfoOk.clone (h : netSnmp.LineInfoOk) (full : Bool) :
    (netSnmp.clone full).LineInfoOk := h

theorem LineInfoOk.updateInfo (netSnmp : NetSnmp) {other : NetSnmp} (h : other.LineInfoOk) :
    (netSnmp.updateInfo other).LineInfoOk := h

end NetSnmp

theorem buildSnmpLineInfo_line {line : Bytes}
    (h : buildSnmpLineInfo line = some lineInfo) : lineInfo.line = line := by
  simp only [buildSnmpLineInfo] at h
  split at h
  · cases h
  · cases h
    rfl

namespace NetSnmp

theorem parseHeader_spec (h : netSnmp.LineInfoOk) (infoIndex : Nat) (line : Bytes) :
    (netSnmp.parseHeader infoIndex line).1.LineInfoOk ∧
      (netSnmp.parseHeader infoIndex line).1.values = netSnmp.values ∧
      (netSnmp.parseHeader infoIndex line).2 =
        match buildSnmpLineInfo line with
        | none => .error (.invalidLine (2 * infoIndex) line)
        | some lineInfo => .ok lineInfo := by
  -- the info that is built is put behind the one that is kept
  have hbuilt {netSnmp : NetSnmp} (hok : netSnmp.LineInfoOk) {lineInfo : NetSnmpLineInfo}
      (hbuild : buildSnmpLineInfo line = some lineInfo) :
      ({ netSnmp with lineInfo := netSnmp.lineInfo ++ [lineInfo] } : NetSnmp).LineInfoOk := by
    intro info hinfo
    rcases mem_append.mp hinfo with hinfo | hinfo
    · exact hok info hinfo
    · rw [mem_singleton.mp hinfo, buildSnmpLineInfo_line hbuild, hbuild]
  cases hknown : netSnmp.lineInfo[infoIndex]? with
  | none =>
    cases hbuild : buildSnmpLineInfo line with
    | none =>
      simp only [parseHeader, hknown, hbuild]
      exact ⟨h, trivial, rfl⟩
    | some lineInfo =>
      simp only [parseHeader, hknown, hbuild]
      exact ⟨hbuilt h hbuild, trivial, trivial⟩
  | some known =>
    have hknownOk := h known (mem_of_getElem? hknown)
    by_cases hsame : known.line = line ∧ line ≠ []
    · rw [hsame.1] at hknownOk
      simp only [parseHeader, hknown, if_pos hsame, hknownOk]
      exact ⟨h, trivial, trivial⟩
    have htake : ({ netSnmp with
        infoChanged := some ⟨2 * infoIndex + 1, line, known.line⟩
        lineInfo := netSnmp.lineInfo.take infoIndex } : NetSnmp).LineInfoOk :=
      fun info hinfo => h info (mem_of_mem_take hinfo)
    cases hbuild : buildSnmpLineInfo line with
    | none =>
      simp only [parseHeader, hknown, if_neg hsame, hbuild]
      exact ⟨htake, trivial, rfl⟩
    | some lineInfo =>
      simp only [parseHeader, hknown, if_neg hsame, hbuild]
      exact ⟨hbuilt htake hbuild, trivial, trivial⟩

theorem parsePairs_eq (netSnmp : NetSnmp) (h : netSnmp.LineInfoOk) (fuel infoIndex : Nat)
    (buf : Bytes) :
    (parsePairs fuel infoIndex netSnmp buf).1.LineInfoOk ∧
      ((parsePairs fuel infoIndex netSnmp buf).1.values,
          (parsePairs fuel infoIndex netSnmp buf).2) =
        readPairs fuel infoIndex netSnmp.values buf := by
  induction fuel generalizing netSnmp infoIndex buf with
  | zero => cases buf <;> exact ⟨h, rfl⟩
  | succ fuel ih =>
    cases buf with
    | nil => exact ⟨h, rfl⟩
    | cons b buf =>
      obtain ⟨hok, hvalues, hheader⟩ := parseHeader_spec h infoIndex (firstLine newline (b :: buf))
      rcases hparse : netSnmp.parseHeader infoIndex (firstLine newline (b :: buf)) with
        ⟨netSnmp', r⟩
      rw [hparse] at hok hvalues hheader
      simp only at hok hvalues hheader
      cases hbuild : buildSnmpLineInfo (firstLine newline (b :: buf)) with
      | none =>
        rw [hbuild] at hheader
        simp only at hheader
        subst hheader
        simp only [parsePairs, hparse, readPairs, hbuild, hvalues]
        exact ⟨hok, trivial⟩
      | some lineInfo =>
        rw [hbuild] at hheader
        simp only at hheader
        subst hheader
        simp only [parsePairs, hparse, readPairs, hbuild]
        cases hafter : afterLine newline (b :: buf) with
        | nil => exact ⟨hok, by rw [hvalues]⟩
        | cons c rest =>
          rw [hvalues]
          rcases hdata : snmpData (2 * infoIndex + 2) (getCurrentLine (c :: rest)) lineInfo
            netSnmp.values (c :: rest) with ⟨values, e | rest'⟩
          · simp only [hdata]
            exact ⟨hok, trivial⟩
          · simp only [hdata]
            exact ih { netSnmp' with values } hok (infoIndex + 1) rest'

end NetSnmp

/-- The words of a line that are values: a sign without digits is none. -/
def valueWords (line : Bytes) : List Bytes := (fields isWhitespace line).filter (· ≠ [45])

def wordValue (word : Bytes) : UInt32 :=
  if word.head? = some 45 then -UInt32.ofNat (decimal word.tail) else UInt32.ofNat (decimal word)

def storeIndex (values : List UInt32) (e : Option Nat × UInt32) : List UInt32 :=
  storeAt id values e

theorem neg_eq_xor_add_one (value : UInt32) : (value ^^^ 0xFFFFFFFF) + 1 = -value := by
  rw [UInt32.neg_eq_not_add, ← UInt32.xor_neg_one]
  rfl

theorem storeSnmpValue_eq {index : Option Nat} {word : Bytes}
    (h : storeSnmpValue values index (word.head? = some 45)
      (snmpDigits (if word.head? = some 45 then word.tail else word)) = some values') :
    values' = storeIndex values (index, wordValue word) := by
  cases index with
  | none =>
    cases h
    rfl
  | some index =>
    simp only [storeSnmpValue, snmpDigits, foldl_digits32] at h
    by_cases hneg : word.head? = some 45
    · simp only [hneg, decide_true, if_true] at h
      split at h
      · cases h
        simp [storeIndex, storeAt, wordValue, hneg, neg_eq_xor_add_one]
      · cases h
    · simp only [hneg, decide_false, if_false, Bool.false_eq_true] at h
      cases h
      simp [storeIndex, storeAt, wordValue, hneg]

section

variable {lineNum : Nat} {line : Bytes} {lineInfo : NetSnmpLineInfo}

theorem digits_eq_nil_iff {word : Bytes} :
    (if word.head? = some 45 then word.tail else word) = [] ↔ word = [] ∨ word = [45] := by
  cases word with
  | nil => simp
  | cons c word =>
    by_cases hc : c = 45
    · subst hc
      simp
    · simp [hc]

theorem valueWords_next {word rest : Bytes} {sep : Option UInt8}
    (hnext : nextField buf = (word, sep, rest)) :
    valueWords (firstLine newline buf) = (if word = [] ∨ word = [45] then [] else [word]) ++
        (if sep = some newline then [] else valueWords (firstLine newline rest)) ∧
      (if sep = some newline then rest else afterLine newline rest) = afterLine newline buf := by
  rcases nextWord_line isWhitespace_newline hnext with ⟨rfl, hwords, rfl, hsep | hsep⟩ |
    ⟨hword, words, hwords, ⟨rfl, rfl, rfl⟩ | ⟨hsep, rfl, hafter⟩⟩
  · simp [valueWords, hwords, hsep]
  · simp [valueWords, hwords, hsep, firstLine_of_notMem, afterLine_of_notMem, fields_nil]
  · by_cases hsign : word = [45] <;> simp [valueWords, hwords, hword, hsign]
  · by_cases hsign : word = [45] <;> simp [valueWords, hwords, hword, hsep, hsign, hafter]

theorem snmpValues_spec {fuel : Nat} {values values' : List UInt32} {i : Nat}
    {r : ValuesEnd} (hfuel : buf.length ≤ fuel)
    (h : snmpValues lineNum line lineInfo fuel values i buf = (values', .ok r)) :
    ∃ words, values' = ((lineInfo.indexMap.drop i).zip (words.map wordValue)).foldl storeIndex values ∧
      valueWords (firstLine newline buf) =
        words ++ (if r.eol then [] else valueWords (firstLine newline r.buf)) ∧
      (if r.eol then r.buf else afterLine newline r.buf) = afterLine newline buf := by
  induction fuel generalizing values i buf with
  | zero =>
    cases h
    exact ⟨[], by simp, by simp, by simp⟩
  | succ fuel ih =>
    rw [snmpValues] at h
    by_cases hdone : buf = [] ∨ lineInfo.indexMap.length ≤ i
    · rw [if_pos hdone] at h
      cases h
      exact ⟨[], by simp, by simp, by simp⟩
    rw [if_neg hdone] at h
    rw [not_or, Nat.not_le] at hdone
    have hlength : (nextField buf).2.2.length < buf.length := nextWord_length hdone.1
    rcases hfield : nextField buf with ⟨word, sep, rest⟩
    simp only [hfield] at h hlength
    obtain ⟨hnext, hafter⟩ := valueWords_next hfield
    cases hinvalid : invalidDigit (if word.head? = some 45 then word.tail else word) with
    | some c =>
      simp only [hinvalid] at h
      cases h
    | none =>
      simp only [hinvalid] at h
      by_cases hdigits : (if word.head? = some 45 then word.tail else word) = []
      · rw [if_pos hdigits] at h
        rw [if_pos (digits_eq_nil_iff.mp hdigits), nil_append] at hnext
        by_cases heol : sep = some newline
        · rw [if_pos heol] at h hnext hafter
          cases h
          exact ⟨[], by simp, by simpa using hnext, hafter⟩
        · rw [if_neg heol] at h hnext hafter
          obtain ⟨words, hvalues, hwords, hrest⟩ := ih (by omega) h
          exact ⟨words, hvalues, hnext.trans hwords, hrest.trans hafter⟩
      · rw [if_neg hdigits] at h
        rw [if_neg (mt digits_eq_nil_iff.mpr hdigits)] at hnext
        have hdrop : lineInfo.indexMap.drop i =
            lineInfo.indexMap.getD i none :: lineInfo.indexMap.drop (i + 1) := by
          rw [drop_eq_getElem_cons hdone.2, getD_eq_getElem?_getD, getElem?_eq_getElem hdone.2]
          rfl
        rw [hdrop]
        split at h
        · cases h
        rename_i values₁ hstore
        have hvalues₁ := storeSnmpValue_eq hstore
        by_cases heol : sep = some newline
        · rw [if_pos heol] at h hnext hafter
          cases h
          exact ⟨[word], by simp [hvalues₁], by simpa using hnext, hafter⟩
        rw [if_neg heol] at h hnext hafter
        obtain ⟨words, hvalues, hwords, hrest⟩ := ih (by omega) h
        refine ⟨word :: words, ?_, ?_, hrest.trans hafter⟩
        · rw [hvalues, hvalues₁]
          rfl
        · rw [hnext, hwords]
          rfl

end

def pairValues (header data : Bytes) : List ((Bytes × Bytes) × UInt32) :=
  let (prefixLen, names) := headerParts header
  (names.map fun name => (headerProto header, name)).zip
    ((valueWords (data.drop prefixLen)).map wordValue)

def linesValues : List Bytes → List ((Bytes × Bytes) × UInt32)
  | header :: data :: lines => pairValues header data ++ linesValues lines
  | _ => []

def contentValues (buf : Bytes) : List ((Bytes × Bytes) × UInt32) :=
  linesValues (lines newline buf)

def variableIndex (v : Bytes × Bytes) : Option Nat := netSnmpIndexMap v.1 v.2

theorem variableIndex_lt {v : Bytes × Bytes} {i : Nat} (h : variableIndex v = some i) :
    i < netSnmpNumValues := by
  obtain ⟨hlt, -⟩ := idxOf?_eq_some_iff.mp h
  exact hlt

theorem variableIndex_inj (v v' : Bytes × Bytes) (i : Nat) (h : variableIndex v = some i)
    (h' : variableIndex v' = some i) : v = v' := by
  obtain ⟨_, hv, -⟩ := idxOf?_eq_some_iff.mp h
  obtain ⟨_, hv', -⟩ := idxOf?_eq_some_iff.mp h'
  exact hv.symm.trans hv'

theorem buildSnmpLineInfo_eq_some {header : Bytes} (h : buildSnmpLineInfo header = some lineInfo) :
    lineInfo = ⟨header, (headerParts header).1,
      (headerParts header).2.map (netSnmpIndexMap (headerProto header))⟩ ∧
      (headerParts header).1 < header.length := by
  simp only [buildSnmpLineInfo] at h
  by_cases hnames : (headerParts header).2 = []
  · rw [if_pos hnames] at h
    cases h
  rw [if_neg hnames] at h
  cases h
  refine ⟨rfl, ?_⟩
  by_contra hlt
  apply hnames
  simp only [headerParts] at hlt ⊢
  simp [hlt]

theorem snmpData_spec {lineNum : Nat} {line header : Bytes} {rest : Bytes}
    (hheader : newline ∉ header) (hbuild : buildSnmpLineInfo header = some lineInfo)
    (h : snmpData lineNum line lineInfo values buf = (values', .ok rest)) :
    rest = afterLine newline buf ∧
      values' = (pairValues header (firstLine newline buf)).foldl (storeAt variableIndex) values := by
  obtain ⟨rfl, hlt⟩ := buildSnmpLineInfo_eq_some hbuild
  rw [snmpData] at h
  by_cases hstart : header.take (headerParts header).1 <+: buf
  · simp only [hstart, not_true_eq_false, if_false] at h
    obtain ⟨buf', rfl⟩ := hstart
    have hpart : newline ∉ header.take (headerParts header).1 :=
      fun hmem => hheader (mem_of_mem_take hmem)
    have hlength := length_take_of_le hlt.le
    rw [drop_left] at h
    rw [afterLine_append hpart, firstLine_append hpart]
    rcases hloop : snmpValues lineNum line ⟨header, (headerParts header).1,
        (headerParts header).2.map (netSnmpIndexMap (headerProto header))⟩ buf'.length values 0
        buf' with ⟨values₁, e | ⟨got, buf'', eol⟩⟩
    · simp only [hloop] at h
      cases h
    obtain ⟨words, hvalues, hwords, hafter⟩ := snmpValues_spec (Nat.le_refl _) hloop
    simp only [hloop] at h
    split at h
    · cases h
    -- no other value is in the line
    have hend : values₁ = values' ∧ rest = afterLine newline buf' ∧
        valueWords (firstLine newline buf') = words := by
      cases eol with
      | true =>
        cases h
        exact ⟨rfl, by simpa using hafter, by simpa using hwords⟩
      | false =>
        simp only [Bool.false_eq_true, if_false] at h hafter hwords
        by_cases hword : (nextField buf'').1 = []
        · rw [if_pos hword] at h
          cases h
          obtain ⟨hrest, hnone⟩ := nextField_of_nil hword
          refine ⟨rfl, hrest.trans hafter, ?_⟩
          rw [hwords, valueWords, hnone]
          simp
        · rw [if_neg hword] at h
          cases h
    obtain ⟨rfl, hrest, hwords⟩ := hend
    refine ⟨hrest, ?_⟩
    rw [hvalues, drop_zero, pairValues]
    simp only
    rw [drop_left' hlength, hwords, zip_map_left, zip_map_left, foldl_map, foldl_map]
    rfl
  · simp only [hstart, not_false_eq_true, if_true] at h
    cases h

theorem readPairs_values {fuel infoIndex : Nat}
    (hfuel : buf.length ≤ fuel) (h : readPairs fuel infoIndex values buf = (values', none)) :
    values' = (contentValues buf).foldl (storeAt variableIndex) values := by
  induction fuel generalizing infoIndex values buf with
  | zero =>
    obtain rfl : buf = [] := eq_nil_of_length_eq_zero (Nat.le_zero.mp hfuel)
    cases h
    rfl
  | succ fuel ih =>
    cases buf with
    | nil =>
      cases h
      rfl
    | cons b buf =>
      have hshort : (afterLine newline (b :: buf)).length < (b :: buf).length :=
        length_afterLine_lt (cons_ne_nil b buf)
      rw [contentValues, lines_of_ne_nil (cons_ne_nil b buf)]
      simp only [readPairs] at h
      cases hbuild : buildSnmpLineInfo (firstLine newline (b :: buf)) with
      | none =>
        simp only [hbuild] at h
        cases h
      | some lineInfo =>
        simp only [hbuild] at h
        cases hafter : afterLine newline (b :: buf) with
        | nil =>
          simp only [hafter] at h
          cases h
          rfl
        | cons c text =>
          simp only [hafter] at h
          rw [hafter] at hshort
          have hshort' : (afterLine newline (c :: text)).length < (c :: text).length :=
            length_afterLine_lt (cons_ne_nil c text)
          rcases hdata : snmpData (2 * infoIndex + 2) (getCurrentLine (c :: text)) lineInfo values
            (c :: text) with ⟨values₁, e | rest⟩
          · simp only [hdata] at h
            cases h
          simp only [hdata] at h
          obtain ⟨rfl, hvalues₁⟩ := snmpData_spec (nl_notMem_firstLine _ _) hbuild hdata
          have hrest := ih (by omega) h
          rw [lines_of_ne_nil (cons_ne_nil c text), linesValues, List.foldl_append, ← hvalues₁]
          exact hrest

namespace NetSnmp

theorem parse_eq (netSnmp : NetSnmp) (file : Bytes) :
    netSnmp.parse file = if file.length < netSnmpMaxReadSize then netSnmp.parseBuf file
      else (netSnmp, some .potentialTruncation) := parseFile_eq (by decide) _ _ _

theorem parse_spec (h : netSnmp.LineInfoOk) (buf : Bytes) :
    (netSnmp.parse buf).1.LineInfoOk ∧
      ((netSnmp.parse buf).2 = none →
        (netSnmp.parse buf).1.values =
          (contentValues buf).foldl (storeAt variableIndex) netSnmp.values) := by
  obtain ⟨hok, hread⟩ := parsePairs_eq { netSnmp with infoChanged := none } h buf.length 0 buf
  rw [parse_eq]
  split
  case isFalse => exact ⟨h, nofun⟩
  refine ⟨hok, fun hnone => ?_⟩
  have haccepted : readPairs buf.length 0 netSnmp.values buf =
      ((netSnmp.parseBuf buf).1.values, none) :=
    hread.symm.trans (Prod.ext rfl hnone)
  exact readPairs_values (Nat.le_refl _) haccepted

end NetSnmp

end Lsvmi.Procfs
