import Lsvmi.Procfs.NetSnmpContent

/-!
# Contents parsed one after the other

Whatever an object has parsed before, accepted or not, and wherever its line info comes from, a
content is accepted, and read, as by a new object.
-/

namespace Lsvmi.Procfs

open Reasoning List

theorem length_of_storeSnmpValue {values values' : List UInt32} {index : Option Nat}
    {isNegative : Bool} {value : UInt32}
    (h : storeSnmpValue values index isNegative value = some values') :
    values'.length = values.length := by
  cases index with
  | none =>
    cases h
    rfl
  | some index =>
    simp only [storeSnmpValue] at h
    split at h
    · split at h
      · cases h
        exact length_set
      · cases h
    · cases h
      exact length_set

theorem storeSnmpValue_cases (values values' : List UInt32) (index : Option Nat)
    (isNegative : Bool) (value : UInt32) :
    (storeSnmpValue values index isNegative value = none ∧
        storeSnmpValue values' index isNegative value = none) ∨
      ∃ stored stored', storeSnmpValue values index isNegative value = some stored ∧
        storeSnmpValue values' index isNegative value = some stored' := by
  cases index with
  | none => exact .inr ⟨values, values', rfl, rfl⟩
  | some index =>
    simp only [storeSnmpValue]
    split
    · split
      · exact .inr ⟨_, _, rfl, rfl⟩
      · exact .inl ⟨rfl, rfl⟩
    · exact .inr ⟨_, _, rfl, rfl⟩

/-- Two results that differ in the values only, of which there are `n`. -/
structure Agree {β : Type} (n : Nat) (r r' : List UInt32 × β) : Prop where
  verdict : r.2 = r'.2
  length : r.1.length = n
  length' : r'.1.length = n

section

variable {n : Nat} (lineNum : Nat) (line : Bytes) (lineInfo : NetSnmpLineInfo)
  {values values' : List UInt32}

theorem snmpValues_agree (fuel i : Nat) (buf : Bytes) (hlen : values.length = n)
    (hlen' : values'.length = n) :
    Agree n (snmpValues lineNum line lineInfo fuel values i buf)
      (snmpValues lineNum line lineInfo fuel values' i buf) := by
  induction fuel generalizing values values' i buf with
  | zero => exact ⟨rfl, hlen, hlen'⟩
  | succ fuel ih =>
    rw [snmpValues, snmpValues]
    by_cases hdone : buf = [] ∨ lineInfo.indexMap.length ≤ i
    · rw [if_pos hdone, if_pos hdone]
      exact ⟨rfl, hlen, hlen'⟩
    rw [if_neg hdone, if_neg hdone]
    rcases nextField buf with ⟨word, sep, rest⟩
    simp only
    generalize (if word.head? = some 45 then word.tail else word) = digits
    cases invalidDigit digits with
    | some c => exact ⟨rfl, hlen, hlen'⟩
    | none =>
      simp only
      by_cases hdigits : digits = []
      · -- not a value
        rw [if_pos hdigits, if_pos hdigits]
        by_cases heol : sep = some newline
        · rw [if_pos heol, if_pos heol]
          exact ⟨rfl, hlen, hlen'⟩
        · rw [if_neg heol, if_neg heol]
          exact ih i rest hlen hlen'
      rw [if_neg hdigits, if_neg hdigits]
      rcases storeSnmpValue_cases values values' (lineInfo.indexMap.getD i none)
        (word.head? = some 45) (snmpDigits digits) with ⟨hnone, hnone'⟩ |
        ⟨stored, stored', hsome, hsome'⟩
      · rw [hnone, hnone']
        exact ⟨rfl, hlen, hlen'⟩
      have hstored := (length_of_storeSnmpValue hsome).trans hlen
      have hstored' := (length_of_storeSnmpValue hsome').trans hlen'
      rw [hsome, hsome']
      simp only
      by_cases heol : sep = some newline
      · rw [if_pos heol, if_pos heol]
        exact ⟨rfl, hstored, hstored'⟩
      · rw [if_neg heol, if_neg heol]
        exact ih (i + 1) rest hstored hstored'

theorem snmpData_agree (buf : Bytes) (hlen : values.length = n) (hlen' : values'.length = n) :
    Agree n (snmpData lineNum line lineInfo values buf)
      (snmpData lineNum line lineInfo values' buf) := by
  simp only [snmpData]
  by_cases hstart : lineInfo.line.take lineInfo.prefixLen <+: buf
  · rw [if_neg (not_not_intro hstart), if_neg (not_not_intro hstart)]
    generalize buf.drop (lineInfo.line.take lineInfo.prefixLen).length = rest
    have hagree := snmpValues_agree lineNum line lineInfo rest.length 0 rest hlen hlen'
    rcases hv : snmpValues lineNum line lineInfo rest.length values 0 rest with ⟨v, r⟩
    rcases hv' : snmpValues lineNum line lineInfo rest.length values' 0 rest with ⟨v', r'⟩
    rw [hv, hv'] at hagree
    obtain ⟨hverdict, hlen, hlen'⟩ := hagree
    simp only at hverdict hlen hlen'
    subst hverdict
    cases r with
    | error e => exact ⟨rfl, hlen, hlen'⟩
    | ok r =>
      simp only
      split
      · exact ⟨rfl, hlen, hlen'⟩
      · split
        · exact ⟨rfl, hlen, hlen'⟩
        · split <;> exact ⟨rfl, hlen, hlen'⟩
  · rw [if_pos hstart, if_pos hstart]
    exact ⟨rfl, hlen, hlen'⟩

end

theorem readPairs_agree {n : Nat} (fuel infoIndex : Nat) (buf : Bytes)
    {values values' : List UInt32} (hlen : values.length = n) (hlen' : values'.length = n) :
    Agree n (readPairs fuel infoIndex values buf) (readPairs fuel infoIndex values' buf) := by
  induction fuel generalizing infoIndex buf values values' with
  | zero => cases buf <;> exact ⟨rfl, hlen, hlen'⟩
  | succ fuel ih =>
    cases buf with
    | nil => exact ⟨rfl, hlen, hlen'⟩
    | cons b buf =>
      simp only [readPairs]
      cases buildSnmpLineInfo (firstLine newline (b :: buf)) with
      | none => exact ⟨rfl, hlen, hlen'⟩
      | some lineInfo =>
        cases afterLine newline (b :: buf) with
        | nil => exact ⟨rfl, hlen, hlen'⟩
        | cons c text =>
          have hagree := snmpData_agree (2 * infoIndex + 2) (getCurrentLine (c :: text)) lineInfo
            (c :: text) hlen hlen'
          rcases hv : snmpData (2 * infoIndex + 2) (getCurrentLine (c :: text)) lineInfo values
            (c :: text) with ⟨v, r⟩
          rcases hv' : snmpData (2 * infoIndex + 2) (getCurrentLine (c :: text)) lineInfo values'
            (c :: text) with ⟨v', r'⟩
          rw [hv, hv'] at hagree
          simp only [hv, hv']
          obtain ⟨hverdict, hlen, hlen'⟩ := hagree
          simp only at hverdict hlen hlen'
          subst hverdict
          cases r with
          | error e => exact ⟨rfl, hlen, hlen'⟩
          | ok rest => exact ih (infoIndex + 1) rest hlen hlen'

namespace NetSnmp

variable {netSnmp : NetSnmp}

/-- The objects that calls lead to, from a new object on. -/
inductive Reached : NetSnmp → Prop
  | new : Reached newNetSnmp
  | parse {netSnmp : NetSnmp} (h : Reached netSnmp) (buf : Bytes) : Reached (netSnmp.parse buf).1
  | updateInfo {netSnmp other : NetSnmp} (h : Reached netSnmp) (hother : Reached other) :
    Reached (netSnmp.updateInfo other)
  | clone {netSnmp : NetSnmp} (h : Reached netSnmp) (full : Bool) : Reached (netSnmp.clone full)

theorem parseBuf_eq_readPairs (h : netSnmp.LineInfoOk) (buf : Bytes) :
    ((netSnmp.parseBuf buf).1.values, (netSnmp.parseBuf buf).2) =
      readPairs buf.length 0 netSnmp.values buf :=
  (parsePairs_eq { netSnmp with infoChanged := none } h buf.length 0 buf).2

theorem Reached.ok (h : Reached netSnmp) :
    netSnmp.LineInfoOk ∧ netSnmp.values.length = netSnmpNumValues := by
  induction h with
  | new => exact ⟨lineInfoOk_new, length_replicate⟩
  | @parse netSnmp h buf ih =>
    refine ⟨(parse_spec ih.1 buf).1, ?_⟩
    rw [parse_eq]
    split
    case isFalse => exact ih.2
    have hvalues := congrArg Prod.fst (parseBuf_eq_readPairs ih.1 buf)
    simp only at hvalues
    rw [hvalues]
    exact (readPairs_agree buf.length 0 buf ih.2 ih.2).length
  | updateInfo h hother ih ihother => exact ⟨ihother.1, ih.2⟩
  | @clone netSnmp h full ih =>
    refine ⟨ih.1, ?_⟩
    cases full with
    | true => exact ih.2
    | false => exact length_replicate.trans ih.2

end NetSnmp

end Lsvmi.Procfs
