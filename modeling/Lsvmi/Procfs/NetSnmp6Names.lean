import Lsvmi.Procfs.NetSnmp6Content

/-!
# The remembered names of /proc/net/snmp6

An object keeps the names of the first content that has anything in it, whether that content is
accepted or not.  The contents after it are parsed like by a fresh object exactly when they have
these names.
-/

namespace Lsvmi.Procfs.NetSnmp6

open Reasoning List

variable {netSnmp6 : NetSnmp6} {contents : List Bytes}

theorem length_storeValue (values : List UInt64) (index : Option Nat) (value : UInt64) :
    (storeValue values index value).length = values.length := by
  cases index with
  | none => rfl
  | some index => exact length_set

/-- What the loop never changes: the number of values, the flags and, when the names are known, the
names. -/
structure Keeps (buildLineInfo : Bool) (netSnmp6 netSnmp6' : NetSnmp6) : Prop where
  values : netSnmp6'.values.length = netSnmp6.values.length
  isUint32 : netSnmp6'.isUint32 = netSnmp6.isUint32
  lineInfo : buildLineInfo = false → netSnmp6'.lineInfo = netSnmp6.lineInfo

theorem Keeps.refl (buildLineInfo : Bool) (netSnmp6 : NetSnmp6) :
    Keeps buildLineInfo netSnmp6 netSnmp6 := ⟨rfl, rfl, fun _ => rfl⟩

section

variable {buildLineInfo : Bool} {netSnmp6 netSnmp6' : NetSnmp6} {variableIndex : Nat}
  {buf rest : Bytes}

theorem takeName_keeps {index : Option Nat}
    (h : netSnmp6.takeName buildLineInfo variableIndex buf = .ok (netSnmp6', index, rest)) :
    Keeps buildLineInfo netSnmp6 netSnmp6' := by
  cases buildLineInfo with
  | true =>
    cases h
    exact ⟨rfl, rfl, nofun⟩
  | false =>
    simp only [takeName, Bool.false_eq_true, if_false] at h
    cases hinfo : netSnmp6.lineInfo[variableIndex]? with
    | none =>
      rw [hinfo] at h
      cases h
    | some lineInfo =>
      rw [hinfo] at h
      cases hskip : skipName lineInfo.name buf with
      | none =>
        simp only [hskip] at h
        cases h
      | some rest' =>
        simp only [hskip] at h
        cases h
        exact .refl false _

end

section

variable (buildLineInfo : Bool) (netSnmp6 : NetSnmp6) (variableIndex : Nat) (buf : Bytes)

theorem parseVariable_keeps :
    Keeps buildLineInfo netSnmp6 (netSnmp6.parseVariable buildLineInfo variableIndex buf).1 := by
  cases hname : netSnmp6.takeName buildLineInfo variableIndex (buf.dropWhile isWhitespaceNl) with
  | error e =>
    simp only [parseVariable, hname]
    exact .refl buildLineInfo _
  | ok r =>
    obtain ⟨netSnmp6', index, rest⟩ := r
    have hkeeps := takeName_keeps hname
    rcases hvalue : takeValue 0 (rest.dropWhile isWhitespaceNl) with (_ | c) | ⟨value, rest'⟩
    all_goals simp only [parseVariable, hname, hvalue]
    · exact hkeeps
    · exact hkeeps
    · exact { hkeeps with values := (length_storeValue _ _ _).trans hkeeps.values }

theorem parseVariables_keeps (fuel : Nat) :
    Keeps buildLineInfo netSnmp6 (parseVariables buildLineInfo fuel netSnmp6 variableIndex buf).1 := by
  induction fuel generalizing netSnmp6 variableIndex buf with
  | zero => cases buf <;> exact .refl buildLineInfo _
  | succ fuel ih =>
    by_cases hne : buf = []
    · subst hne
      exact .refl buildLineInfo _
    rw [parseVariables_of_ne_nil hne]
    have hbody := parseVariable_keeps buildLineInfo netSnmp6 variableIndex buf
    rcases hvar : netSnmp6.parseVariable buildLineInfo variableIndex buf with
      ⟨netSnmp6', _ | rest⟩
    · rw [hvar] at hbody
      exact hbody
    · rw [hvar] at hbody
      have hrest := ih netSnmp6' (variableIndex + 1) rest
      exact ⟨hrest.values.trans hbody.values, hrest.isUint32.trans hbody.isUint32,
        fun h => (hrest.lineInfo h).trans (hbody.lineInfo h)⟩

theorem parse_eq (netSnmp6 : NetSnmp6) (file : Bytes) :
    netSnmp6.parse file = if file.length < netSnmp6MaxReadSize then netSnmp6.parseBuf file
      else (netSnmp6, some .potentialTruncation) := parseFile_eq (by decide) _ _ _

theorem parse_keeps : Keeps netSnmp6.lineInfo.isEmpty netSnmp6 (netSnmp6.parse buf).1 := by
  rw [parse_eq]
  split
  case isFalse => exact .refl _ _
  rw [parseBuf_fst]
  exact parseVariables_keeps netSnmp6.lineInfo.isEmpty netSnmp6 0 buf buf.length

end

theorem length_of_parse {netSnmp6 : NetSnmp6} {buf : Bytes} (h : (netSnmp6.parse buf).2 = none) :
    buf.length < netSnmp6MaxReadSize := by
  by_contra hlength
  rw [parse_eq, if_neg hlength] at h
  cases h

/-- A call on an object; after a `Clone` the clone is used. -/
inductive Call where
  | parse (buf : Bytes)
  | clone (full : Bool)

def call (netSnmp6 : NetSnmp6) : Call → NetSnmp6
  | .parse buf => (netSnmp6.parse buf).1
  | .clone full => (netSnmp6.clone full).1

def parsedContents (calls : List Call) : List Bytes :=
  calls.filterMap fun
    | .parse buf => if buf.length < netSnmp6MaxReadSize then some buf else none
    | .clone _ => none

def rememberedNames : List Bytes → List Bytes
  | [] => []
  | buf :: contents => if buf = [] then rememberedNames contents else (readContent buf).names

theorem names_eq_nil_iff (buf : Bytes) : (readContent buf).names = [] ↔ buf = [] := by
  cases buf with
  | nil => exact iff_of_true rfl rfl
  | cons b buf =>
    refine iff_of_false ?_ (cons_ne_nil b buf)
    rw [readContent, length_cons, readVariables]
    · rcases readVariable (b :: buf) with ⟨name, _ | ⟨value, rest⟩⟩ <;> simp [Content.names]
    · exact cons_ne_nil b buf

theorem rememberedNames_concat (contents : List Bytes) (buf : Bytes) :
    rememberedNames (contents ++ [buf]) =
      if rememberedNames contents = [] then (readContent buf).names
      else rememberedNames contents := by
  induction contents with
  | nil =>
    by_cases hbuf : buf = []
    · subst hbuf
      rfl
    · simp [rememberedNames, hbuf]
  | cons first contents ih =>
    by_cases hfirst : first = []
    · simp [rememberedNames, hfirst, ih]
    · have hnames := mt (names_eq_nil_iff first).mp hfirst
      simp [rememberedNames, hfirst, hnames]

theorem rememberedNames_eq_nil_iff (contents : List Bytes) :
    rememberedNames contents = [] ↔ ∀ buf ∈ contents, buf = [] := by
  induction contents with
  | nil => simp [rememberedNames]
  | cons buf contents ih =>
    by_cases hbuf : buf = []
    · simp [rememberedNames, hbuf, ih]
    · simp [rememberedNames, hbuf, names_eq_nil_iff]

theorem isWord_of_mem_rememberedNames {name : Bytes}
    (h : name ∈ rememberedNames contents) : IsWord name := by
  induction contents with
  | nil => cases h
  | cons buf contents ih =>
    rw [rememberedNames] at h
    by_cases hbuf : buf = []
    · rw [if_pos hbuf] at h
      exact ih h
    · rw [if_neg hbuf] at h
      exact isWord_of_mem_names h

/-- The object has the names of the first content with anything in it, and room for all the
values. -/
structure Remembers (netSnmp6 : NetSnmp6) (contents : List Bytes) : Prop where
  lineInfo : netSnmp6.lineInfo = (rememberedNames contents).map lineInfoOf
  values : netSnmp6.values.length = netSnmp6NumValues

theorem remembers_new (isUint32Table : List Bool) : Remembers (newNetSnmp6 isUint32Table).1 [] :=
  ⟨rfl, rfl⟩

section

variable (h : Remembers netSnmp6 contents)
include h

theorem Remembers.parse {buf : Bytes} (hlength : buf.length < netSnmp6MaxReadSize) :
    Remembers (netSnmp6.parse buf).1 (contents ++ [buf]) := by
  have hkeeps := parse_keeps netSnmp6 buf
  refine ⟨?_, hkeeps.values.trans h.values⟩
  rw [rememberedNames_concat]
  by_cases hnames : rememberedNames contents = []
  · have hinfo : netSnmp6.lineInfo = [] := by rw [h.lineInfo, hnames, map_nil]
    rw [if_pos hnames, parse_eq, if_pos hlength, (parseBuf_first hinfo buf).1]
  · have hinfo : netSnmp6.lineInfo.isEmpty = false := by simp [h.lineInfo, hnames]
    rw [if_neg hnames, hkeeps.lineInfo hinfo, h.lineInfo]

theorem Remembers.parse_values {buf : Bytes} (hok : (netSnmp6.parse buf).2 = none) :
    (netSnmp6.parse buf).1.values =
      (readContent buf).read.foldl storeVariable netSnmp6.values := by
  have hlength := length_of_parse hok
  rw [parse_eq, if_pos hlength] at hok ⊢
  by_cases hnames : rememberedNames contents = []
  · have hinfo : netSnmp6.lineInfo = [] := by rw [h.lineInfo, hnames, map_nil]
    rw [(parseBuf_first hinfo buf).1]
  · exact (parseBuf_later hnames (fun name hname => isWord_of_mem_rememberedNames hname)
      h.lineInfo buf).2 hok

theorem Remembers.clone (full : Bool) : Remembers (netSnmp6.clone full).1 contents := by
  refine ⟨h.lineInfo, ?_⟩
  have hvalues := h.values
  cases full with
  | true => simp [NetSnmp6.clone, copySlice, hvalues]
  | false => simp [NetSnmp6.clone, hvalues]

end

def after (isUint32Table : List Bool) (calls : List Call) : NetSnmp6 :=
  calls.foldl call (newNetSnmp6 isUint32Table).1

theorem remembers_after (isUint32Table : List Bool) (calls : List Call) :
    Remembers (after isUint32Table calls) (parsedContents calls) := by
  induction calls using reverseRecOn with
  | nil => exact remembers_new isUint32Table
  | append_singleton calls c ih =>
    rw [after, foldl_append, parsedContents, filterMap_append]
    cases c with
    | parse buf =>
      by_cases hlength : buf.length < netSnmp6MaxReadSize
      · rw [show filterMap _ [Call.parse buf] = [buf] by simp [hlength]]
        exact ih.parse hlength
      · rw [show filterMap _ [Call.parse buf] = [] by simp [hlength], append_nil]
        show Remembers ((after isUint32Table calls).parse buf).1 _
        rw [parse_eq, if_neg hlength]
        exact ih
    | clone full =>
      rw [show filterMap _ [Call.clone full] = [] from rfl, append_nil]
      exact ih.clone full

/-- `buf` is accepted, with the values that a fresh object gets for the variables it knows. -/
def ParsesAsFresh (netSnmp6 fresh : NetSnmp6) (buf : Bytes) : Prop :=
  (netSnmp6.parse buf).2 = none ∧
    ∀ name ∈ (readContent buf).names, ∀ i, netSnmp6IndexMap name = some i →
      (netSnmp6.parse buf).1.values[i]? = (fresh.parse buf).1.values[i]?

/-- An object parses a content that a fresh object accepts like the fresh object exactly when all
the contents before were empty, or the names of the first one that was not are the names of this
one. -/
theorem parses_as_fresh_iff (isUint32Table isUint32Table' : List Bool) (calls : List Call)
    (buf : Bytes) (hfresh : ((newNetSnmp6 isUint32Table').1.parse buf).2 = none) :
    ParsesAsFresh (after isUint32Table calls) (newNetSnmp6 isUint32Table').1 buf ↔
      (∀ content ∈ parsedContents calls, content = []) ∨
        rememberedNames (parsedContents calls) = (readContent buf).names := by
  have hlength := length_of_parse hfresh
  unfold ParsesAsFresh
  rw [parse_eq, if_pos hlength] at hfresh
  rw [parse_eq, parse_eq, if_pos hlength, if_pos hlength]
  obtain ⟨hnew, hnewNone⟩ := parseBuf_first (remembers_new isUint32Table').lineInfo buf
  have hcontent := hnewNone.mp hfresh
  have hobj := remembers_after isUint32Table calls
  have hvalues : (after isUint32Table calls).values.length =
      (newNetSnmp6 isUint32Table').1.values.length := hobj.values
  -- both objects store the same variables, from different values
  have hsame : ((after isUint32Table calls).parseBuf buf).1.values =
        (readContent buf).read.foldl storeVariable (after isUint32Table calls).values →
      ∀ name ∈ (readContent buf).names, ∀ i, netSnmp6IndexMap name = some i →
        ((after isUint32Table calls).parseBuf buf).1.values[i]? =
          ((newNetSnmp6 isUint32Table').1.parseBuf buf).1.values[i]? := by
    intro hstored name hname i hi
    rw [Content.names_of_not_broken hcontent] at hname
    obtain ⟨v, hv, rfl⟩ := mem_map.mp hname
    rw [hstored, hnew]
    exact getElem?_foldl_storeAt_congr hvalues (.inr ⟨v, hv, hi⟩)
  rw [← rememberedNames_eq_nil_iff]
  by_cases hnames : rememberedNames (parsedContents calls) = []
  · have hinfo : (after isUint32Table calls).lineInfo = [] := by
      rw [hobj.lineInfo, hnames, map_nil]
    obtain ⟨hfirst, hnone⟩ := parseBuf_first hinfo buf
    exact iff_of_true ⟨hnone.mpr hcontent, hsame (by rw [hfirst])⟩ (.inl hnames)
  obtain ⟨hnone, hstored⟩ := parseBuf_later hnames
    (fun name hname => isWord_of_mem_rememberedNames hname) hobj.lineInfo buf
  constructor
  · exact fun h => .inr (hnone.mp h.1).2
  · intro h
    have haccepted := hnone.mpr ⟨hcontent, h.resolve_left hnames⟩
    exact ⟨haccepted, hsame (hstored haccepted)⟩

/-- The empty content before the first one and the clone make no difference. -/
theorem parses_as_fresh_after_clone :
    ((newNetSnmp6 netSnmp6IsUint32).1.parse
        (utf8 "Ip6InReceives 3\nIcmp6OutType133 2\n")).2 = none ∧
      ParsesAsFresh
        (after netSnmp6IsUint32
          [.parse [], .parse (utf8 "Ip6InReceives 1\nIcmp6OutType133 2\n"), .clone false])
        (newNetSnmp6 netSnmp6IsUint32).1 (utf8 "Ip6InReceives 3\nIcmp6OutType133 2\n") := by
  have hfresh : ((newNetSnmp6 netSnmp6IsUint32).1.parse
      (utf8 "Ip6InReceives 3\nIcmp6OutType133 2\n")).2 = none := by
    decide +kernel
  exact ⟨hfresh, (parses_as_fresh_iff _ _ _ _ hfresh).mpr (.inr (by decide +kernel))⟩

/-- A variable that shows up later makes the parser reject the content. -/
theorem later_variable_rejected :
    ((newNetSnmp6 netSnmp6IsUint32).1.parse
        (utf8 "Ip6InReceives 1\nIcmp6OutType133 2\n")).2 = none ∧
      ¬ ParsesAsFresh (after netSnmp6IsUint32 [.parse (utf8 "Ip6InReceives 1\n")])
        (newNetSnmp6 netSnmp6IsUint32).1 (utf8 "Ip6InReceives 1\nIcmp6OutType133 2\n") := by
  refine ⟨by decide +kernel, fun h => ?_⟩
  have hrejected : ((after netSnmp6IsUint32 [.parse (utf8 "Ip6InReceives 1\n")]).parse
      (utf8 "Ip6InReceives 1\nIcmp6OutType133 2\n")).2 ≠ none := by
    decide +kernel
  exact hrejected h.1

end Lsvmi.Procfs.NetSnmp6
