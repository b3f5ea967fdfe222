import Lsvmi.Procfs.NetSnmp6
import Lsvmi.Reasoning.Replay

/-!
# The contents of /proc/net/snmp6

A content is read here without an object, as names with their values.  An object that has no names
yet takes the names of the content; any other object accepts the content only if it has the names
that the object remembers.
-/

namespace Lsvmi.Procfs.NetSnmp6

open Reasoning List

def readVariable (buf : Bytes) : Bytes × Except (Option UInt8) (UInt64 × Bytes) :=
  let buf := buf.dropWhile isWhitespaceNl
  (buf.takeWhile (!isWhitespaceNl ·),
    takeValue 0 ((buf.dropWhile (!isWhitespaceNl ·)).dropWhile isWhitespaceNl))

structure Content where
  read : List (Bytes × UInt64)
  /-- the name that is not followed by a value -/
  broken : Option Bytes

def readVariables : Nat → Bytes → Content
  | _, [] => ⟨[], none⟩
  | 0, _ => ⟨[], none⟩
  | fuel + 1, buf =>
    match readVariable buf with
    | (name, .error _) => ⟨[], some name⟩
    | (name, .ok (value, buf)) =>
      let content := readVariables fuel buf
      { content with read := (name, value) :: content.read }

def readContent (buf : Bytes) : Content := readVariables buf.length buf

def Content.names (content : Content) : List Bytes :=
  content.read.map Prod.fst ++ content.broken.toList

def IsWord (name : Bytes) : Prop := ∀ c ∈ name, isWhitespaceNl c = false

theorem isWord_readVariable (buf : Bytes) : IsWord (readVariable buf).1 := by
  intro c hc
  simpa using mem_takeWhile_imp hc

theorem isWord_of_mem_names {fuel : Nat} {buf name : Bytes}
    (h : name ∈ (readVariables fuel buf).names) : IsWord name := by
  fun_induction readVariables fuel buf with
  | case1 => cases h
  | case2 => cases h
  | case3 fuel buf hne first e hread =>
    have hfirst := isWord_readVariable buf
    rw [hread] at hfirst
    rwa [mem_singleton.mp h]
  | case4 fuel buf hne first value rest hread content ih =>
    have hfirst := isWord_readVariable buf
    rw [hread] at hfirst
    rcases mem_cons.mp h with rfl | h
    · exact hfirst
    · exact ih h

def lineInfoOf (name : Bytes) : NetSnmp6LineInfo := ⟨name, netSnmp6IndexMap name⟩

def storeVariable : List UInt64 → Bytes × UInt64 → List UInt64 := storeAt netSnmp6IndexMap

theorem skipName_eq {name : Bytes} (h : IsWord name) (buf : Bytes) :
    skipName name buf =
      if buf.takeWhile (!isWhitespaceNl ·) = name then some (buf.dropWhile (!isWhitespaceNl ·))
      else none := by
  induction name generalizing buf with
  | nil =>
    cases buf with
    | nil => rfl
    | cons b buf => by_cases hb : isWhitespaceNl b = true <;> simp [skipName, hb]
  | cons c name ih =>
    have hc : isWhitespaceNl c = false := h c mem_cons_self
    have hname : IsWord name := fun d hd => h d (mem_cons_of_mem c hd)
    cases buf with
    | nil => rfl
    | cons b buf =>
      by_cases hb : b = c
      · subst hb
        simp [skipName, hc, ih hname]
      have hne : (b :: buf).takeWhile (!isWhitespaceNl ·) ≠ c :: name := by
        rw [takeWhile_cons]
        split
        · simp [hb]
        · simp
      rw [skipName, if_neg hb, if_neg hne]

section

variable (netSnmp6 : NetSnmp6) (variableIndex : Nat) {buf name rest : Bytes} {value : UInt64}

theorem parseVariable_build_ok (h : readVariable buf = (name, .ok (value, rest))) :
    netSnmp6.parseVariable true variableIndex buf =
      ({ netSnmp6 with
          lineInfo := netSnmp6.lineInfo ++ [lineInfoOf name]
          values := storeVariable netSnmp6.values (name, value) }, .ok rest) := by
  obtain ⟨hname, hvalue⟩ := Prod.mk.inj h
  simp only [parseVariable, takeName, if_true, hname, hvalue]
  rfl

theorem parseVariable_build_error {e : Option UInt8} (h : readVariable buf = (name, .error e)) :
    ∃ e', netSnmp6.parseVariable true variableIndex buf =
      ({ netSnmp6 with lineInfo := netSnmp6.lineInfo ++ [lineInfoOf name] }, .error e') := by
  obtain ⟨hname, hvalue⟩ := Prod.mk.inj h
  simp only [parseVariable, takeName, if_true, hname, hvalue]
  cases e with
  | none | some c => exact ⟨_, rfl⟩

variable {netSnmp6} {names : List Bytes} (hwords : ∀ name ∈ names, IsWord name)
  (hinfo : netSnmp6.lineInfo = names.map lineInfoOf)

include hwords hinfo

theorem parseVariable_known (hknown : names[variableIndex]? = some name)
    (h : readVariable buf = (name, .ok (value, rest))) :
    netSnmp6.parseVariable false variableIndex buf =
      ({ netSnmp6 with values := storeVariable netSnmp6.values (name, value) }, .ok rest) := by
  obtain ⟨hname, hvalue⟩ := Prod.mk.inj h
  have hskip := skipName_eq (hwords name (mem_of_getElem? hknown)) (buf.dropWhile isWhitespaceNl)
  rw [if_pos hname] at hskip
  simp only [parseVariable, takeName, Bool.false_eq_true, if_false, hinfo, getElem?_map, hknown,
    Option.map_some, lineInfoOf, hskip, hvalue]
  rfl

theorem parseVariable_known_error (buf : Bytes) (h : ∀ name value rest,
      readVariable buf = (name, .ok (value, rest)) → names[variableIndex]? ≠ some name) :
    ∃ e, netSnmp6.parseVariable false variableIndex buf = (netSnmp6, .error e) := by
  simp only [parseVariable, takeName, Bool.false_eq_true, if_false, hinfo, getElem?_map]
  cases hknown : names[variableIndex]? with
  | none => exact ⟨_, rfl⟩
  | some known =>
    have hskip := skipName_eq (hwords known (mem_of_getElem? hknown)) (buf.dropWhile isWhitespaceNl)
    split at hskip
    · rename_i hname
      simp only [Option.map_some, lineInfoOf, hskip]
      rcases hvalue : takeValue 0 (((buf.dropWhile isWhitespaceNl).dropWhile
        (!isWhitespaceNl ·)).dropWhile isWhitespaceNl) with (_ | c) | ⟨value, rest⟩
      · exact ⟨_, rfl⟩
      · exact ⟨_, rfl⟩
      · exact absurd hknown (h known value rest (Prod.ext hname hvalue))
    · simp only [Option.map_some, lineInfoOf, hskip]
      exact ⟨_, rfl⟩

end

theorem parseVariables_of_ne_nil {buf : Bytes} (h : buf ≠ []) (buildLineInfo : Bool) (fuel : Nat)
    (netSnmp6 : NetSnmp6) (variableIndex : Nat) :
    parseVariables buildLineInfo (fuel + 1) netSnmp6 variableIndex buf =
      match netSnmp6.parseVariable buildLineInfo variableIndex buf with
      | (netSnmp6, .error e) => (netSnmp6, .error e)
      | (netSnmp6, .ok buf) =>
        parseVariables buildLineInfo fuel netSnmp6 (variableIndex + 1) buf := by
  cases buf with
  | nil => exact absurd rfl h
  | cons b buf => rfl

open Content

theorem parseVariables_build (fuel : Nat) (netSnmp6 : NetSnmp6) (variableIndex : Nat) (buf : Bytes) :
    (parseVariables true fuel netSnmp6 variableIndex buf).1 =
      { netSnmp6 with
        lineInfo := netSnmp6.lineInfo ++ (readVariables fuel buf).names.map lineInfoOf
        values := (readVariables fuel buf).read.foldl storeVariable netSnmp6.values } ∧
    ((readVariables fuel buf).broken = none →
      (parseVariables true fuel netSnmp6 variableIndex buf).2 =
        .ok (variableIndex + (readVariables fuel buf).read.length)) ∧
    ((readVariables fuel buf).broken ≠ none →
      ∃ e, (parseVariables true fuel netSnmp6 variableIndex buf).2 = .error e) := by
  fun_induction readVariables fuel buf generalizing netSnmp6 variableIndex with
  | case1 fuel => simp [parseVariables, names]
  | case2 buf hne => cases buf <;> simp [parseVariables, names]
  | case3 fuel buf hne name e hread =>
    obtain ⟨e', hbody⟩ := parseVariable_build_error netSnmp6 variableIndex hread
    rw [parseVariables_of_ne_nil hne, hbody]
    simp [names]
  | case4 fuel buf hne name value rest hread content ih =>
    obtain ⟨hobj, hok, herr⟩ := ih
      { netSnmp6 with
        lineInfo := netSnmp6.lineInfo ++ [lineInfoOf name]
        values := storeVariable netSnmp6.values (name, value) } (variableIndex + 1)
    rw [parseVariables_of_ne_nil hne, parseVariable_build_ok _ _ hread]
    refine ⟨?_, fun hbroken => ?_, herr⟩
    · rw [hobj]
      simp [names, content]
    · rw [hok hbroken, length_cons, Nat.add_assoc, Nat.add_comm 1]

/-- The loop that compares with the remembered names gets to the end of a content exactly when the
content is not broken and starts with them. -/
theorem parseVariables_known {names : List Bytes} (hwords : ∀ name ∈ names, IsWord name)
    (fuel : Nat) (netSnmp6 : NetSnmp6) (variableIndex : Nat) (buf : Bytes)
    (hinfo : netSnmp6.lineInfo = names.map lineInfoOf) :
    (((readVariables fuel buf).broken = none ∧
        (readVariables fuel buf).read.map Prod.fst <+: names.drop variableIndex) ∧
      parseVariables false fuel netSnmp6 variableIndex buf =
        ({ netSnmp6 with
            values := (readVariables fuel buf).read.foldl storeVariable netSnmp6.values },
          .ok (variableIndex + (readVariables fuel buf).read.length))) ∨
    (¬ ((readVariables fuel buf).broken = none ∧
        (readVariables fuel buf).read.map Prod.fst <+: names.drop variableIndex) ∧
      ∃ e, (parseVariables false fuel netSnmp6 variableIndex buf).2 = .error e) := by
  fun_induction readVariables fuel buf generalizing netSnmp6 variableIndex with
  | case1 fuel => simp [parseVariables]
  | case2 buf hne => cases buf <;> simp [parseVariables]
  | case3 fuel buf hne name e hread =>
    obtain ⟨e', hbody⟩ := parseVariable_known_error variableIndex hwords hinfo buf (by simp [hread])
    rw [parseVariables_of_ne_nil hne, hbody]
    exact .inr ⟨nofun, e', rfl⟩
  | case4 fuel buf hne name value rest hread content ih =>
    rw [parseVariables_of_ne_nil hne]
    by_cases hknown : names[variableIndex]? = some name
    · have hdrop : names.drop variableIndex = name :: names.drop (variableIndex + 1) := by
        obtain ⟨hlt, hval⟩ := List.getElem?_eq_some_iff.mp hknown
        rw [← hval, drop_eq_getElem_cons hlt]
      rw [hdrop, map_cons, cons_prefix_cons, parseVariable_known _ hwords hinfo hknown hread]
      rcases ih { netSnmp6 with values := storeVariable netSnmp6.values (name, value) }
        (variableIndex + 1) hinfo with ⟨⟨hbroken, hstarts⟩, hloop⟩ | ⟨hstarts, e, hloop⟩
      · refine .inl ⟨⟨hbroken, rfl, hstarts⟩, ?_⟩
        simp only [hloop, length_cons, foldl_cons]
        rw [Nat.add_assoc, Nat.add_comm 1]
      · exact .inr ⟨fun h => hstarts ⟨h.1, h.2.2⟩, e, hloop⟩
    · obtain ⟨e, hbody⟩ := parseVariable_known_error variableIndex hwords hinfo buf
        (by simpa [hread] using hknown)
      rw [hbody]
      refine .inr ⟨fun h => hknown ?_, e, rfl⟩
      -- the name is the first one of those that the content should start with
      obtain ⟨tail, htail⟩ := h.2
      have hfirst : (names.drop variableIndex)[0]? = some name := by
        rw [← htail]
        rfl
      simpa using hfirst

section

variable {netSnmp6 : NetSnmp6} {buf : Bytes}

theorem parseBuf_fst :
    (netSnmp6.parseBuf buf).1 =
      (parseVariables netSnmp6.lineInfo.isEmpty buf.length netSnmp6 0 buf).1 := by
  rcases hloop : parseVariables netSnmp6.lineInfo.isEmpty buf.length netSnmp6 0 buf with
    ⟨netSnmp6', _ | n⟩
  · simp only [parseBuf, hloop]
  · simp only [parseBuf, hloop]
    split <;> rfl

theorem parseBuf_eq_none_of_ok {n : Nat}
    (h : (parseVariables netSnmp6.lineInfo.isEmpty buf.length netSnmp6 0 buf).2 = .ok n) :
    (netSnmp6.parseBuf buf).2 = none ↔ n = (netSnmp6.parseBuf buf).1.lineInfo.length := by
  rw [parseBuf_fst]
  rcases hloop : parseVariables netSnmp6.lineInfo.isEmpty buf.length netSnmp6 0 buf with
    ⟨netSnmp6', r⟩
  rw [hloop] at h
  subst h
  simp only [parseBuf, hloop]
  by_cases hn : n = netSnmp6'.lineInfo.length <;> simp [hn]

theorem parseBuf_ne_none_of_error {e : NetSnmp6Error}
    (h : (parseVariables netSnmp6.lineInfo.isEmpty buf.length netSnmp6 0 buf).2 = .error e) :
    (netSnmp6.parseBuf buf).2 ≠ none := by
  rcases hloop : parseVariables netSnmp6.lineInfo.isEmpty buf.length netSnmp6 0 buf with
    ⟨netSnmp6', r⟩
  rw [hloop] at h
  subst h
  simp [parseBuf, hloop]

end

theorem Content.names_of_not_broken {content : Content} (h : content.broken = none) :
    content.names = content.read.map Prod.fst := by
  rw [names, h, Option.toList_none, append_nil]

theorem parseBuf_first {netSnmp6 : NetSnmp6} (h : netSnmp6.lineInfo = []) (buf : Bytes) :
    (netSnmp6.parseBuf buf).1 =
      { netSnmp6 with
        lineInfo := (readContent buf).names.map lineInfoOf
        values := (readContent buf).read.foldl storeVariable netSnmp6.values } ∧
    ((netSnmp6.parseBuf buf).2 = none ↔ (readContent buf).broken = none) := by
  obtain ⟨hobj, hok, herr⟩ := parseVariables_build buf.length netSnmp6 0 buf
  have hbuild : true = netSnmp6.lineInfo.isEmpty := by rw [h, isEmpty_nil]
  rw [hbuild] at hobj hok herr
  rw [← parseBuf_fst, h, nil_append] at hobj
  refine ⟨hobj, ?_⟩
  by_cases hbroken : (readContent buf).broken = none
  · rw [parseBuf_eq_none_of_ok (hok hbroken), hobj, length_map]
    change 0 + (readContent buf).read.length = (readContent buf).names.length ↔ _
    simp [names_of_not_broken hbroken, hbroken]
  · obtain ⟨e, he⟩ := herr hbroken
    exact iff_of_false (parseBuf_ne_none_of_error he) hbroken

theorem parseBuf_later {netSnmp6 : NetSnmp6} {names : List Bytes} (hne : names ≠ [])
    (hwords : ∀ name ∈ names, IsWord name) (hinfo : netSnmp6.lineInfo = names.map lineInfoOf)
    (buf : Bytes) :
    ((netSnmp6.parseBuf buf).2 = none ↔
      (readContent buf).broken = none ∧ names = (readContent buf).names) ∧
    ((netSnmp6.parseBuf buf).2 = none →
      (netSnmp6.parseBuf buf).1.values =
        (readContent buf).read.foldl storeVariable netSnmp6.values) := by
  have hbuild : false = netSnmp6.lineInfo.isEmpty := by simp [hinfo, hne]
  have hknown := parseVariables_known hwords buf.length netSnmp6 0 buf hinfo
  rw [show readVariables buf.length buf = readContent buf from rfl] at hknown
  rcases hknown with ⟨⟨hbroken, hstarts⟩, hloop⟩ | ⟨hstarts, e, hloop⟩
  · rw [hbuild] at hloop
    have hobj := parseBuf_fst.trans (congrArg Prod.fst hloop)
    rw [drop_zero] at hstarts
    refine ⟨?_, fun _ => by rw [hobj]⟩
    rw [parseBuf_eq_none_of_ok (congrArg Prod.snd hloop), hobj, hinfo, length_map]
    rw [names_of_not_broken hbroken, Nat.zero_add]
    constructor
    · intro hlen
      refine ⟨hbroken, (hstarts.eq_of_length ?_).symm⟩
      rw [length_map, hlen]
    · intro heq
      rw [heq.2, length_map]
  · rw [hbuild] at hloop
    rw [drop_zero] at hstarts
    have herror := parseBuf_ne_none_of_error hloop
    refine ⟨iff_of_false herror ?_, fun h => absurd h herror⟩
    rintro ⟨hbroken, rfl⟩
    apply hstarts
    have hnames := names_of_not_broken hbroken
    exact ⟨hbroken, [], by rw [append_nil, hnames]⟩

end Lsvmi.Procfs.NetSnmp6
