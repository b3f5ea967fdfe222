import Lsvmi.Procfs.PidStatusItems

/-!
# Contents of /proc/PID/status parsed one after the other

An object that has been used gives the same as a new one unless something from before gets through,
which can be a unit, a number or a byte slice that is not cleared.
-/

namespace Lsvmi.Procfs.PidStatus

open ProcPid ParseState Option
open Reasoning

variable {pidStatus : PidStatus} {field : PidStatusField} {st : ParseState}

theorem UnitsOk.congr {pidStatus' : PidStatus} (h : UnitsOk pidStatus)
    (hunits : pidStatus'.bsfu = pidStatus.bsfu) : UnitsOk pidStatus' :=
  ⟨fun field => by rw [hunits]; exact h.ne_nil field,
    fun field hfield => by rw [hunits]; exact h.unitField field hfield⟩

theorem newPidStatus_unitsOk : UnitsOk newPidStatus := ⟨fun _ => nofun, fun _ _ => rfl⟩

theorem checkValue_bsfu (st : ParseState) (lineNum : Nat) (line : Bytes) (field : PidStatusField)
    (emptyValueOK : Bool) (value rest : Bytes) :
    (st.checkValue lineNum line field emptyValueOK value rest).1.pidStatus.bsfu =
      st.pidStatus.bsfu := by
  unfold checkValue
  split
  · rfl
  · rfl

section

variable (h : UnitsOk st.pidStatus)
include h

theorem UnitsOk.setUnit {unit : Bytes} (hfield : dataTypeOf field = .singleValUnit)
    (hunit : unit ≠ []) :
    UnitsOk (st.setUnit field unit).pidStatus where
  ne_nil := by
    intro f hnil
    by_cases hf : f = field
    · subst hf
      rw [setUnit_self] at hnil
      exact hunit (some.inj hnil)
    · rw [setUnit_of_ne _ _ _ hf] at hnil
      exact h.ne_nil f hnil
  unitField := by
    intro f hf
    have hne : f ≠ field := by
      rintro rfl
      exact hf hfield
    rw [setUnit_of_ne _ _ _ hne]
    exact h.unitField f hf

theorem UnitsOk.parseValue (lineNum : Nat) (line buf : Bytes) {handling : LineHandling}
    (hok : handlingOk handling) :
    UnitsOk (st.parseValue lineNum line buf handling).1.pidStatus := by
  cases handling with
  | ulong field =>
    refine h.congr ?_
    rw [ParseState.parseValue]
    generalize nextField buf = next
    obtain ⟨word, sep, rest⟩ := next
    simp only
    cases invalidDigit word with
    | none => rfl
    | some c => rfl
  | byteSlice dataType field emptyValueOK =>
    cases dataType with
    | list | singleVal => exact h.congr (checkValue_bsfu _ _ _ _ _ _ _)
    | singleValUnit =>
      have hfield : dataTypeOf field = .singleValUnit := by
        have htype := (Bool.and_eq_true_iff.mp hok).1
        rw [beq_iff_eq] at htype
        exact htype.symm
      rw [ParseState.parseValue]
      generalize singleValue buf = single
      obtain ⟨value, eol, rest⟩ := single
      simp only
      split
      · exact h.congr (checkValue_bsfu _ _ _ _ _ _ _)
      · split
        · exact h
        · rename_i hunit
          exact (h.setUnit hfield hunit).congr (checkValue_bsfu _ _ _ _ _ _ _)

theorem UnitsOk.parseLine (lineNum : Nat) (buf : Bytes) :
    UnitsOk (st.parseLine lineNum buf).1.pidStatus := by
  rw [ParseState.parseLine]
  split
  · exact h
  · split
    · exact h
    · rename_i hhandling
      exact h.parseValue lineNum _ _ (lineHandling_ok hhandling)

theorem UnitsOk.parseLines (fuel lineNum : Nat) (buf : Bytes) :
    UnitsOk (st.parseLines fuel lineNum buf).1.pidStatus := by
  induction fuel generalizing st lineNum buf with
  | zero => exact h
  | succ fuel ih =>
    cases buf with
    | nil => exact h
    | cons c buf =>
      have hline := h.parseLine (lineNum + 1) (c :: buf)
      rw [parseLines]
      generalize st.parseLine (lineNum + 1) (c :: buf) = result at hline
      obtain ⟨st₁, outcome⟩ := result
      cases outcome with
      | error e => exact hline
      | ok rest => exact ih hline (lineNum + 1) rest

end

theorem UnitsOk.parse (h : UnitsOk pidStatus) (file : Option Bytes) :
    UnitsOk (parse pidStatus file).1 := by
  cases file with
  | none => exact h
  | some file =>
    rw [PidStatus.parse]
    generalize readFile pidStatusMaxReadSize file = read
    obtain ⟨buf, truncated⟩ := read
    cases truncated with
    | true => exact h
    | false =>
      show UnitsOk (parseContent pidStatus buf).1
      have hstart : UnitsOk (start pidStatus).pidStatus := h
      have hlines := hstart.parseLines buf.length 0 buf
      rw [parseContent]
      generalize (start pidStatus).parseLines buf.length 0 buf = result at hlines
      obtain ⟨st, error⟩ := result
      cases error with
      | none => exact UnitsOk.congr hlines st.clearMissing_bsfu
      | some e => exact hlines

def after (history : List (Option Bytes)) : PidStatus :=
  history.foldl (fun pidStatus file => (parse pidStatus file).1) newPidStatus

theorem after_unitsOk (history : List (Option Bytes)) : UnitsOk (after history) := by
  have hfold (pidStatus : PidStatus) (h : UnitsOk pidStatus) :
      UnitsOk (history.foldl (fun pidStatus file => (parse pidStatus file).1) pidStatus) := by
    induction history generalizing pidStatus with
    | nil => exact h
    | cons file history ih => exact ih _ (h.parse file)
  exact hfold newPidStatus newPidStatus_unitsOk

structure Result (items : List Item) (pidStatus pidStatus' : PidStatus) : Prop where
  nf : ∀ field, pidStatus'.nf field =
    (lastOf (Item.numberOf field) items).getD (pidStatus.nf field)
  bsfu : ∀ field, pidStatus'.bsfu field =
    (pidStatus.bsfu field).or (firstOf (Item.unitOf field) items)
  found : ∀ field value, lastOf (Item.valueOf field) items = some value →
    shown field (pidStatus'.bsf field) = shown field (some value)
  missing : ∀ field, lastOf (Item.valueOf field) items = none →
    shown field (pidStatus'.bsf field) = shown field
      (if storeCount items < pidStatusByteSliceNumFields then none else pidStatus.bsf field)

def UnitsGiven (pidStatus : PidStatus) (items : List Item) : Prop :=
  ∀ field, firstOf (Item.unitOf field) items = some [] → pidStatus.bsfu field ≠ none

open Item

theorem Applied.result {items : List Item}
    (h : Applied items (start pidStatus) st) : Result items pidStatus st.clearMissing := by
  have hcount : st.missingByteSliceFieldsCnt > 0 ↔
      storeCount items < pidStatusByteSliceNumFields := by
    have hmissing : st.missingByteSliceFieldsCnt =
        pidStatusByteSliceNumFields - storeCount items := h.missing
    omega
  have hfound (field : PidStatusField) : st.foundByteSliceFields field =
      (lastOf (valueOf field) items).isSome := h.found field
  refine ⟨?_, ?_, ?_, ?_⟩
  · intro field
    rw [st.clearMissing_nf]
    exact h.nf field
  · intro field
    rw [st.clearMissing_bsfu]
    exact h.bsfu field
  · intro field value hvalue
    have hkept : ¬ (st.missingByteSliceFieldsCnt > 0 ∧ st.foundByteSliceFields field = false) := by
      rw [hfound, hvalue]
      exact fun hboth => Bool.noConfusion hboth.2
    rw [st.clearMissing_bsf, if_neg hkept, h.bsf, hvalue]
    rfl
  · intro field hnone
    have hbsf := h.bsf field
    rw [hnone] at hbsf
    rw [st.clearMissing_bsf, hfound, hnone]
    by_cases hless : storeCount items < pidStatusByteSliceNumFields
    · rw [if_pos ⟨hcount.mpr hless, rfl⟩, if_pos hless]
    · rw [if_neg fun hboth => hless (hcount.mp hboth.1), if_neg hless]
      exact hbsf

theorem parse_accepts (hunits : UnitsOk pidStatus) {file : Option Bytes} {items : List Item}
    (hitems : fileItems file = some items) (hgiven : UnitsGiven pidStatus items) :
    (parse pidStatus file).2 = none ∧ Result items pidStatus (parse pidStatus file).1 := by
  have hstart : UnitsOk (start pidStatus).pidStatus := hunits
  have hok := fileItems_ok hitems
  obtain ⟨st, happly⟩ := (applyAll_isSome_iff hok hstart).mpr hgiven
  rw [(parse_ok_iff pidStatus st.clearMissing file).mpr ⟨items, st, hitems, happly, rfl⟩]
  exact ⟨rfl, (applied_applyAll hok hstart happly).result⟩

theorem parse_accepted (hunits : UnitsOk pidStatus) {file : Option Bytes}
    (h : (parse pidStatus file).2 = none) :
    ∃ items, fileItems file = some items ∧ UnitsGiven pidStatus items := by
  have hstart : UnitsOk (start pidStatus).pidStatus := hunits
  have hparse : parse pidStatus file = ((parse pidStatus file).1, none) := Prod.ext rfl h
  obtain ⟨items, st, hitems, happly, -⟩ := (parse_ok_iff _ _ _).mp hparse
  exact ⟨items, hitems, (applyAll_isSome_iff (fileItems_ok hitems) hstart).mp ⟨st, happly⟩⟩

theorem firstOf_eq_none_iff {α : Type} (g : Item → Option α) (items : List Item) :
    firstOf g items = none ↔ ∀ item ∈ items, g item = none := by
  induction items with
  | nil => exact ⟨fun _ => List.forall_mem_nil _, fun _ => rfl⟩
  | cons item items ih => rw [firstOf, or_eq_none_iff, ih, List.forall_mem_cons]

theorem lastOf_eq_none_iff {α : Type} (g : Item → Option α) (items : List Item) :
    lastOf g items = none ↔ ∀ item ∈ items, g item = none := by
  induction items with
  | nil => exact ⟨fun _ => List.forall_mem_nil _, fun _ => rfl⟩
  | cons item items ih => rw [lastOf, or_eq_none_iff, ih, List.forall_mem_cons, and_comm]

theorem Item.Ok.valueOf_eq_none_iff {item : Item} (hok : item.Ok)
    (hfield : dataTypeOf field = .singleValUnit) :
    item.valueOf field = none ↔ item.unitOf field = none := by
  cases item with
  | other => exact Iff.rfl
  | number _ _ => exact Iff.rfl
  | text f value =>
    have hf : f ≠ field := by
      rintro rfl
      exact hok.1 hfield
    rw [valueOf, if_neg hf]
    exact Iff.rfl
  | sized f value unit =>
    rw [valueOf, unitOf]
    by_cases hf : f = field
    all_goals simp [hf]

section

variable {items : List Item} (hok : ∀ item ∈ items, item.Ok) {field : PidStatusField}
include hok

theorem value_eq_none_iff (hfield : dataTypeOf field = .singleValUnit) :
    lastOf (valueOf field) items = none ↔ firstOf (unitOf field) items = none := by
  rw [lastOf_eq_none_iff, firstOf_eq_none_iff]
  exact forall₂_congr fun item hitem => (hok item hitem).valueOf_eq_none_iff hfield

theorem unitField_of_unit (h : firstOf (unitOf field) items ≠ none) :
    dataTypeOf field = .singleValUnit := by
  by_contra hfield
  exact h ((firstOf_eq_none_iff _ _).mpr fun item hitem => (hok item hitem).unitOf_eq_none hfield)

theorem Result.bsf_eq_none_iff (h : Result items newPidStatus pidStatus)
    (hfield : dataTypeOf field = .singleValUnit) :
    pidStatus.bsf field = none ↔ firstOf (unitOf field) items = none := by
  have hshown (value : Option Bytes) : shown field value = value :=
    if_neg (ne_groups_of_unit hfield)
  rw [← value_eq_none_iff hok hfield]
  cases hvalue : lastOf (valueOf field) items with
  | none =>
    have hmissing := h.missing field hvalue
    rw [hshown, hshown] at hmissing
    rw [hmissing]
    exact ⟨fun _ => rfl, fun _ => ite_self none⟩
  | some value =>
    have hfound := h.found field value hvalue
    rw [hshown, hshown] at hfound
    rw [hfound]

end

/-- What `GetData` returns, with the units for the fields that are present. -/
structure SameData (used new : PidStatus) : Prop where
  bsf : ∀ field, shown field (used.bsf field) = shown field (new.bsf field)
  bsfu : ∀ field, new.bsf field ≠ none → used.bsfu field = new.bsfu field
  nf : ∀ field, used.nf field = new.nf field

/-- The object accepts the file if and only if a new one does, and with the same data. -/
def SameAsNew (pidStatus : PidStatus) (file : Option Bytes) : Prop :=
  ((parse pidStatus file).2 = none ↔ (parse newPidStatus file).2 = none) ∧
    ((parse pidStatus file).2 = none →
      SameData (parse pidStatus file).1 (parse newPidStatus file).1)

/-- The units that the object has are the ones in the file, the numbers that the file does not have
are 0, and there are few enough byte slices for the missing ones to be cleared. -/
structure NothingLeft (pidStatus : PidStatus) (items : List Item) : Prop where
  units : ∀ field unit old, firstOf (Item.unitOf field) items = some unit →
    pidStatus.bsfu field = some old → old = unit
  numbers : ∀ field, lastOf (Item.numberOf field) items = none → pidStatus.nf field = 0
  fields : pidStatusByteSliceNumFields ≤ storeCount items →
    ∀ field, lastOf (Item.valueOf field) items = none →
      shown field (pidStatus.bsf field) = shown field none

def Independent (pidStatus : PidStatus) (file : Option Bytes) : Prop :=
  ∀ items, fileItems file = some items → UnitsGiven pidStatus items → NothingLeft pidStatus items

section

variable {items : List Item} {pidStatus used new : PidStatus}

theorem NothingLeft.of_sameData (hok : ∀ item ∈ items, item.Ok)
    (hused : Result items pidStatus used) (hnew : Result items newPidStatus new)
    (h : SameData used new) : NothingLeft pidStatus items where
  units := by
    intro field unit old hunit hold
    have hfield := unitField_of_unit hok (hunit ▸ some_ne_none unit)
    have hpresent : new.bsf field ≠ none := by
      rw [ne_eq, hnew.bsf_eq_none_iff hok hfield, hunit]
      exact some_ne_none unit
    have heq := h.bsfu field hpresent
    rw [hused.bsfu, hnew.bsfu, hold, hunit] at heq
    exact some.inj heq
  numbers := by
    intro field hnone
    have heq := h.nf field
    rw [hused.nf, hnew.nf, hnone] at heq
    exact heq
  fields := by
    intro hcount field hnone
    have heq := h.bsf field
    have hnot := Int.not_lt.mpr hcount
    rw [hused.missing field hnone, hnew.missing field hnone, if_neg hnot, if_neg hnot] at heq
    exact heq

theorem NothingLeft.sameData (hunits : UnitsOk pidStatus) (hok : ∀ item ∈ items, item.Ok)
    (hused : Result items pidStatus used) (hnew : Result items newPidStatus new)
    (h : NothingLeft pidStatus items) : SameData used new where
  bsf := by
    intro field
    cases hvalue : lastOf (valueOf field) items with
    | some value => rw [hused.found field value hvalue, hnew.found field value hvalue]
    | none =>
      rw [hused.missing field hvalue, hnew.missing field hvalue]
      by_cases hless : storeCount items < pidStatusByteSliceNumFields
      · rw [if_pos hless, if_pos hless]
      · rw [if_neg hless, if_neg hless]
        exact h.fields (Int.not_lt.mp hless) field hvalue
  bsfu := by
    intro field hpresent
    rw [hused.bsfu, hnew.bsfu]
    cases hold : pidStatus.bsfu field with
    | none => rfl
    | some old =>
      -- The field has a unit, so that its line has one.
      have hfield : dataTypeOf field = .singleValUnit := by
        by_contra hfield
        rw [hunits.unitField field hfield] at hold
        cases hold
      have hunit := fun hnone => hpresent ((hnew.bsf_eq_none_iff hok hfield).mpr hnone)
      obtain ⟨unit, hunit⟩ := ne_none_iff_exists'.mp hunit
      rw [hunit, h.units field unit old hunit hold]
      rfl
  nf := by
    intro field
    rw [hused.nf, hnew.nf]
    cases hnumber : lastOf (numberOf field) items with
    | some value => rfl
    | none => exact h.numbers field hnumber

end

/-- A used object parses a file as a new one does if and only if nothing of the files before gets
through. -/
theorem parse_sameAsNew_iff (history : List (Option Bytes)) (file : Option Bytes) :
    SameAsNew (after history) file ↔ Independent (after history) file := by
  have hunits := after_unitsOk history
  constructor
  · rintro ⟨haccept, hdata⟩ items hitems hgiven
    obtain ⟨hok, hused⟩ := parse_accepts hunits hitems hgiven
    obtain ⟨items', hitems', hgiven'⟩ := parse_accepted newPidStatus_unitsOk (haccept.mp hok)
    rw [hitems] at hitems'
    cases hitems'
    obtain ⟨-, hnew⟩ := parse_accepts newPidStatus_unitsOk hitems hgiven'
    exact NothingLeft.of_sameData (fileItems_ok hitems) hused hnew (hdata hok)
  · intro h
    -- With the units of a new object every line has to have its own.
    have hnew (items : List Item) (hitems : fileItems file = some items)
        (hgiven : UnitsGiven (after history) items) : UnitsGiven newPidStatus items := by
      intro field hnil
      obtain ⟨old, hold⟩ := ne_none_iff_exists'.mp (hgiven field hnil)
      have heq := (h items hitems hgiven).units field [] old hnil hold
      rw [heq] at hold
      exact absurd hold (hunits.ne_nil field)
    constructor
    · constructor
      · intro hok
        obtain ⟨items, hitems, hgiven⟩ := parse_accepted hunits hok
        exact (parse_accepts newPidStatus_unitsOk hitems (hnew items hitems hgiven)).1
      · intro hok
        obtain ⟨items, hitems, hgiven⟩ := parse_accepted newPidStatus_unitsOk hok
        exact (parse_accepts hunits hitems fun field hnil => absurd rfl (hgiven field hnil)).1
    · intro hok
      obtain ⟨items, hitems, hgiven⟩ := parse_accepted hunits hok
      have hused := (parse_accepts hunits hitems hgiven).2
      have hfresh := (parse_accepts newPidStatus_unitsOk hitems (hnew items hitems hgiven)).2
      exact (h items hitems hgiven).sameData hunits (fileItems_ok hitems) hused hfresh

/-- A value without a unit is accepted, a unit stays the one of another file, and so do a number and
a byte slice; in the last file a field has 22 lines. -/
theorem parse_not_sameAsNew :
    ¬ SameAsNew (after [some (utf8 "VmPeak:\t7 kB\n")]) (some (utf8 "VmPeak:\t5\n")) ∧
    ¬ SameAsNew (after [some (utf8 "VmPeak:\t7 kB\n")]) (some (utf8 "VmPeak:\t5 MB\n")) ∧
    ¬ SameAsNew (after [some (utf8 "voluntary_ctxt_switches:\t7\n")]) (some (utf8 "Uid:\t1\n")) ∧
    ¬ SameAsNew (after [some (utf8 "VmPeak:\t7 kB\n")])
      (some (List.replicate 22 (utf8 "Uid:\t1\n")).flatten) := by
  refine ⟨?_, ?_, ?_, ?_⟩
  · intro h
    exact absurd (h.1.mp (by decide +kernel)) (by decide +kernel)
  · intro h
    exact absurd ((h.2 (by decide +kernel)).bsfu .vmPeak (by decide +kernel)) (by decide +kernel)
  · intro h
    exact absurd ((h.2 (by decide +kernel)).nf .voluntaryCtxtSwitches) (by decide +kernel)
  · intro h
    exact absurd ((h.2 (by decide +kernel)).bsf .vmPeak) (by decide +kernel)

end Lsvmi.Procfs.PidStatus
