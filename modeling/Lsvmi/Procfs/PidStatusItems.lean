import Lsvmi.Procfs.PidStatus

/-!
# The lines of /proc/PID/status

What a line means does not depend on the object that parses it, with one exception: a value without
a unit is good only for an object that has the unit from before.  `Parse` is compared here with the
meaning of the lines one after the other.
-/

namespace Lsvmi.Procfs.PidStatus

open ProcPid List Option ParseState
open Reasoning

variable {buf : Bytes} {st st' : ParseState} {field : PidStatusField}

/-! ## The meaning of a line -/

inductive Item where
  | other
  | number (field : PidStatusNumField) (value : UInt64)
  | text (field : PidStatusField) (value : Bytes)
  | sized (field : PidStatusField) (value unit : Bytes)
  deriving DecidableEq, Repr

/-- The meaning of a value, unless it is one that no object accepts. -/
def valueItem (buf : Bytes) : LineHandling → Option Item
  | .ulong field =>
    if invalidDigit (nextField buf).1 = none then
      some (.number field (UInt64.ofNat (decimal (nextField buf).1)))
    else none
  | .byteSlice .list field emptyValueOK =>
    let value := (listValue true [] (buf.dropWhile isWhitespace)).1
    if value = [] ∧ emptyValueOK = false then none else some (.text field value)
  | .byteSlice .singleVal field emptyValueOK =>
    let value := (singleValue buf).1
    if value = [] ∧ emptyValueOK = false then none else some (.text field value)
  | .byteSlice .singleValUnit field emptyValueOK =>
    let (value, eol, buf) := singleValue buf
    if value = [] ∧ emptyValueOK = false then none
    else some (.sized field value (unitValue eol buf).1)

def lineItem (buf : Bytes) : Option Item :=
  match lineName buf with
  | none => none
  | some (name, rest) =>
    match lineHandling name with
    | none => some .other
    | some handling => valueItem rest handling

def Item.apply (st : ParseState) : Item → Option ParseState
  | .other => some st
  | .number field value => some (st.setNumber field value)
  | .text field value => some (st.store field value)
  | .sized field value unit =>
    if (st.pidStatus.bsfu field).getD [] ≠ [] then some (st.store field value)
    else if unit = [] then none
    else some ((st.setUnit field unit).store field value)

/-! ## The rest of the buffer -/

theorem afterLine_lineName {name rest : Bytes} (h : lineName buf = some (name, rest)) :
    afterLine newline rest = afterLine newline buf := by
  have hskip := afterLine_dropWhile isWhitespace_newline buf
  rw [lineName] at h
  split at h
  · rename_i hcolon
    cases h
    have hsplit := takeWhile_append_dropWhile (p := fun c => c ≠ 58 && c ≠ newline)
      (l := buf.dropWhile isWhitespace)
    obtain ⟨tail, htail⟩ := head?_eq_some_iff.mp hcolon.1
    rw [htail] at hsplit
    have hname : newline ∉ (buf.dropWhile isWhitespace).takeWhile fun c => c ≠ 58 && c ≠ newline := by
      intro hmem
      cases mem_takeWhile_imp hmem
    have hcolons : newline ∉ ((buf.dropWhile isWhitespace).takeWhile
        fun c => c ≠ 58 && c ≠ newline) ++ [58] := by
      intro hmem
      obtain hmem | hmem := mem_append.mp hmem
      · exact hname hmem
      · cases mem_singleton.mp hmem
    rw [← hskip, htail, tail_cons, ← hsplit, append_cons, afterLine_append hcolons]
  · cases h

theorem nextLine_nextField (buf : Bytes) :
    nextLine ((nextField buf).2.1 = some newline) (nextField buf).2.2 = afterLine newline buf := by
  rcases hnext : nextField buf with ⟨word, sep, rest⟩
  rcases nextWord_line isWhitespace_newline hnext with
    ⟨-, -, rfl, hend | hend⟩ | ⟨-, -, -, ⟨hsep, -, rfl⟩ | ⟨hsep, -, hafter⟩⟩
  · simp [nextLine, hend]
  · simp [nextLine, hend, afterLine_of_notMem]
  · simp [nextLine, hsep]
  · simp [nextLine, hsep, hafter]

theorem nextLine_singleValue (buf : Bytes) :
    nextLine (singleValue buf).2.1 (singleValue buf).2.2 = afterLine newline buf :=
  nextLine_nextField buf

theorem listValue_rest (wasSep : Bool) (value buf : Bytes) :
    (listValue wasSep value buf).2 = afterLine newline buf := by
  induction buf generalizing wasSep value with
  | nil => rfl
  | cons c buf ih =>
    rw [listValue]
    split
    · rename_i hc
      rw [hc, afterLine_nl]
    rename_i hc
    have hpart : newline ∉ [c] := fun hmem => hc (mem_singleton.mp hmem).symm
    have hrest : afterLine newline (c :: buf) = afterLine newline buf := afterLine_append hpart buf
    rw [hrest]
    split
    · exact ih _ _
    · split
      all_goals exact ih _ _

theorem nextLine_unitValue {eol : Bool} (h : (unitValue eol buf).1 ≠ []) :
    nextLine (unitValue eol buf).2.1 (unitValue eol buf).2.2 = nextLine eol buf := by
  cases eol with
  | true => exact absurd rfl h
  | false => exact nextLine_singleValue buf

/-! ## Lines against their meaning -/

/-- The object takes what a line means and goes on with the rest, or there is an error. -/
inductive LineOutcome (st : ParseState) (item : Option Item) (rest : Bytes) :
    ParseState × Except PidStatusError Bytes → Prop
  | ok {i : Item} {st' : ParseState} (hitem : item = some i) (happly : i.apply st = some st') :
    LineOutcome st item rest (st', .ok rest)
  | error (hitem : ∀ i, item = some i → i.apply st = none) (st' : ParseState)
    (e : PidStatusError) : LineOutcome st item rest (st', .error e)

variable {item : Item}

theorem checkValue_outcome {value : Bytes} (happly : item.apply st = some (st'.store field value))
    (emptyValueOK : Bool) (lineNum : Nat) (line rest : Bytes) :
    LineOutcome st (if value = [] ∧ emptyValueOK = false then none else some item) rest
      (st'.checkValue lineNum line field emptyValueOK value rest) := by
  rw [checkValue]
  by_cases hempty : value = [] ∧ emptyValueOK = false
  · rw [if_pos hempty, if_pos hempty]
    exact .error (fun i hi => by cases hi) _ _
  · rw [if_neg hempty, if_neg hempty]
    exact .ok rfl happly

open Item

theorem parseValue_outcome (st : ParseState) (lineNum : Nat) (line buf : Bytes)
    (handling : LineHandling) :
    LineOutcome st (valueItem buf handling) (afterLine newline buf)
      (st.parseValue lineNum line buf handling) := by
  cases handling with
  | ulong field =>
    rw [parseValue, valueItem, ← nextLine_nextField buf, ← foldl_digits64]
    generalize nextField buf = next
    obtain ⟨word, sep, rest⟩ := next
    simp only
    cases invalidDigit word with
    | some c =>
      rw [if_neg (some_ne_none c)]
      exact .error (fun i hi => by cases hi) _ _
    | none =>
      rw [if_pos rfl]
      exact .ok rfl rfl
  | byteSlice dataType field emptyValueOK =>
    cases dataType with
    | list =>
      rw [← afterLine_dropWhile isWhitespace_newline buf, ← listValue_rest true []]
      exact checkValue_outcome rfl emptyValueOK lineNum line _
    | singleVal =>
      rw [← nextLine_singleValue buf]
      exact checkValue_outcome rfl emptyValueOK lineNum line _
    | singleValUnit =>
      rw [← nextLine_singleValue buf, parseValue, valueItem]
      generalize singleValue buf = single
      obtain ⟨value, eol, rest⟩ := single
      simp only
      by_cases hknown : (st.pidStatus.bsfu field).getD [] ≠ []
      · rw [if_pos hknown]
        refine checkValue_outcome ?_ emptyValueOK lineNum line _
        rw [apply, if_pos hknown]
      rw [if_neg hknown]
      by_cases hunit : (unitValue eol rest).1 = []
      · rw [if_pos hunit]
        refine .error ?_ _ _
        intro i hi
        split at hi
        · cases hi
        · cases hi
          rw [apply, if_neg hknown, if_pos hunit]
      · rw [if_neg hunit, nextLine_unitValue hunit]
        refine checkValue_outcome ?_ emptyValueOK lineNum line _
        rw [apply, if_neg hknown, if_neg hunit]

theorem parseLine_outcome (st : ParseState) (lineNum : Nat) (buf : Bytes) :
    LineOutcome st (lineItem buf) (afterLine newline buf) (st.parseLine lineNum buf) := by
  rw [parseLine, lineItem]
  cases hname : lineName buf with
  | none => exact .error (fun i hi => by cases hi) _ _
  | some named =>
    obtain ⟨name, rest⟩ := named
    rw [← afterLine_lineName hname]
    simp only
    cases lineHandling name with
    | none => exact .ok rfl rfl
    | some handling => exact parseValue_outcome st lineNum (getCurrentLine buf) rest handling

/-! ## Contents -/

def contentItems : Nat → Bytes → Option (List Item)
  | 0, _ => some []
  | _ + 1, [] => some []
  | fuel + 1, c :: buf =>
    (lineItem (c :: buf)).bind fun item =>
      (contentItems fuel (afterLine newline (c :: buf))).map (item :: ·)

variable {items : List Item}

def applyAll (items : List Item) (st : ParseState) : Option ParseState :=
  items.foldlM (fun st item => item.apply st) st

theorem applyAll_cons (item : Item) (items : List Item) (st : ParseState) :
    applyAll (item :: items) st = (item.apply st).bind (applyAll items) := foldlM_cons

theorem parseLines_iff (fuel : Nat) (st st' : ParseState) (lineNum : Nat) (buf : Bytes) :
    st.parseLines fuel lineNum buf = (st', none) ↔
      ∃ items, contentItems fuel buf = some items ∧ applyAll items st = some st' := by
  have hend (st : ParseState) : (st, none) = (st', (none : Option PidStatusError)) ↔
      ∃ items, some [] = some items ∧ applyAll items st = some st' := by
    constructor
    · intro h
      cases h
      exact ⟨[], rfl, rfl⟩
    · rintro ⟨items, hitems, happly⟩
      cases hitems
      cases happly
      rfl
  induction fuel generalizing st lineNum buf with
  | zero => exact hend st
  | succ fuel ih =>
    cases buf with
    | nil => exact hend st
    | cons c buf =>
      rw [parseLines, contentItems]
      have houtcome := parseLine_outcome st (lineNum + 1) (c :: buf)
      generalize st.parseLine (lineNum + 1) (c :: buf) = result at houtcome
      cases houtcome with
      | ok hitem happly =>
        rename_i item st₁
        rw [hitem, bind_some]
        refine (ih st₁ (lineNum + 1) _).trans ?_
        constructor
        · rintro ⟨items, hitems, hall⟩
          refine ⟨item :: items, by rw [hitems, map_some], ?_⟩
          rw [applyAll_cons, happly, bind_some, hall]
        · rintro ⟨all, hmap, hall⟩
          obtain ⟨items, hitems, rfl⟩ := map_eq_some_iff.mp hmap
          rw [applyAll_cons, happly, bind_some] at hall
          exact ⟨items, hitems, hall⟩
      | error hitem st₁ e =>
        constructor
        · intro h
          cases h
        rintro ⟨all, hbind, hall⟩
        obtain ⟨item, hsome, hmap⟩ := bind_eq_some_iff.mp hbind
        obtain ⟨items, -, rfl⟩ := map_eq_some_iff.mp hmap
        rw [applyAll_cons, hitem item hsome] at hall
        cases hall

def fileItems (file : Option Bytes) : Option (List Item) :=
  file.bind fun buf =>
    if buf.length < pidStatusMaxReadSize then contentItems buf.length buf else none

theorem parse_ok_iff (pidStatus pidStatus' : PidStatus) (file : Option Bytes) :
    parse pidStatus file = (pidStatus', none) ↔
      ∃ items st, fileItems file = some items ∧ applyAll items (start pidStatus) = some st ∧
        st.clearMissing = pidStatus' := by
  cases file with
  | none =>
    constructor
    · intro h
      cases h
    · rintro ⟨items, st, hitems, -⟩
      cases hitems
  | some buf =>
    rw [parse, fileItems, bind_some, readFile]
    by_cases hlength : buf.length < pidStatusMaxReadSize
    · rw [if_pos (.inr hlength), if_pos hlength]
      show parseContent pidStatus buf = _ ↔ _
      rw [parseContent]
      have hlines := parseLines_iff buf.length (start pidStatus)
      generalize hparse : (start pidStatus).parseLines buf.length 0 buf = result
      obtain ⟨st, error⟩ := result
      cases error with
      | none =>
        obtain ⟨items, hitems, happly⟩ := (hlines st 0 buf).mp hparse
        constructor
        · intro h
          cases h
          exact ⟨items, st, hitems, happly, rfl⟩
        rintro ⟨items', st', hitems', happly', rfl⟩
        rw [hitems] at hitems'
        cases hitems'
        rw [happly] at happly'
        cases happly'
        rfl
      | some e =>
        constructor
        · intro h
          cases h
        · rintro ⟨items, st', hitems, happly, -⟩
          rw [(hlines st' 0 buf).mpr ⟨items, hitems, happly⟩] at hparse
          cases hparse
    · have hread : ¬ (pidStatusMaxReadSize = 0 ∨ buf.length < pidStatusMaxReadSize) := by
        rintro (hzero | hlt)
        · cases hzero
        · exact hlength hlt
      rw [if_neg hread, if_neg hlength]
      constructor
      · intro h
        cases h
      · rintro ⟨items, st, hitems, -⟩
        cases hitems

/-! ## Fields and their lines -/

def dataTypeOf : PidStatusField → DataType
  | .uid | .gid | .groups => .list
  | .cpusAllowedList | .memsAllowedList => .singleVal
  | _ => .singleValUnit

def handlingOk : LineHandling → Bool
  | .byteSlice dataType field emptyValueOK =>
    dataType == dataTypeOf field && emptyValueOK == (field == .groups)
  | .ulong _ => true

theorem lineHandling_ok {name : Bytes} {handling : LineHandling}
    (h : lineHandling name = some handling) : handlingOk handling := by
  have hall : (pidStatusLineHandlingMap.all fun entry => handlingOk entry.2) := rfl
  obtain ⟨entry, hfind, rfl⟩ := map_eq_some_iff.mp h
  exact List.all_eq_true.mp hall entry (mem_of_find?_eq_some hfind)

def Item.Ok : Item → Prop
  | .other => True
  | .number _ _ => True
  | .text field value => dataTypeOf field ≠ .singleValUnit ∧ (value = [] → field = .groups)
  | .sized field value _ => dataTypeOf field = .singleValUnit ∧ value ≠ []

theorem ne_groups_of_unit (h : dataTypeOf field = .singleValUnit) : field ≠ .groups := by
  rintro rfl
  cases h

theorem valueItem_ok {handling : LineHandling}
    (hok : handlingOk handling) (h : valueItem buf handling = some item) : item.Ok := by
  cases handling with
  | ulong field =>
    rw [valueItem] at h
    split at h
    · cases h
      trivial
    · cases h
  | byteSlice dataType field emptyValueOK =>
    obtain ⟨htype, hempty⟩ := Bool.and_eq_true_iff.mp hok
    rw [beq_iff_eq] at htype hempty
    have hgroups (value : Bytes) (hvalue : ¬ (value = [] ∧ emptyValueOK = false)) (hnil : value = []) :
        field = .groups := by
      rw [hempty, beq_eq_false_iff_ne] at hvalue
      exact not_not.mp fun hne => hvalue ⟨hnil, hne⟩
    have htext (value : Bytes) (hne : dataType ≠ .singleValUnit)
        (h : (if value = [] ∧ emptyValueOK = false then none else some (text field value)) =
          some item) : item.Ok := by
      split at h
      · cases h
      · rename_i hvalue
        cases h
        exact ⟨htype ▸ hne, hgroups value hvalue⟩
    cases dataType with
    | list | singleVal => exact htext _ (by decide) h
    | singleValUnit =>
      rw [valueItem] at h
      generalize singleValue buf = single at h
      obtain ⟨value, eol, rest⟩ := single
      simp only at h
      split at h
      · cases h
      · rename_i hvalue
        cases h
        exact ⟨htype.symm, fun hnil => ne_groups_of_unit htype.symm (hgroups _ hvalue hnil)⟩

theorem lineItem_ok (h : lineItem buf = some item) : item.Ok := by
  rw [lineItem] at h
  split at h
  · cases h
  split at h
  · cases h
    trivial
  · rename_i handling hhandling
    exact valueItem_ok (lineHandling_ok hhandling) h

theorem contentItems_ok {fuel : Nat}
    (h : contentItems fuel buf = some items) : ∀ item ∈ items, item.Ok := by
  induction fuel generalizing buf items with
  | zero =>
    cases h
    exact forall_mem_nil _
  | succ fuel ih =>
    cases buf with
    | nil =>
      cases h
      exact forall_mem_nil _
    | cons c buf =>
      obtain ⟨item, hitem, hmap⟩ := bind_eq_some_iff.mp h
      obtain ⟨rest, hrest, rfl⟩ := map_eq_some_iff.mp hmap
      exact forall_mem_cons.mpr ⟨lineItem_ok hitem, ih hrest⟩

theorem fileItems_ok {file : Option Bytes} (h : fileItems file = some items) :
    ∀ item ∈ items, item.Ok := by
  obtain ⟨buf, -, hitems⟩ := bind_eq_some_iff.mp h
  split at hitems
  · exact contentItems_ok hitems
  · cases hitems

/-! ## What the lines leave in the object -/

def Item.numberOf (field : PidStatusNumField) : Item → Option UInt64
  | .number f value => if f = field then some value else none
  | _ => none

def Item.valueOf (field : PidStatusField) : Item → Option Bytes
  | .text f value => if f = field then some value else none
  | .sized f value _ => if f = field then some value else none
  | _ => none

def Item.unitOf (field : PidStatusField) : Item → Option Bytes
  | .sized f _ unit => if f = field then some unit else none
  | _ => none

def Item.stores : Item → Int
  | .text _ _ => 1
  | .sized _ _ _ => 1
  | _ => 0

def storeCount : List Item → Int
  | [] => 0
  | item :: items => item.stores + storeCount items

def firstOf {α : Type} (g : Item → Option α) : List Item → Option α
  | [] => none
  | item :: items => (g item).or (firstOf g items)

def lastOf {α : Type} (g : Item → Option α) : List Item → Option α
  | [] => none
  | item :: items => (lastOf g items).or (g item)

/-- The byte slice as its readers see it: it makes no difference whether empty `Groups` are nil. -/
def shown (field : PidStatusField) (value : Option Bytes) : Option Bytes :=
  if field = .groups then some (value.getD []) else value

structure UnitsOk (pidStatus : PidStatus) : Prop where
  ne_nil : ∀ field, pidStatus.bsfu field ≠ some []
  unitField : ∀ field, dataTypeOf field ≠ .singleValUnit → pidStatus.bsfu field = none

structure Applied (items : List Item) (st st' : ParseState) : Prop where
  nf : ∀ field, st'.pidStatus.nf field =
    (lastOf (Item.numberOf field) items).getD (st.pidStatus.nf field)
  bsf : ∀ field, shown field (st'.pidStatus.bsf field) =
    (lastOf (Item.valueOf field) items).elim (shown field (st.pidStatus.bsf field))
      fun value => shown field (some value)
  bsfu : ∀ field, st'.pidStatus.bsfu field =
    (st.pidStatus.bsfu field).or (firstOf (Item.unitOf field) items)
  found : ∀ field, st'.foundByteSliceFields field =
    (st.foundByteSliceFields field || (lastOf (Item.valueOf field) items).isSome)
  missing : st'.missingByteSliceFieldsCnt = st.missingByteSliceFieldsCnt - storeCount items

theorem UnitsOk.known_iff {pidStatus : PidStatus} (h : UnitsOk pidStatus) (field : PidStatusField) :
    (pidStatus.bsfu field).getD [] ≠ [] ↔ pidStatus.bsfu field ≠ none := by
  have hne := h.ne_nil field
  cases hunit : pidStatus.bsfu field with
  | none => simp
  | some unit =>
    rw [hunit] at hne
    simpa using hne

theorem Applied.nil (st : ParseState) : Applied [] st st where
  nf := fun _ => rfl
  bsf := fun _ => rfl
  bsfu := fun _ => or_none.symm
  found := fun _ => (Bool.or_false _).symm
  missing := (Int.sub_zero _).symm

theorem Applied.cons {st₁ st₂ : ParseState}
    (h : Applied [item] st st₁) (hitems : Applied items st₁ st₂) :
    Applied (item :: items) st st₂ where
  nf := by
    intro field
    rw [hitems.nf, h.nf, lastOf, lastOf, lastOf]
    cases lastOf (numberOf field) items with
    | none => rfl
    | some value => rfl
  bsf := by
    intro field
    rw [hitems.bsf, h.bsf, lastOf, lastOf, lastOf]
    cases lastOf (valueOf field) items with
    | none => rfl
    | some value => rfl
  bsfu := by
    intro field
    rw [hitems.bsfu, h.bsfu, firstOf, firstOf, firstOf, or_none, Option.or_assoc]
  found := by
    intro field
    rw [hitems.found, h.found, lastOf, lastOf, lastOf, none_or, isSome_or]
    cases st.foundByteSliceFields field with
    | true => rfl
    | false => rw [Bool.false_or, Bool.false_or, Bool.or_comm]
  missing := by
    rw [hitems.missing, h.missing, storeCount, storeCount, storeCount]
    omega

structure SameButUnits (st st₁ : ParseState) : Prop where
  nf : st₁.pidStatus.nf = st.pidStatus.nf
  bsf : st₁.pidStatus.bsf = st.pidStatus.bsf
  found : st₁.foundByteSliceFields = st.foundByteSliceFields
  missing : st₁.missingByteSliceFieldsCnt = st.missingByteSliceFieldsCnt

theorem applied_store {value : Bytes}
    {st₁ : ParseState} (hsame : SameButUnits st st₁) (hvalue : value = [] → field = .groups)
    (hvalueOf : ∀ f, item.valueOf f = if field = f then some value else none)
    (hnumberOf : ∀ f, item.numberOf f = none) (hstores : item.stores = 1)
    (hunits : ∀ f, st₁.pidStatus.bsfu f = (st.pidStatus.bsfu f).or (item.unitOf f)) :
    Applied [item] st (st₁.store field value) where
  nf := by
    intro f
    rw [lastOf, lastOf, hnumberOf]
    exact congrFun hsame.nf f
  bsf := by
    intro f
    rw [lastOf, lastOf, hvalueOf, none_or]
    by_cases hf : field = f
    · subst hf
      rw [if_pos rfl, elim_some, store_bsf_self]
      by_cases hnil : value = []
      · rw [if_pos hnil, hvalue hnil, hnil, shown, shown, if_pos rfl, if_pos rfl]
        cases st₁.pidStatus.bsf .groups with
        | none => rfl
        | some old => rfl
      · rw [if_neg hnil]
    · rw [if_neg hf, elim_none, store_bsf_of_ne _ _ _ (Ne.symm hf), hsame.bsf]
  bsfu := by
    intro f
    rw [firstOf, firstOf, or_none]
    exact hunits f
  found := by
    intro f
    rw [lastOf, lastOf, hvalueOf, none_or]
    by_cases hf : field = f
    · subst hf
      rw [store_found_self, if_pos rfl, isSome_some, Bool.or_true]
    · rw [store_found_of_ne _ _ _ (Ne.symm hf), if_neg hf, isSome_none, Bool.or_false, hsame.found]
  missing := by
    rw [storeCount, storeCount, hstores, ← hsame.missing]
    rfl

theorem applied_apply (hok : item.Ok)
    (hunits : UnitsOk st.pidStatus) (h : item.apply st = some st') : Applied [item] st st' := by
  cases item with
  | other =>
    cases h
    exact ⟨fun _ => rfl, fun _ => rfl, fun _ => or_none.symm,
      fun _ => (Bool.or_false _).symm, (Int.sub_zero _).symm⟩
  | number field value =>
    cases h
    refine ⟨?_, fun _ => rfl, fun _ => or_none.symm, fun _ => (Bool.or_false _).symm,
      (Int.sub_zero _).symm⟩
    intro f
    rw [lastOf, lastOf, none_or, numberOf]
    by_cases hf : field = f
    · subst hf
      rw [if_pos rfl]
      exact Function.update_self _ _ _
    · rw [if_neg hf]
      exact Function.update_of_ne (Ne.symm hf) _ _
  | text field value =>
    cases h
    exact applied_store ⟨rfl, rfl, rfl, rfl⟩ hok.2 (fun _ => rfl) (fun _ => rfl) rfl
      fun _ => or_none.symm
  | sized field value unit =>
    have hvalue : value = [] → field = .groups := fun hnil => absurd hnil hok.2
    rw [apply] at h
    by_cases hknown : (st.pidStatus.bsfu field).getD [] ≠ []
    · rw [if_pos hknown] at h
      cases h
      refine applied_store ⟨rfl, rfl, rfl, rfl⟩ hvalue (fun _ => rfl) (fun _ => rfl) rfl ?_
      intro f
      rw [unitOf]
      by_cases hf : field = f
      · subst hf
        obtain ⟨old, hold⟩ := ne_none_iff_exists'.mp ((hunits.known_iff field).mp hknown)
        rw [hold, some_or]
      · rw [if_neg hf, or_none]
    · rw [if_neg hknown] at h
      split at h
      · cases h
      cases h
      refine applied_store ⟨rfl, rfl, rfl, rfl⟩ hvalue (fun _ => rfl) (fun _ => rfl) rfl ?_
      intro f
      rw [unitOf]
      by_cases hf : field = f
      · subst hf
        have hnone : st.pidStatus.bsfu field = none :=
          not_not.mp fun hne => hknown ((hunits.known_iff field).mpr hne)
        rw [hnone, if_pos rfl, setUnit_self, none_or]
      · rw [if_neg hf, or_none, setUnit_of_ne _ _ _ (Ne.symm hf)]

theorem apply_isSome_iff (hunits : UnitsOk st.pidStatus) (item : Item) :
    (item.apply st).isSome ↔
      ∀ field, item.unitOf field = some [] → st.pidStatus.bsfu field ≠ none := by
  cases item with
  | other | number field value | text field value => simp [apply, unitOf]
  | sized field value unit =>
    have hknown := hunits.known_iff field
    simp only [unitOf, ite_none_right_eq_some, some.injEq]
    rw [apply]
    constructor
    · rintro h f ⟨rfl, hnil⟩
      rw [← hknown]
      intro hunknown
      rw [if_neg (not_not.mpr hunknown), if_pos hnil] at h
      cases h
    · intro h
      split
      · rfl
      · rename_i hunknown
        rw [if_neg]
        · rfl
        · exact fun hnil => hunknown (hknown.mpr (h field ⟨rfl, hnil⟩))

theorem Item.Ok.unitOf_eq_none (hok : item.Ok)
    (h : dataTypeOf field ≠ .singleValUnit) : item.unitOf field = none := by
  cases item with
  | other => rfl
  | number _ _ => rfl
  | text _ _ => rfl
  | sized f value unit =>
    have hf : f ≠ field := by
      rintro rfl
      exact h hok.1
    exact if_neg hf

theorem UnitsOk.apply (hunits : UnitsOk st.pidStatus)
    (hok : item.Ok) (h : item.apply st = some st') : UnitsOk st'.pidStatus where
  ne_nil := by
    intro field hnil
    have hsome := (apply_isSome_iff hunits item).mp (by rw [h]; rfl)
    rw [(applied_apply hok hunits h).bsfu, firstOf, firstOf, or_none] at hnil
    cases hold : st.pidStatus.bsfu field with
    | none =>
      rw [hold, none_or] at hnil
      exact hsome field hnil hold
    | some old =>
      rw [hold, some_or] at hnil
      exact hunits.ne_nil field (hold.trans hnil)
  unitField := by
    intro field hfield
    rw [(applied_apply hok hunits h).bsfu, hunits.unitField field hfield, firstOf, firstOf,
      hok.unitOf_eq_none hfield]
    rfl

variable (hok : ∀ item ∈ items, item.Ok) (hunits : UnitsOk st.pidStatus)
include hok hunits

theorem applied_applyAll (h : applyAll items st = some st') : Applied items st st' := by
  induction items generalizing st with
  | nil =>
    cases h
    exact Applied.nil _
  | cons item items ih =>
    rw [forall_mem_cons] at hok
    rw [applyAll_cons] at h
    obtain ⟨st₁, hitem, hitems⟩ := bind_eq_some_iff.mp h
    exact (applied_apply hok.1 hunits hitem).cons (ih hok.2 (hunits.apply hok.1 hitem) hitems)

theorem applyAll_isSome_iff :
    (∃ st', applyAll items st = some st') ↔
      ∀ field, firstOf (unitOf field) items = some [] → st.pidStatus.bsfu field ≠ none := by
  induction items generalizing st with
  | nil =>
    constructor
    · intro _ field h
      cases h
    · intro _
      exact ⟨_, rfl⟩
  | cons item items ih =>
    rw [forall_mem_cons] at hok
    have hitem := apply_isSome_iff hunits item
    rw [applyAll_cons]
    cases happly : item.apply st with
    | none =>
      rw [happly] at hitem
      constructor
      · rintro ⟨st', h⟩
        cases h
      · intro h
        have hfalse : (none : Option ParseState).isSome := hitem.mpr fun field hnil =>
          h field (by rw [firstOf, hnil, some_or])
        cases hfalse
    | some st₁ =>
      rw [happly] at hitem
      have hgiven := hitem.mp rfl
      have hunits₁ := (applied_apply hok.1 hunits happly).bsfu
      rw [bind_some, ih hok.2 (hunits.apply hok.1 happly)]
      -- The first unit is the one of this line, or else the first one behind it.
      constructor
      · intro h field hnil hnone
        rw [firstOf] at hnil
        cases hfirst : item.unitOf field with
        | some unit =>
          rw [hfirst, some_or] at hnil
          exact hgiven field (hfirst.trans hnil) hnone
        | none =>
          rw [hfirst, none_or] at hnil
          apply h field hnil
          rw [hunits₁, hnone, firstOf, firstOf, hfirst]
          rfl
      · intro h field hnil hnone
        rw [hunits₁, firstOf, firstOf, or_none, or_eq_none_iff] at hnone
        apply h field _ hnone.1
        rw [firstOf, hnone.2, hnil]
        rfl

end Lsvmi.Procfs.PidStatus
