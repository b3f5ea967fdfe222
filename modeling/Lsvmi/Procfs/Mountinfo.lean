import Lsvmi.Procfs.Common

/-!
# The /proc/PID/mountinfo parser

`NewMountinfo`, `Clone`, `update` and `Parse`.  A line has six fields, any number of optional fields,
the separator `-` and three more fields.  The content is kept, and is parsed only if it has changed.
The result of `update` and `Parse` is `none` where the source reads behind the end of the content.
-/

namespace Lsvmi.Procfs

open Reasoning

def mountinfoOptionalFields : Nat := 6

def mountinfoNumFields : Nat := 11

/-- The fields, by their `MOUNTINFO_` index. -/
abbrev MountinfoParsedLine := List Bytes

variable {info : MountinfoParsedLine} {buf : Bytes}

structure Mountinfo where
  parsedLines : List MountinfoParsedLine
  changed : Bool
  forceUpdate : Bool
  content : Bytes
  deriving DecidableEq, Repr

inductive MountinfoError where
  | missingFields (lineNum : Nat) (line : Bytes) (want got : Nat)
  | unexpectedContent (lineNum : Nat) (line content : Bytes)
  | potentialTruncation
  deriving DecidableEq, Repr

def mountinfoMaxReadSize : Nat := 0x40000

def newMountinfo : Mountinfo := ⟨[], false, false, []⟩

def slice (start stop : Bytes) : Bytes := start.take (start.length - stop.length)

/-- Assign a word.  The optional fields are the start of the first one and the end of the last one;
a word that is one of them does not fill the field yet. -/
def assignField (info : MountinfoParsedLine) (optionalFields : Option (Bytes × Bytes))
    (wordStart wordEnd : Bytes) : MountinfoParsedLine × Option (Bytes × Bytes) :=
  let word := slice wordStart wordEnd
  if info.length = mountinfoOptionalFields then
    let (start, stop) := optionalFields.getD (wordStart, wordStart)
    if word = [45] then (info ++ [slice start stop, word], some (start, stop))
    else (info, some (start, wordEnd))
  else (info ++ [word], optionalFields)

structure FieldsEnd where
  info : MountinfoParsedLine
  buf : Bytes
  eol : Bool
  deriving DecidableEq, Repr

def mountinfoFields (info : MountinfoParsedLine) (optionalFields : Option (Bytes × Bytes))
    (buf : Bytes) : Option FieldsEnd :=
  if buf = [] ∨ mountinfoNumFields ≤ info.length then some ⟨info, buf, false⟩
  -- the blanks are skipped without looking for the end of the content
  else if buf.dropWhile isWhitespace = [] then none
  else
    let wordStart := buf.dropWhile isWhitespace
    let wordEnd := wordStart.dropWhile (isWordChar isWhitespace newline)
    let (info, optionalFields) := assignField info optionalFields wordStart wordEnd
    if wordEnd.head? = some newline then some ⟨info, wordEnd.tail, true⟩
    else mountinfoFields info optionalFields wordEnd.tail
termination_by buf.length
decreasing_by
  rename_i hbuf _ _
  exact nextWord_length fun h => hbuf (.inl h)

def mountinfoLine (lineNum : Nat) (buf : Bytes) :
    Option (Except MountinfoError (MountinfoParsedLine × Bytes)) :=
  match mountinfoFields [] none buf with
  | none => none
  | some ⟨info, rest, eol⟩ =>
    let line := getCurrentLine buf
    if info.length < mountinfoNumFields then
      some (.error (.missingFields lineNum line mountinfoNumFields info.length))
    else if eol then some (.ok (info, rest))
    else
      -- only blanks are allowed up to the end of the line
      let (word, _, after) := nextField rest
      if word = [] then some (.ok (info, after))
      else
        some (.error (.unexpectedContent lineNum line (getCurrentLine (rest.dropWhile isWhitespace))))

theorem mountinfoFields_length {optionalFields : Option (Bytes × Bytes)} {r : FieldsEnd}
    (h : mountinfoFields info optionalFields buf = some r) :
    r.buf.length < buf.length ∨ r.buf = buf ∧ (buf = [] ∨ mountinfoNumFields ≤ info.length) := by
  have hshort {buf : Bytes} (hbuf : buf ≠ []) :
      ((buf.dropWhile isWhitespace).dropWhile (isWordChar isWhitespace newline)).tail.length <
        buf.length := nextWord_length hbuf
  fun_induction mountinfoFields info optionalFields buf with
  | case1 info optionalFields buf hend =>
    cases h
    exact .inr ⟨rfl, hend⟩
  | case2 => cases h
  | case3 info optionalFields buf hbuf =>
    cases h
    exact .inl (hshort fun hnil => hbuf (.inl hnil))
  | case4 info optionalFields buf hbuf _ _ _ _ _ _ _ ih =>
    have hlt := hshort fun hnil => hbuf (.inl hnil)
    rcases ih h with hlt' | ⟨heq, -⟩
    · exact .inl (hlt'.trans hlt)
    · exact .inl (heq ▸ hlt)

theorem mountinfoLine_length {lineNum : Nat} {rest : Bytes}
    (hbuf : buf ≠ []) (h : mountinfoLine lineNum buf = some (.ok (info, rest))) :
    rest.length < buf.length := by
  rw [mountinfoLine] at h
  cases hfields : mountinfoFields [] none buf with
  | none =>
    rw [hfields] at h
    cases h
  | some r =>
    have hlt : r.buf.length < buf.length := by
      rcases mountinfoFields_length hfields with hlt | ⟨-, hnil | hfull⟩
      · exact hlt
      · exact absurd hnil hbuf
      · exact absurd hfull (by decide)
    rw [hfields] at h
    simp only at h
    split at h
    · cases h
    split at h
    · cases h
      exact hlt
    split at h
    · cases h
      by_cases hnil : r.buf = []
      · rw [hnil] at hlt ⊢
        exact hlt
      · exact (nextWord_length hnil).trans hlt
    · cases h

namespace Mountinfo

variable (mountinfo : Mountinfo)

def clone (full : Bool) : Mountinfo :=
  ⟨[], mountinfo.changed, mountinfo.forceUpdate, if full then mountinfo.content else []⟩

def updateLines (lineNum : Nat) (parsedLines : List MountinfoParsedLine) (buf : Bytes) :
    Option (List MountinfoParsedLine × Option MountinfoError) :=
  if buf = [] then some (parsedLines, none)
  else
    match _ : mountinfoLine lineNum buf with
    | none => none
    | some (.error e) => some (parsedLines, some e)
    | some (.ok (info, rest)) => updateLines (lineNum + 1) (parsedLines ++ [info]) rest
termination_by buf.length
decreasing_by exact mountinfoLine_length ‹_› ‹_›

theorem updateLines_of_ne_nil {lineNum : Nat} {parsedLines : List MountinfoParsedLine}
    (hbuf : buf ≠ []) :
    updateLines lineNum parsedLines buf =
      match mountinfoLine lineNum buf with
      | none => none
      | some (.error e) => some (parsedLines, some e)
      | some (.ok (info, rest)) => updateLines (lineNum + 1) (parsedLines ++ [info]) rest := by
  rw [updateLines, if_neg hbuf]
  split <;> simp only [*]

def update : Option (Mountinfo × Option MountinfoError) :=
  match updateLines 1 [] mountinfo.content with
  | none => none
  | some (parsedLines, err) => some ({ mountinfo with parsedLines }, err)

def parseBuf (fBuf : Bytes) : Option (Mountinfo × Option MountinfoError) :=
  let changed := mountinfo.forceUpdate || mountinfo.content != fBuf
  if changed then update { mountinfo with changed, content := fBuf }
  else some ({ mountinfo with changed }, none)

def parse (file : Bytes) : Option (Mountinfo × Option MountinfoError) :=
  parseFile mountinfoMaxReadSize (some (mountinfo, some .potentialTruncation)) mountinfo.parseBuf file

end Mountinfo

end Lsvmi.Procfs
