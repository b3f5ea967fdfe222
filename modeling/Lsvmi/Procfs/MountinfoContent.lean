import Mathlib.Data.List.Forall2
import Lsvmi.Procfs.MountinfoEntries
import Lsvmi.Reasoning.Runs

/-!
# Mountinfo contents

What `update` makes of a content, line by line, and what `Parse` returns for a content after any
calls before.
-/

namespace Lsvmi.Procfs

open Reasoning List

variable (parsedLines : List MountinfoParsedLine) {line content : Bytes}

/-! ## The fate of a line -/

/-- The line lacks its last field only, and ends in a blank: what follows the blank, up to the end
of the line, passes for the field. -/
def OnlyLastMissing (line : Bytes) : Prop :=
  wordsNeeded 0 (fields isWhitespace line) = some ((fields isWhitespace line).length + 1) ∧
    EndsInBlank line

/-- The line is not terminated, lacks fields and ends in blanks, which the scanner skips. -/
def RunsOver (line : Bytes) : Prop :=
  Incomplete 0 (fields isWhitespace line) ∧ EndsInBlanks line

instance (line : Bytes) : Decidable (OnlyLastMissing line) := inferInstanceAs (Decidable (_ ∧ _))

instance (i : Nat) (words : List Bytes) : Decidable (Incomplete i words) :=
  inferInstanceAs (Decidable (∀ n ∈ wordsNeeded i words, words.length < n))

instance (line : Bytes) : Decidable (RunsOver line) := inferInstanceAs (Decidable (_ ∧ _))

def Accepted (line : Bytes) : Prop := AllFields line ∨ OnlyLastMissing line

instance (line : Bytes) : Decidable (Accepted line) := inferInstanceAs (Decidable (_ ∨ _))

theorem nil_length_lt : ([] : MountinfoParsedLine).length < mountinfoNumFields := by decide

theorem AllFields.not_incomplete (h : AllFields line) : ¬ Incomplete 0 (fields isWhitespace line) :=
  fun hinc => Nat.lt_irrefl _ (hinc _ h)

section Line

variable {buf : Bytes} (lineNum : Nat) (hbuf : buf ≠ [])

include hbuf

theorem mountinfoLine_tooMany (hall : ¬ AllFields (firstLine newline buf))
    (hinc : ¬ Incomplete 0 (fields isWhitespace (firstLine newline buf))) :
    ∃ e, mountinfoLine lineNum buf = some (.error e) := by
  simp only [Incomplete, not_forall, Nat.not_lt] at hinc
  obtain ⟨n, hn, hle⟩ := hinc
  obtain ⟨e, hr, hlen, hwords, -⟩ :=
    (mountinfoFields_spec none nil_length_lt hbuf).complete n hn hle
  have hlt : n < (fields isWhitespace (firstLine newline buf)).length :=
    Nat.lt_of_le_of_ne hle fun heq => hall (hn.trans (congrArg some heq))
  have hdrop : (fields isWhitespace (firstLine newline buf)).drop n ≠ [] := by
    simpa using hlt
  rw [← hwords] at hdrop
  have heol : e.eol = false := by
    cases heol : e.eol with
    | false => rfl
    | true => simp [heol] at hdrop
  have hword : (nextField e.buf).1 ≠ [] := by
    intro hnil
    simp [heol, (nextField_of_nil hnil).2] at hdrop
  rw [mountinfoLine, hr]
  simp [hlen, heol, hword]

variable (hinc : Incomplete 0 (fields isWhitespace (firstLine newline buf)))
include hinc

theorem mountinfoLine_lineEnd (hnl : newline ∈ buf) :
    if OnlyLastMissing (firstLine newline buf) then
      ∃ info, mountinfoLine lineNum buf = some (.ok (info, afterLine newline buf))
    else ∃ e, mountinfoLine lineNum buf = some (.error e) := by
  obtain ⟨info, hr, hle, hiff⟩ := (mountinfoFields_spec none nil_length_lt hbuf).lineEnd hinc hnl
  rw [mountinfoLine, hr]
  by_cases hlast : OnlyLastMissing (firstLine newline buf)
  · rw [if_pos hlast]
    simp [hiff.mpr hlast]
  · rw [if_neg hlast]
    have hlt := Nat.lt_of_le_of_ne hle fun hfull => hlast (hiff.mp hfull)
    simp [hlt]

theorem mountinfoLine_contentEnd (hnl : newline ∉ buf) :
    if EndsInBlanks buf then mountinfoLine lineNum buf = none
    else ∃ e, mountinfoLine lineNum buf = some (.error e) := by
  have hspec := mountinfoFields_spec none nil_length_lt hbuf
  rw [mountinfoLine]
  by_cases hblanks : EndsInBlanks buf
  · rw [if_pos hblanks, hspec.outOfRange hinc hnl hblanks]
  · obtain ⟨info, hr, hlt⟩ := hspec.contentEnd hinc hnl hblanks
    rw [if_neg hblanks, hr]
    simp [hlt]

end Line

/-! ## The lines of a content -/

def completeLines (content : Bytes) : List Bytes := (content.splitOn newline).dropLast

def lastLine (content : Bytes) : Bytes := (content.splitOn newline).getLastD []

theorem splitOn_of_notMem (h : newline ∉ content) : content.splitOn newline = [content] := by
  apply splitOnP_eq_singleton
  intro c hc
  simpa using ne_of_mem_of_not_mem hc h

theorem splitOn_line (h : newline ∉ line) (rest : Bytes) :
    (line ++ newline :: rest).splitOn newline = line :: rest.splitOn newline := by
  apply splitOnP_append_cons_of_forall_mem
  · intro c hc
    simpa using ne_of_mem_of_not_mem hc h
  · exact beq_self_eq_true newline

theorem completeLines_of_notMem (h : newline ∉ content) : completeLines content = [] := by
  rw [completeLines, splitOn_of_notMem h]
  rfl

theorem lastLine_of_notMem (h : newline ∉ content) : lastLine content = content := by
  rw [lastLine, splitOn_of_notMem h]
  rfl

theorem completeLines_line (h : newline ∉ line) (rest : Bytes) :
    completeLines (line ++ newline :: rest) = line :: completeLines rest := by
  have hne : rest.splitOn newline ≠ [] := splitOnP_ne_nil _ _
  rw [completeLines, splitOn_line h, dropLast_cons_of_ne_nil hne]
  rfl

theorem lastLine_line (h : newline ∉ line) (rest : Bytes) :
    lastLine (line ++ newline :: rest) = lastLine rest := by
  rw [lastLine, splitOn_line h]
  obtain ⟨w, ws, hsplit⟩ := exists_cons_of_ne_nil (splitOnP_ne_nil (· == newline) rest)
  rw [lastLine, splitOn, hsplit]
  rfl

/-! ## What becomes of a content -/

/-- A line of the content makes `update` return an error. -/
def Rejected (content : Bytes) : Prop :=
  (∃ line ∈ completeLines content, ¬ Accepted line) ∨
    lastLine content ≠ [] ∧ ¬ AllFields (lastLine content) ∧ ¬ RunsOver (lastLine content)

/-- The scanner gets to the last line of the content, and over its end. -/
def OutOfRange (content : Bytes) : Prop :=
  (∀ line ∈ completeLines content, Accepted line) ∧ RunsOver (lastLine content)

def DescribesLine (line : Bytes) (info : MountinfoParsedLine) : Prop :=
  ∃ (e : MountEntry) (text : Bytes), e.Rendered text line ∧ info = e.parsedLine text

/-- What is left of a content that is neither rejected nor out of range is parsed. -/
structure UpdateSpec (parsedLines : List MountinfoParsedLine) (buf : Bytes)
    (r : Option (List MountinfoParsedLine × Option MountinfoError)) : Prop where
  rejected : Rejected buf → ∃ parsed e, r = some (parsed, some e)
  outOfRange : OutOfRange buf → r = none
  accepted : ¬ Rejected buf → ¬ OutOfRange buf → ∃ infos, r = some (parsedLines ++ infos, none) ∧
    List.Forall₂ (fun line info => AllFields line → DescribesLine line info) (lines newline buf) infos

theorem updateSpec_nil : UpdateSpec parsedLines [] (some (parsedLines, none)) := by
  constructor
  · rintro (⟨line, hmem, -⟩ | ⟨hne, -⟩)
    · cases hmem
    · exact absurd rfl hne
  · exact fun h => absurd rfl h.2.2.1
  · exact fun _ _ => ⟨[], by rw [append_nil], .nil⟩

open Mountinfo

theorem updateSpec_last {lineNum : Nat} {buf : Bytes} (hbuf : buf ≠ []) (hnl : newline ∉ buf) :
    UpdateSpec parsedLines buf (updateLines lineNum parsedLines buf) := by
  have hline := firstLine_of_notMem hnl
  have hlines : lines newline buf = [buf] := by
    rw [lines_of_ne_nil hbuf, hline, afterLine_of_notMem hnl]
    rfl
  have hcomplete := completeLines_of_notMem hnl
  have hlast := lastLine_of_notMem hnl
  have hrej : Rejected buf ↔ ¬ AllFields buf ∧ ¬ RunsOver buf := by
    simp [Rejected, hcomplete, hlast, hbuf]
  have hout : OutOfRange buf ↔ RunsOver buf := by
    simp [OutOfRange, hcomplete, hlast]
  rw [updateLines_of_ne_nil hbuf]
  by_cases hall : AllFields buf
  · obtain ⟨e, text, hrendered⟩ := hall.exists_rendered hnl
    have hread := MountEntry.mountinfoLine_rendered hrendered lineNum (.inl rfl)
    rw [append_nil] at hread
    rw [hread]
    constructor
    · exact fun h => absurd hall (hrej.mp h).1
    · exact fun h => absurd (hout.mp h).1 hall.not_incomplete
    intro _ _
    refine ⟨[e.parsedLine text], ?_, ?_⟩
    · simp [updateLines]
    · rw [hlines]
      exact .cons (fun _ => ⟨e, text, hrendered, rfl⟩) .nil
  by_cases hinc : Incomplete 0 (fields isWhitespace buf)
  · have hread := mountinfoLine_contentEnd lineNum hbuf (by rwa [hline]) hnl
    by_cases hblanks : EndsInBlanks buf
    · rw [if_pos hblanks] at hread
      rw [hread]
      constructor
      · exact fun h => absurd ⟨hinc, hblanks⟩ (hrej.mp h).2
      · exact fun _ => rfl
      · exact fun _ h => absurd (hout.mpr ⟨hinc, hblanks⟩) h
    · rw [if_neg hblanks] at hread
      obtain ⟨e, hread⟩ := hread
      rw [hread]
      constructor
      · exact fun _ => ⟨parsedLines, e, rfl⟩
      · exact fun h => absurd (hout.mp h).2 hblanks
      · exact fun h => absurd (hrej.mpr ⟨hall, fun hruns => hblanks hruns.2⟩) h
  · obtain ⟨e, hread⟩ := mountinfoLine_tooMany lineNum hbuf (by rwa [hline]) (by rwa [hline])
    rw [hread]
    constructor
    · exact fun _ => ⟨parsedLines, e, rfl⟩
    · exact fun h => absurd (hout.mp h).1 hinc
    · exact fun h => absurd (hrej.mpr ⟨hall, fun hruns => hinc hruns.1⟩) h

theorem updateSpec_line {lineNum : Nat} {rest : Bytes} (hline : newline ∉ line)
    (hrest : ∀ info, UpdateSpec (parsedLines ++ [info]) rest
      (updateLines (lineNum + 1) (parsedLines ++ [info]) rest)) :
    UpdateSpec parsedLines (line ++ newline :: rest)
      (updateLines lineNum parsedLines (line ++ newline :: rest)) := by
  have hbuf : line ++ newline :: rest ≠ [] := by simp
  have hmem : newline ∈ line ++ newline :: rest := by simp
  have hfirst := firstLine_append_nl hline rest
  have hafter := afterLine_append_nl hline rest
  have hlines := lines_cons hline rest
  have hcomplete := completeLines_line hline rest
  have hlast := lastLine_line hline rest
  have hrej : Rejected (line ++ newline :: rest) ↔ ¬ Accepted line ∨ Rejected rest := by
    simp [Rejected, hcomplete, hlast, or_assoc]
  have hout : OutOfRange (line ++ newline :: rest) ↔ Accepted line ∧ OutOfRange rest := by
    simp [OutOfRange, hcomplete, hlast, and_assoc]
  rw [updateLines_of_ne_nil hbuf]
  -- a line that is accepted is one more parsed line, and the rest decides
  have hok {info : MountinfoParsedLine} (hacc : Accepted line)
      (hinfo : AllFields line → DescribesLine line info) :
      UpdateSpec parsedLines (line ++ newline :: rest)
        (updateLines (lineNum + 1) (parsedLines ++ [info]) rest) := by
    constructor
    · exact fun h => (hrest info).rejected ((hrej.mp h).resolve_left (not_not_intro hacc))
    · exact fun h => (hrest info).outOfRange (hout.mp h).2
    intro hnrej hnout
    obtain ⟨infos, heq, hall⟩ := (hrest info).accepted (fun h => hnrej (hrej.mpr (.inr h)))
      fun h => hnout (hout.mpr ⟨hacc, h⟩)
    refine ⟨info :: infos, by rw [heq, append_assoc, singleton_append], ?_⟩
    rw [hlines]
    exact .cons hinfo hall
  have herror {e : MountinfoError} (hacc : ¬ Accepted line) :
      UpdateSpec parsedLines (line ++ newline :: rest) (some (parsedLines, some e)) :=
    ⟨fun _ => ⟨parsedLines, e, rfl⟩, fun h => absurd (hout.mp h).1 hacc,
      fun h => absurd (hrej.mpr (.inl hacc)) h⟩
  by_cases hall : AllFields line
  · obtain ⟨e, text, hrendered⟩ := hall.exists_rendered hline
    rw [MountEntry.mountinfoLine_rendered hrendered lineNum (.inr ⟨rest, rfl⟩)]
    exact hok (.inl hall) fun _ => ⟨e, text, hrendered, rfl⟩
  by_cases hinc : Incomplete 0 (fields isWhitespace line)
  · have hread := mountinfoLine_lineEnd lineNum hbuf (by rwa [hfirst]) hmem
    rw [hfirst, hafter] at hread
    by_cases hmissing : OnlyLastMissing line
    · rw [if_pos hmissing] at hread
      obtain ⟨info, hread⟩ := hread
      rw [hread]
      exact hok (.inr hmissing) fun h => absurd h hall
    · rw [if_neg hmissing] at hread
      obtain ⟨e, hread⟩ := hread
      rw [hread]
      exact herror (not_or.mpr ⟨hall, hmissing⟩)
  · obtain ⟨e, hread⟩ := mountinfoLine_tooMany lineNum hbuf (by rwa [hfirst]) (by rwa [hfirst])
    rw [hread]
    refine herror (not_or.mpr ⟨hall, fun hmissing => hinc ?_⟩)
    intro n hn
    rw [hmissing.1] at hn
    cases hn
    exact Nat.lt_succ_self _

namespace Mountinfo

theorem updateLines_spec (lineNum : Nat) (parsedLines : List MountinfoParsedLine) (buf : Bytes) :
    UpdateSpec parsedLines buf (updateLines lineNum parsedLines buf) := by
  induction buf using lines_induction newline generalizing lineNum parsedLines with
  | last line hnl =>
    by_cases hline : line = []
    · rw [hline, updateLines, if_pos rfl]
      exact updateSpec_nil parsedLines
    · exact updateSpec_last parsedLines hline hnl
  | cons line rest hnl ih => exact updateSpec_line parsedLines hnl fun info => ih _ _

/-- `update` stays within the content unless the scanner gets to a last line that it runs over. -/
theorem update_isSome_iff (mountinfo : Mountinfo) :
    mountinfo.update.isSome = true ↔ ¬ OutOfRange mountinfo.content := by
  have hspec := updateLines_spec 1 [] mountinfo.content
  rw [update]
  constructor
  · intro h hout
    rw [hspec.outOfRange hout] at h
    cases h
  intro hout
  by_cases hrej : Rejected mountinfo.content
  · obtain ⟨parsed, e, h⟩ := hspec.rejected hrej
    rw [h]
    rfl
  · obtain ⟨infos, h, -⟩ := hspec.accepted hrej hout
    rw [h]
    rfl

theorem truncated_line_reads_on :
    ({ newMountinfo with content := utf8 "36 35 98:0 /  " } : Mountinfo).update.isSome = false := by
  decide +kernel

end Mountinfo

/-! ## Malformed contents -/

def Malformed (content : Bytes) : Prop := ∃ line ∈ lines newline content, ¬ AllFields line

instance (content : Bytes) : Decidable (Malformed content) :=
  inferInstanceAs (Decidable (∃ line ∈ lines newline content, ¬ AllFields line))

theorem lines_eq (content : Bytes) :
    lines newline content =
      completeLines content ++ if lastLine content = [] then [] else [lastLine content] := by
  induction content using lines_induction newline with
  | last line hnl =>
    rw [completeLines_of_notMem hnl, lastLine_of_notMem hnl, nil_append]
    by_cases hne : line = []
    · rw [if_pos hne, hne]
      rfl
    · rw [if_neg hne, lines_of_ne_nil hne, firstLine_of_notMem hnl, afterLine_of_notMem hnl]
      rfl
  | cons line rest hline ih =>
    rw [lines_cons hline, ih, completeLines_line hline, lastLine_line hline, cons_append]

theorem malformed_iff (content : Bytes) :
    Malformed content ↔ (∃ line ∈ completeLines content, ¬ AllFields line) ∨
      lastLine content ≠ [] ∧ ¬ AllFields (lastLine content) := by
  rw [Malformed, lines_eq]
  by_cases hlast : lastLine content = []
  · simp [hlast]
  · simp [hlast, or_and_right, exists_or]

theorem Rejected.malformed (h : Rejected content) : Malformed content := by
  rw [malformed_iff]
  rcases h with ⟨line, hline, hacc⟩ | ⟨hne, hall, -⟩
  · exact .inl ⟨line, hline, fun hall => hacc (.inl hall)⟩
  · exact .inr ⟨hne, hall⟩

theorem OutOfRange.malformed (h : OutOfRange content) : Malformed content :=
  (malformed_iff content).mpr (.inr ⟨h.2.2.1, fun hall => hall.not_incomplete h.2.1⟩)

theorem OutOfRange.not_rejected (h : OutOfRange content) : ¬ Rejected content := by
  rintro (⟨line, hline, hacc⟩ | ⟨-, -, hruns⟩)
  · exact hacc (h.1 line hline)
  · exact hruns h.2

/-! ## Successive calls -/

/-- What is done with an object: a content is read, or the object is replaced by a clone. -/
inductive MountinfoCall where
  | parse (fBuf : Bytes)
  | clone (full : Bool)
  | setForceUpdate (forceUpdate : Bool)
  deriving DecidableEq, Repr

namespace Mountinfo

def step (mountinfo : Mountinfo) : MountinfoCall → Option Mountinfo
  | .parse fBuf => (mountinfo.parse fBuf).map Prod.fst
  | .clone full => some (mountinfo.clone full)
  | .setForceUpdate forceUpdate => some { mountinfo with forceUpdate }

def Describes (content : Bytes) (parsedLines : List MountinfoParsedLine) : Prop :=
  List.Forall₂ DescribesLine (lines newline content) parsedLines

/-- `Parse` returns, with an error if the content is malformed, and without one only if the parsed
lines describe the content. -/
def ParseOk (mountinfo : Mountinfo) (fBuf : Bytes) : Prop :=
  ∃ mountinfo' err, mountinfo.parse fBuf = some (mountinfo', err) ∧
    (Malformed fBuf → err ≠ none) ∧ (err = none → Describes fBuf mountinfo'.parsedLines)

/-- The content is not below the limit of the read; or, if it is malformed, it has a line that is
rejected, and if it is the one that is kept, and is not to be parsed again, it is not malformed, and
this object has parsed it. -/
def ReadsWell (mountinfo : Mountinfo) (fBuf : Bytes) : Prop :=
  mountinfoMaxReadSize ≤ fBuf.length ∨ (Malformed fBuf → Rejected fBuf) ∧
    (mountinfo.forceUpdate = true ∨ mountinfo.content ≠ fBuf ∨
      ¬ Malformed fBuf ∧ (mountinfo.parsedLines = [] → fBuf = []))

/-- The parsed lines describe the content that is kept, unless it is malformed or has not been
parsed by this object. -/
def Inv (mountinfo : Mountinfo) : Prop :=
  Describes mountinfo.content mountinfo.parsedLines ∨ Malformed mountinfo.content ∨
    mountinfo.parsedLines = []

theorem describes_nil_iff {content : Bytes} : Describes content [] ↔ content = [] := by
  rw [Describes, forall₂_nil_right_iff]
  constructor
  · intro h
    by_contra hne
    rw [lines_of_ne_nil hne] at h
    cases h
  · rintro rfl
    rfl

theorem update_cases (mountinfo : Mountinfo) :
    (Rejected mountinfo.content ∧ ∃ parsedLines e,
      mountinfo.update = some ({ mountinfo with parsedLines }, some e)) ∨
    (OutOfRange mountinfo.content ∧ mountinfo.update = none) ∨
    ¬ Rejected mountinfo.content ∧ ∃ parsedLines,
      mountinfo.update = some ({ mountinfo with parsedLines }, none) ∧
        (Malformed mountinfo.content ∨ Describes mountinfo.content parsedLines) := by
  have hspec := updateLines_spec 1 [] mountinfo.content
  rw [update]
  by_cases hrej : Rejected mountinfo.content
  · obtain ⟨parsedLines, e, h⟩ := hspec.rejected hrej
    rw [h]
    exact .inl ⟨hrej, parsedLines, e, rfl⟩
  by_cases hout : OutOfRange mountinfo.content
  · rw [hspec.outOfRange hout]
    exact .inr (.inl ⟨hout, rfl⟩)
  obtain ⟨parsedLines, h, hall⟩ := hspec.accepted hrej hout
  rw [h, nil_append]
  refine .inr (.inr ⟨hrej, parsedLines, rfl, ?_⟩)
  by_cases hmal : Malformed mountinfo.content
  · exact .inl hmal
  · refine .inr ?_
    simp only [Malformed, not_exists, not_and, not_not] at hmal
    exact ((forall₂_and_left _ _).mpr ⟨hmal, hall⟩).imp fun _ _ h => h.2 h.1

theorem parse_eq (mountinfo : Mountinfo) (file : Bytes) :
    mountinfo.parse file = if file.length < mountinfoMaxReadSize then mountinfo.parseBuf file
      else some (mountinfo, some .potentialTruncation) := parseFile_eq (by decide) _ _ _

theorem inv_newMountinfo : Inv newMountinfo := .inr (.inr rfl)

theorem Inv.step {mountinfo mountinfo' : Mountinfo} {call : MountinfoCall} (h : Inv mountinfo)
    (hstep : mountinfo.step call = some mountinfo') : Inv mountinfo' := by
  cases call with
  | clone full =>
    cases hstep
    exact .inr (.inr rfl)
  | setForceUpdate forceUpdate =>
    cases hstep
    exact h
  | parse fBuf =>
    obtain ⟨⟨_, err⟩, hparse, rfl⟩ := Option.map_eq_some_iff.mp hstep
    rw [parse_eq] at hparse
    split at hparse
    case isFalse =>
      cases hparse
      exact h
    simp only [parseBuf] at hparse
    split at hparse
    · rcases update_cases { mountinfo with changed := _, content := fBuf } with
        ⟨hrej, parsedLines, e, hupdate⟩ | ⟨-, hupdate⟩ | ⟨-, parsedLines, hupdate, hlines⟩
      · rw [hupdate] at hparse
        cases hparse
        exact .inr (.inl hrej.malformed)
      · rw [hupdate] at hparse
        cases hparse
      · rw [hupdate] at hparse
        cases hparse
        exact hlines.symm.imp_right .inl
    · cases hparse
      exact h

theorem Inv.parseOk_iff {mountinfo : Mountinfo} (h : Inv mountinfo) (fBuf : Bytes) :
    ParseOk mountinfo fBuf ↔ ReadsWell mountinfo fBuf := by
  by_cases hlength : fBuf.length < mountinfoMaxReadSize
  case neg =>
    rw [ParseOk, parse_eq, if_neg hlength]
    exact iff_of_true ⟨_, _, rfl, fun _ => nofun, nofun⟩ (.inl (by omega))
  rw [ParseOk, parse_eq, if_pos hlength, ReadsWell, or_iff_right (by omega)]
  by_cases hchanged : (mountinfo.forceUpdate || mountinfo.content != fBuf)
  · have hnew : mountinfo.forceUpdate = true ∨ mountinfo.content ≠ fBuf := by simpa using hchanged
    have hparse : mountinfo.parseBuf fBuf =
        update { mountinfo with changed := true, content := fBuf } := by
      simp only [parseBuf, hchanged, if_true]
    rw [← or_assoc, and_iff_left (.inl hnew), hparse]
    rcases update_cases { mountinfo with changed := true, content := fBuf } with
      ⟨hrej, parsedLines, e, hupdate⟩ | ⟨hout, hupdate⟩ | ⟨hrej, parsedLines, hupdate, hlines⟩
    · refine iff_of_true ⟨_, _, hupdate, fun _ h => ?_, fun h => ?_⟩ fun _ => hrej
      all_goals cases h
    · refine iff_of_false ?_ fun h => hout.not_rejected (h hout.malformed)
      rintro ⟨_, _, h, -⟩
      rw [hupdate] at h
      cases h
    rw [hupdate]
    constructor
    · rintro ⟨_, _, h, hmal, -⟩ hbad
      cases h
      exact absurd rfl (hmal hbad)
    · intro hbad
      refine ⟨_, _, rfl, fun hmal => absurd (hbad hmal) hrej, fun _ => ?_⟩
      exact hlines.resolve_left fun hmal => hrej (hbad hmal)
  · have hsame : mountinfo.forceUpdate = false ∧ mountinfo.content = fBuf := by simpa using hchanged
    have hparse : mountinfo.parseBuf fBuf = some ({ mountinfo with changed := false }, none) := by
      simp [parseBuf, hsame.1, hsame.2]
    simp only [hsame.1, hsame.2, ne_eq, not_true_eq_false, Bool.false_eq_true, false_or]
    rw [and_iff_right_of_imp fun h hmal => absurd hmal h.1, hparse]
    constructor
    · rintro ⟨_, _, h, hmal, hlines⟩
      cases h
      refine ⟨fun hbad => hmal hbad rfl, fun hnil => ?_⟩
      have := hlines rfl
      simp only [hnil] at this
      exact describes_nil_iff.mp this
    · rintro ⟨hgood, hparsed⟩
      refine ⟨_, _, rfl, fun hmal => absurd hmal hgood, fun _ => ?_⟩
      rcases h with hlines | hmal | hnil
      · rwa [hsame.2] at hlines
      · exact absurd (hsame.2 ▸ hmal) hgood
      · simp only [hnil]
        exact describes_nil_iff.mpr (hparsed hnil)

/-- After any calls, the next `Parse` reports a malformed content, and describes the content if it
reports none, exactly if the content reads well. -/
theorem parseOk_after_calls {calls : List MountinfoCall} {mountinfo : Mountinfo}
    (hrun : Run (fun m c m' => m.step c = some m') newMountinfo calls mountinfo) (fBuf : Bytes) :
    ParseOk mountinfo fBuf ↔ ReadsWell mountinfo fBuf :=
  (hrun.invariant inv_newMountinfo fun _ _ _ h hstep => h.step hstep).parseOk_iff fBuf

theorem parseOk_after_changed_content :
    ∃ mountinfo, Run (fun m c m' => m.step c = some m') newMountinfo
        [.parse (utf8 "36 35 98:0 / /mnt rw - ext4 /dev/sda1\n"), .clone true] mountinfo ∧
      ParseOk mountinfo (utf8 "36 35 98:0 / /mnt rw shared:1 - ext4 /dev/sda1 rw\n") := by
  have hrun : Run (fun m c m' => step m c = some m') newMountinfo
      [.parse (utf8 "36 35 98:0 / /mnt rw - ext4 /dev/sda1\n"), .clone true]
      ⟨[], true, false, utf8 "36 35 98:0 / /mnt rw - ext4 /dev/sda1\n"⟩ :=
    .of_foldlM (by decide +kernel)
  refine ⟨_, hrun, (parseOk_after_calls hrun _).mpr (.inr ⟨?_, .inr (.inl (by decide +kernel))⟩)⟩
  exact fun hmal => absurd hmal (by decide +kernel)

theorem repeated_content_not_reported :
    ∃ mountinfo, Run (fun m c m' => m.step c = some m') newMountinfo
        [.parse (utf8 "36 35 98:0 / /mnt rw - ext4 /dev/sda1\n")] mountinfo ∧
      ¬ ParseOk mountinfo (utf8 "36 35 98:0 / /mnt rw - ext4 /dev/sda1\n") := by
  refine ⟨⟨[], true, false, utf8 "36 35 98:0 / /mnt rw - ext4 /dev/sda1\n"⟩,
    .of_foldlM (by decide +kernel), ?_⟩
  rintro ⟨mountinfo', err, hparse, hmal, -⟩
  have hnone : (some (mountinfo', err)).map Prod.snd = some none := by
    rw [← hparse]
    decide +kernel
  cases hnone
  exact hmal (by decide +kernel) rfl

end Mountinfo

end Lsvmi.Procfs
