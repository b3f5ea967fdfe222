import Lsvmi.Procfs.Common
import Lsvmi.Reasoning.FiniteMap

/-!
# The parser for /proc/diskstats
-/

namespace Lsvmi.Procfs

open Reasoning List

def diskstatsInfoFieldsNum : Nat := 3
def diskstatsValueFieldsNum : Nat := 17
def minNumDiskstatsValues : Nat := 10

def diskstatsIoMillisec : Nat := 9

structure DiskstatsDevInfo where
  name : Bytes
  stats : List UInt32
  scanNum : Nat
  deriving DecidableEq, Repr

abbrev DevInfoMap := Finmap fun _ : Bytes => DiskstatsDevInfo

structure Diskstats where
  /-- by "major:minor" -/
  devInfoMap : DevInfoMap
  changed : Bool
  scanNum : Nat
  /-- the conversion factor, 0 to disable it -/
  jiffiesToMillisec : UInt32

variable {diskstats : Diskstats}

inductive DiskstatsError where
  | missingInfoFields (lineNum got : Nat)
  | notAValidDigit (lineNum : Nat) (c : UInt8)
  | missingStatsFields (lineNum got : Nat)
  | unexpectedContent (lineNum : Nat)
  | potentialTruncation
  deriving DecidableEq, Repr

def diskstatsMaxReadSize : Nat := 0x40000

def newDiskstats (jiffiesToMillisec : UInt32) : Diskstats := ⟨∅, false, 0, jiffiesToMillisec⟩

namespace Diskstats

def clone (diskstats : Diskstats) : Diskstats :=
  { diskstats with
    devInfoMap := filterMapEntries
      (fun _ devInfo => some { devInfo with stats := List.replicate diskstatsValueFieldsNum 0 })
      diskstats.devInfoMap }

/-- The loop over at most `n` info fields; the result is the fields, the rest of the buffer and
whether the end of the line was seen.  A field is empty only at that end or the one of the file. -/
def infoFields : Nat → Bytes → List Bytes → List Bytes × Bytes × Bool
  | 0, buf, fields => (fields, buf, false)
  | n + 1, buf, fields =>
    let (field, sep, buf) := nextField buf
    if field = [] then (fields, buf, sep = some newline)
    else if sep = some newline then (fields ++ [field], buf, true)
    else infoFields n buf (fields ++ [field])

def fieldValue (jiffiesToMillisec : UInt32) (fieldNum : Nat) (word : Bytes) : UInt32 :=
  let value : UInt32 := word.foldl (fun v c => (v <<< 3) + (v <<< 1) + (c - 48).toUInt32) 0
  if 0 < jiffiesToMillisec ∧ fieldNum = diskstatsIoMillisec then value * jiffiesToMillisec
  else value

def advanceToEol (buf : Bytes) (eol : Bool) : Option Bytes :=
  if eol then some buf
  else
    let (word, _, buf) := nextField buf
    if word = [] then some buf else none

def updateDevInfo (diskstats : Diskstats) (majorMinor name : Bytes) (values : List UInt32)
    (scanNum : Nat) : Diskstats :=
  let (stats, changed) := match diskstats.devInfoMap.lookup majorMinor with
    | none => (List.replicate diskstatsValueFieldsNum 0, true)
    | some devInfo => (devInfo.stats, devInfo.name != name)
  { diskstats with
    devInfoMap := diskstats.devInfoMap.insert majorMinor
      ⟨name, values ++ stats.drop values.length, scanNum⟩
    changed := diskstats.changed || changed }

def parseLine (diskstats : Diskstats) (scanNum lineNum : Nat) (buf : Bytes) :
    Except DiskstatsError (Diskstats × Bytes) :=
  match infoFields diskstatsInfoFieldsNum buf [] with
  | ([major, minor, name], buf, eol) =>
    let values :=
      if eol then .ok ([], buf, true)
      else valueFields (fieldValue diskstats.jiffiesToMillisec) diskstatsValueFieldsNum buf []
    match values with
    | .error c => .error (.notAValidDigit lineNum c)
    | .ok (values, buf, eol) =>
      if values.length < minNumDiskstatsValues then
        .error (.missingStatsFields lineNum values.length)
      else match advanceToEol buf eol with
        | none => .error (.unexpectedContent lineNum)
        | some buf =>
          .ok (diskstats.updateDevInfo (major ++ [58] ++ minor) name values scanNum, buf)
  | (fields, _, _) => .error (.missingInfoFields lineNum fields.length)

/-- The loop over the lines; each of them takes at least one character of the buffer, so that its
length bounds the number of lines. -/
def parseLines (scanNum : Nat) : Nat → Nat → Diskstats → Bytes → Except DiskstatsError Diskstats
  | _, _, diskstats, [] => .ok diskstats
  | 0, _, diskstats, _ => .ok diskstats
  | fuel + 1, lineNum, diskstats, buf => do
    let (diskstats, buf) ← diskstats.parseLine scanNum lineNum buf
    parseLines scanNum fuel (lineNum + 1) diskstats buf

def removeOutOfScope (diskstats : Diskstats) (scanNum : Nat) : Diskstats :=
  let devInfoMap := filterMapEntries
    (fun _ devInfo => if scanNum ≠ devInfo.scanNum then none else some devInfo)
    diskstats.devInfoMap
  { diskstats with
    devInfoMap, scanNum, changed := diskstats.changed || devInfoMap.keys ≠ diskstats.devInfoMap.keys }

def parseBuf (diskstats : Diskstats) (buf : Bytes) : Except DiskstatsError Diskstats := do
  let scanNum := diskstats.scanNum + 1
  let diskstats ← parseLines scanNum buf.length 1 { diskstats with changed := false } buf
  return diskstats.removeOutOfScope scanNum

def parse (diskstats : Diskstats) (file : Bytes) : Except DiskstatsError Diskstats :=
  parseFile diskstatsMaxReadSize (.error .potentialTruncation) diskstats.parseBuf file

end Diskstats

structure DiskLine where
  major : Bytes
  minor : Bytes
  name : Bytes
  values : List Bytes
  deriving DecidableEq, Repr

namespace DiskLine

def majorMinor (line : DiskLine) : Bytes := line.major ++ [58] ++ line.minor

def words (line : DiskLine) : List Bytes := line.major :: line.minor :: line.name :: line.values

def stats (line : DiskLine) (jiffiesToMillisec : UInt32) : List UInt32 :=
  line.values.mapIdx (Diskstats.fieldValue jiffiesToMillisec)

@[mk_iff] structure Ok (line : DiskLine) : Prop where
  min_le : minNumDiskstatsValues ≤ line.values.length
  le_max : line.values.length ≤ diskstatsValueFieldsNum
  digits : ∀ word ∈ line.values, ∀ c ∈ word, isDigit c = true

instance (line : DiskLine) : Decidable line.Ok :=
  decidable_of_iff' _ (ok_iff line)

end DiskLine

structure WellFormedDiskstats (disks : List DiskLine) (buf : Bytes) : Prop where
  words_eq : (lines newline buf).map (fields isWhitespace) = disks.map DiskLine.words
  ok : ∀ disk ∈ disks, disk.Ok
  nodup : (disks.map DiskLine.majorMinor).Nodup

namespace Diskstats

variable {buf : Bytes}

theorem infoFields_fields (n : Nat) (buf : Bytes) (found : List Bytes)
    (hn : n < (fields isWhitespace (firstLine newline buf)).length) :
    ∃ rest, infoFields n buf found =
        (found ++ (fields isWhitespace (firstLine newline buf)).take n, rest, false) ∧
      fields isWhitespace (firstLine newline rest) =
        (fields isWhitespace (firstLine newline buf)).drop n ∧
      afterLine newline rest = afterLine newline buf := by
  induction n generalizing buf found with
  | zero => exact ⟨buf, by simp [infoFields], rfl, rfl⟩
  | succ n ih =>
    rcases hnext : nextField buf with ⟨word, sep, rest⟩
    rcases nextWord_line isWhitespace_newline hnext with ⟨-, hwords, -⟩ |
      ⟨hword, words, hwords, ⟨-, rfl, -⟩ | ⟨hsep, rfl, hafter⟩⟩
    -- one more word follows, so that the line does not end here
    iterate 2
      rw [hwords] at hn
      simp at hn
    rw [hwords] at hn
    obtain ⟨rest', heq, hrest, hafter'⟩ := ih rest (found ++ [word]) (by simpa using hn)
    refine ⟨rest', ?_, ?_, hafter'.trans hafter⟩
    · simp [infoFields, hnext, hword, hsep, heq, hwords]
    · simp [hrest, hwords]

theorem advanceToEol_of_lineEnd {text : Bytes} {eol : Bool} (h : LineEnd text buf eol) :
    advanceToEol buf eol = some text := by
  cases eol with
  | true => exact congrArg some h
  | false =>
    obtain ⟨hword, hrest⟩ := nextField_of_lineEnd h
    simp [advanceToEol, hword, hrest]

open DiskLine

theorem parseLine_fields {disk : DiskLine} (diskstats : Diskstats) (scanNum lineNum : Nat)
    (hwords : fields isWhitespace (firstLine newline buf) = disk.words) (hok : disk.Ok) :
    diskstats.parseLine scanNum lineNum buf =
      .ok (diskstats.updateDevInfo disk.majorMinor disk.name
        (disk.stats diskstats.jiffiesToMillisec) scanNum, afterLine newline buf) := by
  have hmin := hok.min_le
  obtain ⟨rest, hinfo, hrest, hafter⟩ := infoFields_fields diskstatsInfoFieldsNum buf [] (by
    rw [hwords]
    simp only [words, length_cons, diskstatsInfoFieldsNum]
    unfold minNumDiskstatsValues at hmin
    omega)
  rw [hwords] at hinfo hrest
  have hinfo : infoFields diskstatsInfoFieldsNum buf [] =
      ([disk.major, disk.minor, disk.name], rest, false) := hinfo
  have hrest : fields isWhitespace (firstLine newline rest) = disk.values := hrest
  obtain ⟨rest', eol, hvalues, hend⟩ := valueFields_fields
    (fieldValue diskstats.jiffiesToMillisec) diskstatsValueFieldsNum rest []
    (by rw [hrest]; exact hok.le_max) (by rw [hrest]; exact hok.digits)
  rw [hafter] at hend
  have hvalues : valueFields (fieldValue diskstats.jiffiesToMillisec) diskstatsValueFieldsNum
      rest [] = .ok (disk.stats diskstats.jiffiesToMillisec, rest', eol) := by
    rw [hvalues, hrest]
    simp [stats]
  have hlen : ¬ (disk.stats diskstats.jiffiesToMillisec).length < minNumDiskstatsValues := by
    simpa [stats] using hmin
  simp [parseLine, hinfo, hvalues, hlen, advanceToEol_of_lineEnd hend, majorMinor]

def updateDevInfos (diskstats : Diskstats) (scanNum : Nat) (lines : List DiskLine) : Diskstats :=
  lines.foldl (fun d line => d.updateDevInfo line.majorMinor line.name
    (line.stats d.jiffiesToMillisec) scanNum) diskstats

theorem parseLines_lines {disks : List DiskLine} (scanNum fuel lineNum : Nat)
    (diskstats : Diskstats)
    (hwords : (lines newline buf).map (fields isWhitespace) = disks.map words)
    (hok : ∀ disk ∈ disks, disk.Ok) (hfuel : buf.length ≤ fuel) :
    parseLines scanNum fuel lineNum diskstats buf =
      .ok (diskstats.updateDevInfos scanNum disks) := by
  induction disks generalizing buf fuel lineNum diskstats with
  | nil =>
    cases buf with
    | nil => simp [parseLines, updateDevInfos]
    | cons c text =>
      rw [lines_of_ne_nil (cons_ne_nil c text)] at hwords
      cases hwords
  | cons disk disks ih =>
    have hne : buf ≠ [] := by
      rintro rfl
      cases hwords
    rw [lines_of_ne_nil hne, map_cons, map_cons, cons.injEq] at hwords
    have hlt : (afterLine newline buf).length < buf.length := length_afterLine_lt hne
    obtain ⟨fuel, rfl⟩ : ∃ m, fuel = m + 1 := ⟨fuel - 1, by omega⟩
    rw [parseLines, parseLine_fields diskstats scanNum lineNum hwords.1 (hok disk (by simp))]
    · show parseLines scanNum fuel (lineNum + 1) _ (afterLine newline buf) = _
      rw [ih fuel (lineNum + 1) _ hwords.2 (fun d hd => hok d (mem_cons_of_mem _ hd))
        (by omega)]
      rfl
    · exact hne

/-- The entries have all the fields, and were found at this scan or an earlier one. -/
def Ok (diskstats : Diskstats) : Prop :=
  ∀ k devInfo, diskstats.devInfoMap.lookup k = some devInfo →
    devInfo.stats.length = diskstatsValueFieldsNum ∧ devInfo.scanNum ≤ diskstats.scanNum

structure Reflects (jiffiesToMillisec : UInt32) (line : DiskLine) (devInfo : DiskstatsDevInfo) :
    Prop where
  name_eq : devInfo.name = line.name
  length_eq : devInfo.stats.length = diskstatsValueFieldsNum
  stats_eq : ∀ i word, line.values[i]? = some word →
    devInfo.stats[i]? = some (fieldValue jiffiesToMillisec i word)

theorem newDiskstats_ok (j : UInt32) : (newDiskstats j).Ok := by
  intro k devInfo h
  simp [newDiskstats] at h

theorem Ok.clone (h : diskstats.Ok) : diskstats.clone.Ok := by
  intro k devInfo hk
  simp only [Diskstats.clone, lookup_filterMapEntries] at hk
  obtain ⟨old, hold, hsome⟩ := Option.bind_eq_some_iff.mp hk
  cases hsome
  exact ⟨length_replicate, (h k old hold).2⟩

theorem updateDevInfo_lookup_ne {k majorMinor : Bytes}
    (hk : k ≠ majorMinor) (name : Bytes) (values : List UInt32) (scanNum : Nat) :
    (diskstats.updateDevInfo majorMinor name values scanNum).devInfoMap.lookup k =
      diskstats.devInfoMap.lookup k :=
  Finmap.lookup_insert_of_ne _ hk

theorem updateDevInfo_lookup_self (hstats : ∀ k devInfo,
      diskstats.devInfoMap.lookup k = some devInfo →
      devInfo.stats.length = diskstatsValueFieldsNum)
    {line : DiskLine} (hok : line.Ok) (j : UInt32) (scanNum : Nat) :
    ∃ devInfo, (diskstats.updateDevInfo line.majorMinor line.name (line.stats j)
        scanNum).devInfoMap.lookup line.majorMinor = some devInfo ∧
      Reflects j line devInfo ∧ devInfo.scanNum = scanNum := by
  have hreflects : ∀ stats : List UInt32, stats.length = diskstatsValueFieldsNum →
      Reflects j line ⟨line.name, line.stats j ++ stats.drop (line.stats j).length, scanNum⟩ := by
    intro stats hlen
    have hmax := hok.le_max
    refine ⟨rfl, ?_, ?_⟩
    · simp only [DiskLine.stats, length_append, length_drop, length_mapIdx, hlen]
      omega
    · intro i word hword
      have hi : i < line.values.length := (List.getElem?_eq_some_iff.mp hword).1
      rw [getElem?_append_left (by simpa [DiskLine.stats] using hi)]
      simp [DiskLine.stats, hword]
  unfold updateDevInfo
  cases hlookup : diskstats.devInfoMap.lookup line.majorMinor with
  | none => exact ⟨_, Finmap.lookup_insert _, hreflects _ length_replicate, rfl⟩
  | some devInfo => exact ⟨_, Finmap.lookup_insert _, hreflects _ (hstats _ _ hlookup), rfl⟩

structure Entered (diskstats : Diskstats) (scanNum : Nat) (lines : List DiskLine)
    (entered : Diskstats) : Prop where
  jiffies_eq : entered.jiffiesToMillisec = diskstats.jiffiesToMillisec
  length_eq : ∀ k devInfo, entered.devInfoMap.lookup k = some devInfo →
    devInfo.stats.length = diskstatsValueFieldsNum
  reflects : ∀ line ∈ lines, ∃ devInfo, entered.devInfoMap.lookup line.majorMinor = some devInfo ∧
    Reflects diskstats.jiffiesToMillisec line devInfo ∧ devInfo.scanNum = scanNum
  others : ∀ k, k ∉ lines.map DiskLine.majorMinor →
    entered.devInfoMap.lookup k = diskstats.devInfoMap.lookup k

theorem updateDevInfos_append (diskstats : Diskstats) (scanNum : Nat) (lines : List DiskLine)
    (line : DiskLine) :
    diskstats.updateDevInfos scanNum (lines ++ [line]) =
      (diskstats.updateDevInfos scanNum lines).updateDevInfo line.majorMinor line.name
        (line.stats (diskstats.updateDevInfos scanNum lines).jiffiesToMillisec) scanNum := by
  rw [updateDevInfos, foldl_append]
  rfl

theorem updateDevInfos_entered (hd : diskstats.Ok) (scanNum : Nat) {lines : List DiskLine}
    (hok : ∀ line ∈ lines, line.Ok) (hnodup : (lines.map majorMinor).Nodup) :
    Entered diskstats scanNum lines (diskstats.updateDevInfos scanNum lines) := by
  induction lines using reverseRecOn with
  | nil => exact ⟨rfl, fun k devInfo h => (hd k devInfo h).1, by simp, fun _ _ => rfl⟩
  | append_singleton lines line ih =>
    rw [map_append, nodup_append] at hnodup
    obtain ⟨hnodup, -, hnew⟩ := hnodup
    have hline : line.Ok := hok line (by simp)
    have h := ih (fun l hl => hok l (by simp [hl])) hnodup
    rw [updateDevInfos_append, h.jiffies_eq]
    obtain ⟨devInfo, hself, hreflects, hscan⟩ :=
      updateDevInfo_lookup_self h.length_eq hline diskstats.jiffiesToMillisec scanNum
    refine ⟨h.jiffies_eq, ?_, ?_, ?_⟩
    · intro k info hk
      by_cases hkl : k = line.majorMinor
      · subst hkl
        rw [hself] at hk
        cases hk
        exact hreflects.length_eq
      · rw [updateDevInfo_lookup_ne hkl] at hk
        exact h.length_eq k info hk
    · intro l hl
      rcases mem_append.mp hl with hl | hl
      · rw [updateDevInfo_lookup_ne (hnew _ (mem_map_of_mem hl) _ (by simp))]
        exact h.reflects l hl
      · obtain rfl := mem_singleton.mp hl
        exact ⟨devInfo, hself, hreflects, hscan⟩
    · intro k hk
      simp only [map_append, mem_append, not_or, map_cons, map_nil, mem_singleton] at hk
      rw [updateDevInfo_lookup_ne hk.2]
      exact h.others k hk.1

section

variable {diskstats entered : Diskstats} {scanNum : Nat} {lines : List DiskLine}

theorem Entered.lookup_found (he : Entered diskstats scanNum lines entered) {line : DiskLine}
    (hline : line ∈ lines) :
    ∃ devInfo, (entered.removeOutOfScope scanNum).devInfoMap.lookup line.majorMinor = some devInfo ∧
      Reflects diskstats.jiffiesToMillisec line devInfo ∧ devInfo.scanNum = scanNum := by
  obtain ⟨devInfo, hk, hreflects, hscan⟩ := he.reflects line hline
  refine ⟨devInfo, ?_, hreflects, hscan⟩
  rw [removeOutOfScope, lookup_filterMapEntries, hk]
  simp [hscan]

variable (he : Entered diskstats scanNum lines entered) (hd : diskstats.Ok)
  (hscan : diskstats.scanNum < scanNum)
include he hd hscan

-- An entry that no line made is left from an earlier scan.
theorem Entered.lookup_gone {k : Bytes} (hk : k ∉ lines.map majorMinor) :
    (entered.removeOutOfScope scanNum).devInfoMap.lookup k = none := by
  rw [removeOutOfScope, lookup_filterMapEntries, he.others k hk]
  cases hold : diskstats.devInfoMap.lookup k with
  | none => rfl
  | some devInfo =>
    have hle := (hd k devInfo hold).2
    rw [Option.bind_some, if_pos (by omega)]

theorem Entered.ok : (entered.removeOutOfScope scanNum).Ok := by
  intro k devInfo hk
  by_cases hmem : k ∈ lines.map majorMinor
  · obtain ⟨line, hline, rfl⟩ := mem_map.mp hmem
    obtain ⟨devInfo', hk', hreflects, hscan'⟩ := he.lookup_found hline
    rw [hk'] at hk
    cases hk
    exact ⟨hreflects.length_eq, Nat.le_of_eq hscan'⟩
  · rw [he.lookup_gone hd hscan hmem] at hk
    cases hk

end

theorem parseBuf_wellFormed (hd : diskstats.Ok) {lines : List DiskLine}
    (h : WellFormedDiskstats lines buf) :
    ∃ parsed, diskstats.parseBuf buf = .ok parsed ∧ parsed.Ok ∧
      parsed.jiffiesToMillisec = diskstats.jiffiesToMillisec ∧
      (∀ k, k ∈ parsed.devInfoMap ↔ k ∈ lines.map majorMinor) ∧
      ∀ line ∈ lines, ∃ devInfo, parsed.devInfoMap.lookup line.majorMinor = some devInfo ∧
        Reflects diskstats.jiffiesToMillisec line devInfo := by
  let scanNum := diskstats.scanNum + 1
  let start := { diskstats with changed := false }
  have hstart : start.Ok := hd
  have he := updateDevInfos_entered hstart scanNum h.ok h.nodup
  have hparse : diskstats.parseBuf buf =
      .ok ((start.updateDevInfos scanNum lines).removeOutOfScope scanNum) := by
    show (parseLines scanNum buf.length 1 start buf >>= fun d =>
      pure (d.removeOutOfScope scanNum)) = _
    rw [parseLines_lines scanNum buf.length 1 start h.words_eq h.ok (Nat.le_refl _)]
    rfl
  have hscan : start.scanNum < scanNum := Nat.lt_succ_self _
  refine ⟨_, hparse, he.ok hstart hscan, he.jiffies_eq, ?_, ?_⟩
  · intro k
    by_cases hmem : k ∈ lines.map majorMinor
    · obtain ⟨line, hline, rfl⟩ := mem_map.mp hmem
      obtain ⟨devInfo, hk, -⟩ := he.lookup_found hline
      exact iff_of_true (Finmap.mem_of_lookup_eq_some hk) hmem
    · have hgone := he.lookup_gone hstart hscan hmem
      exact iff_of_false (Finmap.lookup_eq_none.mp hgone) hmem
  · intro line hline
    obtain ⟨devInfo, hk, hreflects, -⟩ := he.lookup_found hline
    exact ⟨devInfo, hk, hreflects⟩

end Diskstats

end Lsvmi.Procfs
