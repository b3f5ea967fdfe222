import Mathlib.Logic.Function.Basic
import Lsvmi.ProcPid.Data
import Lsvmi.Procfs.Common

/-!
# The parser for /proc/PID/status

`PidStatus.Parse`.  An object is used for one process after the other.  The units are read once, the
byte slices that have no line are cleared at the end and the numbers stay as they are.
-/

namespace Lsvmi.Procfs.PidStatus

open ProcPid Function
open Reasoning

inductive DataType where
  | singleVal | singleValUnit | list
  deriving DecidableEq, Repr

/-- `PidStatusLineHandling`: the data type says which array the index is for. -/
inductive LineHandling where
  | byteSlice (dataType : DataType) (field : PidStatusField) (emptyValueOK : Bool)
  | ulong (field : PidStatusNumField)
  deriving DecidableEq, Repr

def pidStatusLineHandlingMap : List (Bytes × LineHandling) :=
  [(utf8 "Uid", .byteSlice .list .uid false),
    (utf8 "Gid", .byteSlice .list .gid false),
    (utf8 "Groups", .byteSlice .list .groups true),
    (utf8 "VmPeak", .byteSlice .singleValUnit .vmPeak false),
    (utf8 "VmSize", .byteSlice .singleValUnit .vmSize false),
    (utf8 "VmLck", .byteSlice .singleValUnit .vmLck false),
    (utf8 "VmPin", .byteSlice .singleValUnit .vmPin false),
    (utf8 "VmHWM", .byteSlice .singleValUnit .vmHwm false),
    (utf8 "VmRSS", .byteSlice .singleValUnit .vmRss false),
    (utf8 "RssAnon", .byteSlice .singleValUnit .rssAnon false),
    (utf8 "RssFile", .byteSlice .singleValUnit .rssFile false),
    (utf8 "RssShmem", .byteSlice .singleValUnit .rssShmem false),
    (utf8 "VmData", .byteSlice .singleValUnit .vmData false),
    (utf8 "VmStk", .byteSlice .singleValUnit .vmStk false),
    (utf8 "VmExe", .byteSlice .singleValUnit .vmExe false),
    (utf8 "VmLib", .byteSlice .singleValUnit .vmLib false),
    (utf8 "VmPTE", .byteSlice .singleValUnit .vmPte false),
    (utf8 "VmPMD", .byteSlice .singleValUnit .vmPmd false),
    (utf8 "VmSwap", .byteSlice .singleValUnit .vmSwap false),
    (utf8 "HugetlbPages", .byteSlice .singleValUnit .hugetlbpages false),
    (utf8 "Cpus_allowed_list", .byteSlice .singleVal .cpusAllowedList false),
    (utf8 "Mems_allowed_list", .byteSlice .singleVal .memsAllowedList false),
    (utf8 "voluntary_ctxt_switches", .ulong .voluntaryCtxtSwitches),
    (utf8 "nonvoluntary_ctxt_switches", .ulong .nonvoluntaryCtxtSwitches)]

def lineHandling (name : Bytes) : Option LineHandling :=
  (pidStatusLineHandlingMap.find? (·.1 == name)).map Prod.snd

def pidStatusByteSliceNumFields : Int := 22

def pidStatusMaxReadSize : Nat := 0x4000

inductive PidStatusError where
  | cannotRead
  | potentialTruncation
  | noName (lineNum : Nat) (line : Bytes)
  | invalidDigit (lineNum : Nat) (line : Bytes) (c : UInt8)
  | missingUnit (lineNum : Nat) (line : Bytes)
  | emptyValues (lineNum : Nat) (line : Bytes)
  deriving DecidableEq, Repr

def lineName (buf : Bytes) : Option (Bytes × Bytes) :=
  let buf := buf.dropWhile isWhitespace
  let name := buf.takeWhile fun c => c ≠ 58 && c ≠ newline
  let rest := buf.dropWhile fun c => c ≠ 58 && c ≠ newline
  if rest.head? = some 58 ∧ name ≠ [] then some (name, rest.tail) else none

def listValue (wasSep : Bool) (value : Bytes) : Bytes → Bytes × Bytes
  | [] => (value, [])
  | c :: buf =>
    if c = newline then (value, buf)
    else if isWhitespace c then listValue true value buf
    else if wasSep && value.length > 0 then listValue false (value ++ [44, c]) buf
    else listValue false (value ++ [c]) buf

/-- A single value or a unit, whether the line ends behind it, and the rest of the buffer.  The
length is only known once the character behind it has been seen. -/
def singleValue (buf : Bytes) : Bytes × Bool × Bytes :=
  let (word, sep, buf) := nextField buf
  (if sep = none then [] else word, sep = some newline, buf)

def unitValue (eol : Bool) (buf : Bytes) : Bytes × Bool × Bytes :=
  if eol then ([], true, buf.dropWhile isWhitespace) else singleValue buf

def nextLine (eol : Bool) (buf : Bytes) : Bytes := if eol then buf else afterLine newline buf

structure ParseState where
  pidStatus : PidStatus
  foundByteSliceFields : PidStatusField → Bool
  missingByteSliceFieldsCnt : Int

namespace ParseState

def setNumber (st : ParseState) (field : PidStatusNumField) (value : UInt64) : ParseState :=
  { st with pidStatus.nf := Function.update st.pidStatus.nf field value }

def setUnit (st : ParseState) (field : PidStatusField) (unit : Bytes) : ParseState :=
  { st with pidStatus.bsfu := Function.update st.pidStatus.bsfu field (some unit) }

/-- The memory of the last value is used again.  Because of this an empty value is nil only if there
has been none before. -/
def store (st : ParseState) (field : PidStatusField) (value : Bytes) : ParseState where
  pidStatus :=
    { st.pidStatus with
      bsf := Function.update st.pidStatus.bsf field
        (if value = [] then (st.pidStatus.bsf field).map fun _ => [] else some value) }
  foundByteSliceFields := Function.update st.foundByteSliceFields field true
  missingByteSliceFieldsCnt := st.missingByteSliceFieldsCnt - 1

section

variable (st : ParseState) (field : PidStatusField) (value : Bytes) {f : PidStatusField}

theorem setUnit_self : (st.setUnit field value).pidStatus.bsfu field = some value :=
  update_self _ _ _

theorem setUnit_of_ne (h : f ≠ field) :
    (st.setUnit field value).pidStatus.bsfu f = st.pidStatus.bsfu f := update_of_ne h _ _

theorem store_bsf_self : (st.store field value).pidStatus.bsf field =
    if value = [] then (st.pidStatus.bsf field).map fun _ => [] else some value :=
  update_self _ _ _

theorem store_bsf_of_ne (h : f ≠ field) :
    (st.store field value).pidStatus.bsf f = st.pidStatus.bsf f := update_of_ne h _ _

theorem store_found_self : (st.store field value).foundByteSliceFields field :=
  update_self _ _ _

theorem store_found_of_ne (h : f ≠ field) :
    (st.store field value).foundByteSliceFields f = st.foundByteSliceFields f :=
  update_of_ne h _ _

end

def checkValue (st : ParseState) (lineNum : Nat) (line : Bytes) (field : PidStatusField)
    (emptyValueOK : Bool) (value rest : Bytes) : ParseState × Except PidStatusError Bytes :=
  if value = [] ∧ emptyValueOK = false then (st, .error (.emptyValues lineNum line))
  else (st.store field value, .ok rest)

def parseValue (st : ParseState) (lineNum : Nat) (line buf : Bytes) :
    LineHandling → ParseState × Except PidStatusError Bytes
  | .ulong field =>
    let (word, sep, buf) := nextField buf
    match invalidDigit word with
    | some c => (st, .error (.invalidDigit lineNum line c))
    | none =>
      let value := word.foldl (fun (v : UInt64) c => (v <<< 3) + (v <<< 1) + (c - 48).toUInt64) 0
      (st.setNumber field value, .ok (nextLine (sep = some newline) buf))
  | .byteSlice .list field emptyValueOK =>
    let (value, buf) := listValue true [] (buf.dropWhile isWhitespace)
    st.checkValue lineNum line field emptyValueOK value buf
  | .byteSlice .singleVal field emptyValueOK =>
    let (value, eol, buf) := singleValue buf
    st.checkValue lineNum line field emptyValueOK value (nextLine eol buf)
  | .byteSlice .singleValUnit field emptyValueOK =>
    let (value, eol, buf) := singleValue buf
    -- The unit is supposed to be the same forever.
    if (st.pidStatus.bsfu field).getD [] ≠ [] then
      st.checkValue lineNum line field emptyValueOK value (nextLine eol buf)
    else
      let (unit, eol, buf) := unitValue eol buf
      if unit = [] then (st, .error (.missingUnit lineNum line))
      else
        (st.setUnit field unit).checkValue lineNum line field emptyValueOK value (nextLine eol buf)

def parseLine (st : ParseState) (lineNum : Nat) (buf : Bytes) :
    ParseState × Except PidStatusError Bytes :=
  match lineName buf with
  | none => (st, .error (.noName lineNum (getCurrentLine buf)))
  | some (name, rest) =>
    match lineHandling name with
    | none => (st, .ok (afterLine newline rest))
    | some handling => st.parseValue lineNum (getCurrentLine buf) rest handling

def parseLines : Nat → ParseState → Nat → Bytes → ParseState × Option PidStatusError
  | 0, st, _, _ => (st, none)
  | _ + 1, st, _, [] => (st, none)
  | fuel + 1, st, lineNum, c :: buf =>
    match st.parseLine (lineNum + 1) (c :: buf) with
    | (st, .error e) => (st, some e)
    | (st, .ok rest) => st.parseLines fuel (lineNum + 1) rest

/-- Fields that were not found are cleared if there are any, by count. -/
def clearMissing (st : ParseState) : PidStatus :=
  if st.missingByteSliceFieldsCnt > 0 then
    { st.pidStatus with
      bsf := fun field => if st.foundByteSliceFields field then st.pidStatus.bsf field else none }
  else st.pidStatus

theorem clearMissing_bsf (st : ParseState) (field : PidStatusField) :
    st.clearMissing.bsf field =
      if st.missingByteSliceFieldsCnt > 0 ∧ st.foundByteSliceFields field = false then none
      else st.pidStatus.bsf field := by
  unfold clearMissing
  by_cases hmissing : st.missingByteSliceFieldsCnt > 0
  · rw [if_pos hmissing]
    cases hfound : st.foundByteSliceFields field with
    | true => simp [hfound]
    | false => simp [hfound, hmissing]
  · rw [if_neg hmissing, if_neg fun h => hmissing h.1]

theorem clearMissing_bsfu (st : ParseState) : st.clearMissing.bsfu = st.pidStatus.bsfu := by
  unfold clearMissing
  split
  · rfl
  · rfl

theorem clearMissing_nf (st : ParseState) : st.clearMissing.nf = st.pidStatus.nf := by
  unfold clearMissing
  split
  · rfl
  · rfl

end ParseState

def start (pidStatus : PidStatus) : ParseState :=
  ⟨pidStatus, fun _ => false, pidStatusByteSliceNumFields⟩

def parseContent (pidStatus : PidStatus) (buf : Bytes) : PidStatus × Option PidStatusError :=
  match (start pidStatus).parseLines buf.length 0 buf with
  | (st, some e) => (st.pidStatus, some e)
  | (st, none) => (st.clearMissing, none)

/-- `Parse` of a file that cannot be read, or of one with some content: the object afterwards and
the error, if there is one. -/
def parse (pidStatus : PidStatus) : Option Bytes → PidStatus × Option PidStatusError
  | none => (pidStatus, some .cannotRead)
  | some file =>
    let (buf, truncated) := readFile pidStatusMaxReadSize file
    if truncated then (pidStatus, some .potentialTruncation) else parseContent pidStatus buf

end Lsvmi.Procfs.PidStatus
