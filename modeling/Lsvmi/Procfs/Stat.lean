import Lsvmi.Procfs.Common
import Lsvmi.Reasoning.FiniteMap

/-!
# The parser for /proc/stat

`NewStat`, `Clone` and `Parse`.  The flag for the end of the line that the loop of `Parse` sets is
declared inside the loop, and is not the one that the loop tests when it starts over: the rest of a
line that was not used up is not skipped, and what is left of it is taken for another line.
-/

namespace Lsvmi.Procfs

open Reasoning

def statCpuNumStats : Nat := 10

def statCpuAll : Int64 := -1

def statCpuMinNumFields : Nat := 7

def statCpuScanNumber : Nat := statCpuNumStats

def statCpuStatsSz : Nat := statCpuScanNumber + 1

def statNumericNumStats : Nat := 9

structure Stat where
  cpu : Finmap fun _ : Int64 => Vector UInt64 statCpuStatsSz
  numCpus : Nat
  numericFields : Vector UInt64 statNumericNumStats
  scanNum : UInt64

def statMaxReadSize : Nat := 0x40000

/-- What `Parse` complains about, with the number of the line and its text; for an invalid value the
text is the one from the invalid character on. -/
inductive StatError where
  | invalidCpuNum (lineNum : Nat) (line : Bytes) (c : UInt8)
  | invalidDigit (lineNum : Nat) (rest : Bytes) (c : UInt8)
  | invalidValueCount (lineNum : Nat) (line : Bytes) (want got : Nat)
  | potentialTruncation
  deriving DecidableEq, Repr

def newStat : Stat :=
  { cpu := ∅, numCpus := 0, numericFields := .replicate _ 0, scanNum := 0 }

/-- The indexes of the values of a line, by its prefix. -/
def statPrefixToDstIndexList : List (Bytes × List Nat) :=
  [(utf8 "cpu", [0, 1, 2, 3, 4, 5, 6, 7, 8, 9]), (utf8 "page", [0, 1]), (utf8 "swap", [2, 3]),
    (utf8 "ctxt", [4]), (utf8 "btime", [5]), (utf8 "processes", [6]), (utf8 "procs_running", [7]),
    (utf8 "procs_blocked", [8])]

def dstIndexList (word : Bytes) : List Nat := (statPrefixToDstIndexList.lookup word).getD []

def statCpuPrefix : Bytes := utf8 "cpu"

namespace Stat

def cpuScanNum (cpuStats : Vector UInt64 statCpuStatsSz) : UInt64 :=
  cpuStats.get ⟨statCpuScanNumber, Nat.lt_succ_self _⟩

variable (stat : Stat)

def clone (full : Bool) : Stat :=
  { cpu := filterMapEntries (fun _ cpuStats =>
      some (if full then cpuStats
        else Vector.setIfInBounds (.replicate _ 0) statCpuScanNumber (cpuScanNum cpuStats))) stat.cpu
    numCpus := 0
    numericFields := .replicate _ 0
    scanNum := stat.scanNum }

/-- No character of the word, up to the length of the prefix, differs from it.  A word that is
shorter is not told apart. -/
def isCpuPrefix (word : Bytes) : Bool := (word.take statCpuPrefix.length).isPrefixOf statCpuPrefix

def cpuNum (word : Bytes) : Int64 :=
  if word.length = statCpuPrefix.length then statCpuAll
  else (word.drop statCpuPrefix.length).foldl
    (fun n c => (n <<< 3) + (n <<< 1) + Int64.ofNat (c - 48).toNat) 0

inductive Dst where
  | cpu (cpuNum : Int64)
  | numeric
  deriving DecidableEq, Repr

/-- The values of the CPU are made if there are none, and have the scan#. -/
def foundCpu (scanNum : UInt64) (cpuNum : Int64) : Stat :=
  let values := (stat.cpu.lookup cpuNum).getD (.replicate _ 0)
  { stat with cpu := stat.cpu.insert cpuNum (values.setIfInBounds statCpuScanNumber scanNum) }

def store (dst : Dst) (i : Nat) (val : UInt64) : Stat :=
  match dst with
  | .cpu cpuNum =>
    let values := (stat.cpu.lookup cpuNum).getD (.replicate _ 0)
    { stat with cpu := stat.cpu.insert cpuNum (values.setIfInBounds i val) }
  | .numeric => { stat with numericFields := stat.numericFields.setIfInBounds i val }

def fieldVal (word : Bytes) : UInt64 :=
  word.foldl (fun v c => (v <<< 3) + (v <<< 1) + (c - 48).toUInt64) 0

/-- The loop over the fields, for the indexes that are left.  The result is the invalid character
and the text from it on, or the number of values that were found and the rest of the buffer. -/
def parseFields (dst : Dst) : List Nat → Nat → Stat → Bytes →
    Stat × Except (UInt8 × Bytes) (Nat × Bytes)
  | [], fieldIndex, stat, buf => (stat, .ok (fieldIndex, buf))
  | i :: indexList, fieldIndex, stat, buf =>
    let (word, sep, rest) := nextField buf
    match invalidDigit word with
    | some c =>
      (stat, .error (c, getCurrentLine ((buf.dropWhile isWhitespace).dropWhile isDigit)))
    | none =>
      if word = [] then (stat, .ok (fieldIndex, rest))
      else
        let stat := stat.store dst i (fieldVal word)
        if sep = some newline then (stat, .ok (fieldIndex + 1, rest))
        else parseFields dst indexList (fieldIndex + 1) stat rest

def parseValues (lineNum : Nat) (line : Bytes) (dst : Dst) (indexList : List Nat)
    (minNumValues : Nat) (sep : Option UInt8) (buf : Bytes) : Stat × Except StatError Bytes :=
  let (stat, result) :=
    if sep = some newline then (stat, .ok (0, buf)) else parseFields dst indexList 0 stat buf
  match result with
  | .error (c, text) => (stat, .error (.invalidDigit lineNum text c))
  | .ok (fieldIndex, buf) =>
    if fieldIndex < minNumValues then
      (stat, .error (.invalidValueCount lineNum line minNumValues fieldIndex))
    else (stat, .ok buf)

def parseLine (scanNum : UInt64) (lineNum : Nat) (buf : Bytes) :
    Stat × Except StatError Bytes :=
  let line := getCurrentLine buf
  let (word, sep, rest) := nextField buf
  -- the first characters are compared with the prefix, and the others must be digits then
  match if isCpuPrefix word then invalidDigit (word.drop statCpuPrefix.length) else none with
  | some c => (stat, .error (.invalidCpuNum lineNum line c))
  | none =>
    if word = [] then (stat, .ok rest)
    else if isCpuPrefix word then
      let stat := if word.length = statCpuPrefix.length then stat
        else { stat with numCpus := stat.numCpus + 1 }
      (stat.foundCpu scanNum (cpuNum word)).parseValues lineNum line (.cpu (cpuNum word))
        (dstIndexList statCpuPrefix) statCpuMinNumFields sep rest
    else
      stat.parseValues lineNum line .numeric (dstIndexList word) (dstIndexList word).length sep rest

def parseLines (scanNum : UInt64) : Nat → Nat → Stat → Bytes → Stat × Option StatError
  | _, _, stat, [] => (stat, none)
  | 0, _, stat, _ => (stat, none)
  | fuel + 1, lineNum, stat, buf =>
    match stat.parseLine scanNum lineNum buf with
    | (stat, .error e) => (stat, some e)
    | (stat, .ok buf) => parseLines scanNum fuel (lineNum + 1) stat buf

def removeOutOfScope (scanNum : UInt64) : Stat :=
  { stat with
    cpu := filterMapEntries
      (fun _ cpuStats => if cpuScanNum cpuStats ≠ scanNum then none else some cpuStats) stat.cpu
    scanNum }

def parseBuf (buf : Bytes) : Stat × Option StatError :=
  let scanNum := stat.scanNum + 1
  match parseLines scanNum buf.length 1 { stat with numCpus := 0 } buf with
  | (stat, some e) => (stat, some e)
  | (stat, none) => (stat.removeOutOfScope scanNum, none)

def parse (file : Bytes) : Stat × Option StatError :=
  parseFile statMaxReadSize (stat, some .potentialTruncation) stat.parseBuf file

end Stat

end Lsvmi.Procfs
