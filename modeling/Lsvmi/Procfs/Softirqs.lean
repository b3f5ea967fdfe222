import Lsvmi.Procfs.Interrupts

/-!
# The parser for /proc/softirqs

`NewSoftirqs`, `Clone` and `Parse`.  An object keeps the first line of the content, with the CPU of
each column, for as long as the line does not change, and reuses the slices with the counters.  An
index that is out of range ends the process, which is the result `none`.
-/

namespace Lsvmi.Procfs

open Reasoning

namespace CounterSlice

def ofValues (values : List UInt64) : CounterSlice := ⟨values, values.length, Nat.le_refl _⟩

def set (s : CounterSlice) (i : Nat) (value : UInt64) : CounterSlice :=
  ⟨s.backing.set i value, s.len, by
    rw [List.length_set]
    exact s.len_le⟩

end CounterSlice

structure Softirqs where
  counters : Finmap fun _ : Bytes => CounterSlice
  cpuList : Option (List Int64)
  cpuListChanged : Bool
  numCounters : Nat
  cpuHeaderLine : Bytes
  irqScanNum : Finmap fun _ : Bytes => Nat
  scanNum : Nat

inductive SoftirqsError where
  | invalidCpuSpec (line cpu : Bytes)
  | invalidSoftirq (lineNum : Nat) (line : Bytes)
  | notAValidDigit (lineNum : Nat) (line : Bytes) (c : UInt8)
  | missingIrqs (lineNum : Nat) (line : Bytes) (want got : Nat)
  | unexpectedContent (lineNum : Nat) (line rest : Bytes)
  deriving DecidableEq, Repr

def newSoftirqs : Softirqs :=
  { counters := ∅, cpuList := none, cpuListChanged := false, numCounters := 0, cpuHeaderLine := []
    irqScanNum := ∅, scanNum := 0 }

variable (softirqs : Softirqs)

def Softirqs.clone (full : Bool) : Softirqs :=
  { softirqs with
    counters := filterMapEntries
      (fun _ counters => some (if full then .ofValues counters.values else .make counters.len))
      softirqs.counters
    irqScanNum := if full then softirqs.irqScanNum else ∅ }

/-- The word that is not a CPU, if there is one.  The number of counters is the one of the new line
even then. -/
def Softirqs.updateCounterIndexToCpuNumMap (cpuHeaderLine : Bytes) :
    Softirqs × Option Bytes :=
  let fields := stringsFields cpuHeaderLine
  let softirqs := { softirqs with numCounters := fields.length }
  match fields.mapM cpuNum with
  | .error cpu => (softirqs, some cpu)
  | .ok counterIndexToCpuNum =>
    ({ softirqs with cpuList := cpuListOf counterIndexToCpuNum, cpuHeaderLine }, none)

/-- The line is compared with the one that the same object has seen before. -/
def Softirqs.parseHeader (line : Bytes) : Softirqs × Option SoftirqsError :=
  -- compared one character at a time; neither line has a newline in it
  if line = softirqs.cpuHeaderLine then ({ softirqs with cpuListChanged := false }, none)
  else match softirqs.updateCounterIndexToCpuNumMap line with
    | (softirqs, some cpu) => (softirqs, some (.invalidCpuSpec line cpu))
    | (softirqs, none) => ({ softirqs with cpuListChanged := true }, none)

def softirqName (buf : Bytes) : Option (Bytes × Bytes) :=
  let isName := fun c => c ≠ 58 && c ≠ newline
  let buf := buf.dropWhile isWhitespace
  let rest := buf.dropWhile isName
  if rest.head? = some 58 then some (buf.takeWhile isName, rest.tail) else none

/-- The slice that the counters of the softirq go to.  One that has room for more of them than it
has is left as it is. -/
def Softirqs.irqCounters (irq : Bytes) : CounterSlice :=
  match softirqs.counters.lookup irq with
  | none => .make softirqs.numCounters
  | some counters =>
    if counters.backing.length < softirqs.numCounters then .make softirqs.numCounters
    else if h : softirqs.numCounters < counters.len then
      ⟨counters.backing, softirqs.numCounters, Nat.le_trans (Nat.le_of_lt h) counters.len_le⟩
    else counters

/-- The loop over the counters from `counterIndex` on, at most `n` of them; a character that is not
a digit is an error.  The result is the index that was reached, the rest of the buffer and whether
the end of the line was seen. -/
def softirqCounters : Nat → Nat → CounterSlice → Bytes →
    Option (CounterSlice × Except UInt8 (Nat × Bytes × Bool))
  | 0, counterIndex, counters, buf => some (counters, .ok (counterIndex, buf, false))
  | n + 1, counterIndex, counters, buf =>
    let (word, sep, buf) := nextField buf
    match invalidDigit word with
    | some c => some (counters, .error c)
    | none =>
      if word = [] then some (counters, .ok (counterIndex, buf, sep = some newline))
      else if counterIndex < counters.len then
        let counters := counters.set counterIndex (counterValue word)
        if sep = some newline then some (counters, .ok (counterIndex + 1, buf, true))
        else softirqCounters n (counterIndex + 1) counters buf
      -- a slice that was made for fewer columns than there are
      else none

def Softirqs.parseLine (scanNum lineNum : Nat) (buf : Bytes) :
    Option (Softirqs × Except SoftirqsError Bytes) :=
  let line := getCurrentLine buf
  match softirqName buf with
  | none => some (softirqs, .error (.invalidSoftirq lineNum line))
  | some (irq, buf) =>
    match softirqCounters softirqs.numCounters 0 (softirqs.irqCounters irq) buf with
    | none => none
    | some (counters, result) =>
      let softirqs := { softirqs with counters := softirqs.counters.insert irq counters }
      match result with
      | .error c => some (softirqs, .error (.notAValidDigit lineNum line c))
      | .ok (counterIndex, buf, eol) =>
        if counterIndex < softirqs.numCounters then
          some (softirqs, .error (.missingIrqs lineNum line softirqs.numCounters counterIndex))
        else
          let found := { softirqs with irqScanNum := softirqs.irqScanNum.insert irq scanNum }
          if eol then some (found, .ok buf)
          else
            -- only blanks are allowed up to the end of the line
            let (word, _, rest) := nextField buf
            if word = [] then some (found, .ok rest)
            else
              let rest := getCurrentLine (buf.dropWhile isWhitespace)
              some (softirqs, .error (.unexpectedContent lineNum line rest))

def Softirqs.parseLines (scanNum : Nat) : Nat → Nat → Softirqs → Bytes →
    Option (Softirqs × Option SoftirqsError)
  | _, _, softirqs, [] => some (softirqs, none)
  | 0, _, softirqs, _ => some (softirqs, none)
  | fuel + 1, lineNum, softirqs, buf =>
    match softirqs.parseLine scanNum lineNum buf with
    | none => none
    | some (softirqs, .error e) => some (softirqs, some e)
    | some (softirqs, .ok buf) => parseLines scanNum fuel (lineNum + 1) softirqs buf

def Softirqs.removeOutOfScope (scanNum : Nat) : Softirqs :=
  let gone := fun irq => match softirqs.irqScanNum.lookup irq with
    | some sNum => sNum != scanNum
    | none => false
  { softirqs with
    counters := filterMapEntries
      (fun irq counters => if gone irq then none else some counters) softirqs.counters
    irqScanNum := filterMapEntries
      (fun irq sNum => if gone irq then none else some sNum) softirqs.irqScanNum
    scanNum }

def Softirqs.parse (buf : Bytes) : Option (Softirqs × Option SoftirqsError) :=
  let scanNum := softirqs.scanNum + 1
  -- without a first line the columns, and whether they have changed, stay as they are
  if buf = [] then some (softirqs.removeOutOfScope scanNum, none)
  else match softirqs.parseHeader (firstLine newline buf) with
    | (softirqs, some e) => some (softirqs, some e)
    | (softirqs, none) =>
      let buf := afterLine newline buf
      match parseLines scanNum buf.length 2 softirqs buf with
      | none => none
      | some (softirqs, some e) => some (softirqs, some e)
      | some (softirqs, none) => some (softirqs.removeOutOfScope scanNum, none)

end Lsvmi.Procfs
