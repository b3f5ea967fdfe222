import Lsvmi.Procfs.Common
import Lsvmi.Reasoning.FiniteMap

/-!
# The parser for /proc/interrupts

An `Interrupts` object shares its `Info` with its clones, so that `Parse` works on the object and
the shared part together.
-/

namespace Lsvmi.Procfs

open Reasoning

/-- A `[]uint64`, with the elements between its length and its capacity. -/
structure CounterSlice where
  backing : List UInt64
  len : Nat
  len_le : len ≤ backing.length

namespace CounterSlice

def make (n : Nat) : CounterSlice := ⟨List.replicate n 0, n, by simp⟩

def resize (s : CounterSlice) (n : Nat) : CounterSlice :=
  if h : s.backing.length < n then make n else ⟨s.backing, n, Nat.le_of_not_lt h⟩

def write (s : CounterSlice) (values : List UInt64) : CounterSlice :=
  ⟨values ++ s.backing.drop values.length, s.len, by
    have := s.len_le
    simp only [List.length_append, List.length_drop]
    omega⟩

def values (s : CounterSlice) : List UInt64 := s.backing.take s.len

end CounterSlice

structure InterruptsIrqInfo where
  controller : Bytes
  hwInterrupt : Bytes
  devices : Bytes
  changed : Bool
  infoLine : Bytes
  scanNum : Nat
  deriving DecidableEq, Repr, Inhabited

structure InterruptsInfo where
  irqInfo : Finmap fun _ : Bytes => InterruptsIrqInfo
  irqChanged : Bool
  cpuListChanged : Bool
  scanNum : Nat
  cpuHeaderLine : Bytes

structure Interrupts where
  /-- `none` if no CPU is missing -/
  cpuList : Option (List Int64)
  counters : Finmap fun _ : Bytes => CounterSlice
  numCounters : Nat

/-- What `Parse` complains about, and in which line.  The last one is no error value but an index
out of range, which ends the process. -/
inductive InterruptsError where
  | invalidCpuSpec (cpu : Bytes)
  | missingIrq (lineNum : Nat)
  | notAValidDigit (lineNum : Nat) (c : UInt8)
  | missingIrqs (lineNum want got : Nat)
  | indexOutOfRange (lineNum : Nat)
  deriving DecidableEq, Repr

/-- The IRQs that have fewer columns than there are CPUs: ERR and MIS. -/
def irqWithFewerCpuCount (irq : Bytes) : Bool := irq = [69, 82, 82] || irq = [77, 73, 83]

def newInterruptsInfo : InterruptsInfo := ⟨∅, false, false, 0, []⟩

def newInterrupts : Interrupts := ⟨none, ∅, 0⟩

variable (interrupts : Interrupts)

def Interrupts.clone : Interrupts :=
  { interrupts with
    counters := filterMapEntries (fun _ counters => some (.make counters.len)) interrupts.counters }

def cpuNumber (cpu : Bytes) : Int64 :=
  (cpu.drop 3).foldl (fun n c => (n <<< 3) + (n <<< 1) + Int64.ofNat (c - 48).toNat) 0

def cpuNum (cpu : Bytes) : Except Bytes Int64 :=
  if cpu.length ≤ 3 then .error cpu
  else match invalidDigit (cpu.drop 3) with
    | some _ => .error cpu
    | none => .ok (cpuNumber cpu)

/-- No list is needed when the numbers are the indices. -/
def cpuListOf (cpus : List Int64) : Option (List Int64) :=
  if cpus = (List.range cpus.length).map Int64.ofNat then none else some cpus

theorem cpuListOf_cases (cpus : List Int64) :
    (cpuListOf cpus = none ∧ (List.range cpus.length).map Int64.ofNat = cpus) ∨
      cpuListOf cpus = some cpus := by
  unfold cpuListOf
  by_cases hrange : cpus = (List.range cpus.length).map Int64.ofNat
  · exact .inl ⟨if_pos hrange, hrange.symm⟩
  · exact .inr (if_neg hrange)

variable (info : InterruptsInfo)

def Interrupts.updateCpuList
    (cpuHeaderLine : Bytes) : Except Bytes (Interrupts × InterruptsInfo) := do
  let cpus ← (stringsFields cpuHeaderLine).mapM cpuNum
  return ({ interrupts with numCounters := cpus.length, cpuList := cpuListOf cpus },
    { info with cpuHeaderLine })

/-- The first line.  It is compared with the one of the scan before, which may have been parsed into
another object. -/
def Interrupts.parseHeader (buf : Bytes) :
    Except InterruptsError (Interrupts × InterruptsInfo × Bytes) :=
  let pos := commonLen buf info.cpuHeaderLine
  let rest := buf.drop pos
  if pos ≠ info.cpuHeaderLine.length ∨ (rest ≠ [] ∧ rest.head? ≠ some newline) then
    let cpuHeaderLine := buf.take pos ++ rest.takeWhile (· ≠ newline)
    match interrupts.updateCpuList info cpuHeaderLine with
    | .error cpu => .error (.invalidCpuSpec cpu)
    | .ok (interrupts, info) =>
      .ok (interrupts, { info with cpuListChanged := true },
        (rest.dropWhile (· ≠ newline)).tail)
  else .ok (interrupts, info, rest.tail)

/-- The name up to the colon, and whether it is a number, with the part that was seen before.  The
newline is missed where it is the first character that is not a digit. -/
def scanIrq : Bool → Bytes → Bytes → Option (Bytes × Bool × Bytes)
  | _, _, [] => none
  | irqIsNum, name, c :: buf =>
    if c = 58 then some (name, irqIsNum, buf)
    else if irqIsNum && !isDigit c then scanIrq false (name ++ [c]) buf
    else if c = newline then none
    else scanIrq irqIsNum (name ++ [c]) buf

def asciiUpper (name : Bytes) : Bytes :=
  name.map fun c => if 97 ≤ c ∧ c ≤ 122 then c - 32 else c

/-- What `bytes.ToUpper` makes of a text that is not ASCII, with the tables of Unicode: no other
character becomes a newline. -/
class UnicodeUpper where
  upper : Bytes → Bytes
  nl_mem_iff (text : Bytes) : newline ∈ upper text ↔ newline ∈ text

-- For contents that are ASCII, where the tables are not used.
instance (priority := low) : UnicodeUpper := ⟨id, fun _ => Iff.rfl⟩

variable [UnicodeUpper]

def toUpper (name : Bytes) : Bytes :=
  if name.all (· < 128) then asciiUpper name else UnicodeUpper.upper name

def counterValue (word : Bytes) : UInt64 :=
  word.foldl (fun v c => (v <<< 3) + (v <<< 1) + (c - 48).toUInt64) 0

def Interrupts.irqCounters (irq : Bytes) : CounterSlice :=
  match interrupts.counters.lookup irq with
  | none => .make interrupts.numCounters
  | some counters => counters.resize interrupts.numCounters

def Interrupts.store (irq : Bytes) (values : List UInt64) : Interrupts :=
  let counters := (interrupts.irqCounters irq).write values
  { interrupts with counters := interrupts.counters.insert irq counters }

def InterruptsIrqInfo.update (irqInfo : InterruptsIrqInfo) (infoLine : Bytes) :
    InterruptsIrqInfo :=
  let isText := fun c => !isWhitespace c
  let rest := infoLine.dropWhile isWhitespace
  let controller := rest.takeWhile isText
  let rest := (rest.dropWhile isText).dropWhile isWhitespace
  -- the number, one separator that may be a blank, and the type
  let hwNum := rest.takeWhile isDigit
  let rest := rest.dropWhile isDigit
  let hwType := (rest.drop 1).takeWhile isText
  let devices := ((rest.drop 1).dropWhile isText).dropWhile isWhitespace
  { irqInfo with
    infoLine, controller, hwInterrupt := hwNum ++ rest.take 1 ++ hwType
    devices := devices.rdropWhile isWhitespace }

def InterruptsIrqInfo.describe (irqInfo : InterruptsIrqInfo) (infoLine : Bytes) :
    InterruptsIrqInfo :=
  if irqInfo.infoLine = infoLine then { irqInfo with changed := false }
  else { irqInfo.update infoLine with changed := true }

def InterruptsInfo.found (irq : Bytes) (irqInfo : InterruptsIrqInfo)
    (irqChanged : Bool) (scanNum : Nat) : InterruptsInfo :=
  { info with
    irqInfo := info.irqInfo.insert irq { irqInfo with scanNum }
    irqChanged := info.irqChanged || irqChanged }

def Interrupts.parseLine (scanNum lineNum : Nat)
    (buf : Bytes) : Except InterruptsError (Interrupts × InterruptsInfo × Bytes) :=
  match scanIrq true [] (buf.dropWhile isWhitespace) with
  | none => .error (.missingIrq lineNum)
  | some (name, irqIsNum, buf) =>
    let irq := toUpper name
    match valueFields (fun _ => counterValue) interrupts.numCounters buf [] with
    | .error c => .error (.notAValidDigit lineNum c)
    | .ok (values, buf, eol) =>
      if values.length < interrupts.numCounters ∧ irqWithFewerCpuCount irq = false then
        .error (.missingIrqs lineNum interrupts.numCounters values.length)
      else
        let interrupts := interrupts.store irq values
        let irqInfo := (info.irqInfo.lookup irq).getD default
        if irqIsNum then
          -- behind the newline the slice for the description would have a negative length
          if eol then .error (.indexOutOfRange lineNum)
          else
            let buf := buf.dropWhile isWhitespace
            let irqInfo := irqInfo.describe (buf.takeWhile (· ≠ newline))
            .ok (interrupts, info.found irq irqInfo irqInfo.changed scanNum,
              (buf.dropWhile (· ≠ newline)).tail)
        else
          .ok (interrupts, info.found irq irqInfo false scanNum,
            if eol then buf else (buf.dropWhile (· ≠ newline)).tail)

def Interrupts.parseLines (scanNum : Nat) : Nat → Nat → Interrupts → InterruptsInfo → Bytes →
    Except InterruptsError (Interrupts × InterruptsInfo)
  | _, _, interrupts, info, [] => .ok (interrupts, info)
  | 0, _, interrupts, info, _ => .ok (interrupts, info)
  | fuel + 1, lineNum, interrupts, info, buf => do
    let (interrupts, info, buf) ← interrupts.parseLine info scanNum lineNum buf
    parseLines scanNum fuel (lineNum + 1) interrupts info buf

def Interrupts.removeOutOfScope (scanNum : Nat) :
    Interrupts × InterruptsInfo :=
  let gone := fun irq => match info.irqInfo.lookup irq with
    | some irqInfo => irqInfo.scanNum != scanNum
    | none => false
  let irqInfo := filterMapEntries
    (fun irq irqInfo => if gone irq then none else some irqInfo) info.irqInfo
  ({ interrupts with
      counters := filterMapEntries
        (fun irq counters => if gone irq then none else some counters) interrupts.counters },
    { info with
      irqInfo, scanNum, irqChanged := info.irqChanged || irqInfo.keys ≠ info.irqInfo.keys })

def Interrupts.parse (buf : Bytes) :
    Except InterruptsError (Interrupts × InterruptsInfo) := do
  let scanNum := info.scanNum + 1
  let info := { info with irqChanged := false, cpuListChanged := false }
  if buf = [] then return interrupts.removeOutOfScope info scanNum
  let (interrupts, info, buf) ← interrupts.parseHeader info buf
  let (interrupts, info) ← parseLines scanNum buf.length 2 interrupts info buf
  return interrupts.removeOutOfScope info scanNum

end Lsvmi.Procfs
