import Lsvmi.Procfs.Common
import Lsvmi.Reasoning.FiniteMap

/-!
# The parser for /proc/net/dev

`NewNetDev`, `Clone`, `ValidateHeader` and `Parse`.  The header of the file is validated at the
first pass and compared with the validated one afterwards.
-/

namespace Lsvmi.Procfs

open Reasoning

def netDevNumStats : Nat := 16

def netDevScanNumber : Nat := netDevNumStats

def netDevNumStatsSize : Nat := netDevScanNumber + 1

/-- The slice of a device: the values and the scan# in which it was found. -/
structure NetDevStats where
  values : List UInt64
  length_eq : values.length = netDevNumStatsSize
  deriving DecidableEq

attribute [ext] NetDevStats

namespace NetDevStats

def make : NetDevStats := ⟨List.replicate netDevNumStatsSize 0, List.length_replicate⟩

def set (stats : NetDevStats) (i : Nat) (value : UInt64) : NetDevStats :=
  ⟨stats.values.set i value, by
    rw [List.length_set]
    exact stats.length_eq⟩

@[simp] theorem values_set (stats : NetDevStats) (i : Nat) (value : UInt64) :
    (stats.set i value).values = stats.values.set i value := rfl

def scanNum (stats : NetDevStats) : UInt64 := stats.values.getD netDevScanNumber 0

end NetDevStats

structure NetDev where
  devStats : Finmap fun _ : Bytes => NetDevStats
  scanNum : UInt64
  /-- `none` for a nil slice, which is not the same as an empty one -/
  validHeader : Option Bytes
  numLinesHeader : Nat

inductive NetDevError where
  | unsupportedFileHeader
  | changedFileHeader
  | missingDev (lineNum : Nat) (line : Bytes)
  | invalidValue (lineNum : Nat) (line : Bytes)
  | notEnoughValues (lineNum : Nat) (line : Bytes) (want got : Nat)
  | unexpectedContent (lineNum : Nat) (line rest : Bytes)
  | potentialTruncation
  deriving DecidableEq, Repr

def netDevMaxReadSize : Nat := 0x40000

def netDevHeader : Bytes :=
  utf8 "Inter-|   Receive                                                |  Transmit\n face |bytes    packets errs drop fifo frame compressed multicast|bytes    packets errs drop fifo colls carrier compressed\n"

def netDevValidHeaders : List Bytes := [netDevHeader]

def newNetDev : NetDev := { devStats := ∅, scanNum := 0, validHeader := none, numLinesHeader := 0 }

namespace NetDev

/-- The header of the clone is made with the length of the one of the original, so that it is not
nil even if that one is. -/
def clone (netDev : NetDev) (full : Bool) : NetDev :=
  { devStats := filterMapEntries (fun _ stats => some (if full then stats else .make))
      netDev.devStats
    scanNum := if full then netDev.scanNum else 0
    validHeader := some (netDev.validHeader.getD [])
    numLinesHeader := netDev.numLinesHeader }

def validateHeader (netDev : NetDev) (buf : Bytes) : NetDev :=
  match netDevValidHeaders.find? (·.isPrefixOf buf) with
  | none => netDev
  | some header =>
    { netDev with validHeader := some header, numLinesHeader := header.count newline }

def isDevChar (c : UInt8) : Bool := c ≠ 58 && !isWhitespace c && c ≠ newline

/-- The device up to the colon, and what follows the colon.  When the colon is seen, the position is
still the one of the colon, so that a device of one character is taken for none. -/
def netDevName (buf : Bytes) : Option (Bytes × Bytes) :=
  let buf := buf.dropWhile isWhitespace
  let dev := buf.takeWhile isDevChar
  let rest := buf.dropWhile isDevChar
  if rest.head? = some 58 ∧ 0 < dev.length - 1 then some (dev, rest.tail) else none

def statValue (word : Bytes) : UInt64 :=
  word.foldl (fun v c => (v <<< 3) + (v <<< 1) + (c - 48).toUInt64) 0

/-- The loop over the values from `statIndex` on, at most `n` of them.  The result is `none` for a
character that is not a digit, or the index that was reached, the rest of the buffer and whether the
end of the line was seen. -/
def statValues : Nat → Nat → NetDevStats → Bytes → NetDevStats × Option (Nat × Bytes × Bool)
  | 0, statIndex, stats, buf => (stats, some (statIndex, buf, false))
  | n + 1, statIndex, stats, buf =>
    let (word, sep, buf) := nextField buf
    match invalidDigit word with
    | some _ => (stats, none)
    | none =>
      if word = [] then (stats, some (statIndex, buf, sep = some newline))
      else
        let stats := stats.set statIndex (statValue word)
        if sep = some newline then (stats, some (statIndex + 1, buf, true))
        else statValues n (statIndex + 1) stats buf

def parseLine (netDev : NetDev) (scanNum : UInt64) (lineNum : Nat) (buf : Bytes) :
    NetDev × Except NetDevError Bytes :=
  let line := getCurrentLine buf
  match netDevName buf with
  | none => (netDev, .error (.missingDev lineNum line))
  | some (dev, buf) =>
    let stats := (netDev.devStats.lookup dev).getD .make
    let (stats, result) := statValues netDevScanNumber 0 stats buf
    -- the values are stored in the map as they are read
    let withStats := fun stats => { netDev with devStats := netDev.devStats.insert dev stats }
    match result with
    | none => (withStats stats, .error (.invalidValue lineNum line))
    | some (statIndex, buf, eol) =>
      if statIndex < netDevScanNumber then
        (withStats stats, .error (.notEnoughValues lineNum line netDevScanNumber statIndex))
      else
        let found := withStats (stats.set netDevScanNumber scanNum)
        if eol then (found, .ok buf)
        else
          -- only blanks are allowed up to the end of the line
          let (word, _, rest) := nextField buf
          if word = [] then (found, .ok rest)
          else
            let rest := getCurrentLine (buf.dropWhile isWhitespace)
            (found, .error (.unexpectedContent lineNum line rest))

def parseLines (scanNum : UInt64) : Nat → Nat → NetDev → Bytes → NetDev × Option NetDevError
  | _, _, netDev, [] => (netDev, none)
  | 0, _, netDev, _ => (netDev, none)
  | fuel + 1, lineNum, netDev, buf =>
    match netDev.parseLine scanNum lineNum buf with
    | (netDev, .error e) => (netDev, some e)
    | (netDev, .ok buf) => parseLines scanNum fuel (lineNum + 1) netDev buf

def prune (netDev : NetDev) (scanNum : UInt64) : NetDev :=
  { netDev with
    devStats := filterMapEntries
      (fun _ stats => if stats.scanNum ≠ scanNum then none else some stats) netDev.devStats
    scanNum }

def parseStats (netDev : NetDev) (buf : Bytes) : NetDev × Option NetDevError :=
  let scanNum := netDev.scanNum + 1
  match parseLines scanNum buf.length (netDev.numLinesHeader + 1) netDev buf with
  | (netDev, some e) => (netDev, some e)
  | (netDev, none) => (netDev.prune scanNum, none)

def parseBuf (netDev : NetDev) (buf : Bytes) : NetDev × Option NetDevError :=
  match netDev.validHeader with
  | none =>
    let netDev := netDev.validateHeader buf
    match netDev.validHeader with
    | none => (netDev, some .unsupportedFileHeader)
    | some header => netDev.parseStats (buf.drop header.length)
  | some header =>
    if header.isPrefixOf buf then netDev.parseStats (buf.drop header.length)
    else (netDev, some .changedFileHeader)

def parse (netDev : NetDev) (file : Bytes) : NetDev × Option NetDevError :=
  parseFile netDevMaxReadSize (netDev, some .potentialTruncation) netDev.parseBuf file

end NetDev

end Lsvmi.Procfs
