import Mathlib.Data.Int.Notation

/-!
# Samples

The metrics generators write Prometheus exposition lines into buffers.  A line is kept here as the
metric it belongs to, the values of its labels and its value; the instance and hostname labels are
the same for all the lines of a generator and are left out.

A generator has two slots for parsed objects, `curr` and `prev` after the index that is current, and
the flip of the index exchanges them.  A range loop over a map visits its keys in an order that is
given from outside.  An index out of range and a nil pointer that is followed are the result `none`.
-/

namespace Lsvmi

/-- The content of a `[]byte` or of a Go string. -/
abbrev Bytes := List UInt8

def utf8 (s : String) : Bytes := s.toUTF8.data.toList

def formatUint (n : Nat) : Bytes := (Nat.toDigits 10 n).map fun c => UInt8.ofNat c.toNat

def formatInt (n : Int) : Bytes :=
  if n < 0 then 45 :: formatUint n.natAbs else formatUint n.natAbs

/-- The value of a sample, before it is printed.  Percentages and intervals are floating point
quotients in the source; the integers they are computed from are kept instead. -/
inductive SampleValue where
  | flag (on : Bool)
  | text (b : Bytes)
  | uint (n : UInt64)
  | int (n : Int)
  | pct (delta : UInt64) (elapsed : Int)
  | seconds (elapsed : Int)
  deriving DecidableEq, Repr

structure Sample (M L : Type) where
  metric : M
  labels : L
  value : SampleValue
  ts : Int
  deriving DecidableEq, Repr

/-- What a call of `generateMetrics` writes and counts. -/
structure Output (M L : Type) where
  buf : List (Sample M L)
  actualMetricsCount : Nat
  totalMetricsCount : Nat

namespace Output

variable {M L : Type}

def empty : Output M L := ⟨[], 0, 0⟩

def emit (out : Output M L) (samples : List (Sample M L)) : Output M L :=
  { out with
    buf := out.buf ++ samples, actualMetricsCount := out.actualMetricsCount + samples.length }

def count (out : Output M L) (n : Nat) : Output M L :=
  { out with totalMetricsCount := out.totalMetricsCount + n }

end Output

def unixMilli (t : Int) : Int := t / 1000000

/-- `InitialCycleNum.Get`, for the value `cycleNum` the shared counter has when it is called. -/
def initialCycleNum (cycleNum fullMetricsFactor : Int) : Int :=
  if fullMetricsFactor ≤ 1 then 0 else cycleNum.tmod fullMetricsFactor

def nextCycleNum (cycleNum fullMetricsFactor : Int) : Int :=
  if cycleNum + 1 ≥ fullMetricsFactor then 0 else cycleNum + 1

end Lsvmi
