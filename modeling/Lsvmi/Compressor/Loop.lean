import Lsvmi.Metrics
import Lsvmi.Reasoning.Float64

/-!
# The compressor pool and the loop of a compressor

The configuration of a `CompressorPool` and what `CompressorPool.loop` does between two of its
select statements.  What `gzBuf` holds is identified with the buffers it encodes; how many bytes
that takes is decided by gzip.
-/

namespace Lsvmi.Compressor

open Reasoning

def compressorPoolMaxNumCompressors : Nat := 4

def initialCompressionFactor : ℚ := 2
def compressionFactorExpDecayAlpha : ℚ := float64 (8 / 10)
def compressedBatchMinSizeForCF : Nat := 128

def noCompression : Int := 0

def defaultCompression : Int := -1

structure CompressorPoolConfig where
  numCompressors : Int
  compressionLevel : Int
  batchTargetSize : String
  flushInterval : String
  deriving DecidableEq, Repr

def defaultCompressorPoolConfig : CompressorPoolConfig :=
  { numCompressors := -1, compressionLevel := defaultCompression, batchTargetSize := "64k"
    flushInterval := "5s" }

/-- `CompressorPool` as it is made, without its queue and its state. -/
structure CompressorPool where
  numCompressors : Nat
  compressionLevel : Int
  batchTargetSize : Int
  /-- in nanoseconds -/
  flushInterval : Int
  deriving DecidableEq, Repr

def validLevel (level : Int) : Bool := -2 ≤ level ∧ level ≤ 9

/-- What `NewCompressorPool` takes from other packages. -/
structure Packages where
  ramInBytes : String → Except String Int
  parseDuration : String → Except String Int
  /-- the error of `gzip.NewWriterLevel` for a level that is not valid -/
  levelError : Int → String
  availableCpusCount : Nat

def Packages.reading (size : Int) : Packages :=
  { ramInBytes := fun _ => .ok size, parseDuration := fun _ => .ok 5000000000
    levelError := fun _ => "gzip: invalid compression level", availableCpusCount := 4 }

def numCompressorsOf (pkg : Packages) (poolCfg : CompressorPoolConfig) : Nat :=
  min compressorPoolMaxNumCompressors
    (if poolCfg.numCompressors ≤ 0 then pkg.availableCpusCount else poolCfg.numCompressors.toNat)

def newCompressorPool (pkg : Packages) (poolCfg : CompressorPoolConfig) :
    Except String CompressorPool :=
  if validLevel poolCfg.compressionLevel then do
    let batchTargetSize ← (pkg.ramInBytes poolCfg.batchTargetSize).mapError fun err =>
      "NewCompressorPool: invalid batch_target_size " ++ poolCfg.batchTargetSize.quote ++ ": " ++ err
    let flushInterval ← (pkg.parseDuration poolCfg.flushInterval).mapError fun err =>
      "NewCompressorPool: invalid flush_interval " ++ poolCfg.flushInterval.quote ++ ": " ++ err
    return {
      numCompressors := numCompressorsOf pkg poolCfg
      compressionLevel := poolCfg.compressionLevel, batchTargetSize, flushInterval }
  else .error ("NewCompressorPool: " ++ pkg.levelError poolCfg.compressionLevel)

theorem newCompressorPool_ok {pkg : Packages} {poolCfg : CompressorPoolConfig}
    {pool : CompressorPool} (h : newCompressorPool pkg poolCfg = .ok pool) :
    validLevel pool.compressionLevel := by
  unfold newCompressorPool at h
  split at h
  · rename_i hlevel
    cases hsize : pkg.ramInBytes poolCfg.batchTargetSize with
    | error err =>
      rw [hsize] at h
      cases h
    | ok size =>
      cases hflush : pkg.parseDuration poolCfg.flushInterval with
      | error err =>
        rw [hsize, hflush] at h
        cases h
      | ok interval =>
        rw [hsize, hflush] at h
        cases h
        exact hlevel
  · cases h

inductive Timer where
  | stopped | running
  /-- expired, with its time in the channel -/
  | fired
  deriving DecidableEq, Repr

/-- `Reset`.  A time that was not received stays in the channel. -/
def Timer.reset : Timer → Timer
  | .fired => .fired
  | .stopped | .running => .running

theorem Timer.reset_ne_stopped (t : Timer) : t.reset ≠ .stopped := by
  cases t <;> exact nofun

inductive LoopPc where
  /-- `Start` has not been called -/
  | created
  | atSelect
  /-- with `doSend` set -/
  | sending (isOpen : Bool)
  /-- waiting for a time of the flush timer that never comes -/
  | stuck
  | stopped
  deriving DecidableEq, Repr

structure CompressorStats where
  readCount : UInt64
  readByteCount : UInt64
  sendCount : UInt64
  sendByteCount : UInt64
  timeoutFlushCount : UInt64
  sendErrorCount : UInt64
  writeErrorCount : UInt64
  compressionFactor : ℚ
  deriving DecidableEq, Repr

def newCompressorStats : CompressorStats := ⟨0, 0, 0, 0, 0, 0, 0, 0⟩

structure Loop where
  pc : LoopPc
  /-- whether `gzWriter` is not nil -/
  gzWriter : Bool
  /-- the buffers that the content of `gzBuf` encodes -/
  gzBuf : List Bytes
  flushTimer : Timer
  timerSet : Bool
  batchReadCount : Nat
  batchReadByteCount : Nat
  batchTimeoutCount : Nat
  estimatedCF : ℚ
  batchReadByteLimit : Int
  stats : CompressorStats
  deriving DecidableEq, Repr

def readByteLimit (batchTargetSize : Int) (estimatedCF : ℚ) : Int :=
  toInt64 (float64 (float64 batchTargetSize * estimatedCF))

variable (pool : CompressorPool)

def initialCF : ℚ :=
  if pool.compressionLevel = noCompression then 1 else initialCompressionFactor

def newLoop : Loop :=
  { pc := .created, gzWriter := false, gzBuf := [], flushTimer := .stopped, timerSet := false
    batchReadCount := 0, batchReadByteCount := 0, batchTimeoutCount := 0
    estimatedCF := initialCF pool
    batchReadByteLimit := readByteLimit pool.batchTargetSize (initialCF pool)
    stats := newCompressorStats }

/-- `buf != nil && buf.Len() > 0`, and the bytes then. -/
def dataOf : Option Bytes → Option Bytes
  | some (b :: bs) => some (b :: bs)
  | some [] | none => none

theorem dataOf_eq_some {buf : Option Bytes} {data : Bytes} (h : dataOf buf = some data) : data ≠ [] := by
  unfold dataOf at h
  split at h
  · cases h
    exact List.cons_ne_nil _ _
  · cases h
  · cases h

namespace Loop

def stopFlushTimer (l : Loop) : Option Loop :=
  if l.timerSet then
    match l.flushTimer with
    | .running | .fired => some { l with flushTimer := .stopped }
    | .stopped => none
  else some l

def clearBatch (l : Loop) : Loop :=
  { l with batchReadCount := 0, batchReadByteCount := 0, batchTimeoutCount := 0, timerSet := false }

def startBatch (l : Loop) : Loop :=
  let l := { l with gzBuf := [], gzWriter := true }
  if 0 < pool.flushInterval then { l with flushTimer := l.flushTimer.reset, timerSet := true }
  else l

def countWriteError (stats : CompressorStats) : CompressorStats :=
  { stats with writeErrorCount := stats.writeErrorCount + 1 }

/-- After an error of `gzWriter.Write`; nothing where the loop is stuck. -/
def discardBatch (l : Loop) : Option Loop :=
  l.stopFlushTimer.map fun l =>
    { l.clearBatch with gzWriter := false, stats := countWriteError l.stats }

def write (l : Loop) (data : Bytes) : Loop :=
  { l with
    gzBuf := l.gzBuf ++ [data], batchReadCount := l.batchReadCount + 1
    batchReadByteCount := l.batchReadByteCount + data.length }

def doSend (l : Loop) (isOpen : Bool) : Bool :=
  !isOpen && 0 < l.batchReadByteCount || l.batchReadByteLimit ≤ l.batchReadByteCount

def decideSend (l : Loop) (isOpen : Bool) : Loop :=
  { l with
    pc := if l.doSend isOpen then .sending isOpen else if isOpen then .atSelect else .stopped }

/-- The receive of `buf`; `writeErr` says whether its write fails. -/
def receive (l : Loop) (buf : Option Bytes) (writeErr : Bool) : Loop :=
  match dataOf buf with
  | none => l.decideSend true
  | some data =>
    if l.batchReadCount = 0 ∧ l.gzWriter = false ∧ validLevel pool.compressionLevel = false then
      { l with gzBuf := [], pc := .stopped }
    else
      let l := if l.batchReadCount = 0 then l.startBatch pool else l
      if writeErr then
        match l.discardBatch with
        | none => { l with pc := .stuck }
        | some l => l.decideSend true
      else (l.write data).decideSend true

def receiveClosed (l : Loop) : Loop := l.decideSend false

def timeout (l : Loop) : Loop :=
  { l with flushTimer := .stopped, timerSet := false, batchTimeoutCount := 1, pc := .sending true }

def updateCF (l : Loop) (gzLen : Nat) : Loop :=
  if compressedBatchMinSizeForCF ≤ gzLen then
    let alpha := compressionFactorExpDecayAlpha
    let batchCF := float64 (float64 l.batchReadByteCount / float64 gzLen)
    let estimatedCF := float64
      (float64 (float64 (1 - alpha) * batchCF) + float64 (alpha * l.estimatedCF))
    { l with estimatedCF, batchReadByteLimit := readByteLimit pool.batchTargetSize estimatedCF }
  else l

def countBatch (l : Loop) (sentCount sentByteCount sentErrCount : Nat) : CompressorStats :=
  { l.stats with
    readCount := l.stats.readCount + UInt64.ofNat l.batchReadCount
    readByteCount := l.stats.readByteCount + UInt64.ofNat l.batchReadByteCount
    sendCount := l.stats.sendCount + UInt64.ofNat sentCount
    sendByteCount := l.stats.sendByteCount + UInt64.ofNat sentByteCount
    timeoutFlushCount := l.stats.timeoutFlushCount + UInt64.ofNat l.batchTimeoutCount
    sendErrorCount := l.stats.sendErrorCount + UInt64.ofNat sentErrCount
    compressionFactor := l.estimatedCF }

/-- What follows `doSend`, with the flush timer stopped and the writer closed.  The compressed batch
has `gzLen` bytes; `sender` says whether there is a sender and `sendErr` whether it fails. -/
def finishBatch (l : Loop) (isOpen sender : Bool) (gzLen : Nat)
    (sendErr : Bool) : Loop :=
  let l := l.updateCF pool gzLen
  let stats :=
    if sender then if sendErr then l.countBatch 1 0 1 else l.countBatch 1 gzLen 0
    else l.countBatch 0 0 0
  { l.clearBatch with stats, pc := if isOpen then .atSelect else .stopped }

variable {l : Loop}

theorem startBatch_timer (h : l.timerSet ↔ l.flushTimer ≠ .stopped) :
    (l.startBatch pool).timerSet ↔ (l.startBatch pool).flushTimer ≠ .stopped := by
  unfold startBatch
  simp only
  split
  · exact iff_of_true rfl (Timer.reset_ne_stopped _)
  · exact h

theorem startBatch_fields (l : Loop) :
    (l.startBatch pool).pc = l.pc ∧ (l.startBatch pool).gzBuf = [] ∧
    (l.startBatch pool).gzWriter ∧ (l.startBatch pool).batchReadCount = l.batchReadCount ∧
    (l.startBatch pool).batchReadByteCount = l.batchReadByteCount ∧
    (l.startBatch pool).batchReadByteLimit = l.batchReadByteLimit ∧
    (l.startBatch pool).stats = l.stats := by
  unfold startBatch
  simp only
  split <;> exact ⟨rfl, rfl, rfl, rfl, rfl, rfl, rfl⟩

theorem stopFlushTimer_eq (h : l.timerSet ↔ l.flushTimer ≠ .stopped) :
    l.stopFlushTimer = some { l with flushTimer := .stopped } := by
  unfold stopFlushTimer
  split
  · rename_i hset
    have hne := h.mp hset
    split
    · rfl
    · rfl
    · exact absurd ‹_› hne
  · rename_i hset
    have hstopped : l.flushTimer = .stopped := by
      by_contra hne
      exact hset (h.mpr hne)
    rw [← hstopped]

theorem updateCF_fields (l : Loop) (gzLen : Nat) :
    (l.updateCF pool gzLen).flushTimer = l.flushTimer ∧ (l.updateCF pool gzLen).stats = l.stats ∧
    (l.updateCF pool gzLen).batchReadCount = l.batchReadCount ∧
    (l.updateCF pool gzLen).batchReadByteCount = l.batchReadByteCount := by
  unfold updateCF
  split <;> exact ⟨rfl, rfl, rfl, rfl⟩

end Loop

end Lsvmi.Compressor
