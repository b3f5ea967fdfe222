import Mathlib.Algebra.Group.Nat.Defs
import Mathlib.Algebra.Ring.Int.Defs
import Lsvmi.ProcPid.Data
import Lsvmi.Procfs.Common
import Lsvmi.Reasoning.Slices

/-!
# The cache of the PIDs and TIDs to scan

`PidTidListCache`: a directory listing is divided into partitions, which are handed out until the
listing is too old.  The lists of the partitions are slices that are emptied and filled again by a
refresh; the callers get copies.  An index out of range ends the process, which is the result `none`.
-/

namespace Lsvmi.Procfs

open Reasoning
open ProcPid (PidTid pidOnlyTid)

instance : Inhabited PidTid := ⟨⟨0, 0⟩⟩

def pidListCachePidEnabled : UInt32 := 1
def pidListCacheTidEnabled : UInt32 := 2

/-- The names in a directory.  A name made of digits is the decimal form of an `int`. -/
structure DirNames where
  names : List Bytes
  nodup : names.Nodup
  canonical : ∀ name ∈ names, name ≠ [] → invalidDigit name = none →
    ∃ n < 2 ^ 63, name = formatUint n

/-- What can be read when the cache is refreshed. -/
structure Listing where
  top : DirNames
  /-- the task directory of each name, unless it cannot be read -/
  task : Bytes → Option DirNames

structure PidTidListCache where
  numPart : Int64
  /-- negative if `numPart` is not a power of 2 -/
  mask : Int64
  initialized : Bool
  retrievedTime : Int
  validFor : Int
  flags : UInt32
  pidLists : Option (List Slice)
  refreshCount : UInt64

def partMask (numPart : Int64) : Int64 :=
  if 1 < numPart then
    match ((List.range 31).map fun k => (1 : Int64) <<< Int64.ofNat k).find? (· = numPart) with
    | some m => m - 1
    | none => -1
  else -1

def newPidTidListCache (numPart : Int64) (validFor : Int) (flags : UInt32) : PidTidListCache :=
  let numPart := if numPart < 1 then 1 else numPart
  { numPart, mask := partMask numPart, initialized := false, retrievedTime := 0, validFor, flags
    pidLists := none, refreshCount := 0 }

/-- The conversion by hand of a name; −1 if a character is no digit. -/
def dirNumber (name : Bytes) : Int64 :=
  match invalidDigit name with
  | some _ => -1
  | none => name.foldl (fun n c => (n <<< 3) + (n <<< 1) + Int64.ofNat (c - 48).toNat) 0

namespace PidTidListCache

variable (cache : PidTidListCache)

def isPidEnabled : Bool := 0 < cache.flags &&& pidListCachePidEnabled

def isTidEnabled : Bool := 0 < cache.flags &&& pidListCacheTidEnabled

def partNo (n : Int64) : Nat :=
  let part := if 0 < cache.mask then n &&& cache.mask else n % cache.numPart
  part.toNatClampNeg

/-- The lists without their elements, new ones at the first call. -/
def clearLists (h : Heap PidTid) : Heap PidTid × List Slice :=
  match cache.pidLists with
  | none => h.makeEmpty cache.numPart.toNatClampNeg
  | some lists => (h, lists.map fun s => { s with len := 0 })

def addTask (spare : Nat → Nat) (cache : PidTidListCache) (pid : Int64)
    (state : Heap PidTid × List Slice) (name : Bytes) : Option (Heap PidTid × List Slice) :=
  let tid := dirNumber name
  if tid ≤ 0 then some state
  else Heap.appendAt spare state (cache.partNo tid) ⟨pid.toInt, tid.toInt⟩

def addName (spare : Nat → Nat) (cache : PidTidListCache) (listing : Listing)
    (state : Heap PidTid × List Slice) (name : Bytes) : Option (Heap PidTid × List Slice) :=
  let pid := dirNumber name
  if pid ≤ 0 then some state
  else do
    let state ← if cache.isPidEnabled then
        Heap.appendAt spare state (cache.partNo pid) ⟨pid.toInt, pidOnlyTid⟩
      else some state
    if cache.isTidEnabled then
      match listing.task name with
      | none => some state
      | some tasks => tasks.names.foldlM (cache.addTask spare pid) state
    else some state

/-- `Refresh`, with the lock held.  `timeNow` is the time at which it is done. -/
def refresh (spare : Nat → Nat) (cache : PidTidListCache) (h : Heap PidTid)
    (listing : Except String Listing) (timeNow : Int) :
    Option (Option String × PidTidListCache × Heap PidTid) :=
  let (h, lists) := cache.clearLists h
  match listing with
  | .error err => some (some err, { cache with pidLists := some lists }, h)
  | .ok listing => do
    let (h, lists) ← listing.top.names.foldlM (cache.addName spare listing) (h, lists)
    return (none, { cache with
      pidLists := some lists, initialized := true, retrievedTime := timeNow
      refreshCount := cache.refreshCount + 1 }, h)

def timeSince (timeNow t : Int) : Int := max (-2 ^ 63) (min (timeNow - t) (2 ^ 63 - 1))

def stale (timeNow : Int) : Bool :=
  !cache.initialized || cache.validFor < timeSince timeNow cache.retrievedTime

/-- The arguments of a call, and what it finds outside the cache. -/
structure GetCall where
  partNo : Int64
  into : Option Slice
  timeNow : Int
  listing : Except String Listing
  refreshTime : Int

def isPart (partNo : Int64) : Prop := 0 ≤ partNo ∧ partNo < cache.numPart

instance (cache : PidTidListCache) (partNo : Int64) : Decidable (cache.isPart partNo) :=
  inferInstanceAs (Decidable (_ ∧ _))

def makeInto (h : Heap PidTid) (into : Option Slice) (n : Nat) : Heap PidTid × Slice :=
  match into with
  | none => (h.alloc (List.replicate n default), ⟨h.size, n⟩)
  | some into =>
    if h.cap into < n then (h.alloc (List.replicate n default), ⟨h.size, n⟩)
    else (h, { into with len := n })

/-- The part of `GetPidTidList` after the refresh: the copy for the caller. -/
def handOut (h : Heap PidTid) (call : GetCall) :
    Option (Slice × Heap PidTid) := do
  let lists ← cache.pidLists
  let list ← lists[call.partNo.toNatClampNeg]?
  let (h, into) := makeInto h call.into list.len
  return (into, h.copy into (h.read list))

def getPidTidList (spare : Nat → Nat) (cache : PidTidListCache) (h : Heap PidTid) (call : GetCall) :
    Option (Except String (Option Slice) × PidTidListCache × Heap PidTid) :=
  if cache.isPart call.partNo then
    let refreshed :=
      if cache.stale call.timeNow then cache.refresh spare h call.listing call.refreshTime
      else some (none, cache, h)
    refreshed.bind fun
      | (some err, cache, h) => some (.error err, cache, h)
      | (none, cache, h) => (cache.handOut h call).map fun (into, h) => (.ok (some into), cache, h)
  else some (.ok none, cache, h)

def invalidate : PidTidListCache := { cache with initialized := false }

end PidTidListCache

end Lsvmi.Procfs
