import Lsvmi.Metrics
import Lsvmi.Reasoning.FiniteMap

/-!
# The qdisc parser

`Parse` asks the kernel for the list of queueing disciplines over netlink and keeps what it is told
by interface index and handle.  The objects of a current, previous tandem share the scan number and
a cache of interface names.  The netlink package is not part of the program: how bytes are decoded
is a parameter.
-/

namespace Lsvmi.Qdisc

open Reasoning

/-- `netlink.Attribute`.  A slice expression reaches up to the capacity of `Data`, so what the
array has beyond the length is kept as well. -/
structure Attribute where
  type : UInt16
  data : Bytes
  spare : Bytes

/-- `attr.Data[lo:hi]`, which panics beyond the capacity. -/
def Attribute.slice (attr : Attribute) (lo hi : Nat) : Option Bytes :=
  let all := attr.data ++ attr.spare
  if hi ≤ all.length then some ((all.take hi).drop lo) else none

/-- The packages `netlink` and `nlenc`. -/
structure Netlink where
  uint32 : Bytes → UInt32
  uint64 : Bytes → UInt64
  string : Bytes → Bytes
  unmarshalAttributes : Bytes → Except String (List Attribute)

def tcaKind : UInt16 := 1
def tcaStats : UInt16 := 3
def tcaStats2 : UInt16 := 7

def tcaStatsBasic : UInt16 := 1
def tcaStatsQueue : UInt16 := 3

inductive QdiscUint32 where
  | parent
  | handle
  | packets
  | drops
  | requeues
  | overlimits
  | qlen
  | backlog
  deriving DecidableEq, Repr

inductive QdiscUint64 where
  | bytes
  | gcflows
  | throttled
  | flowsplimit
  deriving DecidableEq, Repr

structure QdiscInfoKey where
  ifIndex : UInt32
  handle : UInt32
  deriving DecidableEq, Repr

structure QdiscInfo where
  ifName : Bytes
  kind : Bytes
  uint32 : QdiscUint32 → UInt32
  uint64 : QdiscUint64 → UInt64
  scanNum : Int64

abbrev Info := Finmap fun _ : QdiscInfoKey => QdiscInfo

def QdiscInfo.new (ifName : Bytes) : QdiscInfo := ⟨ifName, [], fun _ => 0, fun _ => 0, 0⟩

inductive Assignment where
  | kind (value : Bytes)
  | uint32 (index : QdiscUint32) (value : UInt32)
  | uint64 (index : QdiscUint64) (value : UInt64)

def QdiscInfo.assign (qi : QdiscInfo) : Assignment → QdiscInfo
  | .kind value => { qi with kind := value }
  | .uint32 index value => { qi with uint32 := Function.update qi.uint32 index value }
  | .uint64 index value => { qi with uint64 := Function.update qi.uint64 index value }

/-! ## Attributes

The functions return the assignments in the order in which the source makes them; no value means
that a slice expression panics. -/

def parseTCAStats (nl : Netlink) (attr : Attribute) : Option (List Assignment) := do
  return [
    .uint64 .bytes (nl.uint64 (← attr.slice 0 8)),
    .uint32 .packets (nl.uint32 (← attr.slice 8 12)),
    .uint32 .drops (nl.uint32 (← attr.slice 12 16)),
    .uint32 .overlimits (nl.uint32 (← attr.slice 16 20)),
    .uint32 .qlen (nl.uint32 (← attr.slice 28 32)),
    .uint32 .backlog (nl.uint32 (← attr.slice 32 36))]

def parseNested (nl : Netlink) (a : Attribute) : Option (List Assignment) :=
  if a.type = tcaStatsBasic then do
    return [
      .uint64 .bytes (nl.uint64 (← a.slice 0 8)),
      .uint32 .packets (nl.uint32 (← a.slice 8 12))]
  else if a.type = tcaStatsQueue then do
    return [
      .uint32 .qlen (nl.uint32 (← a.slice 0 4)),
      .uint32 .backlog (nl.uint32 (← a.slice 4 8)),
      .uint32 .drops (nl.uint32 (← a.slice 8 12)),
      .uint32 .requeues (nl.uint32 (← a.slice 12 16)),
      .uint32 .overlimits (nl.uint32 (← a.slice 16 20))]
  else some []

def parseTCAStats2 (nl : Netlink) (attr : Attribute) : Option (Except String (List Assignment)) :=
  match nl.unmarshalAttributes attr.data with
  | .error err => some (.error err)
  | .ok nested => (nested.mapM (parseNested nl)).map fun assignments => .ok assignments.flatten

def parseAttr (nl : Netlink) (attr : Attribute) : Option (Except String (List Assignment)) :=
  if attr.type = tcaKind then some (.ok [.kind (nl.string attr.data)])
  else if attr.type = tcaStats2 then parseTCAStats2 nl attr
  else if attr.type = tcaStats then (parseTCAStats nl attr).map .ok
  else some (.ok [])

/-- The loop over the attributes of a reply.  An error ends it, after the assignments made so
far. -/
def parseAttrs (nl : Netlink) : List Attribute → Option (Option String × List Assignment)
  | [] => some (none, [])
  | attr :: attrs =>
    match parseAttr nl attr with
    | none => none
    | some (.error err) => some (some err, [])
    | some (.ok assignments) =>
      (parseAttrs nl attrs).map fun rest => (rest.1, assignments ++ rest.2)

/-- An interface as `net.Interfaces` returns it, with the index as a `uint32`. -/
structure Interface where
  index : UInt32
  name : Bytes

structure QdiscStatsShared where
  scanNum : Int64
  ifIndexToNameCache : Finmap fun _ : UInt32 => Bytes
  /-- The zero time before the first refresh. -/
  ifIndexToNameCacheLastRefresh : Option Int

def qdiscIfIndexToNameCacheRefreshInterval : Int := 60 * 1000000000

namespace QdiscStatsShared

variable (shared : QdiscStatsShared)

/-- The zero time is always long enough ago. -/
def refreshDue (timeNow : Int) : Bool :=
  match shared.ifIndexToNameCacheLastRefresh with
  | none => true
  | some lastRefresh => qdiscIfIndexToNameCacheRefreshInterval ≤ timeNow - lastRefresh

def ifIndexToNameCacheRefresh (ifas : List Interface) (timeNow : Int) : QdiscStatsShared :=
  { shared with
    ifIndexToNameCache :=
      ifas.foldl (fun cache ifa => cache.insert ifa.index ifa.name) shared.ifIndexToNameCache
    ifIndexToNameCacheLastRefresh := some timeNow }

/-- The empty name for an index that is not in the cache. -/
def ifName (ifIndex : UInt32) : Bytes := (shared.ifIndexToNameCache.lookup ifIndex).getD []

end QdiscStatsShared

/-- What `Parse` gets from outside.  The request fails when there is no connection or when the
kernel does not answer; `net.Interfaces` may be called before the loop and, with the number of
replies up to and including that one, for a reply. -/
structure ParseInput where
  replies : Except String (List Bytes)
  timeNow : Int
  interfaces : Nat → Except String (List Interface)
  refreshTime : Nat → Int

section

variable (nl : Netlink)

def replyKey (data : Bytes) : QdiscInfoKey :=
  ⟨nl.uint32 ((data.take 8).drop 4), nl.uint32 ((data.take 12).drop 8)⟩

def replyParent (data : Bytes) : UInt32 := nl.uint32 ((data.take 16).drop 12)

/-- The entry for a key, a new one if there is none.  A name that is missing makes the cache be
refreshed, but the new entry has the name that was looked up before. -/
def findInfo (refreshed : Bool) (interfaces : Except String (List Interface)) (refreshTime : Int)
    (key : QdiscInfoKey) (info : Info) (shared : QdiscStatsShared) :
    Except String (QdiscInfo × QdiscStatsShared) :=
  let ifName := shared.ifName key.ifIndex
  match info.lookup key with
  | none =>
    if ifName = [] ∧ refreshed = false then
      match interfaces with
      | .error err => .error err
      | .ok ifas => .ok (.new ifName, shared.ifIndexToNameCacheRefresh ifas refreshTime)
    else .ok (.new ifName, shared)
  | some qi => .ok (if refreshed then { qi with ifName := ifName } else qi, shared)

def parseReply (input : ParseInput) (refreshed : Bool) (scanNum : Int64) (n : Nat) (data : Bytes)
    (info : Info) (shared : QdiscStatsShared) : Option (Option String × Info × QdiscStatsShared) :=
  if data.length < 20 then
    some (some ("short message, len=" ++ toString data.length ++ " < 20"), info, shared)
  else
    let key := replyKey nl data
    match findInfo refreshed (input.interfaces n) (input.refreshTime n) key info shared with
    | .error err => some (some err, info, shared)
    | .ok (qi, shared) =>
      let qi := (qi.assign (.uint32 .handle key.handle)).assign
        (.uint32 .parent (replyParent nl data))
      match nl.unmarshalAttributes (data.drop 20) with
      | .error err =>
        some (some ("failed to unmarshal attributes: " ++ err), info.insert key qi, shared)
      | .ok attrs =>
        match parseAttrs nl attrs with
        | none => none
        | some (some err, assignments) =>
          some (some err, info.insert key (assignments.foldl QdiscInfo.assign qi), shared)
        | some (none, assignments) =>
          some (none,
            info.insert key { assignments.foldl QdiscInfo.assign qi with scanNum := scanNum },
            shared)

def parseReplies (input : ParseInput) (refreshed : Bool) (scanNum : Int64) :
    Nat → List Bytes → Info → QdiscStatsShared → Option (Option String × Info × QdiscStatsShared)
  | _, [], info, shared => some (none, info, shared)
  | n, data :: msgs, info, shared =>
    match parseReply nl input refreshed scanNum n data info shared with
    | some (none, info, shared) => parseReplies input refreshed scanNum (n + 1) msgs info shared
    | failed => failed

/-- Entries that were not stamped by this scan are removed, if the sizes differ. -/
def removeOutOfScope (scanNum : Int64) (msgs : List Bytes) (info : Info) : Info :=
  if msgs.length ≠ info.keys.card then
    filterMapEntries (fun _ qi => if qi.scanNum ≠ scanNum then none else some qi) info
  else info

def periodicRefresh (input : ParseInput) (shared : QdiscStatsShared) :
    Except String QdiscStatsShared :=
  if shared.refreshDue input.timeNow then
    match input.interfaces 0 with
    | .error err => .error err
    | .ok ifas => .ok (shared.ifIndexToNameCacheRefresh ifas (input.refreshTime 0))
  else .ok shared

/-- The error, if any, and what `Parse` leaves in the object and in what it shares.  No value means
a panic. -/
def parse (input : ParseInput) (info : Info) (shared : QdiscStatsShared) :
    Option (Option String × Info × QdiscStatsShared) :=
  match input.replies with
  | .error err => some (some err, info, shared)
  | .ok msgs =>
    let scanNum := shared.scanNum + 1
    match periodicRefresh input shared with
    | .error err => some (some err, info, shared)
    | .ok refreshed =>
      match parseReplies nl input (shared.refreshDue input.timeNow) scanNum 1 msgs info
        refreshed with
      | some (none, info, shared) =>
        some (none, removeOutOfScope scanNum msgs info, { shared with scanNum := scanNum })
      | failed => failed

end

def clone (info : Info) : Info :=
  filterMapEntries (fun _ qi => some ⟨qi.ifName, qi.kind, fun _ => 0, fun _ => 0, qi.scanNum⟩) info

structure QdiscState where
  objects : List Info
  shared : QdiscStatsShared

def QdiscState.new : QdiscState := ⟨[∅], ⟨0, ∅, none⟩⟩

inductive QdiscCall where
  | clone (i : Nat)
  | parse (i : Nat) (input : ParseInput)

def QdiscState.call (nl : Netlink) (s : QdiscState) :
    QdiscCall → Option (Option String × QdiscState)
  | .clone i =>
    (s.objects[i]?).map fun info => (none, { s with objects := s.objects ++ [clone info] })
  | .parse i input =>
    match s.objects[i]? with
    | none => none
    | some info => (parse nl input info s.shared).map fun (err, info, shared) =>
        (err, ⟨s.objects.set i info, shared⟩)

def QdiscSteps (nl : Netlink) (s : QdiscState) (c : QdiscCall) (s' : QdiscState) : Prop :=
  ∃ err, s.call nl c = some (err, s')

end Lsvmi.Qdisc
