import Lsvmi.Procfs.Common

/-!
# The /proc/net/snmp6 parser

`NewNetSnmp6`, `Clone` and `Parse`.  The first content that is parsed is searched for names, which
are remembered with their indices; the contents after it are compared with the remembered names,
position by position.
-/

namespace Lsvmi.Procfs

def netSnmp6Names : List String :=
  ["Ip6InReceives", "Ip6InHdrErrors", "Ip6InTooBigErrors", "Ip6InNoRoutes", "Ip6InAddrErrors",
    "Ip6InUnknownProtos", "Ip6InTruncatedPkts", "Ip6InDiscards", "Ip6InDelivers",
    "Ip6OutForwDatagrams", "Ip6OutRequests", "Ip6OutDiscards", "Ip6OutNoRoutes", "Ip6ReasmTimeout",
    "Ip6ReasmReqds", "Ip6ReasmOKs", "Ip6ReasmFails", "Ip6FragOKs", "Ip6FragFails", "Ip6FragCreates",
    "Ip6InMcastPkts", "Ip6OutMcastPkts", "Ip6InOctets", "Ip6OutOctets", "Ip6InMcastOctets",
    "Ip6OutMcastOctets", "Ip6InBcastOctets", "Ip6OutBcastOctets", "Ip6InNoECTPkts", "Ip6InECT1Pkts",
    "Ip6InECT0Pkts", "Ip6InCEPkts", "Icmp6InMsgs", "Icmp6InErrors", "Icmp6OutMsgs",
    "Icmp6OutErrors", "Icmp6InCsumErrors", "Icmp6InDestUnreachs", "Icmp6InPktTooBigs",
    "Icmp6InTimeExcds", "Icmp6InParmProblems", "Icmp6InEchos", "Icmp6InEchoReplies",
    "Icmp6InGroupMembQueries", "Icmp6InGroupMembResponses", "Icmp6InGroupMembReductions",
    "Icmp6InRouterSolicits", "Icmp6InRouterAdvertisements", "Icmp6InNeighborSolicits",
    "Icmp6InNeighborAdvertisements", "Icmp6InRedirects", "Icmp6InMLDv2Reports",
    "Icmp6OutDestUnreachs", "Icmp6OutPktTooBigs", "Icmp6OutTimeExcds", "Icmp6OutParmProblems",
    "Icmp6OutEchos", "Icmp6OutEchoReplies", "Icmp6OutGroupMembQueries",
    "Icmp6OutGroupMembResponses", "Icmp6OutGroupMembReductions", "Icmp6OutRouterSolicits",
    "Icmp6OutRouterAdvertisements", "Icmp6OutNeighborSolicits", "Icmp6OutNeighborAdvertisements",
    "Icmp6OutRedirects", "Icmp6OutMLDv2Reports", "Icmp6OutType133", "Icmp6OutType135",
    "Icmp6OutType143", "Udp6InDatagrams", "Udp6NoPorts", "Udp6InErrors", "Udp6OutDatagrams",
    "Udp6RcvbufErrors", "Udp6SndbufErrors", "Udp6InCsumErrors", "Udp6IgnoredMulti", "Udp6MemErrors",
    "UdpLite6InDatagrams", "UdpLite6NoPorts", "UdpLite6InErrors", "UdpLite6OutDatagrams",
    "UdpLite6RcvbufErrors", "UdpLite6SndbufErrors", "UdpLite6InCsumErrors", "UdpLite6MemErrors"]

def netSnmp6NumValues : Nat := 87

def netSnmp6IndexMap (name : Bytes) : Option Nat := (netSnmp6Names.map utf8).idxOf? name

/-- `netSnmp6IsUint32`, as it is declared: the counters of ICMP, UDP and UDP-Lite, which come after
the 32 ones of IP. -/
def netSnmp6IsUint32 : List Bool := List.replicate 32 false ++ List.replicate 55 true

structure NetSnmp6LineInfo where
  name : Bytes
  /-- `none` is -1 in the source -/
  index : Option Nat
  deriving DecidableEq, Repr

structure NetSnmp6 where
  values : List UInt64
  isUint32 : List Bool
  lineInfo : List NetSnmp6LineInfo
  deriving DecidableEq, Repr

inductive NetSnmp6Error where
  | tooManyVariables (line : Bytes) (want : Nat)
  | invalidName (line name : Bytes)
  | notAValidDigit (line : Bytes) (c : UInt8)
  | missingValue (line : Bytes)
  | numberOfVariables (want got : Nat)
  | potentialTruncation
  deriving DecidableEq, Repr

def netSnmp6MaxReadSize : Nat := 0x8000

def copySlice {α : Type} (dst src : List α) : List α := src.take dst.length ++ dst.drop src.length

/-- `NewNetSnmp6`: the object, and the table that all the objects share. -/
def newNetSnmp6 (isUint32Table : List Bool) : NetSnmp6 × List Bool :=
  let isUint32 := List.replicate netSnmp6NumValues false
  (⟨List.replicate netSnmp6NumValues 0, isUint32, []⟩,
    -- the table is the destination
    copySlice isUint32Table isUint32)

namespace NetSnmp6

def clone (netSnmp6 : NetSnmp6) (full : Bool) : NetSnmp6 × NetSnmp6 :=
  let values := List.replicate netSnmp6.values.length 0
  let isUint32 := List.replicate netSnmp6.isUint32.length false
  (⟨if full then copySlice values netSnmp6.values else values, isUint32, netSnmp6.lineInfo⟩,
    -- the flags of the old object are the destination
    { netSnmp6 with isUint32 := copySlice netSnmp6.isUint32 isUint32 })

/-- The comparison with a remembered name, which has to be followed by a blank or by the end of the
content. -/
def skipName : Bytes → Bytes → Option Bytes
  | c :: name, b :: buf => if b = c then skipName name buf else none
  | _ :: _, [] => none
  | [], [] => some []
  | [], b :: buf => if isWhitespaceNl b then some (b :: buf) else none

/-- The name at the beginning of `buf`: its index and what follows it. -/
def takeName (netSnmp6 : NetSnmp6) (buildLineInfo : Bool) (variableIndex : Nat) (buf : Bytes) :
    Except NetSnmp6Error (NetSnmp6 × Option Nat × Bytes) :=
  if buildLineInfo then
    let name := buf.takeWhile (!isWhitespaceNl ·)
    let index := netSnmp6IndexMap name
    .ok ({ netSnmp6 with lineInfo := netSnmp6.lineInfo ++ [⟨name, index⟩] }, index,
      buf.dropWhile (!isWhitespaceNl ·))
  else
    match netSnmp6.lineInfo[variableIndex]? with
    | none => .error (.tooManyVariables (getCurrentLine buf) netSnmp6.lineInfo.length)
    | some lineInfo =>
      match skipName lineInfo.name buf with
      | none => .error (.invalidName (getCurrentLine buf) lineInfo.name)
      | some buf => .ok (netSnmp6, lineInfo.index, buf)

/-- The digits up to a blank, with the value of the ones before; the error is the character that is
not a digit, if the content does not just end. -/
def takeValue : UInt64 → Bytes → Except (Option UInt8) (UInt64 × Bytes)
  | _, [] => .error none
  | value, c :: buf =>
    if isDigit c then takeValue ((value <<< 3) + (value <<< 1) + (c - 48).toUInt64) buf
    else if isWhitespaceNl c then .ok (value, buf)
    else .error (some c)

def storeValue (values : List UInt64) (index : Option Nat) (value : UInt64) : List UInt64 :=
  match index with
  | none => values
  | some index => values.set index value

def parseVariable (buildLineInfo : Bool) (netSnmp6 : NetSnmp6) (variableIndex : Nat) (buf : Bytes) :
    NetSnmp6 × Except NetSnmp6Error Bytes :=
  let buf := buf.dropWhile isWhitespaceNl
  match netSnmp6.takeName buildLineInfo variableIndex buf with
  | .error e => (netSnmp6, .error e)
  | .ok (netSnmp6, index, rest) =>
    match takeValue 0 (rest.dropWhile isWhitespaceNl) with
    | .error (some c) => (netSnmp6, .error (.notAValidDigit (getCurrentLine buf) c))
    | .error none => (netSnmp6, .error (.missingValue (getCurrentLine buf)))
    | .ok (value, rest) =>
      ({ netSnmp6 with values := storeValue netSnmp6.values index value }, .ok rest)

def parseVariables (buildLineInfo : Bool) :
    Nat → NetSnmp6 → Nat → Bytes → NetSnmp6 × Except NetSnmp6Error Nat
  | _, netSnmp6, variableIndex, [] => (netSnmp6, .ok variableIndex)
  | 0, netSnmp6, variableIndex, _ => (netSnmp6, .ok variableIndex)
  | fuel + 1, netSnmp6, variableIndex, buf =>
    match netSnmp6.parseVariable buildLineInfo variableIndex buf with
    | (netSnmp6, .error e) => (netSnmp6, .error e)
    | (netSnmp6, .ok buf) => parseVariables buildLineInfo fuel netSnmp6 (variableIndex + 1) buf

def parseBuf (netSnmp6 : NetSnmp6) (buf : Bytes) : NetSnmp6 × Option NetSnmp6Error :=
  match parseVariables netSnmp6.lineInfo.isEmpty buf.length netSnmp6 0 buf with
  | (netSnmp6, .error e) => (netSnmp6, some e)
  | (netSnmp6, .ok variableIndex) =>
    if variableIndex ≠ netSnmp6.lineInfo.length then
      (netSnmp6, some (.numberOfVariables netSnmp6.lineInfo.length variableIndex))
    else (netSnmp6, none)

def parse (netSnmp6 : NetSnmp6) (file : Bytes) : NetSnmp6 × Option NetSnmp6Error :=
  parseFile netSnmp6MaxReadSize (netSnmp6, some .potentialTruncation) netSnmp6.parseBuf file

end NetSnmp6

end Lsvmi.Procfs
