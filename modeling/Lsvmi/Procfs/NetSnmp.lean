import Lsvmi.Procfs.Common

/-!
# The /proc/net/snmp parser

`NewNetSnmp`, `UpdateInfo`, `Clone` and `Parse`.  The content is pairs of lines, with the names of
the variables in the first one and the values in the second one.  What is known about the first
line of a pair is kept from one content to the next, as long as the line does not change.
-/

namespace Lsvmi.Procfs

open Reasoning

def netSnmpNames : List (String × List String) :=
  [("Ip", ["Forwarding", "DefaultTTL", "InReceives", "InHdrErrors", "InAddrErrors", "ForwDatagrams",
      "InUnknownProtos", "InDiscards", "InDelivers", "OutRequests", "OutDiscards", "OutNoRoutes",
      "ReasmTimeout", "ReasmReqds", "ReasmOKs", "ReasmFails", "FragOKs", "FragFails",
      "FragCreates"]),
    ("Icmp", ["InMsgs", "InErrors", "InCsumErrors", "InDestUnreachs", "InTimeExcds", "InParmProbs",
      "InSrcQuenchs", "InRedirects", "InEchos", "InEchoReps", "InTimestamps", "InTimestampReps",
      "InAddrMasks", "InAddrMaskReps", "OutMsgs", "OutErrors", "OutDestUnreachs", "OutTimeExcds",
      "OutParmProbs", "OutSrcQuenchs", "OutRedirects", "OutEchos", "OutEchoReps", "OutTimestamps",
      "OutTimestampReps", "OutAddrMasks", "OutAddrMaskReps"]),
    ("IcmpMsg", ["InType3", "OutType3"]),
    ("Tcp", ["RtoAlgorithm", "RtoMin", "RtoMax", "MaxConn", "ActiveOpens", "PassiveOpens",
      "AttemptFails", "EstabResets", "CurrEstab", "InSegs", "OutSegs", "RetransSegs", "InErrs",
      "OutRsts", "InCsumErrors"]),
    ("Udp", ["InDatagrams", "NoPorts", "InErrors", "OutDatagrams", "RcvbufErrors", "SndbufErrors",
      "InCsumErrors", "IgnoredMulti", "MemErrors"]),
    ("UdpLite", ["InDatagrams", "NoPorts", "InErrors", "OutDatagrams", "RcvbufErrors",
      "SndbufErrors", "InCsumErrors", "IgnoredMulti", "MemErrors"])]

def netSnmpNumValues : Nat := 81

def netSnmpVariables : List (Bytes × Bytes) :=
  netSnmpNames.flatMap fun (proto, names) => names.map fun name => (utf8 proto, utf8 name)

def netSnmpIndexMap (proto name : Bytes) : Option Nat := netSnmpVariables.idxOf? (proto, name)

/-- `NetSnmpValueMayBeNegative`: TCP MaxConn. -/
def mayBeNegative (index : Nat) : Bool := index = 51

structure NetSnmpLineInfo where
  line : Bytes
  /-- up to the colon, inclusive -/
  prefixLen : Nat
  /-- `none` is -1 in the source -/
  indexMap : List (Option Nat)
  deriving DecidableEq, Repr

structure NetSnmpInfoChanged where
  lineNum : Nat
  line : Bytes
  expectedLine : Bytes
  deriving DecidableEq, Repr

structure NetSnmp where
  values : List UInt32
  infoChanged : Option NetSnmpInfoChanged
  lineInfo : List NetSnmpLineInfo
  deriving DecidableEq, Repr

inductive NetSnmpError where
  | invalidLine (lineNum : Nat) (line : Bytes)
  | unexpectedPrefix (lineNum : Nat) (line expectPrefix : Bytes)
  | notAValidDigit (lineNum : Nat) (line : Bytes) (c : UInt8)
  | unexpectedNegative (lineNum : Nat) (line : Bytes) (value : UInt32) (valueNum : Nat)
  | missingValues (lineNum : Nat) (line : Bytes) (want got : Nat)
  | unexpectedContent (lineNum : Nat) (line content : Bytes)
  | potentialTruncation
  deriving DecidableEq, Repr

def netSnmpMaxReadSize : Nat := 0x8000

def newNetSnmp : NetSnmp := ⟨List.replicate netSnmpNumValues 0, none, []⟩

/-- The part of a header line up to the colon, inclusive, and the variables behind it. -/
def headerParts (line : Bytes) : Nat × List Bytes :=
  let prefixLen := (line.idxOf? 58).elim 0 (· + 1)
  (prefixLen,
    -- the character behind the colon is skipped
    if prefixLen > 1 && prefixLen < line.length then stringsFields (line.drop (prefixLen + 1))
    else [])

def headerProto (line : Bytes) : Bytes := trimSpace (line.take ((headerParts line).1 - 1))

def buildSnmpLineInfo (line : Bytes) : Option NetSnmpLineInfo :=
  let (prefixLen, names) := headerParts line
  if names = [] then none
  else some ⟨line, prefixLen, names.map (netSnmpIndexMap (headerProto line))⟩

def snmpDigits (digits : Bytes) : UInt32 :=
  digits.foldl (fun v c => (v <<< 3) + (v <<< 1) + (c - 48).toUInt32) 0

/-- Store a value, if it has an index; `none` if it is negative and must not be. -/
def storeSnmpValue (values : List UInt32) (index : Option Nat) (isNegative : Bool)
    (value : UInt32) : Option (List UInt32) :=
  match index with
  | none => some values
  | some index =>
    if isNegative then
      if mayBeNegative index then some (values.set index ((value ^^^ 0xFFFFFFFF) + 1)) else none
    else some (values.set index value)

structure ValuesEnd where
  lineValueIndex : Nat
  buf : Bytes
  eol : Bool
  deriving DecidableEq, Repr

section

variable (lineNum : Nat) (line : Bytes) (lineInfo : NetSnmpLineInfo)

def snmpValues : Nat → List UInt32 → Nat → Bytes → List UInt32 × Except NetSnmpError ValuesEnd
  | 0, values, lineValueIndex, buf => (values, .ok ⟨lineValueIndex, buf, false⟩)
  | fuel + 1, values, lineValueIndex, buf =>
    if buf = [] ∨ lineInfo.indexMap.length ≤ lineValueIndex then
      (values, .ok ⟨lineValueIndex, buf, false⟩)
    else
      let (word, sep, buf) := nextField buf
      let isNegative := word.head? = some 45
      let digits := if isNegative then word.tail else word
      match invalidDigit digits with
      | some c => (values, .error (.notAValidDigit lineNum line c))
      | none =>
        let eol := sep = some newline
        if digits = [] then
          -- no value yet
          if eol then (values, .ok ⟨lineValueIndex, buf, true⟩)
          else snmpValues fuel values lineValueIndex buf
        else
          let value := snmpDigits digits
          match storeSnmpValue values (lineInfo.indexMap.getD lineValueIndex none) isNegative value with
          | none => (values, .error (.unexpectedNegative lineNum line value (lineValueIndex + 1)))
          | some values =>
            if eol then (values, .ok ⟨lineValueIndex + 1, buf, true⟩)
            else snmpValues fuel values (lineValueIndex + 1) buf

def snmpData (values : List UInt32) (buf : Bytes) : List UInt32 × Except NetSnmpError Bytes :=
  let expectPrefix := lineInfo.line.take lineInfo.prefixLen
  if ¬ expectPrefix <+: buf then (values, .error (.unexpectedPrefix lineNum line expectPrefix))
  else
    let buf := buf.drop expectPrefix.length
    match snmpValues lineNum line lineInfo buf.length values 0 buf with
    | (values, .error e) => (values, .error e)
    | (values, .ok ⟨lineValueIndex, buf, eol⟩) =>
      if lineValueIndex < lineInfo.indexMap.length then
        (values, .error (.missingValues lineNum line lineInfo.indexMap.length lineValueIndex))
      else if eol then (values, .ok buf)
      else
        -- only blanks are allowed up to the end of the line
        let (word, _, rest) := nextField buf
        if word = [] then (values, .ok rest)
        else
          (values, .error (.unexpectedContent lineNum line
            (getCurrentLine (buf.dropWhile isWhitespace))))

end

namespace NetSnmp

def updateInfo (netSnmp other : NetSnmp) : NetSnmp := { netSnmp with lineInfo := other.lineInfo }

def clone (netSnmp : NetSnmp) (full : Bool) : NetSnmp :=
  ⟨if full then netSnmp.values else List.replicate netSnmp.values.length 0, none, netSnmp.lineInfo⟩

def parseHeader (netSnmp : NetSnmp) (infoIndex : Nat) (line : Bytes) :
    NetSnmp × Except NetSnmpError NetSnmpLineInfo :=
  let lineNum := 2 * infoIndex + 1
  let rebuild (netSnmp : NetSnmp) : NetSnmp × Except NetSnmpError NetSnmpLineInfo :=
    match buildSnmpLineInfo line with
    | none => (netSnmp, .error (.invalidLine (lineNum - 1) line))
    | some lineInfo => ({ netSnmp with lineInfo := netSnmp.lineInfo ++ [lineInfo] }, .ok lineInfo)
  match netSnmp.lineInfo[infoIndex]? with
  | none => rebuild netSnmp
  | some lineInfo =>
    if lineInfo.line = line ∧ line ≠ [] then (netSnmp, .ok lineInfo)
    else
      rebuild
        { netSnmp with
          infoChanged := some ⟨lineNum, line, lineInfo.line⟩
          lineInfo := netSnmp.lineInfo.take infoIndex }

def parsePairs : Nat → Nat → NetSnmp → Bytes → NetSnmp × Option NetSnmpError
  | _, _, netSnmp, [] => (netSnmp, none)
  | 0, _, netSnmp, _ => (netSnmp, none)
  | fuel + 1, infoIndex, netSnmp, buf =>
    match netSnmp.parseHeader infoIndex (firstLine newline buf) with
    | (netSnmp, .error e) => (netSnmp, some e)
    | (netSnmp, .ok lineInfo) =>
      match afterLine newline buf with
      | [] => (netSnmp, none)
      | buf =>
        match snmpData (2 * infoIndex + 2) (getCurrentLine buf) lineInfo netSnmp.values buf with
        | (values, .error e) => ({ netSnmp with values }, some e)
        | (values, .ok buf) => parsePairs fuel (infoIndex + 1) { netSnmp with values } buf

def parseBuf (netSnmp : NetSnmp) (buf : Bytes) : NetSnmp × Option NetSnmpError :=
  parsePairs buf.length 0 { netSnmp with infoChanged := none } buf

def parse (netSnmp : NetSnmp) (file : Bytes) : NetSnmp × Option NetSnmpError :=
  parseFile netSnmpMaxReadSize (netSnmp, some .potentialTruncation) netSnmp.parseBuf file

end NetSnmp

end Lsvmi.Procfs
