import Lsvmi.Procfs.Mountinfo
import Lsvmi.Reasoning.FiniteMap

/-!
# The statfs metrics generator

`StatfsMetrics.Execute` and `generateMetrics`.  A nil dereference is a result of its own.  The loop
that calls `statfs` does the same for each entry whatever the order is.
-/

namespace Lsvmi.Statfs

open Procfs Reasoning

structure StatfsMountinfo where
  fs : Bytes
  fsType : Bytes
  mountPoint : Bytes
  deriving DecidableEq, Repr

/-- The text of the labels, as it is printed: nothing is escaped in the names. -/
def StatfsMountinfo.labels (mountinfo : StatfsMountinfo) : Bytes :=
  utf8 "fs=\"" ++ mountinfo.fs ++ utf8 "\",fs_type=\"" ++ mountinfo.fsType ++
    utf8 "\",mount_point=\"" ++ mountinfo.mountPoint ++ utf8 "\""

/-- The fields of `unix.Statfs_t` that are used. -/
structure StatfsT where
  bsize : Int64
  blocks : UInt64
  bfree : UInt64
  bavail : UInt64
  files : UInt64
  ffree : UInt64
  deriving DecidableEq

def newStatfsT : StatfsT := ⟨0, 0, 0, 0, 0, 0⟩

/-- All metrics but the interval are labelled with the mount. -/
inductive StatfsMetric where
  | bsize | blocks | bfree | bavail | files | ffree
  | totalSize | freeSize | availSize
  | freePct | availPct
  | present
  | interval
  deriving DecidableEq, Repr

abbrev StatfsSample := Sample StatfsMetric Bytes

abbrev Out := Output StatfsMetric Bytes

/-- The two buffers are given by index. -/
structure StatfsInfo where
  statfsBuf : Bool → Option StatfsT
  cycleNum : Int
  scanNum : Int

abbrev StatfsInfoMap := Finmap fun _ : StatfsMountinfo => StatfsInfo

/-- An empty list stands for nil. -/
structure Config where
  includeFilesystemTypes : List Bytes
  excludeFilesystemTypes : List Bytes
  fullMetricsFactor : Int

structure StatfsMetrics where
  statfsInfo : StatfsInfoMap
  statfsTs : Bool → Int
  currIndex : Bool
  firstTime : Bool
  procMountinfo : Option Mountinfo
  mountinfoCycleNum : Int
  scanNum : Int

def newStatfsMetrics (mountinfoCycleNum : Int) : StatfsMetrics :=
  { statfsInfo := ∅, statfsTs := fun _ => 0, currIndex := false, firstTime := false
    procMountinfo := none, mountinfoCycleNum, scanNum := 0 }

structure Call where
  mountinfo : Option Bytes
  /-- the outcome of the system call for the mount point of an entry, if there is no error -/
  statfs : StatfsMountinfo → Option StatfsT
  timeNow : Int
  /-- the entries, those of earlier calls and of this one, in the order of the loop over them -/
  order : List StatfsMountinfo
  cycleNum : StatfsMountinfo → Int

def statfsSamples (ts : Int) (labels : Bytes) (cycleNum : Int) (curr : StatfsT)
    (prev : Option StatfsT) : List StatfsSample :=
  let bsize := curr.bsize.toUInt64
  let allMetrics := prev.isNone || cycleNum == 0 || prev.any fun prev => bsize != prev.bsize.toUInt64
  let blocks := allMetrics || prev.any fun prev => curr.blocks != prev.blocks
  let bfree := allMetrics || prev.any fun prev => curr.bfree != prev.bfree
  let bavail := allMetrics || prev.any fun prev => curr.bavail != prev.bavail
  let files := allMetrics || prev.any fun prev => curr.files != prev.files
  let ffree := allMetrics || prev.any fun prev => curr.ffree != prev.ffree
  (if allMetrics then [⟨.bsize, labels, .uint bsize, ts⟩] else []) ++
  (if blocks then
    [⟨.blocks, labels, .uint curr.blocks, ts⟩,
      ⟨.totalSize, labels, .uint (curr.blocks * bsize / 1000), ts⟩]
    else []) ++
  (if bfree then
    [⟨.bfree, labels, .uint curr.bfree, ts⟩,
      ⟨.freeSize, labels, .uint (curr.bfree * bsize / 1000), ts⟩]
    else []) ++
  (if bavail then
    [⟨.bavail, labels, .uint curr.bavail, ts⟩,
      ⟨.availSize, labels, .uint (curr.bavail * bsize / 1000), ts⟩]
    else []) ++
  (if blocks || bfree then [⟨.freePct, labels, .pct curr.bfree curr.blocks.toNat, ts⟩] else []) ++
  (if blocks || bavail then [⟨.availPct, labels, .pct curr.bavail curr.blocks.toNat, ts⟩] else []) ++
  (if files then [⟨.files, labels, .uint curr.files, ts⟩] else []) ++
  (if ffree then [⟨.ffree, labels, .uint curr.ffree, ts⟩] else []) ++
  (if allMetrics then [⟨.present, labels, .flag true, ts⟩] else [])

/-- The body of the loop over the entries: what is written, and what is left of the entry; `none`
when the current buffer is nil. -/
def entryPart (fullMetricsFactor : Int) (ts : Int) (scanNum : Int) (currIndex : Bool)
    (mountinfo : StatfsMountinfo) (info : StatfsInfo) :
    Option (List StatfsSample × Option StatfsInfo) :=
  if info.scanNum ≠ scanNum then
    -- out of scope
    some ([⟨.present, mountinfo.labels, .flag false, ts⟩], none)
  else match info.statfsBuf currIndex with
    | none => none
    | some curr =>
      some (statfsSamples ts mountinfo.labels info.cycleNum curr (info.statfsBuf !currIndex),
        some { info with cycleNum := nextCycleNum info.cycleNum fullMetricsFactor })

def statfsDeviceNumMetrics : Nat := 12

def generateMetrics (fullMetricsFactor : Int) (order : List StatfsMountinfo) (sfsm : StatfsMetrics) :
    Option (Out × StatfsMetrics) :=
  let ts := unixMilli (sfsm.statfsTs sfsm.currIndex)
  let elapsed := sfsm.statfsTs sfsm.currIndex - sfsm.statfsTs !sfsm.currIndex
  match order.foldlM
      (sweep Output.emit (entryPart fullMetricsFactor ts sfsm.scanNum sfsm.currIndex))
      (Output.empty, sfsm.statfsInfo) with
  | none => none
  | some (out, statfsInfo) =>
    let out := if sfsm.firstTime then out else out.emit [⟨.interval, [], .seconds elapsed, ts⟩]
    some (out.count (statfsInfo.keys.card * statfsDeviceNumMetrics + 1),
      { sfsm with statfsInfo, currIndex := !sfsm.currIndex })

/-- How `Execute` ends other than by returning true. -/
inductive Stop where
  /-- it returns false -/
  | disabled
  | panics
  deriving DecidableEq, Repr

def keepFsType (cfg : Config) (fsType : Bytes) : Bool :=
  (cfg.excludeFilesystemTypes.isEmpty || !cfg.excludeFilesystemTypes.contains fsType) &&
    (cfg.includeFilesystemTypes.isEmpty || cfg.includeFilesystemTypes.contains fsType)

def parseMountinfo (procMountinfo : Mountinfo) : Option Bytes → Except Stop Mountinfo
  | none => .error .disabled
  | some content =>
    match procMountinfo.parse content with
    | none => .error .panics
    | some (_, some _) => .error .disabled
    | some (procMountinfo, none) => .ok procMountinfo

/-- Mountinfo is parsed the first time, and at the start of each of its cycles. -/
def StatfsMetrics.readMountinfo (sfsm : StatfsMetrics) (content : Option Bytes) :
    Except Stop Mountinfo :=
  match sfsm.procMountinfo with
  | none => parseMountinfo newMountinfo content
  | some procMountinfo =>
    if sfsm.mountinfoCycleNum = 0 then parseMountinfo procMountinfo content else .ok procMountinfo

/-- A turn of the loop over the lines of mountinfo, with `foundFs`: only the first mount of a file
system is kept. -/
def mountinfoPart (cfg : Config) (call : Call) (scanNum : Int)
    (state : List Bytes × StatfsInfoMap) (parsedLine : MountinfoParsedLine) :
    List Bytes × StatfsInfoMap :=
  let fsType := parsedLine.getD 8 []
  if !keepFsType cfg fsType then state
  else
    let fs := parsedLine.getD 9 []
    if state.1.contains fs then state
    else
      let mountinfo := ⟨fs, fsType, parsedLine.getD 4 []⟩
      let info := (state.2.lookup mountinfo).getD
        ⟨fun _ => none, initialCycleNum (call.cycleNum mountinfo) cfg.fullMetricsFactor, 0⟩
      (fs :: state.1, state.2.insert mountinfo { info with scanNum })

def statfsPart (call : Call) (scanNum : Int) (currIndex mountinfoChanged : Bool)
    (mountinfo : StatfsMountinfo) (info : StatfsInfo) : StatfsInfo :=
  -- a leftover from a previous mount is ignored
  if mountinfoChanged && info.scanNum != scanNum then info
  else match call.statfs mountinfo with
    | some statfs =>
      { info with statfsBuf := Function.update info.statfsBuf currIndex (some statfs), scanNum }
    | none =>
      -- marked for deletion; the buffer that was allocated stays
      { info with
        statfsBuf := Function.update info.statfsBuf currIndex
          (some ((info.statfsBuf currIndex).getD newStatfsT))
        scanNum := scanNum - 1 }

def StatfsMetrics.collect (cfg : Config) (sfsm : StatfsMetrics) (call : Call)
    (procMountinfo : Mountinfo) : StatfsMetrics :=
  let firstTime := sfsm.procMountinfo.isNone
  let scanNum := sfsm.scanNum + 1
  let mountinfoChanged := firstTime || procMountinfo.changed
  let statfsInfo :=
    if mountinfoChanged then
      (procMountinfo.parsedLines.foldl (mountinfoPart cfg call scanNum) ([], sfsm.statfsInfo)).2
    else sfsm.statfsInfo
  { statfsInfo := filterMapEntries
      (fun mountinfo info =>
        some (statfsPart call scanNum sfsm.currIndex mountinfoChanged mountinfo info))
      statfsInfo
    statfsTs := Function.update sfsm.statfsTs sfsm.currIndex call.timeNow
    currIndex := sfsm.currIndex
    firstTime
    procMountinfo := some procMountinfo
    mountinfoCycleNum := nextCycleNum sfsm.mountinfoCycleNum cfg.fullMetricsFactor
    scanNum }

def execute (cfg : Config) (sfsm : StatfsMetrics) (call : Call) :
    Except Stop (Out × StatfsMetrics) :=
  match sfsm.readMountinfo call.mountinfo with
  | .error stop => .error stop
  | .ok procMountinfo =>
    match generateMetrics cfg.fullMetricsFactor call.order (sfsm.collect cfg call procMountinfo) with
    | none => .error .panics
    | some result => .ok result

end Lsvmi.Statfs
