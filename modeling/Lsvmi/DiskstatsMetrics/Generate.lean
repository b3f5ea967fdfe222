import Lsvmi.Procfs.Diskstats

/-!
# The /proc/diskstats metrics generator

`ProcDiskstatsMetrics.Execute` and `generateMetrics`.
-/

namespace Lsvmi.DiskstatsMetrics

open Procfs Reasoning

/-- `procDiskstatsIndexIsGauge`: the number of I/Os in progress. -/
def isGauge (i : Nat) : Bool := i = 8

/-- `procDiskstatsIndexPctMetric`: the fields in milliseconds. -/
def isPct (i : Nat) : Bool := i = 3 || i = 7 || i = 9 || i = 10 || i = 14 || i = 16

inductive DiskMetric where
  /-- the metric of the field with this index, labelled with maj:min and name -/
  | stat (i : Nat)
  /-- labelled with maj:min and name -/
  | info
  | mountinfo
  | interval
  deriving DecidableEq, Repr

abbrev DiskSample := Sample DiskMetric (List Bytes)

structure ProcDiskstatsMetricsInfo where
  cycleNum : Int
  zeroDelta : Nat → Bool
  /-- the name in the labels of the cached metrics -/
  diskName : Bytes

abbrev MetricsInfoMap := Finmap fun _ : Bytes => ProcDiskstatsMetricsInfo

/-- The fields of a mountinfo line that are used as labels. -/
structure MountinfoLine where
  majorMinor : Bytes
  root : Bytes
  mountPoint : Bytes
  fsType : Bytes
  mountSource : Bytes
  deriving DecidableEq, Repr

def MountinfoLine.labels (line : MountinfoLine) : List Bytes :=
  [line.majorMinor, line.root, line.mountPoint, line.fsType, line.mountSource]

structure Mountinfo where
  changed : Bool
  parsedLines : List MountinfoLine
  deriving DecidableEq, Repr

structure Config where
  fullMetricsFactor : Int
  jiffiesToMillisec : UInt32
  deriving DecidableEq, Repr

structure ProcDiskstatsMetrics where
  curr : Option Diskstats
  prev : Option Diskstats
  currTs : Int
  prevTs : Int
  diskstatsMetricsInfo : MetricsInfoMap
  procMountinfo : Option Mountinfo
  mountinfoCycleNum : Int
  mountinfoDisabled : Bool
  mountinfoMetricsCache : Option (List MountinfoLine)

def newProcDiskstatsMetrics (mountinfoCycleNum : Int) : ProcDiskstatsMetrics :=
  { curr := none, prev := none, currTs := 0, prevTs := 0, diskstatsMetricsInfo := ∅
    procMountinfo := none, mountinfoCycleNum, mountinfoDisabled := false
    mountinfoMetricsCache := none }

/-- What an `Execute` call finds outside the generator. -/
structure Scan where
  /-- what `ReadFile` returns of the file, unless that is an error -/
  diskstats : Option Bytes
  /-- the outcome of parsing mountinfo, if that is done -/
  mountinfo : Option Mountinfo
  timeNow : Int
  /-- the order of the loop over the disks -/
  order : List Bytes
  /-- the shared counter for initial cycle numbers, when the loop gets to a disk -/
  cycleNum : Bytes → Int

abbrev Out := Output DiskMetric (List Bytes)

def deltaValue (i : Nat) (delta : UInt32) (elapsed : Int) : SampleValue :=
  if isPct i then .pct delta.toUInt64 elapsed else .uint delta.toUInt64

/-- The metric of the field `i`, and whether its delta is zero from now on. -/
def statPart (ts elapsed : Int) (labels : List Bytes) (fullData : Bool)
    (currStats prevStats : List UInt32) (zeroDelta : Nat → Bool) (i : Nat) :
    List DiskSample × Bool :=
  let crtVal := currStats.getD i 0
  let prevVal := prevStats.getD i 0
  if isGauge i then
    (if fullData || crtVal != prevVal then [⟨.stat i, labels, .uint crtVal.toUInt64, ts⟩] else [],
      zeroDelta i)
  else
    let delta := crtVal - prevVal
    (if fullData || delta != 0 || !zeroDelta i then
        [⟨.stat i, labels, deltaValue i delta elapsed, ts⟩]
      else [],
      delta == 0)

variable (cfg : Config)

/-- The entry of the disk for this scan and whether the data are to be complete, with the sample
that annuls the info metric of a disk which had another name. -/
def updateInfo (ts : Int) (cycleNum : Int) (nameChanged : Bool)
    (majMin diskName : Bytes) :
    Option ProcDiskstatsMetricsInfo → ProcDiskstatsMetricsInfo × Bool × List DiskSample
  | none => (⟨initialCycleNum cycleNum cfg.fullMetricsFactor, fun _ => false, diskName⟩, true, [])
  | some info =>
    if nameChanged then
      ({ info with zeroDelta := fun _ => false, diskName }, true,
        [⟨.info, [majMin, info.diskName], .flag false, ts⟩])
    else (info, info.cycleNum == 0, [])

/-- The samples of a disk and its entry afterwards, for the one it has before; a new disk has no
previous state and is passed over. -/
def diskEntry (scan : Scan) (ts elapsed : Int) (curr prev : Diskstats)
    (majMin : Bytes) (entry : Option ProcDiskstatsMetricsInfo) :
    Option (List DiskSample × ProcDiskstatsMetricsInfo) :=
  match curr.devInfoMap.lookup majMin, prev.devInfoMap.lookup majMin with
  | some currDevInfo, some prevDevInfo =>
    let nameChanged := curr.changed && currDevInfo.name != prevDevInfo.name
    let (info, fullData, annulled) := updateInfo cfg ts (scan.cycleNum majMin) nameChanged majMin
      currDevInfo.name entry
    let labels := [majMin, info.diskName]
    let parts := statPart ts elapsed labels fullData currDevInfo.stats prevDevInfo.stats
      info.zeroDelta
    let stats := (List.range diskstatsValueFieldsNum).flatMap fun i => (parts i).1
    let infoSamples := if fullData then [⟨.info, labels, .flag true, ts⟩] else []
    some (annulled ++ stats ++ infoSamples,
      { info with
        zeroDelta := fun i => (parts i).2
        cycleNum := nextCycleNum info.cycleNum cfg.fullMetricsFactor })
  | _, _ => none

def diskPart (scan : Scan) (ts elapsed : Int) (curr prev : Diskstats)
    (state : Out × MetricsInfoMap) (majMin : Bytes) : Out × MetricsInfoMap :=
  let (out, infos) := state
  match diskEntry cfg scan ts elapsed curr prev majMin (infos.lookup majMin) with
  | none => state
  | some (samples, info) =>
    ((out.emit samples).count (diskstatsValueFieldsNum + 1), infos.insert majMin info)

def updateMountinfoMetricsCache (cache : List MountinfoLine) (curr : Diskstats)
    (mountinfo : Mountinfo) : List MountinfoLine × List MountinfoLine :=
  let lines := mountinfo.parsedLines.filter fun line =>
    (curr.devInfoMap.lookup line.majorMinor).isSome
  (lines, cache.dedup.filter fun line => line ∉ lines)

def mountinfoSamples (ts : Int) (lines : List MountinfoLine) (on : Bool) : List DiskSample :=
  lines.map fun line => ⟨.mountinfo, line.labels, .flag on, ts⟩

def mountinfoPart (ts : Int) (curr : Diskstats) (pdsm : ProcDiskstatsMetrics)
    (out : Out) : Out × ProcDiskstatsMetrics :=
  if pdsm.mountinfoDisabled then
    match pdsm.mountinfoMetricsCache with
    | none => (out, pdsm)
    | some cache =>
      ((out.emit (mountinfoSamples ts cache false)).count cache.length,
        { pdsm with mountinfoMetricsCache := none })
  else
    let mountinfo := pdsm.procMountinfo.getD ⟨false, []⟩
    let (cache, outOfScope) :=
      match mountinfo.changed, pdsm.mountinfoMetricsCache with
      | false, some cache => (cache, [])
      | _, cache => updateMountinfoMetricsCache (cache.getD []) curr mountinfo
    let out := (out.emit (mountinfoSamples ts outOfScope false)).count outOfScope.length
    let out :=
      if mountinfo.changed || pdsm.mountinfoCycleNum == 0 then
        out.emit (mountinfoSamples ts cache true)
      else out
    (out.count cache.length,
      { pdsm with
        mountinfoMetricsCache := some cache
        mountinfoCycleNum := nextCycleNum pdsm.mountinfoCycleNum cfg.fullMetricsFactor })

def cleanUp (infos : MetricsInfoMap) (curr : Diskstats) : Diskstats :=
  if infos.keys.card ≠ curr.devInfoMap.keys.card then
    let devInfoMap := filterMapEntries
      (fun majMin devInfo => if (infos.lookup majMin).isSome then none else some devInfo)
      curr.devInfoMap
    { curr with devInfoMap }
  else curr

variable (pdsm : ProcDiskstatsMetrics)

def ProcDiskstatsMetrics.flip : ProcDiskstatsMetrics :=
  { pdsm with
    curr := pdsm.prev, prev := pdsm.curr, currTs := pdsm.prevTs, prevTs := pdsm.currTs }

def generateMetrics (scan : Scan) (pdsm : ProcDiskstatsMetrics) (curr : Diskstats) :
    Out × ProcDiskstatsMetrics :=
  match pdsm.prev with
  | none => (Output.empty, { pdsm with curr := some curr }.flip)
  | some prev =>
    let ts := unixMilli pdsm.currTs
    let elapsed := pdsm.currTs - pdsm.prevTs
    let (out, infos) := scan.order.foldl (diskPart cfg scan ts elapsed curr prev)
      (Output.empty, pdsm.diskstatsMetricsInfo)
    let (out, pdsm) := mountinfoPart cfg ts curr pdsm out
    let out := out.emit [⟨.interval, [], .seconds elapsed, ts⟩]
    (out, { pdsm with curr := some (cleanUp infos curr), diskstatsMetricsInfo := infos }.flip)

def ProcDiskstatsMetrics.currProcDiskstats : Diskstats :=
  match pdsm.curr, pdsm.prev with
  | some curr, _ => curr
  | none, some prev => prev.clone
  | none, none => newDiskstats cfg.jiffiesToMillisec

def ProcDiskstatsMetrics.parseMountinfo (scan : Scan)
    (curr : Diskstats) : ProcDiskstatsMetrics :=
  if pdsm.mountinfoDisabled then pdsm
  else match pdsm.procMountinfo with
    | some mountinfo =>
      if pdsm.mountinfoCycleNum == 0 || curr.changed then
        match scan.mountinfo with
        | some mountinfo => { pdsm with procMountinfo := some mountinfo }
        | none => { pdsm with mountinfoDisabled := true }
      else { pdsm with procMountinfo := some { mountinfo with changed := false } }
    | none =>
      match scan.mountinfo with
      | some mountinfo => { pdsm with procMountinfo := some mountinfo }
      | none => { pdsm with mountinfoDisabled := true }

/-- `Execute`: the samples queued and the generator afterwards, `none` when the file cannot be read
or parsed and the generator is disabled. -/
def execute (scan : Scan) :
    Option (Out × ProcDiskstatsMetrics) :=
  match scan.diskstats with
  | none => none
  | some buf =>
    match (pdsm.currProcDiskstats cfg).parseBuf buf with
    | .error _ => none
    | .ok curr =>
      let pdsm := { pdsm.parseMountinfo scan curr with currTs := scan.timeNow }
      some (generateMetrics cfg scan pdsm curr)

end Lsvmi.DiskstatsMetrics
