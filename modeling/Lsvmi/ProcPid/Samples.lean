import Lsvmi.ProcPid.GenerateMetrics

/-!
# The samples of one PID or TID

`generateMetrics` appends the samples of its blocks one after the other.  What it appends does not
depend on what is in the buffer, and each metric comes from one block only.
-/

namespace Lsvmi.ProcPid

open List

def Out.append (o : Out) (l : List PidSample) : Out :=
  ⟨o.buf ++ l, o.actualMetricsCount + l.length⟩

namespace Out

variable (o : Out) (s : PidSample) (l l' : List PidSample) (c : Bool)

theorem emit_eq : o.emit s = o.append [s] := rfl

@[simp] theorem append_nil : o.append [] = o := by
  simp [append]

@[simp] theorem append_append : (o.append l).append l' = o.append (l ++ l') := by
  simp [append, Nat.add_assoc]

theorem ite_emit : (if c then o.emit s else o) = o.append (if c then [s] else []) := by
  cases c
  · exact (append_nil o).symm
  · rfl

theorem ite_append : (if c then o.append l else o) = o.append (if c then l else []) := by
  cases c
  · exact (append_nil o).symm
  · rfl

theorem foldl_append {α : Type} (f : α → List PidSample) (xs : List α) :
    xs.foldl (fun o x => o.append (f x)) o = o.append (xs.flatMap f) := by
  induction xs generalizing o with
  | nil => exact (append_nil o).symm
  | cons x xs ih => rw [foldl_cons, ih, append_append, flatMap_cons]

end Out

namespace GenArgs

variable (a : GenArgs)

def categoricalSamples (m : PidMetric) (changed : Bool) (prev curr : List Bytes) :
    List PidSample :=
  (if changed then [a.sample m prev (.flag false)] else []) ++
    if a.fullMetricsNoPrev || changed then [a.sample m curr (.flag true)] else []

theorem categorical_eq (m : PidMetric) (changed : Bool) (prev curr : List Bytes) (o : Out) :
    a.categorical m changed prev curr o = o.append (a.categoricalSamples m changed prev curr) := by
  unfold categorical categoricalSamples
  rw [Out.ite_emit, Out.ite_emit, Out.append_append]

def statCategoricalSamples (m : PidMetric) (extra : List Bytes) (fields : List PidStatField) :
    List PidSample :=
  a.categoricalSamples m (a.statChanged fields) (extra ++ fields.map a.prevStat.bsf)
    (extra ++ fields.map a.currStat.bsf)

theorem statCategorical_eq (m : PidMetric) (extra : List Bytes) (fields : List PidStatField)
    (o : Out) :
    a.statCategorical m extra fields o = o.append (a.statCategoricalSamples m extra fields) :=
  a.categorical_eq _ _ _ _ o

def stateSamples : List PidSample := a.statCategoricalSamples .statState [] [.state]

def commSamples : List PidSample := a.statCategoricalSamples .statComm [a.starttimeMsec] [.comm]

def priorityFields : List PidStatField := [.priority, .nice, .rtPriority, .policy]

def prioritySamples : List PidSample := a.statCategoricalSamples .statPriority [] priorityFields

def infoFields : List PidStatField := [.ppid, .pgrp, .session, .ttyNr, .tpgid, .flags]

def infoSamples : List PidSample := a.statCategoricalSamples .statInfo [] infoFields

def cpuNumSamples : List PidSample := [a.sample .statCpuNum [] (.text (a.currStat.bsf .processor))]

def statusMemorySamples (fields : List PidStatusField) : List PidSample :=
  fields.flatMap fun f =>
    match a.currStatus.bsf f with
    | none => []
    | some v =>
      if a.fullMetricsNoPrev || (a.prevStatus.bsf f).getD [] != v then
        [a.sample (.statusMemory f) [(a.currStatus.bsfu f).getD []] (.text v)]
      else []

theorem statusMemoryPart_eq (fields : List PidStatusField) (o : Out) :
    a.statusMemoryPart fields o = o.append (a.statusMemorySamples fields) := by
  rw [statusMemorySamples, ← Out.foldl_append, statusMemoryPart]
  congr 1
  funext o f
  cases a.currStatus.bsf f with
  | none => exact (Out.append_nil o).symm
  | some v => exact Out.ite_emit o _ _

def deltaSamples (m : PidMetric) (delta : UInt64) (zero : Bool) : List PidSample :=
  if delta != 0 || a.fullMetrics || !zero then [a.sample m [] (.uint delta)] else []

theorem deltaPart_eq (m : PidMetric) (delta : UInt64) (zero : Bool) (o : Out) :
    a.deltaPart m delta zero o = o.append (a.deltaSamples m delta zero) :=
  Out.ite_emit o _ _

def fltSamples (zeroDelta : PidStatNumField → Bool) : List PidSample :=
  [PidStatNumField.minflt, .majflt].flatMap fun f =>
    a.deltaSamples (.statFlt f) (a.statDelta f) (zeroDelta f)

theorem fltPart_eq (zeroDelta : PidStatNumField → Bool) (o : Out) :
    a.fltPart zeroDelta o = o.append (a.fltSamples zeroDelta) := by
  simp only [fltPart, deltaPart_eq, Out.foldl_append]
  rfl

def pcpuSamples : List PidSample :=
  let elapsed := a.currTs - a.prevTs
  [a.sample (.statTimePcpu .stime) [] (.pct (a.statDelta .stime) elapsed),
    a.sample (.statTimePcpu .utime) [] (.pct (a.statDelta .utime) elapsed),
    a.sample .statPcpu [] (.pct (a.statDelta .stime + a.statDelta .utime) elapsed)]

theorem pcpuPart_eq (o : Out) : a.pcpuPart o = o.append a.pcpuSamples := by
  simp [pcpuPart, pcpuSamples, Out.emit_eq]

def ctxSamples (zeroDelta : PidStatusNumField → Bool) : List PidSample :=
  [PidStatusNumField.voluntaryCtxtSwitches, .nonvoluntaryCtxtSwitches].flatMap fun f =>
    a.deltaSamples (.statusCtx f) (a.statusDelta f) (zeroDelta f)

theorem ctxPart_eq (zeroDelta : PidStatusNumField → Bool) (o : Out) :
    a.ctxPart zeroDelta o = o.append (a.ctxSamples zeroDelta) := by
  simp only [ctxPart, deltaPart_eq, Out.foldl_append]
  rfl

def numThreadsSamples : List PidSample :=
  if a.fullMetricsNoPrev || a.currStat.bsf .numThreads != a.prevStat.bsf .numThreads then
    [a.sample .statNumThreads [] (.text (a.currStat.bsf .numThreads))]
  else []

def rssSamples (pageSize : UInt64) : List PidSample :=
  if a.fullMetricsNoPrev || a.currStat.nf .rss != a.prevStat.nf .rss then
    [a.sample .statRss [] (.uint (a.currStat.nf .rss * pageSize))]
  else []

def statMemorySamples : List PidSample :=
  [PidStatField.vsize, .rsslim].flatMap fun f =>
    if a.fullMetricsNoPrev || a.prevStat.bsf f != a.currStat.bsf f then
      [a.sample (.statMemory f) [] (.text (a.currStat.bsf f))]
    else []

theorem statMemoryPart_eq (o : Out) : a.statMemoryPart o = o.append a.statMemorySamples := by
  rw [statMemorySamples, ← Out.foldl_append, statMemoryPart]
  congr 1
  funext o f
  exact Out.ite_emit o _ _

def statusInfoFields : List PidStatusField :=
  [.uid, .gid, .groups, .cpusAllowedList, .memsAllowedList]

def statusInfoSamples : List PidSample :=
  a.categoricalSamples .statusInfo (a.statusChanged statusInfoFields)
    (statusInfoFields.map fun f => (a.prevStatus.bsf f).getD [])
    (statusInfoFields.map fun f => (a.currStatus.bsf f).getD [])

def cmdlineSamples : List PidSample :=
  if !a.fullMetricsNoPrev then []
  else if a.cmdline.cmdPath.length != 0 then
    [a.sample .cmdline [a.cmdline.cmdPath, a.cmdline.args, a.cmdline.cmd] (.flag true)]
  else
    (if a.statChanged [.comm] then [a.sample .cmdlineComm [a.prevStat.bsf .comm] (.flag false)]
      else []) ++
      [a.sample .cmdlineComm [a.currStat.bsf .comm] (.flag true)]

theorem cmdlinePart_eq (o : Out) : a.cmdlinePart o = o.append a.cmdlineSamples := by
  unfold cmdlinePart cmdlineSamples
  by_cases hfull : a.fullMetricsNoPrev
  · by_cases hpath : (a.cmdline.cmdPath.length != 0)
    · simp only [hfull, hpath, Bool.not_true, Bool.false_eq_true, if_false, if_true, Out.emit_eq]
    · simp only [hfull, hpath, Bool.not_true, Bool.false_eq_true, if_false, Out.emit_eq,
        Out.ite_append, Out.append_append]
  · simp [hfull]

def samples (cfg : Config) (zeroFlt : PidStatNumField → Bool)
    (zeroCtx : PidStatusNumField → Bool) : List PidSample :=
  a.stateSamples ++ a.commSamples ++ a.prioritySamples ++ a.cpuNumSamples ++
  (if cfg.usePidStatus then a.statusMemorySamples cfg.pidTidMemoryFields else []) ++
  (if a.hasPrev then
    a.fltSamples zeroFlt ++ a.pcpuSamples ++ (if cfg.usePidStatus then a.ctxSamples zeroCtx else [])
  else []) ++
  if a.isPid then
    a.infoSamples ++ a.numThreadsSamples ++ a.rssSamples cfg.pageSize ++ a.statMemorySamples ++
    (if cfg.usePidStatus then
      a.statusInfoSamples ++ a.statusMemorySamples cfg.pidOnlyMemoryFields
    else []) ++ a.cmdlineSamples
  else []

end GenArgs

def genArgs (pidStat : PidStat) (pidStatus : PidStatus) (pidCmdline : PidCmdline)
    (info : ProcPidTidMetricsInfo) (hasPrev isPid fullMetrics : Bool) (currTs : Int) : GenArgs :=
  { hasPrev, isPid, fullMetrics, currTs, pidTid := info.pidTid
    starttimeMsec := info.starttimeMsec, prevTs := info.prevTs
    currStat := pidStat, prevStat := info.pidStat
    currStatus := pidStatus, prevStatus := info.pidStatus, cmdline := pidCmdline }

def noteZeroDeltas (cfg : Config) (a : GenArgs) (info : ProcPidTidMetricsInfo) :
    ProcPidTidMetricsInfo :=
  if !a.hasPrev then info else
    { info with
      pidStatFltZeroDelta := fun f => a.statDelta f == 0
      pidStatusCtxZeroDelta := if cfg.usePidStatus then fun f => a.statusDelta f == 0
        else info.pidStatusCtxZeroDelta }

open GenArgs

theorem generateMetrics_eq (cfg : Config) (pidStat : PidStat) (pidStatus : PidStatus)
    (pidCmdline : PidCmdline) (info : ProcPidTidMetricsInfo) (hasPrev isPid fullMetrics : Bool)
    (currTs : Int) (o : Out) :
    let a := genArgs pidStat pidStatus pidCmdline info hasPrev isPid fullMetrics currTs
    generateMetrics cfg pidStat pidStatus pidCmdline info hasPrev isPid fullMetrics currTs o =
      (o.append (a.samples cfg info.pidStatFltZeroDelta info.pidStatusCtxZeroDelta),
        noteZeroDeltas cfg a info) := by
  intro a
  have hstate : ∀ o, a.cpuNumPart (a.priorityPart (a.commPart (a.statePart o))) =
      o.append (a.stateSamples ++ a.commSamples ++ a.prioritySamples ++ a.cpuNumSamples) := by
    intro o
    simp only [statePart, commPart, priorityPart, cpuNumPart,
      statCategorical_eq, Out.emit_eq, Out.append_append]
    rfl
  have hpid : ∀ o, a.statMemoryPart (a.rssPart cfg.pageSize (a.numThreadsPart (a.infoPart o))) =
      o.append (a.infoSamples ++ a.numThreadsSamples ++ a.rssSamples cfg.pageSize ++
        a.statMemorySamples) := by
    intro o
    simp only [infoPart, statCategorical_eq, numThreadsPart,
      rssPart, statMemoryPart_eq, Out.ite_emit, Out.append_append]
    rfl
  have hstatusInfo : ∀ o, a.statusInfoPart o = o.append a.statusInfoSamples := fun o =>
    a.categorical_eq _ _ _ _ o
  unfold generateMetrics
  change (let o := a.cpuNumPart (a.priorityPart (a.commPart (a.statePart o)));
    let o := if cfg.usePidStatus then a.statusMemoryPart cfg.pidTidMemoryFields o else o;
    let o := if !hasPrev then o else
      let o := a.pcpuPart (a.fltPart info.pidStatFltZeroDelta o)
      if cfg.usePidStatus then a.ctxPart info.pidStatusCtxZeroDelta o else o;
    if !isPid then (o, noteZeroDeltas cfg a info) else
    let o := a.statMemoryPart (a.rssPart cfg.pageSize (a.numThreadsPart (a.infoPart o)));
    let o := if cfg.usePidStatus then
      a.statusMemoryPart cfg.pidOnlyMemoryFields (a.statusInfoPart o) else o;
    (a.cmdlinePart o, noteZeroDeltas cfg a info)) = _
  have hprev : a.hasPrev = hasPrev := rfl
  have hisPid : a.isPid = isPid := rfl
  unfold samples
  rw [hprev, hisPid]
  cases hasPrev <;> cases isPid <;> cases cfg.usePidStatus <;>
    simp [hstate, hpid, hstatusInfo, statusMemoryPart_eq, pcpuPart_eq,
      fltPart_eq, ctxPart_eq, cmdlinePart_eq]

def ofMetric (m : PidMetric) (l : List PidSample) : List PidSample := l.filter fun s => s.metric = m

section

variable {m m' : PidMetric} {l l' : List PidSample}

@[simp] theorem ofMetric_nil : ofMetric m [] = [] := rfl

@[simp] theorem ofMetric_append : ofMetric m (l ++ l') = ofMetric m l ++ ofMetric m l' :=
  filter_append ..

@[simp] theorem ofMetric_ite (c : Prop) [Decidable c] :
    ofMetric m (if c then l else l') = if c then ofMetric m l else ofMetric m l' :=
  apply_ite ..

theorem ofMetric_eq_nil (h : ∀ s ∈ l, s.metric ≠ m) : ofMetric m l = [] :=
  filter_eq_nil_iff.mpr fun s hs => by simpa using h s hs

theorem ofMetric_eq_ite (h : ∀ s ∈ l, s.metric = m') : ofMetric m l = if m' = m then l else [] := by
  by_cases hm : m' = m
  · rw [if_pos hm]
    exact filter_eq_self.mpr fun s hs => decide_eq_true ((h s hs).trans hm)
  · rw [if_neg hm]
    exact ofMetric_eq_nil fun s hs hs' => hm ((h s hs).symm.trans hs')

end

namespace GenArgs

variable (a : GenArgs) (m m' : PidMetric)

theorem metric_of_mem_categoricalSamples {changed : Bool} {prev curr : List Bytes} {s : PidSample}
    (hs : s ∈ a.categoricalSamples m changed prev curr) : s.metric = m := by
  simp only [categoricalSamples, mem_append, mem_ite_nil_right, mem_singleton] at hs
  obtain ⟨-, rfl⟩ | ⟨-, rfl⟩ := hs <;> rfl

@[simp] theorem ofMetric_stateSamples :
    ofMetric m a.stateSamples = if .statState = m then a.stateSamples else [] :=
  ofMetric_eq_ite fun _ => a.metric_of_mem_categoricalSamples _

@[simp] theorem ofMetric_commSamples :
    ofMetric m a.commSamples = if .statComm = m then a.commSamples else [] :=
  ofMetric_eq_ite fun _ => a.metric_of_mem_categoricalSamples _

@[simp] theorem ofMetric_prioritySamples :
    ofMetric m a.prioritySamples = if .statPriority = m then a.prioritySamples else [] :=
  ofMetric_eq_ite fun _ => a.metric_of_mem_categoricalSamples _

@[simp] theorem ofMetric_infoSamples :
    ofMetric m a.infoSamples = if .statInfo = m then a.infoSamples else [] :=
  ofMetric_eq_ite fun _ => a.metric_of_mem_categoricalSamples _

@[simp] theorem ofMetric_statusInfoSamples :
    ofMetric m a.statusInfoSamples = if .statusInfo = m then a.statusInfoSamples else [] :=
  ofMetric_eq_ite fun _ => a.metric_of_mem_categoricalSamples _

@[simp] theorem ofMetric_deltaSamples (delta : UInt64) (zero : Bool) :
    ofMetric m (a.deltaSamples m' delta zero) =
      if m' = m then a.deltaSamples m' delta zero else [] := by
  refine ofMetric_eq_ite fun s hs => ?_
  simp only [deltaSamples, mem_ite_nil_right, mem_singleton] at hs
  rw [hs.2]
  rfl

@[simp] theorem ofMetric_fltSamples (zeroDelta : PidStatNumField → Bool) :
    ofMetric m (a.fltSamples zeroDelta) =
      (if .statFlt .minflt = m then
        a.deltaSamples (.statFlt .minflt) (a.statDelta .minflt) (zeroDelta .minflt) else []) ++
      if .statFlt .majflt = m then
        a.deltaSamples (.statFlt .majflt) (a.statDelta .majflt) (zeroDelta .majflt) else [] := by
  simp [fltSamples]

@[simp] theorem ofMetric_ctxSamples (zeroDelta : PidStatusNumField → Bool) :
    ofMetric m (a.ctxSamples zeroDelta) =
      (if .statusCtx .voluntaryCtxtSwitches = m then
        a.deltaSamples (.statusCtx .voluntaryCtxtSwitches) (a.statusDelta .voluntaryCtxtSwitches)
          (zeroDelta .voluntaryCtxtSwitches) else []) ++
      if .statusCtx .nonvoluntaryCtxtSwitches = m then
        a.deltaSamples (.statusCtx .nonvoluntaryCtxtSwitches) (a.statusDelta .nonvoluntaryCtxtSwitches)
          (zeroDelta .nonvoluntaryCtxtSwitches) else [] := by
  simp [ctxSamples]

@[simp] theorem ofMetric_cmdlineSamples (h : .cmdline ≠ m) (h' : .cmdlineComm ≠ m) :
    ofMetric m a.cmdlineSamples = [] := by
  refine ofMetric_eq_nil fun s hs => ?_
  simp only [cmdlineSamples, mem_ite_nil_left] at hs
  obtain ⟨-, hs⟩ := hs
  split at hs
  · rw [mem_singleton.mp hs]
    exact h
  · simp only [mem_append, mem_ite_nil_right, mem_singleton] at hs
    obtain ⟨-, rfl⟩ | rfl := hs <;> exact h'

/-! The metrics that are published as they are, without a label tuple or a delta to follow. -/

@[simp] theorem ofMetric_cpuNumSamples (h : .statCpuNum ≠ m) : ofMetric m a.cpuNumSamples = [] := by
  refine ofMetric_eq_nil fun s hs => ?_
  rw [mem_singleton.mp hs]
  exact h

@[simp] theorem ofMetric_statusMemorySamples (fields : List PidStatusField)
    (h : ∀ f, .statusMemory f ≠ m) : ofMetric m (a.statusMemorySamples fields) = [] := by
  refine ofMetric_eq_nil fun s hs => ?_
  obtain ⟨f, -, hs⟩ := mem_flatMap.mp hs
  cases hv : a.currStatus.bsf f with
  | none =>
    rw [hv] at hs
    cases hs
  | some v =>
    simp only [hv, mem_ite_nil_right, mem_singleton] at hs
    rw [hs.2]
    exact h f

@[simp] theorem ofMetric_pcpuSamples (h : ∀ f, .statTimePcpu f ≠ m) (h' : .statPcpu ≠ m) :
    ofMetric m a.pcpuSamples = [] := by
  refine ofMetric_eq_nil fun s hs => ?_
  simp only [pcpuSamples, mem_cons, not_mem_nil, or_false] at hs
  obtain rfl | rfl | rfl := hs
  · exact h .stime
  · exact h .utime
  · exact h'

@[simp] theorem ofMetric_numThreadsSamples (h : .statNumThreads ≠ m) :
    ofMetric m a.numThreadsSamples = [] := by
  refine ofMetric_eq_nil fun s hs => ?_
  simp only [numThreadsSamples, mem_ite_nil_right, mem_singleton] at hs
  rw [hs.2]
  exact h

@[simp] theorem ofMetric_rssSamples (pageSize : UInt64) (h : .statRss ≠ m) :
    ofMetric m (a.rssSamples pageSize) = [] := by
  refine ofMetric_eq_nil fun s hs => ?_
  simp only [rssSamples, mem_ite_nil_right, mem_singleton] at hs
  rw [hs.2]
  exact h

@[simp] theorem ofMetric_statMemorySamples (h : ∀ f, .statMemory f ≠ m) :
    ofMetric m a.statMemorySamples = [] := by
  refine ofMetric_eq_nil fun s hs => ?_
  obtain ⟨f, -, hs⟩ := mem_flatMap.mp hs
  simp only [mem_ite_nil_right, mem_singleton] at hs
  rw [hs.2]
  exact h f

variable (cfg : Config) (zeroFlt : PidStatNumField → Bool) (zeroCtx : PidStatusNumField → Bool)

theorem ofMetric_statState :
    ofMetric .statState (a.samples cfg zeroFlt zeroCtx) = a.stateSamples := by
  simp [samples]

theorem ofMetric_statComm : ofMetric .statComm (a.samples cfg zeroFlt zeroCtx) = a.commSamples := by
  simp [samples]

theorem ofMetric_statPriority :
    ofMetric .statPriority (a.samples cfg zeroFlt zeroCtx) = a.prioritySamples := by
  simp [samples]

theorem ofMetric_statInfo (h : a.isPid) :
    ofMetric .statInfo (a.samples cfg zeroFlt zeroCtx) = a.infoSamples := by
  simp [samples, h]

theorem ofMetric_statusInfo (h : a.isPid) (hstatus : cfg.usePidStatus) :
    ofMetric .statusInfo (a.samples cfg zeroFlt zeroCtx) = a.statusInfoSamples := by
  simp [samples, h, hstatus]

theorem ofMetric_statFlt {f : PidStatNumField} (hf : f = .minflt ∨ f = .majflt) :
    ofMetric (.statFlt f) (a.samples cfg zeroFlt zeroCtx) =
      if a.hasPrev then a.deltaSamples (.statFlt f) (a.statDelta f) (zeroFlt f) else [] := by
  obtain rfl | rfl := hf <;> simp [samples]

theorem ofMetric_statusCtx (f : PidStatusNumField) (hstatus : cfg.usePidStatus) :
    ofMetric (.statusCtx f) (a.samples cfg zeroFlt zeroCtx) =
      if a.hasPrev then a.deltaSamples (.statusCtx f) (a.statusDelta f) (zeroCtx f) else [] := by
  cases f <;> simp [samples, hstatus]

end GenArgs

end Lsvmi.ProcPid
