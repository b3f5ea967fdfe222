import Lsvmi.ProcPid.Runs
import Lsvmi.ProcPid.Samples

/-!
# The life of a cache entry

From the scan that makes it until it is dropped, an entry goes through generations of metrics and
scans that skip it as inactive, whatever happens to the entries of the other PIDs, TIDs and to the
parsers that go round among them.  `Life` says so for one entry; the runs of `Execute` refine it.
-/

namespace Lsvmi.ProcPid

open Reasoning Function List

/-- What the parsers hold of a PID, TID after a scan has read its files. -/
structure Files where
  stat : PidStat
  status : PidStatus
  cmdline : PidCmdline

def Call.files (call : Call) (p : PidTid) : Files :=
  ⟨(call.stat p).data, (call.status p).data, (call.cmdline p).data⟩

/-- A call of `generateMetrics` for a PID, TID: the files it was made from, whether it was the first
one or one of a full metrics cycle, and what it published. -/
structure Generation where
  files : Files
  full : Bool
  samples : List PidSample

section

variable (cfg : Config) (files : Files) (info : ProcPidTidMetricsInfo)

def entryArgs (hasPrev full : Bool) (now : Int) : GenArgs :=
  genArgs files.stat files.status files.cmdline info hasPrev (info.pidTid.tid == pidOnlyTid) full
    now

def entrySamples (hasPrev full : Bool) (now : Int) : List PidSample :=
  (entryArgs files info hasPrev full now).samples cfg info.pidStatFltZeroDelta
    info.pidStatusCtxZeroDelta

def entryNext (hasPrev active full : Bool) (now : Int) (scanNum : Int64) : ProcPidTidMetricsInfo :=
  { noteZeroDeltas cfg (entryArgs files info hasPrev full now) info with
    active
    pidStat := files.stat
    pidStatus := if cfg.usePidStatus then files.status else info.pidStatus
    prevTs := now
    cycleNum := nextCycleNum info.cycleNum cfg.fullMetricsFactor
    scanNum }

def entrySkipped (now : Int) (scanNum : Int64) : ProcPidTidMetricsInfo :=
  { info with cycleNum := nextCycleNum info.cycleNum cfg.fullMetricsFactor, scanNum, prevTs := now }

end

/-- The entry of `p` is `info` after the generations `gens`. -/
inductive Life (cfg : Config) (p : PidTid) : ProcPidTidMetricsInfo → List Generation → Prop
  | created (files : Files) (info : ProcPidTidMetricsInfo) (cycleNum now : Int) (scanNum : Int64)
      (hinfo : info =
        newPidTidMetricsInfo p (cfg.starttimeMsec (files.stat.bsf .starttime)) cycleNum) :
    Life cfg p (entryNext cfg files info false true false now scanNum)
      [⟨files, true, entrySamples cfg files info false false now⟩]
  | skipped {info : ProcPidTidMetricsInfo} {gens : List Generation} (h : Life cfg p info gens)
      (now : Int) (scanNum : Int64) : Life cfg p (entrySkipped cfg info now scanNum) gens
  | generated {info : ProcPidTidMetricsInfo} {gens : List Generation} (h : Life cfg p info gens)
      (files : Files) (active : Bool) (now : Int) (scanNum : Int64)
      (hstart : files.stat.bsf .starttime = info.pidStat.bsf .starttime) :
    Life cfg p (entryNext cfg files info true active (info.cycleNum == 0) now scanNum)
      (gens ++ [⟨files, info.cycleNum == 0,
        entrySamples cfg files info true (info.cycleNum == 0) now⟩])

section

variable {cfg : Config} {p : PidTid} {info : ProcPidTidMetricsInfo} {gens : List Generation}

theorem noteZeroDeltas_pidTid (cfg : Config) (a : GenArgs) (info : ProcPidTidMetricsInfo) :
    (noteZeroDeltas cfg a info).pidTid = info.pidTid := by
  unfold noteZeroDeltas
  split <;> rfl

theorem noteZeroDeltas_starttimeMsec (cfg : Config) (a : GenArgs) (info : ProcPidTidMetricsInfo) :
    (noteZeroDeltas cfg a info).starttimeMsec = info.starttimeMsec := by
  unfold noteZeroDeltas
  split <;> rfl

variable (h : Life cfg p info gens)
include h

theorem Life.pidTid : info.pidTid = p := by
  induction h with
  | created _ _ _ _ _ hinfo =>
    rw [entryNext, noteZeroDeltas_pidTid, hinfo]
    rfl
  | skipped _ _ _ ih => exact ih
  | generated _ _ _ _ _ _ ih =>
    rw [entryNext, noteZeroDeltas_pidTid]
    exact ih

theorem Life.ne_nil : gens ≠ [] := by
  induction h with
  | created => exact cons_ne_nil _ _
  | skipped _ _ _ ih => exact ih
  | generated => exact append_ne_nil_of_right_ne_nil _ (cons_ne_nil _ _)

theorem Life.last (hne : gens ≠ []) :
    info.pidStat = (gens.getLast hne).files.stat ∧
      (cfg.usePidStatus → info.pidStatus = (gens.getLast hne).files.status) := by
  induction h with
  | created => exact ⟨rfl, fun huse => if_pos huse⟩
  | skipped _ _ _ ih => exact ih hne
  | generated =>
    rw [getLast_append_of_ne_nil _ (cons_ne_nil _ _), getLast_singleton]
    exact ⟨rfl, fun huse => if_pos huse⟩

end

section

variable (cfg : Config) (a : GenArgs) {status : PidStatus} {cmdline : PidCmdline}
  (zeroFlt : PidStatNumField → Bool) (zeroCtx : PidStatusNumField → Bool)

theorem GenArgs.samples_status (hstatus : cfg.usePidStatus → status = a.currStatus) :
    { a with currStatus := status }.samples cfg zeroFlt zeroCtx = a.samples cfg zeroFlt zeroCtx := by
  by_cases huse : cfg.usePidStatus
  · rw [hstatus huse]
  · simp only [samples, huse]
    rfl

theorem GenArgs.samples_cmdline
    (hcmdline : (a.isPid && a.fullMetricsNoPrev) → cmdline = a.cmdline) :
    { a with cmdline }.samples cfg zeroFlt zeroCtx = a.samples cfg zeroFlt zeroCtx := by
  by_cases hread : (a.isPid && a.fullMetricsNoPrev)
  · rw [hcmdline hread]
  unfold samples
  congr 1
  by_cases hpid : a.isPid
  · rw [hpid, Bool.true_and, Bool.not_eq_true] at hread
    have hnil : a.cmdlineSamples = [] := if_pos (congrArg (!·) hread)
    have hnil' : { a with cmdline }.cmdlineSamples = [] := if_pos (congrArg (!·) hread)
    rw [if_pos hpid, if_pos hpid, hnil, hnil']
    rfl
  · rw [if_neg hpid, if_neg hpid]

theorem noteZeroDeltas_status (info : ProcPidTidMetricsInfo)
    (hstatus : cfg.usePidStatus → status = a.currStatus) :
    noteZeroDeltas cfg { a with currStatus := status, cmdline } info =
      noteZeroDeltas cfg a info := by
  by_cases huse : cfg.usePidStatus
  · rw [hstatus huse]
    rfl
  · simp only [noteZeroDeltas, huse]
    rfl

end

section

variable (cfg : Config) (call : Call) (scanNum : Int64) (st : ScanState) (p : PidTid) (r : Ref)
  (hasPrev active full : Bool)

open ScanState

theorem parseStatus_out : (st.parseStatus cfg call p).out = st.out := by
  unfold parseStatus
  split <;> rfl

theorem parseCmdline_out (needed : Bool) : (st.parseCmdline call p needed).out = st.out := by
  unfold parseCmdline
  split <;> rfl

theorem scanEntry_fails (hfails : filesFail cfg call p (full || !hasPrev)) :
    let st' := st.scanEntry cfg call scanNum p r hasPrev active full
    st'.out = st.out ∧ st'.pm.pidTidMetricsInfo =
      if hasPrev then st.pm.pidTidMetricsInfo.erase p else st.pm.pidTidMetricsInfo := by
  intro st'
  constructor
  · unfold st' scanEntry
    simp only
    split
    · cases hasPrev <;> exact parseStatus_out cfg call _ p
    split
    · cases hasPrev <;> exact (parseCmdline_out call _ p _).trans (parseStatus_out cfg call _ p)
    · simp_all [filesFail]
  · have hcache := congrArg Cache.entries (scanEntry_cache cfg call scanNum st p r hasPrev active full)
    rw [if_pos hfails] at hcache
    refine hcache.trans ?_
    cases hasPrev <;> rfl

theorem publish_out : (st.publish cfg call scanNum p r hasPrev active full).out =
    st.out.append ((genArgs st.pm.pidStat st.pm.pidStatus st.pm.pidCmdline (st.pm.info r) hasPrev
      (p.tid == pidOnlyTid) full (call.timeNow p)).samples cfg (st.pm.info r).pidStatFltZeroDelta
        (st.pm.info r).pidStatusCtxZeroDelta) := by
  unfold ScanState.publish
  simp only [generateMetrics_eq]
  rfl

theorem publish_info : (st.publish cfg call scanNum p r hasPrev active full).pm.info r =
    { noteZeroDeltas cfg (genArgs st.pm.pidStat st.pm.pidStatus st.pm.pidCmdline (st.pm.info r)
        hasPrev (p.tid == pidOnlyTid) full (call.timeNow p)) (st.pm.info r) with
      pidStat := st.pm.pidStat
      pidStatus := if cfg.usePidStatus then st.pm.pidStatus else (st.pm.info r).pidStatus
      prevTs := call.timeNow p
      cycleNum := nextCycleNum (st.pm.info r).cycleNum cfg.fullMetricsFactor
      scanNum } := by
  unfold ScanState.publish
  simp only [generateMetrics_eq, readd, update_self]
  cases hasPrev <;> rfl

/-- The state in which the metrics are generated: the entry is marked as active or not, and the
files that are used are read. -/
def ScanState.readFiles : ScanState :=
  ((st.setInfo r { st.pm.info r with active }).parseStatus cfg call p).parseCmdline call p
    (p.tid == pidOnlyTid && (full || !hasPrev))

theorem scanEntry_eq_publish (hok : filesFail cfg call p (full || !hasPrev) = false) :
    st.scanEntry cfg call scanNum p r hasPrev active full =
      (st.readFiles cfg call p r hasPrev active full).publish cfg call scanNum p r hasPrev active
        full := by
  rw [filesFail, Bool.or_eq_false_iff] at hok
  unfold scanEntry
  rw [if_neg (Bool.eq_false_iff.mp hok.1), if_neg (Bool.eq_false_iff.mp hok.2)]
  rfl

theorem readFiles_out : (st.readFiles cfg call p r hasPrev active full).out = st.out :=
  (parseCmdline_out call _ p _).trans (parseStatus_out cfg call _ p)

theorem readFiles_info : (st.readFiles cfg call p r hasPrev active full).pm.info r =
    { st.pm.info r with active } := by
  rw [readFiles, parseCmdline_info, parseStatus_info]
  exact update_self ..

theorem readFiles_pidStat : (st.readFiles cfg call p r hasPrev active full).pm.pidStat =
    st.pm.pidStat := by
  unfold readFiles parseCmdline parseStatus
  split <;> split <;> rfl

theorem readFiles_pidStatus (huse : cfg.usePidStatus) :
    (st.readFiles cfg call p r hasPrev active full).pm.pidStatus = (call.status p).data := by
  unfold readFiles parseCmdline parseStatus
  rw [if_pos huse]
  split <;> rfl

theorem readFiles_pidCmdline (hread : (p.tid == pidOnlyTid && (full || !hasPrev))) :
    (st.readFiles cfg call p r hasPrev active full).pm.pidCmdline = (call.cmdline p).data := by
  unfold readFiles parseCmdline
  rw [if_pos hread]

section

variable (hok : filesFail cfg call p (full || !hasPrev) = false)
include hok

theorem scanEntry_ok (hstat : st.pm.pidStat = (call.stat p).data) (hp : (st.pm.info r).pidTid = p) :
    let st' := st.scanEntry cfg call scanNum p r hasPrev active full
    st'.out = st.out.append
        (entrySamples cfg (call.files p) (st.pm.info r) hasPrev full (call.timeNow p)) ∧
      st'.pm.info r = entryNext cfg (call.files p) (st.pm.info r) hasPrev active full
        (call.timeNow p) scanNum := by
  intro st'
  have hst' : st' = _ := scanEntry_eq_publish cfg call scanNum st p r hasPrev active full hok
  let read := st.readFiles cfg call p r hasPrev active full
  let a := entryArgs (call.files p) (st.pm.info r) hasPrev full (call.timeNow p)
  have hisPid : (p.tid == pidOnlyTid) = ((st.pm.info r).pidTid.tid == pidOnlyTid) := by rw [hp]
  -- The parsers may hold older data where this scan has read nothing, but then it is not used.
  have hargs : genArgs read.pm.pidStat read.pm.pidStatus read.pm.pidCmdline (read.pm.info r) hasPrev
      (p.tid == pidOnlyTid) full (call.timeNow p) =
        { a with currStatus := read.pm.pidStatus, cmdline := read.pm.pidCmdline } := by
    rw [readFiles_info, readFiles_pidStat, hstat, hisPid]
    rfl
  have hstatus := readFiles_pidStatus cfg call st p r hasPrev active full
  have hcmdline : (a.isPid && a.fullMetricsNoPrev) → read.pm.pidCmdline = a.cmdline := by
    intro hread
    refine readFiles_pidCmdline cfg call st p r hasPrev active full ?_
    rw [hisPid]
    exact hread
  constructor
  · rw [hst', publish_out, hargs, readFiles_out, readFiles_info]
    congr 1
    exact (GenArgs.samples_status cfg { a with cmdline := read.pm.pidCmdline } _ _ hstatus).trans
      (GenArgs.samples_cmdline cfg a _ _ hcmdline)
  rw [hst', publish_info, hargs, noteZeroDeltas_status cfg a _ hstatus, readFiles_info,
    readFiles_pidStat, hstat]
  have hkept : (if cfg.usePidStatus then read.pm.pidStatus else (st.pm.info r).pidStatus) =
      if cfg.usePidStatus then (call.files p).status else (st.pm.info r).pidStatus := by
    by_cases huse : cfg.usePidStatus
    · rw [if_pos huse, if_pos huse, hstatus huse]
      rfl
    · rw [if_neg huse, if_neg huse]
  unfold entryNext
  rw [← hkept]
  cases hasPrev <;> rfl

theorem scanEntry_lookup :
    (st.scanEntry cfg call scanNum p r hasPrev active full).pm.pidTidMetricsInfo.lookup p =
      if hasPrev then st.pm.pidTidMetricsInfo.lookup p else some r := by
  have hcache := congrArg (fun c => c.entries.lookup p)
    (scanEntry_cache cfg call scanNum st p r hasPrev active full)
  rw [if_neg (Bool.eq_false_iff.mp hok)] at hcache
  refine hcache.trans ?_
  cases hasPrev
  · exact Finmap.lookup_insert _
  · rfl

end

def newEntry : ProcPidTidMetricsInfo :=
  newPidTidMetricsInfo p (cfg.starttimeMsec ((call.files p).stat.bsf .starttime))
    (initialCycleNum (call.cycleNum p) cfg.fullMetricsFactor)

theorem scanNew_fails (hfails : filesFail cfg call p true) :
    let st' := st.scanNew cfg call scanNum p
    st'.out = st.out ∧ st'.pm.pidTidMetricsInfo = st.pm.pidTidMetricsInfo := by
  obtain ⟨hout, hentries⟩ := scanEntry_fails cfg call scanNum
    (st.initPidTidMetricsInfo cfg call p) p st.pm.nextRef false true false hfails
  exact ⟨hout, hentries⟩

theorem scanNew_ok (hok : filesFail cfg call p true = false)
    (hstat : st.pm.pidStat = (call.stat p).data) :
    let st' := st.scanNew cfg call scanNum p
    st'.out = st.out.append
        (entrySamples cfg (call.files p) (newEntry cfg call p) false false (call.timeNow p)) ∧
      st'.pm.info st.pm.nextRef = entryNext cfg (call.files p) (newEntry cfg call p) false true false
        (call.timeNow p) scanNum ∧
      st'.pm.pidTidMetricsInfo.lookup p = some st.pm.nextRef ∧
      st'.pm.nextRef = st.pm.nextRef + 1 := by
  have hinfo : (st.initPidTidMetricsInfo cfg call p).pm.info st.pm.nextRef =
      newEntry cfg call p := by
    refine (update_self ..).trans ?_
    rw [hstat]
    rfl
  have hpidTid : ((st.initPidTidMetricsInfo cfg call p).pm.info st.pm.nextRef).pidTid = p := by
    rw [hinfo]
    rfl
  obtain ⟨hout, hnext⟩ := scanEntry_ok cfg call scanNum (st.initPidTidMetricsInfo cfg call p) p
    st.pm.nextRef false true false hok hstat hpidTid
  rw [hinfo] at hout hnext
  have hcache := congrArg Cache.nextRef (scanNew_cache cfg call scanNum st p)
  rw [if_neg (Bool.eq_false_iff.mp hok)] at hcache
  exact ⟨hout, hnext, scanEntry_lookup cfg call scanNum _ p _ false true false hok, hcache⟩

end

/-- What a turn of the loop does to the entry of its PID, TID and to the buffer. -/
inductive Turn (cfg : Config) (call : Call) (scanNum : Int64) (p : PidTid)
    (st st' : ScanState) : Prop
  | gone (hlookup : st'.pm.pidTidMetricsInfo.lookup p = none) (hout : st'.out = st.out)
  | kept (hlookup : st'.pm.pidTidMetricsInfo.lookup p = st.pm.pidTidMetricsInfo.lookup p)
      (hinfo : ∀ r, st.pm.pidTidMetricsInfo.lookup p = some r → st'.pm.info r = st.pm.info r)
      (hout : st'.out = st.out)
  | skipped (r : Ref) (hlookup : st.pm.pidTidMetricsInfo.lookup p = some r)
      (hlookup' : st'.pm.pidTidMetricsInfo.lookup p = some r)
      (hinfo : st'.pm.info r = entrySkipped cfg (st.pm.info r) (call.timeNow p) scanNum)
      (hout : st'.out = st.out)
  | generated (r : Ref) (active : Bool) (hlookup : st.pm.pidTidMetricsInfo.lookup p = some r)
      (hlookup' : st'.pm.pidTidMetricsInfo.lookup p = some r)
      (hstart : (call.files p).stat.bsf .starttime = (st.pm.info r).pidStat.bsf .starttime)
      (hinfo : st'.pm.info r = entryNext cfg (call.files p) (st.pm.info r) true active
        ((st.pm.info r).cycleNum == 0) (call.timeNow p) scanNum)
      (hout : st'.out = st.out.append (entrySamples cfg (call.files p) (st.pm.info r) true
        ((st.pm.info r).cycleNum == 0) (call.timeNow p)))
  | created (hlookup' : st'.pm.pidTidMetricsInfo.lookup p = some st.pm.nextRef)
      (hnext : st'.pm.nextRef = st.pm.nextRef + 1)
      (hinfo : st'.pm.info st.pm.nextRef = entryNext cfg (call.files p) (newEntry cfg call p) false
        true false (call.timeNow p) scanNum)
      (hout : st'.out = st.out.append (entrySamples cfg (call.files p) (newEntry cfg call p) false
        false (call.timeNow p)))

theorem scanPidTid_turn (cfg : Config) (call : Call) (scanNum : Int64) (st : ScanState)
    (p : PidTid) (hown : ∀ r, st.pm.pidTidMetricsInfo.lookup p = some r →
      (st.pm.info r).pidTid = p ∧ r < st.pm.nextRef) :
    Turn cfg call scanNum p st (scanPidTid cfg call scanNum st p) := by
  have hbody := scanPidTid_body cfg call scanNum st p
  generalize fate cfg call st.pm p = f, scanPidTid cfg call scanNum st p = st' at hbody ⊢
  cases hbody with
  | ignored hl => exact .gone hl rfl
  | created hl =>
    cases hfiles : filesFail cfg call p true with
    | true =>
      obtain ⟨hout, hentries⟩ := scanNew_fails cfg call scanNum (st.parseStat call p none) p hfiles
      exact .gone (by rw [hentries]; exact hl) hout
    | false =>
      obtain ⟨hout, hinfo, hlookup, hnext⟩ :=
        scanNew_ok cfg call scanNum (st.parseStat call p none) p hfiles rfl
      exact .created hlookup hnext hinfo hout
  | gone r => exact .gone (Finmap.lookup_erase ..) rfl
  | reused r hl =>
    -- The old entry is given up, though it stays in the map when the new one fails.
    cases hfiles : filesFail cfg call p true with
    | true =>
      obtain ⟨hout, hentries⟩ := scanNew_fails cfg call scanNum
        { st.parseStat call p (some r) with delPidCount := st.delPidCount + 1 } p hfiles
      refine .kept (by rw [hentries]; rfl) (fun x hx => ?_) hout
      exact scanNew_info cfg call scanNum _ p (Nat.ne_of_lt (hown x hx).2)
    | false =>
      obtain ⟨hout, hinfo, hlookup, hnext⟩ := scanNew_ok cfg call scanNum
        { st.parseStat call p (some r) with delPidCount := st.delPidCount + 1 } p hfiles rfl
      exact .created hlookup hnext hinfo hout
  | skipped r hl => exact .skipped r hl hl (update_self ..) rfl
  | scanned r active hl hstart =>
    cases hfiles : filesFail cfg call p ((st.pm.info r).cycleNum == 0 || !true) with
    | true =>
      obtain ⟨hout, hentries⟩ := scanEntry_fails cfg call scanNum
        (st.parseStat call p (some r)) p r true active _ hfiles
      refine .gone ?_ hout
      rw [hentries, if_pos rfl]
      exact Finmap.lookup_erase ..
    | false =>
      obtain ⟨hout, hinfo⟩ := scanEntry_ok cfg call scanNum (st.parseStat call p (some r)) p r true
        active _ hfiles rfl (hown r hl).1
      refine .generated r active hl ?_ hstart hinfo hout
      rw [scanEntry_lookup cfg call scanNum _ p r true active _ hfiles, if_pos rfl]
      exact hl

end Lsvmi.ProcPid
