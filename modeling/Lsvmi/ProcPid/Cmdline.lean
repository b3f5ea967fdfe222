import Lsvmi.ProcPid.Lives
import Lsvmi.Reasoning.Replay

/-!
# The command line metric

The command line is read and published in full metrics cycles only, and it is not kept.  So a
command line that has changed is published beside the old one, which stays on.  The `[COMM]` that
stands for an empty command line is turned off when the comm has changed, but that is noticed from
one generation to the next and acted upon in full metrics cycles.
-/

namespace Lsvmi.ProcPid

open Reasoning List GenArgs

def isCmdline (m : PidMetric) : Bool := m = .cmdline ∨ m = .cmdlineComm

/-- A label tuple of the command line metric, in one of its two forms. -/
abbrev CmdlineKey := PidMetric × PidTid × List Bytes

def cmdlineLog (samples : List PidSample) : List (CmdlineKey × SampleValue) :=
  (samples.filter fun s => isCmdline s.metric).map fun s => ((s.metric, s.labels), s.value)

theorem cmdlineLog_append (l l' : List PidSample) :
    cmdlineLog (l ++ l') = cmdlineLog l ++ cmdlineLog l' := by
  simp [cmdlineLog]

def commKey (p : PidTid) (files : Files) : CmdlineKey := (.cmdlineComm, p, [files.stat.bsf .comm])

def cmdlineKey (p : PidTid) (files : Files) : CmdlineKey :=
  if files.cmdline.cmdPath.length ≠ 0 then
    (.cmdline, p, [files.cmdline.cmdPath, files.cmdline.args, files.cmdline.cmd])
  else commKey p files

def shownKey (p : PidTid) (gens : List Generation) : Option CmdlineKey :=
  (gens.filter Generation.full).getLast?.map fun g => cmdlineKey p g.files

/-- What a generation in a full metrics cycle publishes is what was shown before it, or the
command line is empty and what was shown before is the comm of the generation before. -/
def CmdlineKept (p : PidTid) (gens : List Generation) (g : Generation) : Prop :=
  g.full = true → ∀ shown, shownKey p gens = some shown → shown = cmdlineKey p g.files ∨
    (g.files.cmdline.cmdPath.length = 0 ∧
      ∀ last, gens.getLast? = some last → shown = commKey p last.files)

section

variable {cfg : Config} {p : PidTid} {info : ProcPidTidMetricsInfo} {gens : List Generation}
  {g : Generation}

theorem cmdlineLog_samples (a : GenArgs) (zeroFlt : PidStatNumField → Bool)
    (zeroCtx : PidStatusNumField → Bool) :
    cmdlineLog (a.samples cfg zeroFlt zeroCtx) =
      if a.isPid then cmdlineLog a.cmdlineSamples else [] := by
  -- The other blocks publish other metrics.
  have hnil : ∀ l : List PidSample, ofMetric .cmdline l = [] → ofMetric .cmdlineComm l = [] →
      cmdlineLog l = [] := by
    intro l hcmdline hcomm
    rw [cmdlineLog, map_eq_nil_iff, filter_eq_nil_iff]
    intro s hs hmetric
    obtain hm | hm := of_decide_eq_true hmetric
    · exact absurd (decide_eq_true hm) (filter_eq_nil_iff.mp hcmdline s hs)
    · exact absurd (decide_eq_true hm) (filter_eq_nil_iff.mp hcomm s hs)
  obtain ⟨front, back, hsamples, hfront, hback⟩ : ∃ front back,
      a.samples cfg zeroFlt zeroCtx = front ++ (if a.isPid then back ++ a.cmdlineSamples else []) ∧
      (ofMetric .cmdline front = [] ∧ ofMetric .cmdlineComm front = []) ∧
      ofMetric .cmdline back = [] ∧ ofMetric .cmdlineComm back = [] := by
    refine ⟨_, _, rfl, ?_, ?_⟩ <;> simp
  rw [hsamples, cmdlineLog_append, hnil front hfront.1 hfront.2, nil_append]
  split
  · rw [cmdlineLog_append, hnil back hback.1 hback.2, nil_append]
  · rfl

def fullCycleLog (p : PidTid) (prev files : Files) : List (CmdlineKey × SampleValue) :=
  (if files.cmdline.cmdPath.length = 0 ∧ prev.stat.bsf .comm ≠ files.stat.bsf .comm then
    [(commKey p prev, .flag false)] else []) ++ [(cmdlineKey p files, .flag true)]

theorem cmdlineLog_first (hp : info.pidTid = p) (hpid : p.tid = pidOnlyTid) (files : Files)
    (full : Bool) (now : Int) : cmdlineLog (entrySamples cfg files info false full now) =
      [(cmdlineKey p files, .flag true)] := by
  have hisPid : (entryArgs files info false full now).isPid := by
    simp [entryArgs, genArgs, hp, hpid]
  rw [entrySamples, cmdlineLog_samples, if_pos hisPid]
  by_cases hpath : files.cmdline.cmdPath.length = 0 <;>
    simp [cmdlineSamples, fullMetricsNoPrev, statChanged, sample,
      entryArgs, genArgs, cmdlineLog, isCmdline, cmdlineKey, commKey, hp, hpath]

theorem cmdlineLog_later (hp : info.pidTid = p) (hpid : p.tid = pidOnlyTid) (files prev : Files)
    (full : Bool) (now : Int) (hstat : info.pidStat = prev.stat) :
    cmdlineLog (entrySamples cfg files info true full now) =
      if full then fullCycleLog p prev files else [] := by
  have hisPid : (entryArgs files info true full now).isPid := by
    simp [entryArgs, genArgs, hp, hpid]
  rw [entrySamples, cmdlineLog_samples, if_pos hisPid]
  cases full with
  | false =>
    simp [cmdlineSamples, fullMetricsNoPrev, entryArgs, genArgs, cmdlineLog]
  | true =>
    by_cases hpath : files.cmdline.cmdPath.length = 0
    · by_cases hcomm : prev.stat.bsf .comm = files.stat.bsf .comm <;>
        simp [cmdlineSamples, fullMetricsNoPrev, statChanged,
          sample, entryArgs, genArgs, cmdlineLog, isCmdline, fullCycleLog, cmdlineKey,
          commKey, hp, hpath, hstat, hcomm]
    · simp [cmdlineSamples, fullMetricsNoPrev, sample, entryArgs, genArgs,
        cmdlineLog, isCmdline, fullCycleLog, cmdlineKey, hp, hpath]

/-- The tuple that is on before a full metrics cycle, and the generation before it, for which the
cycle leaves one tuple on. -/
def KeptAfter (p : PidTid) (prev files : Files) (shown : CmdlineKey) : Prop :=
  shown = cmdlineKey p files ∨ (files.cmdline.cmdPath.length = 0 ∧ shown = commKey p prev)

variable {log : List (CmdlineKey × SampleValue)} {shown : CmdlineKey} {prev files : Files}

theorem selects_fullCycle (h : Selects (.flag true) (.flag false) log shown)
    (hkept : KeptAfter p prev files shown) :
    Selects (.flag true) (.flag false) (log ++ fullCycleLog p prev files) (cmdlineKey p files) := by
  unfold fullCycleLog
  split
  · rename_i hclear
    obtain ⟨hpath, hcomm⟩ := hclear
    have hkey : cmdlineKey p files = commKey p files := if_neg (not_not.mpr hpath)
    -- The comm of the previous generation is cleared: either another tuple is shown and stays on, or
    -- it is the one that was shown.
    obtain rfl | ⟨-, rfl⟩ := hkept
    · have hne : commKey p prev ≠ cmdlineKey p files := by
        rw [hkey]
        simpa [commKey] using hcomm
      rw [← append_assoc]
      exact (h.turnOff hne).again
    · exact h.switch _
  · rename_i hclear
    obtain rfl : shown = cmdlineKey p files := by
      obtain rfl | ⟨hpath, rfl⟩ := hkept
      · rfl
      -- Nothing is cleared, so with an empty command line the comm is the same.
      · have hcomm : prev.stat.bsf .comm = files.stat.bsf .comm := by
          by_contra hcomm
          exact hclear ⟨hpath, hcomm⟩
        rw [cmdlineKey, if_neg (not_not.mpr hpath), commKey, commKey, hcomm]
    exact h.again

theorem not_atMostOneOn_fullCycle (h : Selects (.flag true) (.flag false) log shown)
    (hkept : ¬ KeptAfter p prev files shown) :
    ¬ AtMostOneOn (SampleValue.flag true) (log ++ fullCycleLog p prev files) := by
  obtain ⟨hkey, hcomm⟩ := not_or.mp hkept
  unfold fullCycleLog
  split
  · rename_i hclear
    have hne : commKey p prev ≠ shown := fun heq => hcomm ⟨hclear.1, heq.symm⟩
    rw [← append_assoc]
    exact (h.turnOff hne).not_atMostOneOn (Ne.symm hkey)
  · exact h.not_atMostOneOn (Ne.symm hkey)

def OneCmdline (gens : List Generation) : Prop :=
  ∀ pre, pre <+: gens →
    AtMostOneOn (SampleValue.flag true) (cmdlineLog (pre.flatMap Generation.samples))

def AllKept (p : PidTid) (gens : List Generation) : Prop :=
  ∀ pre g, pre ++ [g] <+: gens → CmdlineKept p pre g

theorem oneCmdline_concat : OneCmdline (gens ++ [g]) ↔ OneCmdline gens ∧
    AtMostOneOn (SampleValue.flag true) (cmdlineLog ((gens ++ [g]).flatMap Generation.samples)) := by
  constructor
  · intro h
    exact ⟨fun pre hpre => h pre (hpre.trans (prefix_append ..)), h _ prefix_rfl⟩
  · rintro ⟨h, hlast⟩ pre hpre
    obtain rfl | hpre := prefix_concat_iff.mp hpre
    · exact hlast
    · exact h pre hpre

theorem allKept_concat : AllKept p (gens ++ [g]) ↔ AllKept p gens ∧ CmdlineKept p gens g := by
  constructor
  · intro h
    exact ⟨fun pre x hpre => h pre x (hpre.trans (prefix_append ..)), h _ _ prefix_rfl⟩
  rintro ⟨h, hlast⟩ pre x hpre
  obtain heq | hpre := prefix_concat_iff.mp hpre
  · obtain ⟨rfl, hx⟩ := append_inj' heq rfl
    obtain rfl : x = g := head_eq_of_cons_eq hx
    exact hlast
  · exact h pre x hpre

theorem shownKey_concat : shownKey p (gens ++ [g]) =
    if g.full then some (cmdlineKey p g.files) else shownKey p gens := by
  cases hfull : g.full <;> simp [shownKey, hfull]

theorem cmdlineKept_iff (hfull : g.full) (hshown : shownKey p gens = some shown) (hne : gens ≠ []) :
    CmdlineKept p gens g ↔ KeptAfter p (gens.getLast hne).files g.files shown := by
  simp [CmdlineKept, KeptAfter, hfull, hshown, getLast?_eq_some_getLast hne]

theorem oneCmdline_nil : OneCmdline [] := by
  intro pre hpre k k' hk
  rw [prefix_nil.mp hpre] at hk
  cases hk

theorem allKept_nil : AllKept p [] := by
  intro pre g hpre
  have hnil := prefix_nil.mp hpre
  simp at hnil

/-- Over a life, as long as the command line is kept the last one shown is the only one on. -/
theorem Life.cmdline (h : Life cfg p info gens) (hpid : p.tid = pidOnlyTid) :
    (AllKept p gens → ∃ shown, shownKey p gens = some shown ∧ Selects (.flag true) (.flag false)
      (cmdlineLog (gens.flatMap Generation.samples)) shown) ∧
    (OneCmdline gens ↔ AllKept p gens) := by
  have hon : SampleValue.flag true ≠ SampleValue.flag false := by decide
  -- On the life of the entry; the selection has to be carried along for as long as all is kept.
  induction h with
  | created files info cycleNum now scanNum hinfo =>
    have hp : info.pidTid = p := by rw [hinfo, newPidTidMetricsInfo]
    have hselects : Selects (.flag true) (.flag false)
        (cmdlineLog (entrySamples cfg files info false false now)) (cmdlineKey p files) := by
      rw [cmdlineLog_first hp hpid]
      exact Selects.first ..
    refine ⟨fun _ => ⟨_, rfl, by simpa using hselects⟩, ?_⟩
    rw [← nil_append [_], oneCmdline_concat, allKept_concat]
    exact iff_of_true ⟨oneCmdline_nil, by simpa using hselects.atMostOneOn hon⟩
      ⟨allKept_nil, fun _ shown hshown => by cases hshown⟩
  | skipped _ _ _ ih => exact ih
  | @generated info gens h files active now scanNum hstart ih =>
    obtain ⟨hselects, hiff⟩ := ih
    have hne := h.ne_nil
    have hlog : cmdlineLog (entrySamples cfg files info true (info.cycleNum == 0) now) = _ :=
      cmdlineLog_later h.pidTid hpid files (gens.getLast hne).files _ now (h.last hne).1
    rw [oneCmdline_concat, allKept_concat, hiff, shownKey_concat, flatMap_append,
      flatMap_singleton, cmdlineLog_append, hlog]
    -- Only full cycles publish a command line.
    cases hfull : info.cycleNum == 0 with
    | false =>
      simp only [Bool.false_eq_true, if_false, List.append_nil]
      refine ⟨fun hkept => hselects hkept.1, and_congr_right fun hkept => ?_⟩
      obtain ⟨shown, -, hshown⟩ := hselects hkept
      exact iff_of_true (hshown.atMostOneOn hon) fun hfalse => by cases hfalse
    | true =>
      simp only [if_true]
      refine ⟨?_, and_congr_right fun hkept => ?_⟩
      · rintro ⟨hkept, hlast⟩
        obtain ⟨shown, hkey, hshown⟩ := hselects hkept
        exact ⟨_, rfl, selects_fullCycle hshown ((cmdlineKept_iff rfl hkey hne).mp hlast)⟩
      obtain ⟨shown, hkey, hshown⟩ := hselects hkept
      rw [cmdlineKept_iff rfl hkey hne]
      constructor
      · intro hone
        by_contra hnot
        exact not_atMostOneOn_fullCycle hshown hnot hone
      · intro hlast
        exact (selects_fullCycle hshown hlast).atMostOneOn hon

/-- After every scan at most one label tuple has last value 1 exactly if every full metrics cycle
keeps the command line that is shown. -/
theorem one_cmdline_iff_kept {calls : List Call} {r : RunState}
    (hrun : Run (Executes cfg) newRun calls r) (hpid : p.tid = pidOnlyTid) :
    OneCmdline (r.gens p) ↔ AllKept p (r.gens p) := by
  by_cases hne : r.gens p = []
  · rw [hne]
    exact iff_of_true oneCmdline_nil allKept_nil
  · obtain ⟨info, hlife⟩ := life_of_run hrun hne
    exact (hlife.cmdline hpid).2

end

theorem allKept_of_same {p : PidTid} {gens : List Generation} {key : CmdlineKey}
    (h : ∀ g ∈ gens, cmdlineKey p g.files = key) : AllKept p gens := by
  intro pre g hpre _ shown hshown
  obtain ⟨last, hlast, rfl⟩ := Option.map_eq_some_iff.mp hshown
  have hmem : last ∈ pre := (mem_filter.mp (mem_of_getLast? hlast)).1
  left
  rw [h last (hpre.subset (mem_append_left _ hmem)), h g (hpre.subset (by simp))]

def cmdlineCall (path : Bytes) : Call :=
  { plainCall [⟨1, 0⟩] with cmdline := fun _ => ⟨true, ⟨path, [], path⟩⟩ }

theorem one_cmdline_same_word :
    ∃ r, Run (Executes plainConfig) newRun [cmdlineCall (utf8 "a"), cmdlineCall (utf8 "a")] r ∧
      (r.gens ⟨1, 0⟩).length = 2 ∧ OneCmdline (r.gens ⟨1, 0⟩) := by
  have hend : ([cmdlineCall (utf8 "a"), cmdlineCall (utf8 "a")].foldlM (nextRun plainConfig)
      newRun).any (fun r => (r.gens ⟨1, 0⟩).length = 2 ∧ ∀ g ∈ r.gens ⟨1, 0⟩,
        cmdlineKey ⟨1, 0⟩ g.files = (.cmdline, ⟨1, 0⟩, [utf8 "a", [], utf8 "a"])) = true := by
    decide +kernel
  obtain ⟨r, hrun, htest⟩ := exists_run hend
  obtain ⟨hlength, hsame⟩ := of_decide_eq_true htest
  exact ⟨r, hrun, hlength, (one_cmdline_iff_kept hrun rfl).mpr (allKept_of_same hsame)⟩

theorem changed_cmdline_stays_on :
    ∃ r, Run (Executes plainConfig) newRun [cmdlineCall (utf8 "a"), cmdlineCall (utf8 "b")] r ∧
      ¬ OneCmdline (r.gens ⟨1, 0⟩) := by
  have hend : ([cmdlineCall (utf8 "a"), cmdlineCall (utf8 "b")].foldlM (nextRun plainConfig)
      newRun).any (fun r => ∀ word ∈ [utf8 "a", utf8 "b"],
        replay (cmdlineLog ((r.gens ⟨1, 0⟩).flatMap Generation.samples))
          (.cmdline, ⟨1, 0⟩, [word, [], word]) = some (SampleValue.flag true)) = true := by
    decide +kernel
  obtain ⟨r, hrun, htest⟩ := exists_run hend
  have hon := of_decide_eq_true htest
  refine ⟨r, hrun, fun hone => ?_⟩
  have hsame := hone _ prefix_rfl _ _ (hon (utf8 "a") (by simp)) (hon (utf8 "b") (by simp))
  exact absurd hsame (by decide)

end Lsvmi.ProcPid
