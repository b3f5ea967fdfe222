import Lsvmi.DiskstatsMetrics.Runs
import Lsvmi.Procfs.MountinfoContent
import Lsvmi.Published

/-!
# The mountinfo metrics

`Execute` together with the parser of /proc/PID/mountinfo.  The lines of the content whose disk is in
diskstats are cached as metrics.  The cache is built anew when the content has changed, but not when
only the disks have, and what is in it is published when the content has changed or the cycle is at
its start.
-/

namespace Lsvmi.DiskstatsMetrics

open Procfs Reasoning List

/-! ## The lines of a content -/

def MountinfoLine.ofParsed (parsedLine : MountinfoParsedLine) : MountinfoLine :=
  ⟨parsedLine.getD 2 [], parsedLine.getD 3 [], parsedLine.getD 4 [], parsedLine.getD 8 [],
    parsedLine.getD 9 []⟩

/-- The words of a line that are used as labels; those behind the separator are counted from the
end. -/
def MountinfoLine.ofLine (line : Bytes) : MountinfoLine :=
  let words := fields isWhitespace line
  ⟨words.getD 2 [], words.getD 3 [], words.getD 4 [], words.reverse.getD 2 [],
    words.reverse.getD 1 []⟩

def mountinfoLines (content : Bytes) : List MountinfoLine :=
  (lines newline content).map MountinfoLine.ofLine

open MountinfoLine

theorem MountinfoLine.labels_injective : Function.Injective labels := by
  intro line line' h
  cases line
  cases line'
  simpa [labels] using h

theorem MountinfoLine.ofParsed_eq {line : Bytes} {parsedLine : MountinfoParsedLine}
    (h : DescribesLine line parsedLine) : ofParsed parsedLine = ofLine line := by
  obtain ⟨e, text, hrendered, rfl⟩ := h
  have hlead : ∀ i, i < mountinfoOptionalFields → ∀ rest,
      (e.leading ++ rest).getD i [] = e.leading.getD i [] := fun i hi rest =>
    getD_append _ _ _ _ (by rw [e.length_leading]; exact hi)
  have htrail : ∀ i, (e.leading ++ [text, [45]] ++ e.trailing).getD (8 + i) [] =
      e.trailing.getD i [] := fun i => by
    have hlen : (e.leading ++ [text, [45]]).length = 8 := by
      rw [length_append, e.length_leading]
      rfl
    rw [getD_append_right _ _ _ _ (by omega), hlen, Nat.add_sub_cancel_left]
  obtain ⟨t₀, t₁, t₂, htrailing⟩ := length_eq_three.mp e.length_trailing
  unfold ofParsed ofLine MountEntry.parsedLine
  rw [hrendered.fields_eq, htrail 0, htrail 1, htrailing]
  simp only [append_assoc, hlead 2 (by decide), hlead 3 (by decide), hlead 4 (by decide)]
  simp

theorem map_ofParsed_of_describes {content : Bytes} {parsedLines : List MountinfoParsedLine}
    (h : Procfs.Mountinfo.Describes content parsedLines) :
    parsedLines.map ofParsed = mountinfoLines content := by
  unfold Procfs.Mountinfo.Describes at h
  unfold mountinfoLines
  generalize lines newline content = ls at h ⊢
  induction h with
  | nil => rfl
  | cons hline _ ih => rw [map_cons, map_cons, ofParsed_eq hline, ih]

/-! ## The parser -/

structure MountinfoState where
  gen : ProcDiskstatsMetrics
  parser : Procfs.Mountinfo

def newMountinfoState (mountinfoCycleNum : Int) : MountinfoState :=
  ⟨newProcDiskstatsMetrics mountinfoCycleNum, newMountinfo⟩

structure MountinfoInput extends Input where
  /-- what `ReadFile` returns of mountinfo -/
  content : Bytes

structure MountinfoInput.Ok (input : MountinfoInput) : Prop extends input.toInput.Ok where
  not_malformed : ¬ Malformed input.content

def Mountinfo.ofParser (parser : Procfs.Mountinfo) : Mountinfo :=
  ⟨parser.changed, parser.parsedLines.map MountinfoLine.ofParsed⟩

def ProcDiskstatsMetrics.readsMountinfo (pdsm : ProcDiskstatsMetrics) (curr : Diskstats) : Bool :=
  !pdsm.mountinfoDisabled &&
    (pdsm.procMountinfo.isNone || pdsm.mountinfoCycleNum == 0 || curr.changed)

/-- `Execute`, with the parser of mountinfo; `none` also when that reads behind the content. -/
def executeMountinfo (cfg : Config) (s : MountinfoState) (input : MountinfoInput) :
    Option (Out × MountinfoState) :=
  match (s.gen.currProcDiskstats cfg).parseBuf input.buf with
  | .error _ => none
  | .ok curr =>
    if s.gen.readsMountinfo curr then
      match s.parser.parseBuf input.content with
      | none => none
      | some (parser, err) =>
        let mountinfo := if err.isNone then some (Mountinfo.ofParser parser) else none
        (execute cfg s.gen { input.scan with mountinfo }).map fun r => (r.1, ⟨r.2, parser⟩)
    else
      let parser := if s.gen.mountinfoDisabled then s.parser else { s.parser with changed := false }
      (execute cfg s.gen input.scan).map fun r => (r.1, ⟨r.2, parser⟩)

structure ParserOk (parser : Procfs.Mountinfo) : Prop where
  forceUpdate_eq : parser.forceUpdate = false
  lines_eq : parser.parsedLines.map MountinfoLine.ofParsed = mountinfoLines parser.content

theorem ParserOk.parse {parser : Procfs.Mountinfo} (h : ParserOk parser) {content : Bytes}
    (hcontent : ¬ Malformed content) :
    ∃ parser', parser.parseBuf content = some (parser', none) ∧ ParserOk parser' ∧
      parser'.content = content ∧ parser'.changed = (parser.content != content) := by
  obtain ⟨old, changed, forceUpdate, kept⟩ := parser
  obtain ⟨hforce, hlines⟩ := h
  cases hforce
  unfold Procfs.Mountinfo.parseBuf
  simp only [Bool.false_or]
  by_cases hsame : kept = content
  · cases hsame
    simp only [bne_self_eq_false, Bool.false_eq_true, if_false]
    exact ⟨_, rfl, ⟨rfl, hlines⟩, rfl, rfl⟩
  have hchanged : (kept != content) := bne_iff_ne.mpr hsame
  simp only [hchanged, if_true]
  rcases Procfs.Mountinfo.update_cases ⟨old, true, false, content⟩ with
    ⟨hrejected, -⟩ | ⟨hout, -⟩ | ⟨-, parsedLines, hupdate, hmalformed | hdescribes⟩
  · exact absurd hrejected.malformed hcontent
  · exact absurd hout.malformed hcontent
  · exact absurd hmalformed hcontent
  · refine ⟨_, hupdate, ⟨rfl, ?_⟩, rfl, rfl⟩
    exact map_ofParsed_of_describes hdescribes

/-! ## A call -/

variable {prev : Diskstats} {pdsm : ProcDiskstatsMetrics} {infos : MetricsInfoMap}

section

variable {cfg : Config} {s : MountinfoState} {input : MountinfoInput} {curr : Diskstats}
  {mountinfo : Mountinfo}

open ProcDiskstatsMetrics

theorem parseMountinfo_eq {gen : ProcDiskstatsMetrics} (scan : Scan)
    (henabled : gen.mountinfoDisabled = false)
    (hreads : gen.readsMountinfo curr → scan.mountinfo = some mountinfo)
    (hkeeps : gen.readsMountinfo curr = false →
      gen.procMountinfo.map (fun old => { old with changed := false }) = some mountinfo) :
    gen.parseMountinfo scan curr = { gen with procMountinfo := some mountinfo } := by
  unfold readsMountinfo at hreads hkeeps
  unfold parseMountinfo
  simp only [henabled, Bool.not_false, Bool.true_and, Bool.false_eq_true, if_false] at hreads hkeeps ⊢
  cases hproc : gen.procMountinfo with
  | none =>
    rw [hproc] at hreads
    simp only [hreads rfl]
  | some old =>
    rw [hproc] at hreads hkeeps
    simp only [Option.isNone_some, Bool.false_or, Option.map_some, Option.some.injEq] at hreads hkeeps
    cases hcond : gen.mountinfoCycleNum == 0 || curr.changed with
    | true => simp only [hreads hcond, if_true]
    | false => simp [hkeeps hcond]

def lastContent (s : MountinfoState) (input : MountinfoInput) (curr : Diskstats) : Bytes :=
  if s.gen.readsMountinfo curr then input.content else s.parser.content

def changesContent (s : MountinfoState) (input : MountinfoInput) (curr : Diskstats) : Bool :=
  s.gen.readsMountinfo curr && s.parser.content != input.content

theorem lastContent_of_not_changes (h : changesContent s input curr = false) :
    lastContent s input curr = s.parser.content := by
  unfold changesContent at h
  unfold lastContent
  cases hreads : s.gen.readsMountinfo curr with
  | true =>
    rw [hreads, Bool.true_and] at h
    exact (bne_eq_false_iff_eq.mp h).symm
  | false => rfl

def generatorOf (s : MountinfoState) (input : MountinfoInput) (curr : Diskstats) :
    ProcDiskstatsMetrics :=
  { s.gen with
    procMountinfo := some ⟨changesContent s input curr, mountinfoLines (lastContent s input curr)⟩
    currTs := input.scan.timeNow }

theorem executeMountinfo_eq (hin : input.Ok) (hparser : ParserOk s.parser)
    (henabled : s.gen.mountinfoDisabled = false)
    (hlines : ∀ mountinfo, s.gen.procMountinfo = some mountinfo →
      mountinfo.parsedLines = mountinfoLines s.parser.content)
    (hparse : (s.gen.currProcDiskstats cfg).parseBuf input.buf = .ok curr) :
    ∃ parser' scan, ParserOk parser' ∧ parser'.content = lastContent s input curr ∧
      scan.order = input.scan.order ∧
      executeMountinfo cfg s input =
        some ((generateMetrics cfg scan (generatorOf s input curr) curr).1,
          ⟨(generateMetrics cfg scan (generatorOf s input curr) curr).2, parser'⟩) := by
  unfold executeMountinfo generatorOf lastContent changesContent
  rw [hparse]
  cases hreads : s.gen.readsMountinfo curr with
  | true =>
    obtain ⟨parser', hparsed, hok, hcontent, hchanged⟩ := hparser.parse hin.not_malformed
    let scan := { input.scan with mountinfo := some (.ofParser parser') }
    have hgen : s.gen.parseMountinfo scan curr = _ := parseMountinfo_eq scan henabled (fun _ => rfl)
      (fun h => absurd (hreads.symm.trans h) (by decide))
    have hexec := execute_of_parse scan hin.diskstats_eq hparse
    rw [hgen, Mountinfo.ofParser, hchanged, hok.lines_eq, hcontent] at hexec
    refine ⟨parser', scan, hok, hcontent, rfl, ?_⟩
    simp only [hreads, if_true, hparsed, Option.isNone_none]
    rw [hexec]
    rfl
  | false =>
    have hkeeps : s.gen.procMountinfo.map (fun old => { old with changed := false }) =
        some ⟨false, mountinfoLines s.parser.content⟩ := by
      cases hproc : s.gen.procMountinfo with
      | none =>
        unfold readsMountinfo at hreads
        simp [hproc, henabled] at hreads
      | some mountinfo => rw [Option.map_some, hlines mountinfo hproc]
    have hgen := parseMountinfo_eq input.scan henabled
      (fun h => absurd (hreads.symm.trans h) (by decide)) (fun _ => hkeeps)
    have hexec := execute_of_parse input.scan hin.diskstats_eq hparse
    rw [hgen, henabled] at hexec
    refine ⟨{ s.parser with changed := false }, input.scan,
      ⟨hparser.forceUpdate_eq, hparser.lines_eq⟩, rfl, rfl, ?_⟩
    simp only [hreads, Bool.false_eq_true, if_false, henabled]
    rw [hexec]
    rfl

/-! ## The samples of a call -/

def cacheAfter (cache : Option (List MountinfoLine)) (curr : Diskstats) (mountinfo : Mountinfo) :
    List MountinfoLine × List MountinfoLine :=
  if mountinfo.changed = true ∨ cache = none then
    updateMountinfoMetricsCache (cache.getD []) curr mountinfo
  else (cache.getD [], [])

theorem mem_cacheAfter (cache : Option (List MountinfoLine)) (curr : Diskstats)
    (mountinfo : Mountinfo) (line : MountinfoLine) :
    line ∈ (cacheAfter cache curr mountinfo).1 ↔
      if mountinfo.changed = true ∨ cache = none then
        line ∈ mountinfo.parsedLines ∧ (curr.devInfoMap.lookup line.majorMinor).isSome
      else line ∈ cache.getD [] := by
  unfold cacheAfter
  split <;> simp [updateMountinfoMetricsCache]

theorem mem_cacheAfter_gone (cache : Option (List MountinfoLine)) (curr : Diskstats)
    (mountinfo : Mountinfo) (line : MountinfoLine) :
    line ∈ (cacheAfter cache curr mountinfo).2 ↔
      line ∈ cache.getD [] ∧ line ∉ (cacheAfter cache curr mountinfo).1 := by
  unfold cacheAfter
  split
  · simp only [updateMountinfoMetricsCache, mem_filter (p := fun line => decide (line ∉ _)),
      mem_dedup, decide_eq_true_eq]
  · simp

theorem mountinfoPart_eq (cfg : Config) (ts : Int) (curr : Diskstats) (out : Out)
    (henabled : pdsm.mountinfoDisabled = false) (hmountinfo : pdsm.procMountinfo = some mountinfo) :
    (mountinfoPart cfg ts curr pdsm out).1.buf = out.buf ++
      mountinfoSamples ts (cacheAfter pdsm.mountinfoMetricsCache curr mountinfo).2 false ++
      (if mountinfo.changed || pdsm.mountinfoCycleNum == 0 then
        mountinfoSamples ts (cacheAfter pdsm.mountinfoMetricsCache curr mountinfo).1 true else []) ∧
    (mountinfoPart cfg ts curr pdsm out).2 =
      { pdsm with
        mountinfoMetricsCache := some (cacheAfter pdsm.mountinfoMetricsCache curr mountinfo).1
        mountinfoCycleNum := nextCycleNum pdsm.mountinfoCycleNum cfg.fullMetricsFactor } := by
  obtain ⟨changed, parsedLines⟩ := mountinfo
  unfold mountinfoPart cacheAfter
  simp only [henabled, hmountinfo, Bool.false_eq_true, if_false, Option.getD_some]
  cases changed <;> cases pdsm.mountinfoMetricsCache <;>
    cases pdsm.mountinfoCycleNum == 0 <;> simp [Output.emit, Output.count]

theorem lastPublished_mountinfoSamples (ts : Int) (ls : List MountinfoLine) (on : Bool)
    (line : MountinfoLine) :
    lastPublished (mountinfoSamples ts ls on) .mountinfo line.labels =
      if line ∈ ls then some (.flag on) else none := by
  split
  · rename_i hmem
    refine lastPublished_eq_some ⟨_, mem_map_of_mem hmem, rfl, rfl⟩ ?_
    intro s hs _ _
    obtain ⟨line', -, rfl⟩ := mem_map.mp hs
    rfl
  · rename_i hmem
    apply lastPublished_eq_none
    intro s hs _ hlabels
    obtain ⟨line', hline', rfl⟩ := mem_map.mp hs
    rw [labels_injective hlabels] at hline'
    exact hmem hline'

/-- A call after the first one: what it publishes for the mountinfo metrics, and what it leaves. -/
structure MountinfoHandled (pdsm : ProcDiskstatsMetrics) (curr prev : Diskstats)
    (mountinfo : Mountinfo) (out : Out) (pdsm' : ProcDiskstatsMetrics) : Prop where
  curr_eq : pdsm'.curr = some prev
  prev_eq : ∃ infos, pdsm'.prev = some (cleanUp infos curr)
  procMountinfo_eq : pdsm'.procMountinfo = some mountinfo
  enabled : pdsm'.mountinfoDisabled = false
  cache_eq : pdsm'.mountinfoMetricsCache =
    some (cacheAfter pdsm.mountinfoMetricsCache curr mountinfo).1
  published : ∀ line : MountinfoLine, lastPublished out.buf .mountinfo line.labels =
    (if (mountinfo.changed = true ∨ pdsm.mountinfoCycleNum = 0) ∧
        line ∈ (cacheAfter pdsm.mountinfoMetricsCache curr mountinfo).1 then some (.flag true)
      else none).or
    (if line ∈ (cacheAfter pdsm.mountinfoMetricsCache curr mountinfo).2 then some (.flag false)
      else none)

theorem generateMetrics_mountinfo (cfg : Config) {scan : Scan} (hprev : pdsm.prev = some prev)
    (hnodup : scan.order.Nodup) (henabled : pdsm.mountinfoDisabled = false)
    (hmountinfo : pdsm.procMountinfo = some mountinfo) :
    MountinfoHandled pdsm curr prev mountinfo (generateMetrics cfg scan pdsm curr).1
      (generateMetrics cfg scan pdsm curr).2 := by
  obtain ⟨out, infos, hout, -, hgen⟩ := generateMetrics_loop cfg hnodup hprev
  have hloop : ∀ labels, lastPublished out.buf .mountinfo labels = none := by
    intro labels
    apply lastPublished_eq_none
    intro sample hsample hmetric
    rw [hout] at hsample
    obtain ⟨majMin, -, hmem⟩ := mem_flatMap.mp hsample
    exact absurd hmetric (diskSamples_spec hmem).2.1
  obtain ⟨hbuf, hpdsm⟩ := mountinfoPart_eq cfg _ curr out henabled hmountinfo
  rw [hgen, hpdsm]
  refine ⟨hprev, ⟨_, rfl⟩, hmountinfo, henabled, rfl, fun line => ?_⟩
  have hinterval (sample : DiskSample) (h : sample.metric = .interval) :
      lastPublished [sample] .mountinfo line.labels = none := lastPublished_eq_none (by simp [h])
  show lastPublished ((mountinfoPart cfg _ curr pdsm out).1.buf ++ [_]) _ _ = _
  rw [lastPublished_append, hinterval _ rfl, hbuf, lastPublished_append, lastPublished_append, hloop,
    lastPublished_mountinfoSamples, Option.none_or, Option.or_none]
  congr 1
  by_cases hon : mountinfo.changed = true ∨ pdsm.mountinfoCycleNum = 0
  · rw [if_pos (by simpa using hon), lastPublished_mountinfoSamples]
    simp only [hon, true_and]
  · rw [if_neg (by simpa using hon)]
    simp only [hon, false_and, if_false]
    rfl

/-- A metric that is in the cache is turned on where the cache is published, and one that leaves it is
turned off. -/
theorem last_on_iff {publishes cached gone old : Prop} [Decidable (publishes ∧ cached)]
    [Decidable gone] {last : Option SampleValue} (hgone : gone ↔ old ∧ ¬ cached)
    (hold : last = some (.flag true) ↔ old) :
    ((if publishes ∧ cached then some (.flag true) else none).or
        (if gone then some (.flag false) else none)).or last = some (.flag true) ↔
      cached ∧ (publishes ∨ old) := by
  by_cases hcached : cached
  · have hkept : ¬ gone := fun h => (hgone.mp h).2 hcached
    by_cases hpublishes : publishes
    · simp [hcached, hpublishes]
    · simp [hcached, hpublishes, hkept, hold]
  · by_cases hout : gone
    · simp [hcached, hout]
    · have hnever : ¬ old := fun h => hout (hgone.mpr ⟨h, hcached⟩)
      simp [hcached, hout, hold, hnever]

theorem cleanUp_ok (h : curr.Ok) : (cleanUp infos curr).Ok := by
  unfold cleanUp
  split
  · intro k devInfo hlookup
    exact h k devInfo (lookup_filterMapEntries_ite.mp hlookup).1
  · exact h

end

/-! ## Runs -/

abbrev PublishedMountinfo := Published MountinfoState DiskMetric (List Bytes)

def publishMountinfo (cfg : Config) (p : PublishedMountinfo) (input : MountinfoInput) :
    Option PublishedMountinfo :=
  publish (executeMountinfo cfg) p input

def PublishedMountinfo.On (p : PublishedMountinfo) (line : MountinfoLine) : Prop :=
  lastPublished p.samples .mountinfo line.labels = some (.flag true)

/-- The call succeeds, and after it, if it is not the first one, the metrics that are 1 are those of
the lines of the last content read whose disk is one of the current diskstats. -/
def MountsAreCurrent (cfg : Config) (p : PublishedMountinfo) (input : MountinfoInput) : Prop :=
  ∃ p', publishMountinfo cfg p input = some p' ∧ (p.state.gen.prev ≠ none → ∀ line,
    p'.On line ↔ line ∈ mountinfoLines p'.state.parser.content ∧ line.majorMinor ∈ disks input.lines)

/-- A call after the first one
* reads a mountinfo content that differs from the last one read, or
* is the first one to fill the cache, with the cycle at its start, or
* finds that the lines of the last content whose disk is present are those in the cache. -/
def MountinfoFits (cfg : Config) (p : PublishedMountinfo) (input : MountinfoInput) : Prop :=
  p.state.gen.prev ≠ none → ∀ curr, (p.state.gen.currProcDiskstats cfg).parseBuf input.buf = .ok curr →
    changesContent p.state input curr = true ∨
    p.state.gen.mountinfoMetricsCache = none ∧ p.state.gen.mountinfoCycleNum = 0 ∨
    ∀ line ∈ mountinfoLines p.state.parser.content,
      line ∈ p.state.gen.mountinfoMetricsCache.getD [] ↔ line.majorMinor ∈ disks input.lines

structure MountinfoInv (p : PublishedMountinfo) : Prop where
  slots_ok : ∀ diskstats, p.state.gen.curr = some diskstats ∨ p.state.gen.prev = some diskstats →
    diskstats.Ok
  enabled : p.state.gen.mountinfoDisabled = false
  parser_ok : ParserOk p.state.parser
  lines_eq : ∀ mountinfo, p.state.gen.procMountinfo = some mountinfo →
    mountinfo.parsedLines = mountinfoLines p.state.parser.content
  first : p.state.gen.prev = none → p.state.gen.mountinfoMetricsCache = none
  on_iff : ∀ line, p.On line ↔ line ∈ p.state.gen.mountinfoMetricsCache.getD []
  cache_sub : ∀ line ∈ p.state.gen.mountinfoMetricsCache.getD [],
    line ∈ mountinfoLines p.state.parser.content

theorem unpublished_mountinfoInv (mountinfoCycleNum : Int) :
    MountinfoInv (unpublished (newMountinfoState mountinfoCycleNum)) where
  slots_ok := fun diskstats h => by rcases h with h | h <;> cases h
  enabled := rfl
  parser_ok := ⟨rfl, rfl⟩
  lines_eq := fun mountinfo h => by cases h
  first := fun _ => rfl
  on_iff := fun line => iff_of_false (fun h => by cases h) (not_mem_nil)
  cache_sub := fun line h => by cases h

section

variable {cfg : Config} {p p' : PublishedMountinfo} {input : MountinfoInput}

theorem MountinfoInv.parse (h : MountinfoInv p) (cfg : Config) (hin : input.Ok) :
    ∃ curr, (p.state.gen.currProcDiskstats cfg).parseBuf input.buf = .ok curr ∧ curr.Ok ∧
      ∀ k, (curr.devInfoMap.lookup k).isSome ↔ k ∈ disks input.lines := by
  have hobj : (p.state.gen.currProcDiskstats cfg).Ok := by
    unfold ProcDiskstatsMetrics.currProcDiskstats
    split
    · rename_i curr hcurr
      exact h.slots_ok curr (.inl hcurr)
    · rename_i prev hcurr hprev
      exact (h.slots_ok prev (.inr hprev)).clone
    · exact Diskstats.newDiskstats_ok _
  obtain ⟨curr, hparse, hok, -, hmem, -⟩ := Diskstats.parseBuf_wellFormed hobj hin.wellFormed
  refine ⟨curr, hparse, hok, fun k => ?_⟩
  rw [Finmap.lookup_isSome, hmem, disks, mem_toFinset]

theorem MountinfoInv.firstCall (h : MountinfoInv p) (cfg : Config) (hin : input.Ok)
    (hprev : p.state.gen.prev = none) :
    ∃ p', publishMountinfo cfg p input = some p' ∧ MountinfoInv p' := by
  obtain ⟨curr, hparse, hok, -⟩ := h.parse cfg hin
  obtain ⟨parser', scan, hparser, hcontent, -, hexec⟩ :=
    executeMountinfo_eq hin h.parser_ok h.enabled h.lines_eq hparse
  have hgen : (generatorOf p.state input curr).prev = none := hprev
  simp only [generateMetrics, hgen] at hexec
  refine ⟨_, by rw [publishMountinfo, publish, hexec]; rfl, ?_⟩
  have hcache := h.first hprev
  refine ⟨?_, h.enabled, hparser, ?_, ?_, ?_, ?_⟩
  · intro diskstats hslot
    rcases hslot with hslot | hslot
    · cases hslot
    · cases hslot
      exact hok
  · intro mountinfo hmountinfo
    cases hmountinfo
    rw [hcontent]
  · intro _
    exact hcache
  · intro line
    show lastPublished (p.samples ++ []) _ _ = _ ↔ _
    rw [List.append_nil]
    exact h.on_iff line
  · intro line hline
    change line ∈ p.state.gen.mountinfoMetricsCache.getD [] at hline
    rw [hcache] at hline
    cases hline

/-- What a later call leaves: a metric is 1 if it is in the cache and has been published, now or
before. -/
theorem MountinfoInv.laterCall (h : MountinfoInv p) (hin : input.Ok) {curr : Diskstats}
    (hparse : (p.state.gen.currProcDiskstats cfg).parseBuf input.buf = .ok curr)
    (hprev : p.state.gen.prev = some prev) :
    let mountinfo : Mountinfo := ⟨changesContent p.state input curr,
      mountinfoLines (lastContent p.state input curr)⟩
    let cache := (cacheAfter p.state.gen.mountinfoMetricsCache curr mountinfo).1
    ∃ p' out, publishMountinfo cfg p input = some p' ∧ ParserOk p'.state.parser ∧
      p'.state.parser.content = lastContent p.state input curr ∧
      MountinfoHandled (generatorOf p.state input curr) curr prev mountinfo out p'.state.gen ∧
      ∀ line, p'.On line ↔ line ∈ cache ∧ (mountinfo.changed = true ∨
        p.state.gen.mountinfoCycleNum = 0 ∨ line ∈ p.state.gen.mountinfoMetricsCache.getD []) := by
  intro mountinfo cache
  obtain ⟨parser', scan, hparser, hcontent, horder, hexec⟩ :=
    executeMountinfo_eq hin h.parser_ok h.enabled h.lines_eq hparse
  have hnodup : scan.order.Nodup := horder ▸ hin.order_perm.nodup_iff.mpr hin.wellFormed.nodup
  have hhandled : MountinfoHandled (generatorOf p.state input curr) curr prev mountinfo _ _ :=
    generateMetrics_mountinfo cfg hprev hnodup h.enabled rfl
  refine ⟨_, _, by rw [publishMountinfo, publish, hexec]; rfl, hparser, hcontent, hhandled, ?_⟩
  intro line
  show lastPublished (p.samples ++ _) _ _ = _ ↔ _
  rw [lastPublished_append, hhandled.published line]
  have hgone := mem_cacheAfter_gone p.state.gen.mountinfoMetricsCache curr mountinfo line
  have hold : lastPublished p.samples .mountinfo line.labels = some (.flag true) ↔
      line ∈ p.state.gen.mountinfoMetricsCache.getD [] := h.on_iff line
  exact (last_on_iff hgone hold).trans (and_congr_right fun _ => or_assoc)

theorem MountinfoInv.current_iff (h : MountinfoInv p) (hin : input.Ok) :
    MountsAreCurrent cfg p input ↔ MountinfoFits cfg p input := by
  cases hprev : p.state.gen.prev with
  | none =>
    obtain ⟨p', hp', -⟩ := h.firstCall cfg hin hprev
    exact iff_of_true ⟨p', hp', fun hne => absurd hprev hne⟩ fun hne => absurd hprev hne
  | some prev =>
    obtain ⟨curr, hparse, -, hdisks⟩ := h.parse cfg hin
    obtain ⟨p', out, hp', -, hcontent, -, hon⟩ := h.laterCall hin hparse hprev
    have hcurrent : MountsAreCurrent cfg p input ↔ ∀ line, p'.On line ↔
        line ∈ mountinfoLines (lastContent p.state input curr) ∧
          line.majorMinor ∈ disks input.lines := by
      unfold MountsAreCurrent
      simp [hp', hprev, hcontent]
    have hfits : MountinfoFits cfg p input ↔ changesContent p.state input curr = true ∨
        p.state.gen.mountinfoMetricsCache = none ∧ p.state.gen.mountinfoCycleNum = 0 ∨
        ∀ line ∈ mountinfoLines p.state.parser.content,
          line ∈ p.state.gen.mountinfoMetricsCache.getD [] ↔
            line.majorMinor ∈ disks input.lines := by
      unfold MountinfoFits
      simp [hparse, hprev]
    rw [hcurrent, hfits]
    simp only [hon, mem_cacheAfter, hdisks]
    cases hchanges : changesContent p.state input curr with
    | true => simp
    | false =>
      rw [lastContent_of_not_changes hchanges]
      cases hcache : p.state.gen.mountinfoMetricsCache with
      | none =>
        simp only [Bool.false_eq_true, or_true, if_true, false_or, Option.getD_none,
          not_mem_nil, or_false, false_iff, true_and]
        constructor
        · intro hlines
          refine or_iff_not_imp_left.mpr fun hcycle line hline hdisk => hcycle ?_
          exact ((hlines line).mpr ⟨hline, hdisk⟩).2
        · rintro (hcycle | hnone) line
          · simp [hcycle]
          · have hline : ¬ (line ∈ mountinfoLines p.state.parser.content ∧ _) := fun h =>
              hnone line h.1 h.2
            simp only [hline, false_and]
      | some cache =>
        have hsub := h.cache_sub
        rw [hcache] at hsub
        simp only [Bool.false_eq_true, reduceCtorEq, or_self, if_false, false_or, false_and,
          Option.getD_some] at hsub ⊢
        refine forall_congr' fun line => ?_
        have hcached : line ∈ cache ∧ (p.state.gen.mountinfoCycleNum = 0 ∨ line ∈ cache) ↔
            line ∈ cache := and_iff_left_of_imp .inr
        rw [hcached]
        constructor
        · intro hiff hline
          rw [hiff, and_iff_right hline]
        · intro hiff
          refine ⟨fun hline => ⟨hsub line hline, (hiff (hsub line hline)).mp hline⟩, ?_⟩
          exact fun hline => (hiff hline.1).mpr hline.2

theorem MountinfoInv.step (h : MountinfoInv p) (hin : input.Ok) (hfits : MountinfoFits cfg p input)
    (hstep : publishMountinfo cfg p input = some p') : MountinfoInv p' := by
  cases hprev : p.state.gen.prev with
  | none =>
    obtain ⟨p'', hp'', hinv⟩ := h.firstCall cfg hin hprev
    rw [hstep] at hp''
    cases hp''
    exact hinv
  | some prev =>
    obtain ⟨curr, hparse, hok, hdisks⟩ := h.parse cfg hin
    obtain ⟨p'', out, hp'', hparser, hcontent, hhandled, hon⟩ := h.laterCall hin hparse hprev
    rw [hstep] at hp''
    cases hp''
    have hfits := hfits (by simp [hprev]) curr hparse
    obtain ⟨infos, hinfos⟩ := hhandled.prev_eq
    refine ⟨?_, hhandled.enabled, hparser, ?_, ?_, ?_, ?_⟩
    · intro diskstats hslot
      rw [hhandled.curr_eq, hinfos] at hslot
      rcases hslot with hslot | hslot
      · cases hslot
        exact h.slots_ok prev (.inr hprev)
      · cases hslot
        exact cleanUp_ok hok
    · intro mountinfo hmountinfo
      rw [hhandled.procMountinfo_eq] at hmountinfo
      cases hmountinfo
      rw [hcontent]
    · intro hnone
      rw [hinfos] at hnone
      cases hnone
    · intro line
      rw [hhandled.cache_eq, Option.getD_some, hon]
      refine and_iff_left_of_imp fun hline => ?_
      -- only a first cache that is not published may have something in it that is not 1
      have hline := (mem_cacheAfter _ _ _ _).mp hline
      change if changesContent p.state input curr = true ∨ p.state.gen.mountinfoMetricsCache = none
        then _ else _ at hline
      rcases hfits with hchanges | hstart | hcached
      · exact .inl hchanges
      · exact .inr (.inl hstart.2)
      cases hchanges : changesContent p.state input curr with
      | true => exact .inl rfl
      | false =>
        right; right
        split at hline
        · change line ∈ mountinfoLines (lastContent p.state input curr) ∧ _ at hline
          rw [lastContent_of_not_changes hchanges, hdisks] at hline
          exact (hcached line hline.1).mpr hline.2
        · exact hline
    · intro line hline
      rw [hhandled.cache_eq, Option.getD_some] at hline
      have hline := (mem_cacheAfter _ _ _ _).mp hline
      rw [hcontent]
      split at hline
      · exact hline.1
      rename_i hkept
      change ¬ (changesContent p.state input curr = true ∨ _) at hkept
      rw [not_or, Bool.not_eq_true] at hkept
      rw [lastContent_of_not_changes hkept.1]
      exact h.cache_sub line hline

end

/-- In a run over any well-formed contents, the mountinfo metrics that are 1 are always those of the
lines of the last content whose disk is present, from the second call on, if and only if every call
fits the cache that it finds. -/
theorem mountsAreCurrent_iff_fits (cfg : Config) (mountinfoCycleNum : Int)
    {inputs : List MountinfoInput} (hok : ∀ input ∈ inputs, input.Ok) :
    Always (fun p input p' => publishMountinfo cfg p input = some p') (MountsAreCurrent cfg)
        (unpublished (newMountinfoState mountinfoCycleNum)) inputs ↔
      Always (fun p input p' => publishMountinfo cfg p input = some p') (MountinfoFits cfg)
        (unpublished (newMountinfoState mountinfoCycleNum)) inputs :=
  Always.iff_of_invariant (fun _ _ hinv hin => hinv.current_iff hin)
    (fun _ _ _ hinv hin hfits hstep => hinv.step hin hfits hstep)
    (unpublished_mountinfoInv mountinfoCycleNum) (Always.of_forall_mem hok _)

def mountedDisk : MountinfoInput :=
  { Input.ofLines 0 [sdLine 48 49] with
    content := utf8 "36 35 8:0 / /mnt rw - ext4 /dev/sda rw\n" }

theorem mountedDisk_ok : mountedDisk.Ok where
  toOk := Input.ofLines_ok (by decide) (by decide +kernel) (by decide)
  not_malformed := by decide +kernel

/-- A cycle that starts at 0 publishes the cache when it is filled. -/
theorem mountsAreCurrent_cycle_start :
    Always (fun p input p' => publishMountinfo plainConfig p input = some p')
      (MountsAreCurrent plainConfig) (unpublished (newMountinfoState 0)) [mountedDisk, mountedDisk] := by
  refine (mountsAreCurrent_iff_fits plainConfig 0 ?_).mpr ?_
  · intro input hinput
    simp only [mem_cons, not_mem_nil, or_false, or_self] at hinput
    exact hinput ▸ mountedDisk_ok
  · refine Always.of_checkRun (fun p _ => p.state.gen.mountinfoMetricsCache = none ∧
      p.state.gen.mountinfoCycleNum = 0) ?_ (by decide +kernel)
    exact fun p input htest _ curr _ => .inr (.inl (of_decide_eq_true htest))

/-- With a cycle that starts at 1, the second call fills the cache and publishes nothing. -/
theorem mount_not_published : ¬ ∀ (cfg : Config) (mountinfoCycleNum : Int)
    (inputs : List MountinfoInput), (∀ input ∈ inputs, input.Ok) →
    Always (fun p input p' => publishMountinfo cfg p input = some p') (MountsAreCurrent cfg)
      (unpublished (newMountinfoState mountinfoCycleNum)) inputs := by
  intro h
  have hrun := h plainConfig 1 [mountedDisk, mountedDisk] (by
    intro input hinput
    simp only [mem_cons, not_mem_nil, or_false, or_self] at hinput
    exact hinput ▸ mountedDisk_ok)
  obtain ⟨⟨p₁, hp₁, -⟩, hrest⟩ := hrun
  obtain ⟨⟨p₂, hp₂, hcurrent⟩, -⟩ := hrest p₁ hp₁
  let line := ofLine (utf8 "36 35 8:0 / /mnt rw - ext4 /dev/sda rw")
  have heval : ([mountedDisk, mountedDisk].foldlM (publishMountinfo plainConfig)
      (unpublished (newMountinfoState 1))).map (fun p =>
        (lastPublished p.samples .mountinfo line.labels, p.state.parser.content)) =
      some (none, mountedDisk.content) := by
    decide +kernel
  have hprev : ((publishMountinfo plainConfig (unpublished (newMountinfoState 1)) mountedDisk).map
      fun p => p.state.gen.prev.isSome) = some true := by
    decide +kernel
  rw [hp₁, Option.map_some, Option.some_inj] at hprev
  simp only [foldlM_cons, foldlM_nil, hp₁, hp₂, Option.bind_eq_bind, Option.bind_some,
    Option.pure_def, Option.map_some, Option.some.injEq, Prod.mk.injEq] at heval
  have hon := (hcurrent (Option.isSome_iff_ne_none.mp hprev) line).mpr (by
    rw [heval.2]
    decide +kernel)
  unfold PublishedMountinfo.On at hon
  rw [heval.1] at hon
  cases hon

end Lsvmi.DiskstatsMetrics
