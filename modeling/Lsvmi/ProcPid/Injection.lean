import Lsvmi.ProcPid.LineExact
import Lsvmi.ProcPid.Runs

/-!
# When lines say something else

The instance and the hostname become part of a format, and neither they nor the comm are escaped.
So a percent sign in one of the former is taken for a directive, and a double quote, a backslash or
a newline in any of them ends or changes the value of a label.
-/

namespace Lsvmi.ProcPid

open Reasoning List Exposition Fprintf

theorem head_escape {v : Bytes} : (escape v).head? = some bang ↔
    v.head? = some bang := by
  cases v with
  | nil => rfl
  | cons c v =>
    rw [escape_cons, escapeByte]
    split_ifs with hbackslash hquote hnewline
    · subst c
      exact iff_of_false (by simp [backslash, bang]) (by simp [backslash, bang])
    · subst c
      exact iff_of_false (by simp [backslash, bang]) (by simp [quote, bang])
    · subst c
      exact iff_of_false (by simp [backslash, bang]) (by simp [newline, bang])
    · rfl

theorem bare_escape (v : Bytes) : bare (escape v) = bare v := by
  induction v with
  | nil => rfl
  | cons c v ih =>
    by_cases hc : c = percent
    · subst hc
      have hescape : escapeByte percent = [percent] := by decide
      rw [escape_cons, hescape, singleton_append, bare, bare, ih]
      simp only [ne_eq, head_escape]
    have hbyte : percent ∉ escapeByte c := by
      unfold escapeByte
      split_ifs
      · decide
      · decide
      · decide
      · simpa using Ne.symm hc
    rw [escape_cons, bare_append_of_zero (bare_eq_zero hbyte), ih, bare_cons hc]

theorem bare_append_quote (f g : Bytes) : bare (f ++ 34 :: g) = bare f + bare g := by
  have hbang : (34 : UInt8) ≠ bang := by decide
  have hhead : (34 :: g).head? ≠ some bang := fun h => hbang (Option.some.inj h)
  rw [bare_append hhead, bare_cons (by decide)]

section

variable {w : Writer}

theorem bare_ite {b other : Bytes} (hb : percent ∉ b) (hother : bare other = 0)
    (c : Prop) [Decidable c] : bare (if c then b else other) = 0 := by
  split
  · exact bare_eq_zero hb
  · exact hother

theorem calm_args {labels value ts : Bytes} (hlabels : percent ∉ labels)
    (hvalue : percent ∉ value) (hts : percent ∉ ts) :
    Calm w.printer [.string labels, .bytes value, .bytes ts] := by
  have hstring : percent ∉ utf8 "string" := by decide
  have hbytes : percent ∉ utf8 "[]uint8" := by decide
  -- `%s` prints an argument as it is; for any other verb there is the law of the printer.
  intro a ha
  simp only [mem_cons, not_mem_nil, or_false] at ha
  obtain rfl | rfl | rfl := ha
  · exact ⟨hstring, fun spec verb =>
      bare_ite hlabels (w.verbs.string_marked spec verb labels hlabels) _⟩
  · exact ⟨hbytes, fun spec verb =>
      bare_ite hvalue (w.verbs.bytes_marked spec verb value hvalue) _⟩
  · exact ⟨hbytes, fun spec verb =>
      bare_ite hts (w.verbs.bytes_marked spec verb ts hts) _⟩

def plainEnd : Bytes := utf8 ",%s\x7d %s %s\n"

variable {args : List FmtArg}

section

variable (hcalm : Calm w.printer args)
include hcalm

theorem printRest_plainEnd (argNum : Nat) (reordered : Bool) :
    ∃ o argNum', printRest w.printer args plainEnd argNum reordered =
      o ++ printRest w.printer args [37, 115, 10] argNum' reordered ∧
        bare o = 0 ∧ (0 < argNum → args.length = 3 → 3 ≤ argNum') := by
  -- The labels, and then the value.
  obtain ⟨o₁, n₁, h₁, ho₁, hle₁, hlt₁⟩ := printRest_verb (q := 115) hcalm (by decide)
    [125, 32, 37, 115, 32, 37, 115, 10] argNum reordered
  obtain ⟨o₂, n₂, h₂, ho₂, hle₂, hlt₂⟩ := printRest_verb (q := 115) hcalm (by decide)
    [32, 37, 115, 10] n₁ reordered
  refine ⟨44 :: (o₁ ++ 125 :: 32 :: (o₂ ++ [32])), n₂, ?_, ?_, ?_⟩
  · have hformat : plainEnd = 44 :: percent :: 115 ::
        [125, 32, 37, 115, 32, 37, 115, 10] := by decide
    rw [hformat, printRest_cons (by decide), h₁, printRest_cons (by decide),
      printRest_cons (by decide)]
    change 44 :: (o₁ ++ 125 :: 32 :: printRest w.printer args
      (percent :: 115 :: [32, 37, 115, 10]) n₁ reordered) = _
    rw [h₂, printRest_cons (by decide)]
    simp
  · rw [bare_cons (by decide), bare_append_of_zero ho₁,
      bare_cons (by decide), bare_cons (by decide), bare_append_of_zero ho₂]
    rfl
  · omega

theorem fixedEnd_plainEnd :
    FixedEnd w.printer args 34 plainEnd where
  stop := by decide
  ne_bang := by decide
  no_bracket := by decide
  last := by decide
  printed argNum reordered := by
    obtain ⟨o, argNum', hprint, ho, -⟩ := printRest_plainEnd hcalm argNum reordered
    obtain ⟨o₃, n₃, h₃, ho₃, -⟩ := printRest_verb (q := 115) hcalm (by decide) [10]
      argNum' reordered
    rw [hprint, bare_append_of_zero ho]
    change bare (printRest w.printer args (percent :: 115 :: [10]) argNum' reordered) = 0
    rw [h₃, bare_append_of_zero ho₃, printRest_cons (by decide),
      bare_cons (by decide), printRest_nil]
    exact bare_extraArgs hcalm n₃ reordered

theorem printRest_plainEnd_missing {argNum : Nat} (reordered : Bool) (hargNum : 0 < argNum)
    (hargs : args.length = 3) :
    ∃ o, printRest w.printer args plainEnd argNum reordered = o ++ utf8 ")\n" := by
  obtain ⟨o, argNum', hprint, -, hmissing⟩ := printRest_plainEnd hcalm argNum reordered
  have hle : args.length ≤ argNum' := by
    rw [hargs]
    exact hmissing hargNum hargs
  refine ⟨o ++ utf8 "%!s(MISSING", ?_⟩
  rw [hprint]
  change o ++ printRest w.printer args (percent :: 115 :: [10]) argNum' reordered = _
  rw [printRest_percent, directive_missing (by decide) [10] reordered hle,
    printRest_cons (by decide), printRest_nil, extraArgs, if_pos (by simp [hle])]
  simp only [append_assoc]
  rfl

end

def Writer.cpuNumStart (w : Writer) : Bytes :=
  metricName .statCpuNum ++ utf8 "\x7binstance=\"" ++ w.inst ++ utf8 "\",hostname=\"" ++ w.hostname

open Writer

theorem metricFmt_statCpuNum (w : Writer) :
    w.metricFmt .statCpuNum = w.cpuNumStart ++ 34 :: plainEnd := by
  rw [metricFmt, if_neg (by decide), buildMetricFmt_eq, lineStart, cpuNumStart]
  simp only [append_assoc]
  rfl

theorem bare_hostLabels (inst hostname : Bytes) :
    bare (metricName .statCpuNum ++ utf8 "\x7binstance=\"" ++ inst ++
      utf8 "\",hostname=\"" ++ hostname) = bare inst + bare hostname := by
  have hname : bare (metricName .statCpuNum ++ utf8 "\x7binstance=\"") = 0 := by decide
  have hmiddle : bare (utf8 ",hostname=\"") = 0 := by decide
  rw [append_assoc, append_assoc, bare_append_of_zero hname]
  change bare (inst ++ 34 :: (utf8 ",hostname=\"" ++ hostname)) = _
  rw [bare_append_quote, bare_append_of_zero hmiddle]

theorem percent_not_mem_pidTidLabels (w : Writer) (p : PidTid) : percent ∉ w.pidTidLabels p := by
  have hformatInt : ∀ n : Int, percent ∉ formatInt n := fun n =>
    (clean_of_isInteger (isInteger_formatInt n)).percent
  rw [pidTidLabels_eq]
  unfold pidTidPairs
  split
  · simp only [rawLabels, rawLabel, flatMap_cons, flatMap_nil,
      mem_append, mem_cons, not_mem_nil, or_false, not_or]
    exact ⟨⟨by decide, by decide, by decide, hformatInt _, by decide⟩, by decide, by decide,
      by decide, by decide, hformatInt _, by decide⟩
  · simp only [rawLabels, rawLabel, flatMap_nil,
      mem_append, mem_cons, not_mem_nil, or_false, not_or]
    exact ⟨by decide, by decide, by decide, hformatInt _, by decide⟩

variable {a : GenArgs} {v : Bytes}

theorem bare_encode_statCpuNum (hv : percent ∉ v) :
    bare (w.expectedLine (a.sample .statCpuNum [] (.text v))).encode =
      bare w.inst + bare w.hostname := by
  have hpairs : pidTidPairs a.pidTid ≠ [] := cons_ne_nil _ _
  have hlabels : (w.expectedLine (a.sample .statCpuNum [] (.text v))).labels.map
      escapeLabel = (instanceLabelName, escape w.inst) ::
        (hostnameLabelName, escape w.hostname) :: pidTidPairs a.pidTid := by
    show _ :: _ :: (pidTidPairs a.pidTid ++ []).map escapeLabel = _
    rw [List.append_nil, map_escapeLabel_pidTidPairs]
    rfl
  have hencode : (w.expectedLine (a.sample .statCpuNum [] (.text v))).encode =
      metricName .statCpuNum ++ utf8 "\x7binstance=\"" ++ escape w.inst ++
        utf8 "\",hostname=\"" ++ escape w.hostname ++
        34 :: (utf8 "," ++ w.pidTidLabels a.pidTid ++ utf8 "\x7d " ++ v ++ utf8 " " ++
          formatInt (unixMilli a.currTs) ++ utf8 "\n") := by
    rw [encode_eq_raw, hlabels, Line.raw, rawLabels,
      flatMap_cons, ← comma_rawLabels hpairs, ← pidTidLabels_eq w]
    simp only [rawLabel, append_assoc, cons_append]
    rfl
  have hend : percent ∉ utf8 "," ++ w.pidTidLabels a.pidTid ++ utf8 "\x7d " ++ v ++
      utf8 " " ++ formatInt (unixMilli a.currTs) ++ utf8 "\n" := by
    simp only [mem_append, not_or]
    exact ⟨⟨⟨⟨⟨⟨by decide, percent_not_mem_pidTidLabels w _⟩, by decide⟩, hv⟩, by decide⟩,
      (clean_of_isInteger (isInteger_formatInt _)).percent⟩, by decide⟩
  rw [hencode, bare_append_quote, bare_eq_zero hend, bare_hostLabels, bare_escape,
    bare_escape, Nat.add_zero]

theorem line_statCpuNum (w : Writer) (a : GenArgs) (v : Bytes) :
    w.line (a.sample .statCpuNum [] (.text v)) = printRest w.printer
      [.string (w.pidTidLabels a.pidTid), .bytes v, .bytes (formatInt (unixMilli a.currTs))]
      (w.cpuNumStart ++ 34 :: plainEnd) 0 false := by
  show w.sprintf (w.metricFmt .statCpuNum) (w.lineArgs (a.sample .statCpuNum [] (.text v))) = _
  rw [metricFmt_statCpuNum, lineArgs, sprintf_ts]
  rfl

theorem encode_ne_error {l : Line} (hts : isInteger l.ts)
    (o : Bytes) : l.encode ≠ o ++ utf8 ")\n" := by
  have hparen : 41 ∉ l.ts := fun hmem =>
    not_mem_of_isDigits hts (by decide) (mem_dropSign hmem (by decide))
  intro h
  rcases eq_nil_or_concat l.ts with hnil | ⟨ts, c, hconcat⟩
  · rw [hnil] at hts
    cases hts
  have hencode : l.encode = (l.name ++ leftBrace ::
      (encodeLabels l.labels ++ rightBrace :: space ::
        (l.value ++ space :: ts))) ++ [c, newline] := by
    rw [Line.encode, hconcat]
    simp
  -- The last two bytes of the line are the last one of the timestamp and the newline.
  obtain ⟨-, hlast⟩ := append_inj' (hencode.symm.trans h) rfl
  rw [hconcat, (List.cons.inj hlast).1] at hparen
  exact hparen (by simp)

/-- If the line of the CPU number is right, no percent sign of the instance or the hostname has been
taken for a directive, and there is none. -/
theorem percent_not_mem_of_exact (hv : isInteger v)
    (hexact : w.Exact (a.sample .statCpuNum [] (.text v))) : percent ∉ w.cpuNumStart := by
  have hpercent := (clean_of_isInteger hv).percent
  have hcalm : Calm w.printer [.string (w.pidTidLabels a.pidTid), .bytes v,
      .bytes (formatInt (unixMilli a.currTs))] :=
    calm_args (percent_not_mem_pidTidLabels w _) hpercent
      (clean_of_isInteger (isInteger_formatInt _)).percent
  have hline := (decode_sound hexact).1
  rw [line_statCpuNum] at hline
  have hformat : bare (w.cpuNumStart ++ 34 :: plainEnd) =
      bare w.inst + bare w.hostname + bare plainEnd := by
    rw [bare_append_quote, cpuNumStart, bare_hostLabels]
  -- As many percent signs come out as went in, so none of them was a directive.
  have hzero : bare w.cpuNumStart = 0 := by
    by_contra hne
    have hless := ((fixedEnd_plainEnd hcalm).bare_printRest hcalm w.cpuNumStart 0 false).2 hne
    rw [hline, bare_encode_statCpuNum hpercent, hformat] at hless
    omega
  intro hmem
  -- What is left are error reports, and those take arguments.
  obtain ⟨o, argNum, hprint, -, hlt⟩ :=
    printRest_of_bare_eq_zero hcalm hzero (34 :: plainEnd) 0 false
  obtain ⟨o', hmissing⟩ := printRest_plainEnd_missing hcalm false (hlt hmem (by simp)) rfl
  rw [hprint, printRest_cons (by decide), hmissing] at hline
  refine encode_ne_error (isInteger_formatInt _) (o ++ 34 :: o') (hline.symm.trans ?_)
  simp

/-- A line without percent signs from the instance and the hostname says what it should only if
there was nothing to escape. -/
theorem plain_of_exact {s : PidSample} (hinst : percent ∉ w.inst)
    (hhostname : percent ∉ w.hostname) (hs : Fits s)
    (hvalues : labelValues s.metric s.labels.2 = labelTexts s.metric s.labels.2)
    (hexact : w.Exact s) : ∀ l ∈ (w.textLine s).labels, Plain l.2 := by
  have hexpected : w.expectedLine s = w.textLine s := by
    rw [expectedLine, hvalues]
    rfl
  have hline := (decode_sound hexact).1
  rw [w.line_eq_raw hinst hhostname hs, hexpected] at hline
  exact (raw_eq_encode_iff _).mp hline

theorem clean_of_exact (h : Printed a)
    (hexact : ∀ s ∈ a.cpuNumSamples, w.Exact s) : Clean w.inst ∧ Clean w.hostname := by
  have hprocessor := h.currStat.values .processor (by decide)
  have hcpuNum := forall_mem_singleton.mp hexact
  have hstart := percent_not_mem_of_exact hprocessor hcpuNum
  simp only [cpuNumStart, mem_append, not_or] at hstart
  obtain ⟨⟨⟨-, hinst⟩, -⟩, hhostname⟩ := hstart
  -- Now the line is written as it is meant, and only escaping can be missing.
  have hplain := plain_of_exact hinst hhostname
    (forall_mem_singleton.mp (sound_cpuNumSamples (w := w) h)).toFits rfl hcpuNum
  exact ⟨⟨hinst, hplain _ mem_cons_self⟩, ⟨hhostname, hplain _ (mem_cons_of_mem _ mem_cons_self)⟩⟩

theorem plain_comm_of_exact (hinst : Clean w.inst) (hhostname : Clean w.hostname) {comm : Bytes}
    {on : Bool} (hexact : w.Exact (a.sample .statComm [a.starttimeMsec, comm] (.flag on))) :
    Plain comm := by
  refine plain_of_exact hinst.percent hhostname.percent ⟨rfl, rfl⟩ rfl hexact (utf8 "comm", comm) ?_
  refine mem_cons_of_mem _ (mem_cons_of_mem _ (mem_append_right _ ?_))
  exact mem_cons_of_mem _ mem_cons_self

theorem commsPlain_of_exact (hinst : Clean w.inst) (hhostname : Clean w.hostname)
    (hexact : ∀ s ∈ a.commSamples, w.Exact s) : CommsPlain a := by
  obtain ⟨hprev, hcurr⟩ := forall_mem_append.mp hexact
  constructor
  · intro hchanged
    rw [if_pos hchanged] at hprev
    exact plain_comm_of_exact hinst hhostname (forall_mem_singleton.mp hprev)
  · intro hfull
    rw [if_pos hfull] at hcurr
    exact plain_comm_of_exact hinst hhostname (forall_mem_singleton.mp hcurr)

/-- Every line that is written for a PID or TID says what it should exactly if the instance and the
hostname come out of a format as they are and they and the comms need no escaping. -/
theorem lines_exact_iff_nothing_to_escape (w : Writer) (cfg : Config) (pidStat : PidStat)
    (pidStatus : PidStatus) (pidCmdline : PidCmdline) (info : ProcPidTidMetricsInfo)
    (hasPrev isPid fullMetrics : Bool) (currTs : Int) (o : Out)
    (h : Printed (genArgs pidStat pidStatus pidCmdline info hasPrev isPid fullMetrics currTs)) :
    (∀ s ∈ (generateMetrics cfg pidStat pidStatus pidCmdline info hasPrev isPid fullMetrics currTs
        o).1.buf.drop o.buf.length, w.Exact s) ↔
      Clean w.inst ∧ Clean w.hostname ∧
        CommsPlain (genArgs pidStat pidStatus pidCmdline info hasPrev isPid fullMetrics currTs) := by
  rw [generateMetrics_eq]
  dsimp only [Out.append]
  rw [drop_left]
  constructor
  · intro hexact
    unfold GenArgs.samples at hexact
    simp only [forall_mem_append] at hexact
    obtain ⟨⟨⟨⟨⟨⟨-, hcomm⟩, -⟩, hcpuNum⟩, -⟩, -⟩, -⟩ := hexact
    obtain ⟨hinst, hhostname⟩ := clean_of_exact h hcpuNum
    exact ⟨hinst, hhostname, commsPlain_of_exact hinst hhostname hcomm⟩
  · rintro ⟨hinst, hhostname, hcomms⟩ s hs
    exact (sound_samples h hcomms cfg _ _ s hs).exact hinst hhostname

end

def namedStat (comm : Bytes) : PidStat :=
  { bsf := fun f => if f = .comm then comm else utf8 "1", nf := fun _ => 0 }

def namedInfo (comm : Bytes) : ProcPidTidMetricsInfo :=
  { newPidTidMetricsInfo ⟨1, pidOnlyTid⟩ (utf8 "1") 0 with pidStat := namedStat comm }

/-- A generator that writes nothing for the verbs its formats do not use. -/
def plainWriter : Writer :=
  { inst := utf8 "lsvmi", hostname := utf8 "host"
    verbs := { printArg := fun _ _ _ => [], string_marked := fun _ _ _ _ => rfl
               bytes_marked := fun _ _ _ _ => rfl }
    pcpu := fun _ _ => .fixed false 0 }

theorem bsf_namedStat (comm : Bytes) {f : PidStatField} (hf : f ≠ .comm) :
    (namedStat comm).bsf f = utf8 "1" := if_neg hf

theorem printed_named (prevComm comm : Bytes) (hasPrev isPid fullMetrics : Bool) (currTs : Int) :
    Printed (genArgs (namedStat comm) newPidStatus newPidCmdline (namedInfo prevComm) hasPrev isPid
      fullMetrics currTs) := by
  have hplain : Plain (utf8 "1") := by decide
  have hlabels : ∀ (comm : Bytes) (f : PidStatField), f ≠ .comm →
      Plain ((namedStat comm).bsf f) := by
    intro comm f hf
    rw [bsf_namedStat comm hf]
    exact hplain
  have hvalues : ∀ f ∈ statValueFields, isInteger ((namedStat comm).bsf f) := by
    intro f hf
    have hne : f ≠ .comm := by
      rintro rfl
      exact absurd hf (by decide)
    rw [bsf_namedStat comm hne]
    rfl
  exact
    { starttimeMsec := rfl
      currStat := ⟨hlabels comm, hvalues⟩
      prevStat := hlabels prevComm
      currStatus := ⟨fun _ => forall_mem_nil _, fun _ => forall_mem_nil _, nofun⟩
      prevStatus := fun _ => forall_mem_nil _
      cmdline := ⟨[], [], [], rfl⟩ }

theorem lines_exact_new_comm :
    let o := (generateMetrics plainConfig (namedStat (utf8 "ls")) newPidStatus newPidCmdline
      (namedInfo (utf8 "sh")) true true false 1 ⟨[], 0⟩).1
    (ofMetric .statComm o.buf).length = 2 ∧ ∀ s ∈ o.buf, plainWriter.Exact s :=
  ⟨by decide +kernel, (lines_exact_iff_nothing_to_escape plainWriter plainConfig
    (namedStat (utf8 "ls")) newPidStatus newPidCmdline (namedInfo (utf8 "sh")) true true false 1
    ⟨[], 0⟩ (printed_named (utf8 "sh") (utf8 "ls") true true false 1)).mpr
      ⟨⟨by decide, by decide⟩, ⟨by decide, by decide⟩, fun _ => by decide, fun _ => by decide⟩⟩

/-- A comm with a double quote ends its label early. -/
theorem quote_in_comm_breaks_line :
    Printed (genArgs (namedStat (utf8 "a\"b")) newPidStatus newPidCmdline (namedInfo []) false true
      true 1) ∧
    ¬ ∀ s ∈ (generateMetrics plainConfig (namedStat (utf8 "a\"b")) newPidStatus newPidCmdline
      (namedInfo []) false true true 1 ⟨[], 0⟩).1.buf, plainWriter.Exact s :=
  ⟨printed_named [] (utf8 "a\"b") false true true 1, by decide +kernel⟩

end Lsvmi.ProcPid
