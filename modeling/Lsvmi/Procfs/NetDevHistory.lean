import Lsvmi.Procfs.NetDev

/-!
# Contents of /proc/net/dev parsed one after the other

What `Parse` leaves of a content with the supported header, in an object that may have parsed any
contents before, or in a clone.  A name of one character is rejected, and so is every content by the
clone of an object that has not seen a header yet.  A `Parse` that fails leaves devices with the
number of the next scan, which does not remove them.
-/

namespace Lsvmi.Procfs

open Reasoning List

/-- The line of a device, as it is printed. -/
structure NetDevLine where
  dev : Bytes
  /-- between the device and the colon -/
  gap : Bytes
  values : List Bytes
  dev_ne_nil : dev ≠ []
  dev_chars : ∀ c ∈ dev, NetDev.isDevChar c = true
  gap_blank : ∀ c ∈ gap, isWhitespace c = true
  length_values : values.length = netDevNumStats
  digits : ∀ word ∈ values, ∀ c ∈ word, isDigit c = true

variable (line : NetDevLine) (scanNum : UInt64)

namespace NetDevLine

/-- Blanks may stand before the device, before and behind every value. -/
def Rendered (line : NetDevLine) (text : Bytes) : Prop :=
  ∃ indent values, (∀ c ∈ indent, isWhitespace c = true) ∧
    text = indent ++ (line.dev ++ (line.gap ++ 58 :: values)) ∧
    fields isWhitespace values = line.values

def printedStats (line : NetDevLine) : List UInt64 :=
  line.values.map fun word => UInt64.ofNat (decimal word)

def stats (line : NetDevLine) (scanNum : UInt64) : NetDevStats :=
  ⟨line.printedStats ++ [scanNum], by
    rw [length_append, printedStats, length_map, line.length_values]
    rfl⟩

def Recognised (line : NetDevLine) : Prop := 1 < line.dev.length ∧ line.gap = []

instance (line : NetDevLine) : Decidable line.Recognised := inferInstanceAs (Decidable (_ ∧ _))

theorem scanNum_stats : (line.stats scanNum).scanNum = scanNum := by
  have hlen : line.printedStats.length = netDevScanNumber := by
    rw [printedStats, length_map, line.length_values]
    rfl
  rw [NetDevStats.scanNum, stats, getD_eq_getElem?_getD, ← hlen, getElem?_concat_length]
  rfl

theorem take_stats : (line.stats scanNum).values.take netDevNumStats = line.printedStats := by
  have hlen : line.printedStats.length = netDevNumStats := by
    rw [printedStats, length_map, line.length_values]
  rw [stats, take_left' hlen]

end NetDevLine

structure NetDevContent (devs : List NetDevLine) (buf : Bytes) : Prop where
  rendered : ∃ text, buf = netDevHeader ++ text ∧
    List.Forall₂ NetDevLine.Rendered devs (lines newline text)
  nodup : (devs.map NetDevLine.dev).Nodup

def lineOf (devs : List NetDevLine) (dev : Bytes) : Option NetDevLine := devs.find? (·.dev = dev)

namespace NetDev

variable {devs : List NetDevLine} {netDev : NetDev}

theorem statValue_eq (word : Bytes) : statValue word = UInt64.ofNat (decimal word) :=
  foldl_digits64 word

/-! ## The line of a device -/

open NetDevLine

theorem netDevName_rendered {indent values tail : Bytes} (hindent : ∀ c ∈ indent, isWhitespace c) :
    netDevName (indent ++ (line.dev ++ (line.gap ++ 58 :: (values ++ tail)))) =
      if line.Recognised then some (line.dev, values ++ tail) else none := by
  -- the first character of the name is not a blank, so that only the indent is skipped
  obtain ⟨c, dev, hdev⟩ := exists_cons_of_ne_nil line.dev_ne_nil
  have hc : isWhitespace c = false := by
    have h := line.dev_chars c (by rw [hdev]; simp)
    simp only [isDevChar, Bool.and_eq_true, Bool.not_eq_true'] at h
    exact h.1.2
  have hskip : (indent ++ (line.dev ++ (line.gap ++ 58 :: (values ++ tail)))).dropWhile isWhitespace =
      line.dev ++ (line.gap ++ 58 :: (values ++ tail)) := by
    rw [dropWhile_append_of_pos hindent, hdev, cons_append, dropWhile_cons_of_neg (by simp [hc])]
  unfold netDevName
  simp only [hskip, takeWhile_append_of_pos line.dev_chars, dropWhile_append_of_pos line.dev_chars]
  cases hgap : line.gap with
  | nil =>
    have hcolon : isDevChar 58 = false := rfl
    have hlen : 0 < line.dev.length - 1 ↔ line.Recognised := by
      unfold Recognised
      rw [hgap]
      simp only [and_true]
      omega
    simp [hcolon, hlen]
  | cons b gap =>
    have hb : isWhitespace b := line.gap_blank b (by rw [hgap]; simp)
    have hstop : isDevChar b = false := by simp [isDevChar, hb]
    have hne : b ≠ 58 := by
      rintro rfl
      cases hb
    have hnot : ¬ line.Recognised := by
      rintro ⟨-, hnil⟩
      rw [hgap] at hnil
      cases hnil
    simp [hstop, hne, hnot]

theorem statValues_fields (n i : Nat) (stats : NetDevStats) (buf : Bytes)
    (hn : (fields isWhitespace (firstLine newline buf)).length = n)
    (hi : i + n < netDevNumStatsSize)
    (hdigits : ∀ word ∈ fields isWhitespace (firstLine newline buf), ∀ c ∈ word, isDigit c) :
    ∃ stats' rest eol, statValues n i stats buf = (stats', some (i + n, rest, eol)) ∧
      stats'.values = stats.values.take i ++
        (fields isWhitespace (firstLine newline buf)).map statValue ++
          stats.values.drop (i + n) ∧
      LineEnd (afterLine newline buf) rest eol := by
  induction n generalizing i stats buf with
  | zero =>
    have hnil := eq_nil_of_length_eq_zero hn
    refine ⟨stats, buf, false, rfl, ?_, hnil, rfl⟩
    rw [hnil, map_nil, append_nil, Nat.add_zero, take_append_drop]
  | succ n ih =>
    rcases hnext : nextField buf with ⟨word, sep, rest⟩
    rcases nextWord_line isWhitespace_newline hnext with ⟨-, hwords, -⟩ |
      ⟨hword, words, hwords, hline⟩
    · rw [hwords] at hn
      cases hn
    rw [hwords] at hn hdigits
    have hvalid : invalidDigit word = none := invalidDigit_eq_none (hdigits word (by simp))
    have hset : (stats.set i (statValue word)).values =
        stats.values.take i ++ statValue word :: stats.values.drop (i + 1) := by
      have hlt : i < stats.values.length := by
        rw [stats.length_eq]
        omega
      rw [NetDevStats.values_set, set_eq_take_append_cons_drop, if_pos hlt]
    rcases hline with ⟨rfl, rfl, hafter⟩ | ⟨hsep, rfl, hafter⟩
    · obtain rfl : n = 0 := by simpa using hn.symm
      refine ⟨stats.set i (statValue word), rest, true, ?_, ?_, hafter⟩
      · simp [statValues, hnext, hvalid, hword]
      · rw [hset, hwords]
        simp
    · obtain ⟨stats', rest', eol, heq, hstats', hend⟩ := ih (i + 1)
        (stats.set i (statValue word)) rest (by simpa using hn) (by omega)
        fun w hw => hdigits w (by simp [hw])
      rw [hafter] at hend
      refine ⟨stats', rest', eol, ?_, ?_, hend⟩
      · simp only [statValues, hnext, hvalid, hword, hsep, heq, if_false]
        rw [Nat.add_assoc, Nat.add_comm 1 n]
      have htake : (stats.set i (statValue word)).values.take (i + 1) =
          stats.values.take i ++ [statValue word] := by
        have hlen : (stats.values.take i ++ [statValue word]).length = i + 1 := by
          rw [length_append, length_take, stats.length_eq, length_singleton]
          omega
        rw [hset, ← singleton_append, ← append_assoc, take_left' hlen]
      rw [hstats', hwords, htake, NetDevStats.values_set, drop_set_of_lt (by omega)]
      simp [Nat.add_assoc, Nat.add_comm 1 n]

/-! ## The lines -/

def enter (netDev : NetDev) (scanNum : UInt64) (line : NetDevLine) : NetDev :=
  { netDev with devStats := netDev.devStats.insert line.dev (line.stats scanNum) }

theorem set_scanNum {stats old : NetDevStats}
    (h : stats.values = old.values.take 0 ++ line.values.map statValue ++
      old.values.drop (0 + netDevScanNumber)) :
    stats.set netDevScanNumber scanNum = line.stats scanNum := by
  have hlen : line.printedStats.length = netDevScanNumber := by
    rw [printedStats, length_map, line.length_values]
    rfl
  have hold : (old.values.drop netDevScanNumber).length = 1 := by
    rw [length_drop, old.length_eq]
    rfl
  obtain ⟨last, hlast⟩ := length_eq_one_iff.mp hold
  have hvalues : stats.values = line.printedStats ++ [last] := by
    rw [h, Nat.zero_add, hlast, take_zero, nil_append, printedStats,
      map_congr_left fun word _ => statValue_eq word]
  apply NetDevStats.ext
  rw [NetDevStats.values_set, hvalues, ← hlen, set_append_right _ _ (Nat.le_refl _), Nat.sub_self]
  rfl

theorem parseLine_rendered (netDev : NetDev) (scanNum : UInt64) (lineNum : Nat) (line : NetDevLine)
    {buf : Bytes} (h : line.Rendered (firstLine newline buf)) :
    netDev.parseLine scanNum lineNum buf =
      if line.Recognised then (netDev.enter scanNum line, .ok (afterLine newline buf))
      else (netDev, .error (.missingDev lineNum (getCurrentLine buf))) := by
  obtain ⟨indent, values, hindent, htext, hvalues⟩ := h
  let tail := buf.dropWhile (· ≠ newline)
  have hbuf : buf = indent ++ (line.dev ++ (line.gap ++ 58 :: (values ++ tail))) := by
    have hsplit : firstLine newline buf ++ tail = buf := takeWhile_append_dropWhile
    rw [htext] at hsplit
    rw [← hsplit]
    simp
  have hname : netDevName buf = if line.Recognised then some (line.dev, values ++ tail) else none := by
    rw [hbuf]
    exact netDevName_rendered line hindent
  by_cases hrec : line.Recognised
  · rw [if_pos hrec] at hname ⊢
    have hnl := nl_notMem_firstLine newline buf
    rw [htext] at hnl
    simp only [mem_append, mem_cons, not_or] at hnl
    obtain ⟨hnl₁, hnl₂, hnl₃, hnl₄, hnl₅⟩ := hnl
    have htail : firstLine newline tail = [] := by
      rw [firstLine, takeWhile_eq_nil_iff]
      intro hlt
      exact dropWhile_get_zero_not _ _ hlt
    have hfirst : firstLine newline (values ++ tail) = values := by
      rw [firstLine_append hnl₅, htail, append_nil]
    have hafter : afterLine newline (values ++ tail) = afterLine newline buf := by
      have hfront : newline ∉ indent ++ (line.dev ++ (line.gap ++ [58])) := by
        simp [hnl₁, hnl₂, hnl₃, hnl₄]
      have hsplit : buf = (indent ++ (line.dev ++ (line.gap ++ [58]))) ++ (values ++ tail) := by
        rw [hbuf]
        simp
      rw [hsplit, afterLine_append hfront]
    obtain ⟨stats, rest, eol, heq, hstats, hend⟩ := statValues_fields netDevScanNumber 0
      ((netDev.devStats.lookup line.dev).getD .make) (values ++ tail)
      (by rw [hfirst, hvalues]; exact line.length_values) (by decide)
      (by rw [hfirst, hvalues]; exact line.digits)
    rw [hfirst, hvalues] at hstats
    rw [hafter] at hend
    have hset := set_scanNum line scanNum hstats
    have hdone : ¬ 0 + netDevScanNumber < netDevScanNumber := by omega
    rw [parseLine]
    simp only [hname, heq, if_neg hdone, hset]
    cases eol with
    | true =>
      have hrest : rest = afterLine newline buf := hend
      rw [if_pos rfl, hrest]
      rfl
    | false =>
      obtain ⟨hword, hrest⟩ := nextField_of_lineEnd hend
      simp only [hword, hrest]
      rfl
  · rw [if_neg hrec] at hname ⊢
    rw [parseLine]
    simp only [hname]

theorem parseLines_rendered (netDev : NetDev) (scanNum : UInt64) (fuel lineNum : Nat) {buf : Bytes}
    (h : Forall₂ Rendered devs (lines newline buf)) (hfuel : buf.length ≤ fuel) :
    ((parseLines scanNum fuel lineNum netDev buf).2 = none ↔ ∀ line ∈ devs, line.Recognised) ∧
      ((∀ line ∈ devs, line.Recognised) →
        (parseLines scanNum fuel lineNum netDev buf).1 = devs.foldl (·.enter scanNum) netDev) := by
  induction devs generalizing netDev fuel lineNum buf with
  | nil =>
    have hbuf : buf = [] := by
      by_contra hne
      rw [lines_of_ne_nil hne] at h
      cases h
    subst hbuf
    rw [parseLines]
    simp
  | cons line devs ih =>
    have hne : buf ≠ [] := by
      rintro rfl
      cases h
    rw [lines_of_ne_nil hne, forall₂_cons] at h
    have hlt : (afterLine newline buf).length < buf.length := length_afterLine_lt hne
    obtain ⟨fuel, rfl⟩ : ∃ m, fuel = m + 1 := ⟨fuel - 1, by omega⟩
    have hline := parseLine_rendered netDev scanNum lineNum line h.1
    rw [parseLines.eq_3 scanNum lineNum netDev buf fuel hne, hline, forall_mem_cons, foldl_cons]
    by_cases hrec : line.Recognised
    · simp only [hrec, true_and]
      exact ih (netDev.enter scanNum line) fuel (lineNum + 1) h.2 (by omega)
    · simp [hrec]

theorem foldl_enter (netDev : NetDev) (scanNum : UInt64) (devs : List NetDevLine) :
    devs.foldl (·.enter scanNum) netDev =
      { netDev with
        devStats := (devs.map fun line => (line.dev, line.stats scanNum)).foldl
          (fun m e => m.insert e.1 e.2) netDev.devStats } := by
  induction devs generalizing netDev with
  | nil => rfl
  | cons line devs ih =>
    rw [foldl_cons, ih]
    rfl

theorem lookup_prune_enter (netDev : NetDev) (scanNum : UInt64)
    (hnodup : (devs.map NetDevLine.dev).Nodup) (dev : Bytes) :
    ((devs.foldl (·.enter scanNum) netDev).prune scanNum).devStats.lookup dev =
      match lineOf devs dev with
      | some line => some (line.stats scanNum)
      | none => (netDev.devStats.lookup dev).filter fun stats => stats.scanNum = scanNum := by
  have hkeys : (devs.map fun line => (line.dev, line.stats scanNum)).map Prod.fst =
      devs.map NetDevLine.dev := by
    rw [map_map]
    rfl
  rw [foldl_enter, prune, lookup_filterMapEntries, lookup_foldl_insert]
  cases hline : lineOf devs dev with
  | some line =>
    have hdev : line.dev = dev := by simpa using find?_some hline
    have hmem : (dev, line.stats scanNum) ∈ devs.map fun line => (line.dev, line.stats scanNum) :=
      mem_map.mpr ⟨line, mem_of_find?_eq_some hline, by rw [hdev]⟩
    rw [replay_of_nodup (hkeys ▸ hnodup) hmem]
    simp [line.scanNum_stats]
  | none =>
    rw [replay_eq_none]
    · cases netDev.devStats.lookup dev with
      | none => rfl
      | some stats =>
        simp only [Option.none_or, Option.bind_some, Option.filter]
        by_cases hscan : stats.scanNum = scanNum
        all_goals simp [hscan]
    · intro e he
      obtain ⟨line, hmem, rfl⟩ := mem_map.mp he
      simpa using find?_eq_none.mp hline line hmem

/-! ## The header -/

/-- The object has seen no header, or has copied none, or has seen the supported one. -/
def HeaderOk (netDev : NetDev) : Prop :=
  netDev.validHeader = none ∨ netDev.validHeader = some [] ∨ netDev.validHeader = some netDevHeader

theorem parseLine_validHeader (netDev : NetDev) (scanNum : UInt64) (lineNum : Nat) (buf : Bytes) :
    (netDev.parseLine scanNum lineNum buf).1.validHeader = netDev.validHeader := by
  unfold parseLine
  cases netDevName buf with
  | none => rfl
  | some name =>
    rcases hvalues : statValues netDevScanNumber 0 ((netDev.devStats.lookup name.1).getD .make)
      name.2 with ⟨stats, _ | ⟨statIndex, rest, eol⟩⟩
    · simp only [hvalues]
    simp only [hvalues]
    split
    · rfl
    · split
      · rfl
      · split <;> rfl

theorem parseLines_validHeader (netDev : NetDev) (scanNum : UInt64) (fuel lineNum : Nat)
    (buf : Bytes) :
    (parseLines scanNum fuel lineNum netDev buf).1.validHeader = netDev.validHeader := by
  induction fuel generalizing lineNum netDev buf with
  | zero => cases buf <;> rfl
  | succ fuel ih =>
    cases buf with
    | nil => rfl
    | cons c text =>
      have hline := parseLine_validHeader netDev scanNum lineNum (c :: text)
      rw [parseLines]
      · rcases hparse : netDev.parseLine scanNum lineNum (c :: text) with ⟨netDev', _ | rest⟩
        · rw [hparse] at hline
          exact hline
        · rw [hparse] at hline
          exact (ih netDev' (lineNum + 1) rest).trans hline
      · exact cons_ne_nil c text

theorem parseStats_validHeader (netDev : NetDev) (buf : Bytes) :
    (netDev.parseStats buf).1.validHeader = netDev.validHeader := by
  have hlines := parseLines_validHeader netDev (netDev.scanNum + 1) buf.length
    (netDev.numLinesHeader + 1) buf
  unfold parseStats
  rcases hparse : parseLines (netDev.scanNum + 1) buf.length (netDev.numLinesHeader + 1) netDev buf
    with ⟨netDev', _ | e⟩
  all_goals
    rw [hparse] at hlines
    simp only [hparse]
    exact hlines

theorem validateHeader_cases (netDev : NetDev) (buf : Bytes) :
    (netDev.validateHeader buf = netDev ∧ ¬ netDevHeader <+: buf) ∨
      netDev.validateHeader buf =
        { netDev with
          validHeader := some netDevHeader, numLinesHeader := netDevHeader.count newline } := by
  unfold validateHeader netDevValidHeaders
  by_cases hstarts : netDevHeader <+: buf
  · right
    simp [ isPrefixOf_iff_prefix.mpr hstarts]
  left
  have hfalse : netDevHeader.isPrefixOf buf = false := by
    rw [Bool.eq_false_iff]
    exact fun h => hstarts <| isPrefixOf_iff_prefix.mp h
  simp [hfalse, hstarts]

/-- The objects that calls lead to, from a new object on, whatever is parsed. -/
inductive Reached : NetDev → Prop
  | new : Reached newNetDev
  | parse {netDev : NetDev} (h : Reached netDev) (buf : Bytes) : Reached (netDev.parse buf).1
  | clone {netDev : NetDev} (h : Reached netDev) (full : Bool) : Reached (netDev.clone full)

theorem parse_eq (netDev : NetDev) (file : Bytes) :
    netDev.parse file = if file.length < netDevMaxReadSize then netDev.parseBuf file
      else (netDev, some .potentialTruncation) := parseFile_eq (by decide) _ _ _

theorem HeaderOk.parse (h : netDev.HeaderOk) (buf : Bytes) : (netDev.parse buf).1.HeaderOk := by
  rw [parse_eq]
  split
  case isFalse => exact h
  unfold parseBuf
  cases hheader : netDev.validHeader with
  | none =>
    rcases validateHeader_cases netDev buf with ⟨hsame, -⟩ | hvalid
    · simp only [hsame, hheader]
      exact h
    · simp only [hvalid]
      exact .inr (.inr (parseStats_validHeader _ _))
  | some header =>
    simp only
    split
    · unfold HeaderOk
      rw [parseStats_validHeader]
      exact h
    · exact h

theorem Reached.headerOk (h : Reached netDev) : netDev.HeaderOk := by
  induction h with
  | new => exact .inl rfl
  | parse h buf ih => exact ih.parse buf
  | @clone netDev h full ih =>
    rcases ih with hnone | hnil | hvalid
    · exact .inr (.inl (by rw [NetDev.clone, hnone]; rfl))
    · exact .inr (.inl (by rw [NetDev.clone, hnil]; rfl))
    · exact .inr (.inr (by rw [NetDev.clone, hvalid]; rfl))

-- The first word of the header is followed by a blank and not by a colon.
theorem netDevHeader_eq : netDevHeader = utf8 "Inter-|" ++ 32 :: netDevHeader.drop 8 := by
  decide +kernel

theorem netDevName_header (text : Bytes) : netDevName (netDevHeader ++ text) = none := by
  rw [netDevHeader_eq, append_assoc]
  rfl

/-! ## `Parse` -/

/-- `Parse` returns nil and leaves the devices of the content with their values, and no others. -/
def ParsesExactly (netDev : NetDev) (devs : List NetDevLine) (buf : Bytes) : Prop :=
  (netDev.parse buf).2 = none ∧
    ∀ dev, ((netDev.parse buf).1.devStats.lookup dev).map (·.values.take netDevNumStats) =
      (lineOf devs dev).map NetDevLine.printedStats

theorem parseStats_rendered (netDev : NetDev) {text : Bytes}
    (h : Forall₂ Rendered devs (lines newline text)) :
    ((netDev.parseStats text).2 = none ↔ ∀ line ∈ devs, line.Recognised) ∧
      ((∀ line ∈ devs, line.Recognised) →
        (netDev.parseStats text).1 =
          (devs.foldl (·.enter (netDev.scanNum + 1)) netDev).prune (netDev.scanNum + 1)) := by
  obtain ⟨hverdict, hobject⟩ := parseLines_rendered netDev (netDev.scanNum + 1) text.length
    (netDev.numLinesHeader + 1) h (Nat.le_refl _)
  unfold parseStats
  rcases hparse : parseLines (netDev.scanNum + 1) text.length (netDev.numLinesHeader + 1) netDev
    text with ⟨netDev', _ | e⟩
  · simp only [hparse] at hverdict hobject ⊢
    exact ⟨hverdict, fun hrec => by rw [hobject hrec]⟩
  · simp only [hparse] at hverdict hobject ⊢
    exact ⟨hverdict, fun hrec => absurd (hverdict.mpr hrec) (Option.some_ne_none e)⟩

theorem parseBuf_header (h : netDev.HeaderOk) (hne : netDev.validHeader ≠ some []) (text : Bytes) :
    ∃ checked : NetDev, checked.devStats = netDev.devStats ∧ checked.scanNum = netDev.scanNum ∧
      netDev.parseBuf (netDevHeader ++ text) = checked.parseStats text := by
  rcases h with hnone | hnil | hvalid
  · rcases validateHeader_cases netDev (netDevHeader ++ text) with ⟨-, hnot⟩ | hchecked
    · exact absurd (prefix_append _ _) hnot
    · refine ⟨netDev.validateHeader (netDevHeader ++ text), by rw [hchecked], by rw [hchecked], ?_⟩
      rw [parseBuf, hnone]
      simp only [hchecked, drop_left]
  · exact absurd hnil hne
  have hstarts : netDevHeader.isPrefixOf (netDevHeader ++ text) :=
    isPrefixOf_iff_prefix.mpr (prefix_append _ _)
  refine ⟨netDev, rfl, rfl, ?_⟩
  rw [parseBuf, hvalid]
  simp only [hstarts, if_true, drop_left]

-- With an empty header the lines of the header are taken for the ones of devices.
theorem parseBuf_emptyHeader (h : netDev.validHeader = some []) (text : Bytes) :
    (netDev.parseBuf (netDevHeader ++ text)).2 ≠ none := by
  have hne : netDevHeader ++ text ≠ [] := by
    rw [netDevHeader_eq]
    simp
  obtain ⟨n, hn⟩ : ∃ n, (netDevHeader ++ text).length = n + 1 :=
    Nat.exists_eq_succ_of_ne_zero fun hzero => hne (eq_nil_of_length_eq_zero hzero)
  have hline : ∀ scanNum lineNum, netDev.parseLine scanNum lineNum (netDevHeader ++ text) =
      (netDev, .error (.missingDev lineNum (getCurrentLine (netDevHeader ++ text)))) := by
    intro scanNum lineNum
    rw [parseLine]
    simp only [netDevName_header]
  have hlines : ∀ scanNum lineNum, (parseLines scanNum (n + 1) lineNum netDev
      (netDevHeader ++ text)).2 ≠ none := by
    intro scanNum lineNum
    rw [parseLines, hline]
    · exact Option.some_ne_none _
    · exact hne
  rw [parseBuf, h]
  simp only [isPrefixOf_nil_left, if_true, length_nil, drop_zero, parseStats, hn]
  have hfail := hlines (netDev.scanNum + 1) (netDev.numLinesHeader + 1)
  rcases hparse : parseLines (netDev.scanNum + 1) (n + 1) (netDev.numLinesHeader + 1) netDev
    (netDevHeader ++ text) with ⟨netDev', _ | e⟩
  · rw [hparse] at hfail
    exact absurd rfl hfail
  · exact Option.some_ne_none e

/-- A content is parsed exactly if it is below the limit of the read, the names of its devices are
recognised, the object is not the clone of one that had not seen a header, and no other device has the
number of the scan. -/
theorem parsesExactly_iff {netDev : NetDev} (h : Reached netDev) {devs : List NetDevLine}
    {buf : Bytes} (hcontent : NetDevContent devs buf) :
    netDev.ParsesExactly devs buf ↔ buf.length < netDevMaxReadSize ∧
      (∀ line ∈ devs, line.Recognised) ∧ netDev.validHeader ≠ some [] ∧
        ∀ dev stats, netDev.devStats.lookup dev = some stats →
          stats.scanNum = netDev.scanNum + 1 → dev ∈ devs.map NetDevLine.dev := by
  obtain ⟨text, hbuf, hrendered⟩ := hcontent.rendered
  rw [hbuf]
  unfold ParsesExactly
  rw [parse_eq]
  by_cases hlength : (netDevHeader ++ text).length < netDevMaxReadSize
  case neg =>
    rw [if_neg hlength]
    exact iff_of_false (fun hexact => nomatch hexact.1) fun hcond => hlength hcond.1
  rw [if_pos hlength, and_iff_right hlength]
  by_cases hempty : netDev.validHeader = some []
  · exact iff_of_false (fun hexact => parseBuf_emptyHeader hempty text hexact.1)
      fun hcond => hcond.2.1 hempty
  obtain ⟨checked, hstats, hscan, hparse⟩ := parseBuf_header h.headerOk hempty text
  obtain ⟨hverdict, hobject⟩ := parseStats_rendered checked hrendered
  rw [hparse, hverdict]
  refine and_congr_right fun hrec => ?_
  rw [hobject hrec, hscan]
  simp only [lookup_prune_enter _ _ hcontent.nodup, hstats, hempty, ne_eq, not_false_iff, true_and]
  refine forall_congr' fun dev => ?_
  have hmem : dev ∈ devs.map NetDevLine.dev ↔ (lineOf devs dev).isSome = true := by
    rw [lineOf, find?_isSome, mem_map]
    simp
  rw [hmem]
  cases hline : lineOf devs dev with
  | some line =>
    simp only [Option.map_some, line.take_stats, Option.isSome_some, implies_true]
  | none =>
    simp only [Option.map_none, Option.map_eq_none_iff, Option.filter_eq_none_iff, Option.isSome_none,
      Bool.false_eq_true, decide_eq_true_eq, imp_false]

def uniformLine (dev word : Bytes) (hne : dev ≠ []) (hchars : ∀ c ∈ dev, isDevChar c = true)
    (hword : ∀ c ∈ word, isDigit c = true) : NetDevLine where
  dev := dev
  gap := []
  values := List.replicate netDevNumStats word
  dev_ne_nil := hne
  dev_chars := hchars
  gap_blank := by simp
  length_values := length_replicate
  digits := fun _ hmem => eq_of_mem_replicate hmem ▸ hword

def ethLine : NetDevLine :=
  uniformLine (utf8 "eth0") (utf8 "7") (by decide) (all_eq_true.mp rfl) (all_eq_true.mp rfl)

def shortLine : NetDevLine :=
  uniformLine (utf8 "a") (utf8 "0") (by decide) (all_eq_true.mp rfl) (all_eq_true.mp rfl)

def ethContent : Bytes := netDevHeader ++ utf8 "  eth0:7 7 7 7 7 7 7 7\t7 7 7 7 7 7 7 7 \n"

def shortContent : Bytes := netDevHeader ++ utf8 "a: 0 0 0 0 0 0 0 0 0 0 0 0 0 0 0 0\n"

theorem ethContent_content : NetDevContent [ethLine] ethContent where
  rendered := by
    refine ⟨_, rfl, ?_⟩
    have hline : utf8 "  eth0:7 7 7 7 7 7 7 7\t7 7 7 7 7 7 7 7 \n" =
        utf8 "  eth0:7 7 7 7 7 7 7 7\t7 7 7 7 7 7 7 7 " ++ [newline] := by decide +kernel
    rw [hline, lines_cons (by decide +kernel)]
    exact .cons ⟨utf8 "  ", utf8 "7 7 7 7 7 7 7 7\t7 7 7 7 7 7 7 7 ", all_eq_true.mp rfl,
      by decide +kernel, by decide +kernel⟩ .nil
  nodup := nodup_singleton _

/-- A clone, with a device that is gone. -/
theorem parsesExactly_clone :
    ((newNetDev.parse (netDevHeader ++ utf8 "lo: 1 2 3 4 5 6 7 8 9 10 11 12 13 14 15 16\n")).1.clone
      false).ParsesExactly [ethLine] ethContent := by
  refine (parsesExactly_iff (.clone (.parse .new _) false) ethContent_content).mpr ⟨by decide +kernel, ?_, ?_, ?_⟩
  · simp only [mem_singleton, forall_eq]
    decide +kernel
  · decide +kernel
  intro dev stats hlookup hscan
  rw [clone, lookup_filterMapEntries] at hlookup
  obtain ⟨old, -, hstats⟩ := Option.bind_eq_some_iff.mp hlookup
  cases hstats
  have hmake : NetDevStats.make.scanNum ≠ 0 + 1 := by decide
  exact absurd hscan hmake

/-- A device whose name has one character. -/
theorem short_name_missing :
    NetDevContent [shortLine] shortContent ∧
      (newNetDev.parse shortContent).2 =
        some (.missingDev 3 (utf8 "a: 0 0 0 0 0 0 0 0 0 0 0 0 0 0 0 0")) := by
  refine ⟨⟨⟨_, rfl, ?_⟩, nodup_singleton _⟩, by decide +kernel⟩
  have hline : utf8 "a: 0 0 0 0 0 0 0 0 0 0 0 0 0 0 0 0\n" =
      utf8 "a: 0 0 0 0 0 0 0 0 0 0 0 0 0 0 0 0" ++ [newline] := by decide +kernel
  rw [hline, lines_cons (by decide +kernel)]
  exact .cons ⟨[], utf8 " 0 0 0 0 0 0 0 0 0 0 0 0 0 0 0 0", all_eq_true.mp rfl,
    by decide +kernel, by decide +kernel⟩ .nil

end NetDev

end Lsvmi.Procfs
