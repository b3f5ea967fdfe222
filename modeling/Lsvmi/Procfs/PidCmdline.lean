import Lsvmi.ProcPid.Data
import Lsvmi.Procfs.Common
import Lsvmi.Reasoning.Exposition
import Lsvmi.Reasoning.Utf8

/-!
# Command lines

The bytes of a command line are made fit for the value of a label as they are read.  A command line
that is longer than what is read of it ends with an ellipsis, which is put where a character ends.
-/

namespace Lsvmi.Procfs

open Reasoning List Exposition Utf8

variable {maxReadSize : Nat} {file : Bytes}

def cmdlineByteConvert (c : UInt8) : Option Bytes :=
  if c = 0 then some (utf8 " ")
  else if c = 10 then some (utf8 "\\n")
  else if c = 92 then some (utf8 "\\\\")
  else if c = 34 then some (utf8 "\\\"")
  else none

def sanitize (content : Bytes) : Bytes :=
  content.flatMap fun c => (cmdlineByteConvert c).getD [c]

theorem sanitize_eq_escape (content : Bytes) :
    sanitize content = Exposition.escape (content.map fun c => if c = 0 then 32 else c) := by
  have hbyte : ∀ c : UInt8, (cmdlineByteConvert c).getD [c] =
      Exposition.escapeByte (if c = 0 then 32 else c) := by
    intro c
    unfold cmdlineByteConvert
    by_cases hnul : c = 0
    · subst hnul
      rfl
    rw [if_neg hnul, if_neg hnul]
    by_cases hnewline : c = 10
    · subst hnewline
      rfl
    by_cases hbackslash : c = 92
    · subst hbackslash
      rfl
    by_cases hquote : c = 34
    · subst hquote
      rfl
    · simp [Exposition.escapeByte, Exposition.backslash, Exposition.quote,
        Exposition.newline, hnewline, hbackslash, hquote]
  rw [sanitize, Exposition.escape, flatMap_map]
  congr 1
  funext c
  exact hbyte c

/-- The parser with the buffer it keeps, if it has one already, and what `GetData` returns. -/
structure PidCmdline where
  cmdline : Option Bytes
  data : ProcPid.PidCmdline

/-- The search for the start of a character, from `pos` down to `stop` at most. -/
def searchCharStart (buf : Bytes) (stop : Nat) : Nat → Nat
  | 0 => 0
  | pos + 1 =>
    if pos + 1 > stop ∧ (buf[pos + 1]?).any Utf8.isContinuation = true then
      searchCharStart buf stop pos
    else pos + 1

/-- The ellipsis takes the place of the characters from there on.  In a shorter buffer it would
start before the first byte, which is a run-time panic. -/
def replaceEnd (buf : Bytes) : Option Bytes :=
  if buf.length < 3 then none
  else
    let pos := searchCharStart buf (buf.length - 6) (buf.length - 3)
    some (buf.take pos ++ utf8 "...")

def usedContent (maxReadSize : Nat) (file : Bytes) : Option Bytes :=
  let (buf, truncated) := readFile maxReadSize file
  if truncated then replaceEnd buf else some buf

/-- The loop that copies a stretch of bytes up to one that is converted, and then the conversion.
`cmdEnd` is the length of the output at the first NUL. -/
def copyStretches : Nat → Bytes → Option Nat → Bytes → Bytes × Option Nat
  | 0, cmdline, cmdEnd, _ => (cmdline, cmdEnd)
  | fuel + 1, cmdline, cmdEnd, buf =>
    let cmdline := cmdline ++ buf.takeWhile fun c => (cmdlineByteConvert c).isNone
    match buf.dropWhile fun c => (cmdlineByteConvert c).isNone with
    | [] => (cmdline, cmdEnd)
    | c :: rest =>
      let cmdEnd := if cmdEnd = none ∧ c = 0 then some cmdline.length else cmdEnd
      copyStretches fuel (cmdline ++ (cmdlineByteConvert c).getD []) cmdEnd rest

def PidCmdline.cmdlineBuf (pidCmdline : PidCmdline) : Bytes :=
  match pidCmdline.cmdline with
  -- `GetBuf` resets what it takes from the pool.
  | none => []
  -- `Reset` keeps the memory, not the content.
  | some cmdline => cmdline.take 0

def PidCmdline.parseContent (pidCmdline : PidCmdline) (content : Bytes) : PidCmdline :=
  let buf := content.rdropWhile (· == 0)
  let (cmdline, cmdEnd) := copyStretches buf.length pidCmdline.cmdlineBuf none buf
  let cmdPath := cmdline.take (cmdEnd.getD cmdline.length)
  let args := cmdEnd.elim [] fun cmdEnd => cmdline.drop (cmdEnd + 1)
  -- The bytes behind the last slash, from a search that goes backwards.
  ⟨some cmdline, cmdPath, args, cmdPath.rtakeWhile (· != 47)⟩

/-- `Parse` of a file that cannot be read, or of one with some content. -/
def PidCmdline.parse (maxReadSize : Nat) (pidCmdline : PidCmdline) :
    Option Bytes → Option (ProcPid.Parsed PidCmdline)
  | none => some ⟨false, pidCmdline⟩
  | some file =>
    (usedContent maxReadSize file).map fun content => ⟨true, pidCmdline.parseContent content⟩

theorem sanitize_append (b b' : Bytes) : sanitize (b ++ b') = sanitize b ++ sanitize b' :=
  flatMap_append

theorem sanitize_cons (c : UInt8) (b : Bytes) :
    sanitize (c :: b) = (cmdlineByteConvert c).getD [c] ++ sanitize b := rfl

theorem sanitize_eq_self {b : Bytes} (h : ∀ c ∈ b, (cmdlineByteConvert c).isNone) :
    sanitize b = b := by
  induction b with
  | nil => rfl
  | cons c b ih =>
    rw [sanitize_cons, Option.isNone_iff_eq_none.mp (h c mem_cons_self),
      ih fun x hx => h x (mem_cons_of_mem c hx)]
    rfl

def nulPosition (cmdline buf : Bytes) : Option Nat :=
  if 0 ∈ buf then some (cmdline ++ sanitize (buf.takeWhile (· != 0))).length else none

theorem nulPosition_stretch {cmdline stretch : Bytes} (buf : Bytes) (h : 0 ∉ stretch)
    (hsame : sanitize stretch = stretch) :
    nulPosition cmdline (stretch ++ buf) = nulPosition (cmdline ++ stretch) buf := by
  have hne : ∀ c ∈ stretch, (c != 0) := by
    intro c hc
    exact bne_iff_ne.mpr fun hzero => h (hzero ▸ hc)
  unfold nulPosition
  rw [takeWhile_append_of_pos hne, sanitize_append, hsame, append_assoc]
  simp only [mem_append, h, false_or]

theorem nulPosition_cons {cmdline : Bytes} {c : UInt8} (rest : Bytes) (h : c ≠ 0) :
    nulPosition cmdline (c :: rest) =
      nulPosition (cmdline ++ (cmdlineByteConvert c).getD [c]) rest := by
  unfold nulPosition
  have hne : (c != 0) := bne_iff_ne.mpr h
  rw [takeWhile_cons, if_pos hne, sanitize_cons, append_assoc]
  simp only [mem_cons, h.symm, false_or]

theorem nulPosition_zero (cmdline rest : Bytes) :
    nulPosition cmdline (0 :: rest) = some cmdline.length := by
  unfold nulPosition
  rw [if_pos mem_cons_self, takeWhile_cons_of_neg (by decide)]
  simp [sanitize]

theorem copyStretches_eq {fuel : Nat} {buf : Bytes} (hfuel : buf.length ≤ fuel) (cmdline : Bytes)
    (cmdEnd : Option Nat) :
    copyStretches fuel cmdline cmdEnd buf =
      (cmdline ++ sanitize buf, cmdEnd.or (nulPosition cmdline buf)) := by
  induction fuel generalizing buf cmdline cmdEnd with
  | zero =>
    rw [length_eq_zero_iff.mp (Nat.le_zero.mp hfuel)]
    simp [copyStretches, sanitize, nulPosition]
  | succ fuel ih =>
    have hsplit := takeWhile_append_dropWhile (p := fun c => (cmdlineByteConvert c).isNone)
      (l := buf)
    have hplain : ∀ c ∈ buf.takeWhile fun c => (cmdlineByteConvert c).isNone,
        (cmdlineByteConvert c).isNone :=
      fun c hc => mem_takeWhile_imp (p := fun c => (cmdlineByteConvert c).isNone) hc
    rw [copyStretches]
    generalize buf.takeWhile (fun c => (cmdlineByteConvert c).isNone) = stretch at hsplit hplain ⊢
    have hzero : 0 ∉ stretch := fun h => absurd (hplain 0 h) (by decide)
    have hsame := sanitize_eq_self hplain
    cases hdrop : buf.dropWhile fun c => (cmdlineByteConvert c).isNone with
    | nil =>
      rw [hdrop, append_nil] at hsplit
      rw [← hsplit, hsame, nulPosition, if_neg hzero, Option.or_none]
    | cons c rest =>
      rw [hdrop] at hsplit
      have hconvert : (cmdlineByteConvert c).isNone = false := by
        have hhead := head?_dropWhile_not (fun c => (cmdlineByteConvert c).isNone) buf
        rw [hdrop] at hhead
        simpa using hhead
      have hlength : rest.length ≤ fuel := by
        rw [← hsplit, length_append, length_cons] at hfuel
        omega
      obtain ⟨conversion, hc⟩ := Option.isSome_iff_exists.mp (Option.isNone_eq_false_iff.mp hconvert)
      simp only
      rw [ih hlength, ← hsplit, sanitize_append, hsame, sanitize_cons, hc,
        nulPosition_stretch _ hzero hsame]
      apply Prod.ext
      · simp
      by_cases hnul : c = 0
      · subst hnul
        rw [nulPosition_zero]
        cases cmdEnd with
        | none => rfl
        | some _ => rfl
      · rw [nulPosition_cons _ hnul, hc]
        simp [hnul]

theorem slash_not_mem_escapeByte {c : UInt8} (h : c ≠ 47) : 47 ∉ escapeByte c := by
  unfold escapeByte
  split
  · decide
  split
  · decide
  · split
    · decide
    · simpa using h.symm

theorem rtakeWhile_escape (b : Bytes) :
    (escape b).rtakeWhile (· != 47) =
      escape (b.rtakeWhile (· != 47)) := by
  induction b using reverseRecOn with
  | nil => rfl
  | append_singleton b c ih =>
    have hlast : escape [c] = escapeByte c := append_nil _
    rw [escape_append, hlast]
    by_cases hc : c = 47
    · subst hc
      rw [rtakeWhile_concat_neg _ _ _ (by decide)]
      exact rtakeWhile_concat_neg _ _ _ (by decide)
    have hall : ∀ x ∈ (escapeByte c).reverse, (x != 47) := by
      intro x hx
      exact bne_iff_ne.mpr fun heq =>
        slash_not_mem_escapeByte hc (heq ▸ mem_reverse.mp hx)
    have hne : (c != 47) := bne_iff_ne.mpr hc
    rw [rtakeWhile_concat, if_pos hne, escape_append, hlast, ← ih,
      rtakeWhile, reverse_append, takeWhile_append_of_pos hall, reverse_append, reverse_reverse]
    rfl

def trimNuls (content : Bytes) : Bytes := content.rdropWhile (· == 0)

def spaced (b : Bytes) : Bytes := b.map fun c => if c = 0 then 32 else c

theorem spaced_eq_self {b : Bytes} (h : 0 ∉ b) : spaced b = b := by
  have hmap : spaced b = b.map id := by
    apply map_congr_left
    intro c hc
    have hne : c ≠ 0 := fun hzero => h (hzero ▸ hc)
    exact if_neg hne
  rw [hmap, map_id]

theorem zero_not_mem_takeWhile (b : Bytes) : 0 ∉ b.takeWhile (· != 0) := by
  intro h
  have hne := mem_takeWhile_imp h
  exact absurd hne (by decide)

theorem parseContent_data (pidCmdline : PidCmdline) (content : Bytes) :
    (pidCmdline.parseContent content).data =
      ⟨escape ((trimNuls content).takeWhile (· != 0)),
        escape (spaced (((trimNuls content).dropWhile (· != 0)).drop 1)),
        escape (((trimNuls content).takeWhile (· != 0)).rtakeWhile (· != 47))⟩ := by
  have hbuf : pidCmdline.cmdlineBuf = [] := by
    unfold PidCmdline.cmdlineBuf
    split <;> rfl
  rw [PidCmdline.parseContent, ← trimNuls, hbuf, copyStretches_eq (Nat.le_refl _)]
  simp only [nil_append, Option.none_or]
  have hsplit := takeWhile_append_dropWhile (p := (· != 0)) (l := trimNuls content)
  have hzero := zero_not_mem_takeWhile (trimNuls content)
  have hpath := sanitize_eq_escape ((trimNuls content).takeWhile (· != 0))
  rw [← spaced, spaced_eq_self hzero] at hpath
  cases hrest : (trimNuls content).dropWhile (· != 0) with
  | nil =>
    rw [hrest, append_nil] at hsplit
    rw [hsplit] at hzero hpath ⊢
    rw [nulPosition, if_neg hzero, Option.getD_none, take_length, hpath, rtakeWhile_escape]
    rfl
  | cons c rest =>
    rw [hrest] at hsplit
    have hc : c = 0 := by
      have hhead := head?_dropWhile_not (· != 0) (trimNuls content)
      rw [hrest] at hhead
      simpa using hhead
    subst hc
    have hposition : nulPosition [] (trimNuls content) =
        some (sanitize ((trimNuls content).takeWhile (· != 0))).length := by
      rw [nulPosition, if_pos (hsplit ▸ mem_append_right _ mem_cons_self)]
      rfl
    have hcmdline : sanitize (trimNuls content) =
        sanitize ((trimNuls content).takeWhile (· != 0)) ++ 32 :: sanitize rest := by
      conv_lhs => rw [← hsplit, sanitize_append, sanitize_cons]
      rfl
    rw [hposition, hcmdline, Option.getD_some, take_left, Option.elim_some,
      drop_append, hpath, rtakeWhile_escape, sanitize_eq_escape rest]
    simp [spaced]

theorem searchCharStart_eq {buf : Bytes} {stop pos start : Nat}
    (h : StartsAt buf pos start) (hstop : stop ≤ start) : searchCharStart buf stop pos = start := by
  induction pos with
  | zero => exact (Nat.le_zero.mp h.le).symm
  | succ pos ih =>
    have hany (q : Nat) (continuation : Bool) (hat : At buf q continuation) :
        (buf[q]?).any isContinuation = continuation := by
      obtain ⟨c, hc, heq⟩ := Option.map_eq_some_iff.mp hat
      rw [hc, Option.any_some, heq]
    rw [searchCharStart]
    by_cases heq : start = pos + 1
    · rw [if_neg, heq]
      intro hgo
      rw [hany _ _ (heq ▸ h.lead)] at hgo
      cases hgo.2
    have hle : start ≤ pos := by
      have hle := h.le
      omega
    rw [if_pos ⟨by omega, hany _ _ (h.between _ (by omega) (Nat.le_refl _))⟩]
    exact ih (h.pred hle)

theorem usedContent_of_readAll (h : maxReadSize = 0 ∨ file.length < maxReadSize) :
    usedContent maxReadSize file = some file := by
  rw [usedContent, readFile, if_pos h]
  rfl

theorem usedContent_of_truncated (hpos : 3 ≤ maxReadSize) (h : maxReadSize ≤ file.length) :
    usedContent maxReadSize file =
      some ((file.take maxReadSize).take
        (searchCharStart (file.take maxReadSize) (maxReadSize - 6) (maxReadSize - 3)) ++
          utf8 "...") := by
  have hlength : (file.take maxReadSize).length = maxReadSize := by
    rw [length_take]
    omega
  rw [usedContent, readFile, if_neg (by omega)]
  simp only [if_true, replaceEnd]
  rw [hlength, if_neg (by omega)]

/-- The characters that are kept end three bytes or more before the end, and no longer piece of the
text does. -/
theorem usedContent_of_utf8 {text : List Char} (hmax : 6 ≤ maxReadSize)
    (h : maxReadSize ≤ file.length) (hread : file.take maxReadSize <+: encode text) :
    ∃ k, usedContent maxReadSize file = some (encode (text.take k) ++ utf8 "...") ∧
      (encode (text.take k)).length + 3 ≤ maxReadSize ∧
      ∀ k', (encode (text.take k')).length + 3 ≤ maxReadSize →
        (encode (text.take k')).length ≤ (encode (text.take k)).length := by
  have hlength : (file.take maxReadSize).length = maxReadSize := by
    rw [length_take]
    omega
  have hpos : maxReadSize - 3 < (encode text).length := by
    have hle := hread.length_le
    omega
  obtain ⟨k, hstarts, hlongest⟩ := exists_startsAt hpos
  have hle := hstarts.le
  have hnear := hstarts.near
  refine ⟨k, ?_, by omega, fun k' hk' => hlongest k' (by omega)⟩
  have hstart : searchCharStart (file.take maxReadSize) (maxReadSize - 6) (maxReadSize - 3) =
      (encode (text.take k)).length :=
    searchCharStart_eq (hstarts.of_isPrefix hread (by omega)) (by omega)
  obtain ⟨rest, hrest⟩ := hread
  have htake := take_encode text k
  rw [← hrest, take_append_of_le_length (by omega)] at htake
  rw [usedContent_of_truncated (by omega) h, hstart, htake]

/-- What the parser hands out for the content it has used. -/
structure LabelValues (used : Bytes) (data : ProcPid.PidCmdline) : Prop where
  cmdPath : Exposition.unescape data.cmdPath = (trimNuls used).takeWhile (· != 0)
  args : Exposition.unescape data.args =
    spaced (((trimNuls used).dropWhile (· != 0)).drop 1)
  cmd : 47 ∉ data.cmd ∧ (data.cmd = data.cmdPath ∨ ∃ dir, data.cmdPath = dir ++ 47 :: data.cmd)
  wellEscaped : ∀ v ∈ [data.cmdPath, data.args, data.cmd], Exposition.wellEscaped false v = true

theorem rtakeWhile_slash (b : Bytes) :
    47 ∉ b.rtakeWhile (· != 47) ∧
      (b.rtakeWhile (· != 47) = b ∨ ∃ dir, b = dir ++ 47 :: b.rtakeWhile (· != 47)) := by
  constructor
  · intro h
    exact absurd (mem_rtakeWhile_imp h) (by decide)
  have hsplit := rdropWhile_append_rtakeWhile (p := (· != 47)) (l := b)
  by_cases hnil : b.rdropWhile (· != 47) = []
  · left
    rw [hnil] at hsplit
    exact hsplit
  right
  have hlast := rdropWhile_last_not (· != 47) b hnil
  refine ⟨(b.rdropWhile (· != 47)).dropLast, ?_⟩
  rw [← dropLast_append_getLast hnil, bne_iff_ne.not_left.mp hlast] at hsplit
  rw [append_cons]
  exact hsplit.symm

theorem parseContent_labelValues (pidCmdline : PidCmdline) (content : Bytes) :
    LabelValues content (pidCmdline.parseContent content).data := by
  rw [parseContent_data]
  refine ⟨unescape_escape _, unescape_escape _, ?_, ?_⟩
  · show 47 ∉ escape (rtakeWhile _ _) ∧ _
    rw [← rtakeWhile_escape]
    exact rtakeWhile_slash _
  · simp [wellEscaped_escape]

/-- The label values are well escaped and stand for the command and the arguments of the content
that is used. That is all of it, or, where UTF-8 text is cut off at the limit, the longest part of
whole characters that leaves room for the ellipsis. -/
theorem parse_label_values (maxReadSize : Nat) (pidCmdline : PidCmdline) (content : Bytes) :
    (maxReadSize = 0 ∨ 3 ≤ maxReadSize →
      ∃ result, pidCmdline.parse maxReadSize (some content) = some ⟨true, result⟩) ∧
    ∀ result, pidCmdline.parse maxReadSize (some content) = some ⟨true, result⟩ →
      ∃ used, usedContent maxReadSize content = some used ∧
        LabelValues used result.data ∧
        (maxReadSize = 0 ∨ content.length < maxReadSize → used = content) ∧
        ∀ text : List Char, 6 ≤ maxReadSize → maxReadSize ≤ content.length →
          content.take maxReadSize <+: Utf8.encode text →
          ∃ k, used = Utf8.encode (text.take k) ++ utf8 "..." ∧
            (Utf8.encode (text.take k)).length + 3 ≤ maxReadSize ∧
            ∀ k', (Utf8.encode (text.take k')).length + 3 ≤ maxReadSize →
              (Utf8.encode (text.take k')).length ≤ (Utf8.encode (text.take k)).length := by
  constructor
  · intro hmax
    by_cases hall : maxReadSize = 0 ∨ content.length < maxReadSize
    · exact ⟨_, by rw [PidCmdline.parse, usedContent_of_readAll hall, Option.map_some]⟩
    · exact ⟨_, by rw [PidCmdline.parse, usedContent_of_truncated (by omega) (by omega),
        Option.map_some]⟩
  · intro result h
    obtain ⟨used, hused, hresult⟩ := Option.map_eq_some_iff.mp h
    cases hresult
    refine ⟨used, hused, parseContent_labelValues pidCmdline used, ?_, ?_⟩
    · intro hall
      rw [usedContent_of_readAll hall] at hused
      exact (Option.some.inj hused).symm
    · intro text hmax hlong hread
      obtain ⟨k, hk, hle, hlongest⟩ := usedContent_of_utf8 hmax hlong hread
      rw [hused] at hk
      exact ⟨k, Option.some.inj hk, hle, hlongest⟩

/-- Eight bytes of a text of nine; the last place for the ellipsis is inside of a character. -/
theorem parse_label_values_truncated :
    ∃ result used k,
      (⟨some (utf8 "init"), utf8 "init", [], utf8 "init"⟩ : PidCmdline).parse 8
        (some (Utf8.encode ['l', 's', '\x00', '"', 'é', 'x', 'y', 'z'])) = some ⟨true, result⟩ ∧
      LabelValues used result.data ∧
      used = Utf8.encode (['l', 's', '\x00', '"', 'é', 'x', 'y', 'z'].take k) ++ utf8 "..." := by
  have hparse := parse_label_values 8 ⟨some (utf8 "init"), utf8 "init", [], utf8 "init"⟩
    (encode ['l', 's', '\x00', '"', 'é', 'x', 'y', 'z'])
  obtain ⟨result, hresult⟩ := hparse.1 (by decide)
  obtain ⟨used, -, hvalues, -, htext⟩ := hparse.2 result hresult
  obtain ⟨k, hk, -⟩ := htext ['l', 's', '\x00', '"', 'é', 'x', 'y', 'z'] (by decide) (by decide)
    (by decide)
  exact ⟨result, used, k, hresult, hvalues, hk⟩

end Lsvmi.Procfs
