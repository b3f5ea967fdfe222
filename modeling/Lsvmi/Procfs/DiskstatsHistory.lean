import Lsvmi.Procfs.Diskstats

/-!
# Contents of /proc/diskstats parsed one after the other

The values of a disk are written over the ones of the scan before, as many as there are in the line.
When all the contents have the same number of columns, nothing of an earlier content is left, and
`Changed` tells whether a disk was added, renamed or removed.
-/

namespace Lsvmi.Procfs

open Reasoning List

variable {disks : List DiskLine}

/-- The lines of the buffer are the ones of the disks, each with `k` values.  The last line may lack
its newline. -/
@[mk_iff] structure DiskContent (k : Nat) (disks : List DiskLine) (buf : Bytes) : Prop where
  words_eq : (lines newline buf).map (fields isWhitespace) = disks.map DiskLine.words
  length_eq : ∀ disk ∈ disks, disk.values.length = k
  digits : ∀ disk ∈ disks, ∀ word ∈ disk.values, ∀ c ∈ word, isDigit c = true
  nodup : (disks.map DiskLine.majorMinor).Nodup

instance (k : Nat) (disks : List DiskLine) (buf : Bytes) : Decidable (DiskContent k disks buf) :=
  decidable_of_iff' _ (diskContent_iff k disks buf)

def diskAt (disks : List DiskLine) (key : Bytes) : Option DiskLine :=
  disks.find? (·.majorMinor = key)

open DiskLine

theorem diskAt_majorMinor (hnodup : (disks.map majorMinor).Nodup)
    {disk : DiskLine} (h : disk ∈ disks) : diskAt disks disk.majorMinor = some disk := by
  cases hfind : diskAt disks disk.majorMinor with
  | none => simpa using find?_eq_none.mp hfind disk h
  | some other =>
    have hkey : other.majorMinor = disk.majorMinor := by simpa using find?_some hfind
    rw [inj_on_of_nodup_map hnodup (mem_of_find?_eq_some hfind) h hkey]

theorem diskAt_eq_none {key : Bytes}
    (h : key ∉ disks.map majorMinor) : diskAt disks key = none := by
  rw [diskAt, find?_eq_none]
  intro disk hdisk hkey
  exact h (mem_map.mpr ⟨disk, hdisk, by simpa using hkey⟩)

/-- The number that is printed, modulo 2^32; the field that may be in jiffies is converted if there
is a conversion factor. -/
def printedValue (jiffiesToMillisec : UInt32) (fieldNum : Nat) (word : Bytes) : UInt32 :=
  if jiffiesToMillisec ≠ 0 ∧ fieldNum = diskstatsIoMillisec then
    UInt32.ofNat (decimal word * jiffiesToMillisec.toNat)
  else UInt32.ofNat (decimal word)

def DiskLine.printedStats (disk : DiskLine) (jiffiesToMillisec : UInt32) : List UInt32 :=
  disk.values.mapIdx (printedValue jiffiesToMillisec) ++
    List.replicate (diskstatsValueFieldsNum - disk.values.length) 0

namespace Diskstats

variable {diskstats : Diskstats} {disks : List DiskLine}

theorem fieldValue_eq (jiffiesToMillisec : UInt32) (fieldNum : Nat) (word : Bytes) :
    fieldValue jiffiesToMillisec fieldNum word = printedValue jiffiesToMillisec fieldNum word := by
  have hpos : 0 < jiffiesToMillisec ↔ jiffiesToMillisec ≠ 0 := UInt32.pos_iff_ne_zero
  simp only [fieldValue, printedValue, foldl_digits32, hpos, UInt32.ofNat_mul, UInt32.ofNat_toNat]

def ZeroFrom (k : Nat) (diskstats : Diskstats) : Prop :=
  ∀ key devInfo, diskstats.devInfoMap.lookup key = some devInfo →
    devInfo.stats.drop k = List.replicate (diskstatsValueFieldsNum - k) 0

theorem ZeroFrom.updateDevInfo {k : Nat} (h : diskstats.ZeroFrom k)
    {majorMinor name : Bytes} {values : List UInt32} (hvalues : values.length = k) (scanNum : Nat) :
    (diskstats.updateDevInfo majorMinor name values scanNum).ZeroFrom k := by
  intro key devInfo hkey
  by_cases hself : key = majorMinor
  · subst hself hvalues
    unfold Diskstats.updateDevInfo at hkey
    cases hlookup : diskstats.devInfoMap.lookup key with
    | none =>
      simp only [hlookup, Finmap.lookup_insert, Option.some.injEq] at hkey
      subst hkey
      simp
    | some old =>
      simp only [hlookup, Finmap.lookup_insert, Option.some.injEq] at hkey
      subst hkey
      simpa using h key old hlookup
  · rw [updateDevInfo_lookup_ne hself] at hkey
    exact h key devInfo hkey

theorem ZeroFrom.updateDevInfos {k : Nat} (h : diskstats.ZeroFrom k)
    (hlen : ∀ disk ∈ disks, disk.values.length = k) (scanNum : Nat) :
    (diskstats.updateDevInfos scanNum disks).ZeroFrom k := by
  induction disks using reverseRecOn with
  | nil => exact h
  | append_singleton disks disk ih =>
    rw [updateDevInfos_append]
    refine (ih fun d hd => hlen d (by simp [hd])).updateDevInfo ?_ scanNum
    rw [stats, length_mapIdx]
    exact hlen disk (by simp)

theorem ZeroFrom.removeOutOfScope {k : Nat} (h : diskstats.ZeroFrom k)
    (scanNum : Nat) : (diskstats.removeOutOfScope scanNum).ZeroFrom k := by
  intro key devInfo hkey
  rw [Diskstats.removeOutOfScope] at hkey
  exact h key devInfo (lookup_filterMapEntries_ite.mp hkey).1

theorem ZeroFrom.clone {k : Nat} (diskstats : Diskstats) : diskstats.clone.ZeroFrom k := by
  intro key devInfo hkey
  simp only [Diskstats.clone, lookup_filterMapEntries] at hkey
  obtain ⟨old, -, hsome⟩ := Option.bind_eq_some_iff.mp hkey
  cases hsome
  exact drop_replicate

theorem Reflects.stats_eq_printed {j : UInt32} {disk : DiskLine} {devInfo : DiskstatsDevInfo}
    (h : Reflects j disk devInfo) (hzero : devInfo.stats.drop disk.values.length =
      replicate (diskstatsValueFieldsNum - disk.values.length) 0) :
    devInfo.stats = disk.printedStats j := by
  have htake : devInfo.stats.take disk.values.length = disk.values.mapIdx (printedValue j) := by
    apply ext_getElem?
    intro i
    by_cases hi : i < disk.values.length
    · have hword := getElem?_eq_getElem hi
      rw [getElem?_take_of_lt hi, h.stats_eq i _ hword, getElem?_mapIdx, hword, fieldValue_eq]
      rfl
    · rw [getElem?_eq_none (by rw [length_take]; omega),
        getElem?_eq_none (by rw [length_mapIdx]; omega)]
  rw [← take_append_drop disk.values.length devInfo.stats, htake, hzero]
  rfl

theorem updateDevInfo_changed (diskstats : Diskstats) (majorMinor name : Bytes)
    (values : List UInt32) (scanNum : Nat) :
    (diskstats.updateDevInfo majorMinor name values scanNum).changed = true ↔
      diskstats.changed = true ∨
        (diskstats.devInfoMap.lookup majorMinor).map DiskstatsDevInfo.name ≠ some name := by
  unfold updateDevInfo
  cases diskstats.devInfoMap.lookup majorMinor with
  | none => simp
  | some devInfo => simp

theorem updateDevInfos_changed (hd : diskstats.Ok) (scanNum : Nat) (hok : ∀ disk ∈ disks, disk.Ok)
    (hnodup : (disks.map majorMinor).Nodup) :
    (diskstats.updateDevInfos scanNum disks).changed = true ↔
      diskstats.changed = true ∨ ∃ disk ∈ disks,
        (diskstats.devInfoMap.lookup disk.majorMinor).map DiskstatsDevInfo.name ≠
          some disk.name := by
  induction disks using reverseRecOn with
  | nil => simp [updateDevInfos]
  | append_singleton disks disk ih =>
    rw [map_append, nodup_append] at hnodup
    obtain ⟨hnodup, -, hnew⟩ := hnodup
    have hok' : ∀ d ∈ disks, d.Ok := fun d hd => hok d (by simp [hd])
    -- the disks before it have other keys
    have hkey : disk.majorMinor ∉ disks.map majorMinor := fun hmem => hnew _ hmem _ (by simp) rfl
    rw [updateDevInfos_append, updateDevInfo_changed, ih hok' hnodup,
      (updateDevInfos_entered hd scanNum hok' hnodup).others _ hkey, or_assoc]
    refine or_congr_right ?_
    simp only [mem_append, mem_singleton, or_and_right, exists_or, exists_eq_left]

theorem removeOutOfScope_changed (diskstats : Diskstats) (scanNum : Nat) :
    (diskstats.removeOutOfScope scanNum).changed = true ↔ diskstats.changed = true ∨
      ∃ key ∈ diskstats.devInfoMap,
        (diskstats.removeOutOfScope scanNum).devInfoMap.lookup key = none := by
  have hkeys := keys_filterMapEntries_ne
    (fun (_ : Bytes) (devInfo : DiskstatsDevInfo) =>
      if scanNum ≠ devInfo.scanNum then none else some devInfo) diskstats.devInfoMap
  simp only [removeOutOfScope, Bool.or_eq_true, decide_eq_true_eq, hkeys]

theorem Entered.changed_iff {entered : Diskstats} {scanNum : Nat}
    (he : Entered diskstats scanNum disks entered) (hd : diskstats.Ok)
    (hscan : diskstats.scanNum < scanNum) :
    (entered.removeOutOfScope scanNum).changed = true ↔ entered.changed = true ∨
      ∃ key, key ∉ disks.map majorMinor ∧ key ∈ diskstats.devInfoMap := by
  rw [removeOutOfScope_changed]
  refine or_congr_right (exists_congr fun key => ?_)
  by_cases hkey : key ∈ disks.map majorMinor
  · obtain ⟨disk, hdisk, rfl⟩ := mem_map.mp hkey
    obtain ⟨devInfo, hfound, -⟩ := he.lookup_found hdisk
    simp [hfound, hkey]
  · rw [← Finmap.lookup_isSome, he.others key hkey, Finmap.lookup_isSome]
    simp [he.lookup_gone hd hscan hkey, hkey]

theorem parse_eq (diskstats : Diskstats) (file : Bytes) :
    diskstats.parse file = if file.length < diskstatsMaxReadSize then diskstats.parseBuf file
      else .error .potentialTruncation := parseFile_eq (by decide) _ _ _

/-- The objects that parse contents with `k` values for each disk, and their clones. -/
inductive Reached (k : Nat) (jiffiesToMillisec : UInt32) : Diskstats → Prop
  | new : Reached k jiffiesToMillisec (newDiskstats jiffiesToMillisec)
  | parse {diskstats parsed : Diskstats} {disks : List DiskLine} {buf : Bytes}
    (h : Reached k jiffiesToMillisec diskstats) (hcontent : DiskContent k disks buf)
    (hparse : diskstats.parse buf = .ok parsed) : Reached k jiffiesToMillisec parsed
  | clone {diskstats : Diskstats} (h : Reached k jiffiesToMillisec diskstats) :
    Reached k jiffiesToMillisec diskstats.clone

section

variable {k : Nat} (hmin : minNumDiskstatsValues ≤ k) (hmax : k ≤ diskstatsValueFieldsNum)

include hmin hmax

theorem DiskContent.ok {buf : Bytes} (h : DiskContent k disks buf) : ∀ disk ∈ disks, disk.Ok := by
  intro disk hdisk
  have hlen := h.length_eq disk hdisk
  exact ⟨by omega, by omega, h.digits disk hdisk⟩

theorem parse_content (diskstats : Diskstats) {buf : Bytes} (h : DiskContent k disks buf)
    (hlength : buf.length < diskstatsMaxReadSize) :
    diskstats.parse buf =
      .ok (({ diskstats with changed := false }.updateDevInfos (diskstats.scanNum + 1)
        disks).removeOutOfScope (diskstats.scanNum + 1)) := by
  rw [parse_eq, if_pos hlength, parseBuf,
    parseLines_lines _ _ _ _ h.words_eq (DiskContent.ok hmin hmax h) (Nat.le_refl _)]
  rfl

theorem Reached.inv {j : UInt32} {diskstats : Diskstats} (h : Reached k j diskstats) :
    diskstats.Ok ∧ diskstats.ZeroFrom k ∧ diskstats.jiffiesToMillisec = j := by
  induction h with
  | new =>
    refine ⟨newDiskstats_ok j, ?_, rfl⟩
    intro key devInfo hkey
    simp [newDiskstats] at hkey
  | @parse diskstats parsed disks buf h hcontent hparse ih =>
    obtain ⟨hok, hzero, hj⟩ := ih
    have hlength : buf.length < diskstatsMaxReadSize := by
      by_contra hlength
      rw [parse_eq, if_neg hlength] at hparse
      cases hparse
    rw [parse_content hmin hmax diskstats hcontent hlength] at hparse
    cases hparse
    have hstart : { diskstats with changed := false }.Ok := hok
    have he := updateDevInfos_entered hstart (diskstats.scanNum + 1)
      (DiskContent.ok hmin hmax hcontent) hcontent.nodup
    have hzero' : { diskstats with changed := false }.ZeroFrom k := hzero
    exact ⟨he.ok hstart (Nat.lt_succ_self _),
      (hzero'.updateDevInfos hcontent.length_eq _).removeOutOfScope _, he.jiffies_eq.trans hj⟩
  | @clone diskstats h ih => exact ⟨ih.1.clone, ZeroFrom.clone diskstats, ih.2.2⟩

/-- A content that is below the limit of the read is accepted, its disks are the entries left, and
`Changed` tells whether their keys and names are other than before. -/
theorem parse_exact {j : UInt32} {diskstats : Diskstats} (h : Reached k j diskstats)
    {disks : List DiskLine} {buf : Bytes} (hcontent : DiskContent k disks buf)
    (hlength : buf.length < diskstatsMaxReadSize) :
    ∃ parsed, diskstats.parse buf = .ok parsed ∧
      (∀ key, (parsed.devInfoMap.lookup key).map (fun devInfo => (devInfo.name, devInfo.stats)) =
        (diskAt disks key).map fun disk => (disk.name, disk.printedStats j)) ∧
      (parsed.changed = true ↔ ∃ key, (diskstats.devInfoMap.lookup key).map DiskstatsDevInfo.name ≠
          (diskAt disks key).map DiskLine.name) := by
  obtain ⟨hok, hzero, hj⟩ := h.inv hmin hmax
  let start := { diskstats with changed := false }
  have hstart : start.Ok := hok
  have hscan : start.scanNum < diskstats.scanNum + 1 := Nat.lt_succ_self _
  have hlines := DiskContent.ok hmin hmax hcontent
  have he := updateDevInfos_entered hstart (diskstats.scanNum + 1) hlines hcontent.nodup
  refine ⟨_, parse_content hmin hmax diskstats hcontent hlength, ?_, ?_⟩
  · intro key
    by_cases hkey : key ∈ disks.map majorMinor
    · obtain ⟨disk, hdisk, rfl⟩ := mem_map.mp hkey
      obtain ⟨devInfo, hfound, hreflects, -⟩ := he.lookup_found hdisk
      have hzero' : start.ZeroFrom k := hzero
      have hrest := (hzero'.updateDevInfos hcontent.length_eq _).removeOutOfScope _ _ _ hfound
      rw [← hcontent.length_eq disk hdisk] at hrest
      have hstats := hreflects.stats_eq_printed hrest
      rw [hfound, diskAt_majorMinor hcontent.nodup hdisk, Option.map_some, Option.map_some,
        hreflects.name_eq, hstats, ← hj]
    · rw [he.lookup_gone hstart hscan hkey, diskAt_eq_none hkey]
      rfl
  · rw [he.changed_iff hstart hscan,
      updateDevInfos_changed hstart (diskstats.scanNum + 1) hlines hcontent.nodup]
    constructor
    · rintro ((hfalse | ⟨disk, hdisk, hname⟩) | ⟨key, hkey, hmem⟩)
      · cases hfalse
      · refine ⟨disk.majorMinor, ?_⟩
        rw [diskAt_majorMinor hcontent.nodup hdisk]
        exact hname
      · obtain ⟨devInfo, hlookup⟩ := Finmap.mem_iff.mp hmem
        refine ⟨key, ?_⟩
        rw [diskAt_eq_none hkey, hlookup]
        exact Option.some_ne_none _
    · rintro ⟨key, hne⟩
      by_cases hkey : key ∈ disks.map majorMinor
      · obtain ⟨disk, hdisk, rfl⟩ := mem_map.mp hkey
        rw [diskAt_majorMinor hcontent.nodup hdisk] at hne
        exact .inl (.inr ⟨disk, hdisk, hne⟩)
      refine .inr ⟨key, hkey, ?_⟩
      rw [diskAt_eq_none hkey] at hne
      by_contra hnot
      rw [Finmap.lookup_eq_none.mpr hnot] at hne
      exact hne rfl

end

/-- The first disk gets another name, the second one is gone, and there are 11 values. -/
theorem parse_exact_renamed :
    ∃ first second,
      (newDiskstats 10).parse
        (utf8 "8 0 sda 1 2 3 4 5 6 7 8 9 4294967296 11\n 8 1 sdb 1 1 1 1 1 1 1 1 1 1 1\n") =
          .ok first ∧
      first.clone.parse (utf8 "8 0 sdc 7 0 0 0 0 0 0 0 0 4294967298 4294967297") = .ok second ∧
      (second.devInfoMap.lookup (utf8 "8:0")).map (fun devInfo => (devInfo.name, devInfo.stats)) =
        some (utf8 "sdc", [7, 0, 0, 0, 0, 0, 0, 0, 0, 20, 1, 0, 0, 0, 0, 0, 0]) ∧
      second.devInfoMap.lookup (utf8 "8:1") = none ∧ second.changed = true := by
  have hone : DiskContent 11
      [⟨utf8 "8", utf8 "0", utf8 "sda",
        ["1", "2", "3", "4", "5", "6", "7", "8", "9", "4294967296", "11"].map utf8⟩,
      ⟨utf8 "8", utf8 "1", utf8 "sdb", replicate 11 (utf8 "1")⟩]
      (utf8 "8 0 sda 1 2 3 4 5 6 7 8 9 4294967296 11\n 8 1 sdb 1 1 1 1 1 1 1 1 1 1 1\n") := by
    decide +kernel
  have htwo : DiskContent 11
      [⟨utf8 "8", utf8 "0", utf8 "sdc",
        ["7", "0", "0", "0", "0", "0", "0", "0", "0", "4294967298", "4294967297"].map utf8⟩]
      (utf8 "8 0 sdc 7 0 0 0 0 0 0 0 0 4294967298 4294967297") := by
    decide +kernel
  obtain ⟨first, hfirst, hmap, -⟩ :=
    parse_exact (by decide) (by decide) (Reached.new : Reached 11 10 (newDiskstats 10)) hone
      (by decide +kernel)
  obtain ⟨second, hsecond, hmap', hchanged⟩ :=
    parse_exact (by decide) (by decide) (.clone (.parse .new hone hfirst)) htwo
      (by decide +kernel)
  refine ⟨first, second, hfirst, hsecond, ?_, ?_, hchanged.mpr ⟨utf8 "8:1", ?_⟩⟩
  · rw [hmap']
    decide +kernel
  · have hgone := hmap' (utf8 "8:1")
    rw [show diskAt _ (utf8 "8:1") = none by decide +kernel] at hgone
    simpa using hgone
  have hfound := hmap (utf8 "8:1")
  rw [show diskAt _ (utf8 "8:1") = some ⟨utf8 "8", utf8 "1", utf8 "sdb",
    replicate 11 (utf8 "1")⟩ by decide +kernel] at hfound
  obtain ⟨devInfo, hlookup, -⟩ := Option.map_eq_some_iff.mp hfound
  rw [clone, lookup_filterMapEntries, hlookup, show diskAt _ (utf8 "8:1") = none by decide +kernel]
  exact Option.some_ne_none _

def paddedLine : Bytes :=
  replicate diskstatsMaxReadSize 32 ++ utf8 "8 0 sda 1 1 1 1 1 1 1 1 1 1"

/-- One disk, whose line has as many blanks before it as can be read. -/
theorem padded_content_truncated :
    DiskContent 10 [⟨utf8 "8", utf8 "0", utf8 "sda", replicate 10 (utf8 "1")⟩]
        (paddedLine ++ [newline]) ∧
      (newDiskstats 10).parse (paddedLine ++ [newline]) = .error .potentialTruncation := by
  have hblank : ∀ c ∈ replicate diskstatsMaxReadSize (32 : UInt8), isWhitespace c :=
    fun c hc => eq_of_mem_replicate hc ▸ rfl
  have hnl : newline ∉ paddedLine := by
    rw [paddedLine, mem_append, not_or]
    exact ⟨fun h => absurd (hblank _ h) (by decide), by decide +kernel⟩
  have hfields : fields isWhitespace paddedLine =
      fields isWhitespace (utf8 "8 0 sda 1 1 1 1 1 1 1 1 1 1") := by
    have hne : replicate diskstatsMaxReadSize (32 : UInt8) ≠ [] := by
      rw [← length_pos_iff, length_replicate]
      decide
    have hgap := fields_gap hne hblank [] (utf8 "8 0 sda 1 1 1 1 1 1 1 1 1 1")
    rwa [nil_append, fields_nil] at hgap
  constructor
  · refine ⟨?_, by decide +kernel, by decide +kernel, by decide +kernel⟩
    rw [lines_cons hnl, map_cons, hfields]
    decide +kernel
  · rw [parse_eq, if_neg]
    simp [paddedLine]

end Diskstats

end Lsvmi.Procfs
