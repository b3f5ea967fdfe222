import Lsvmi.Procfs.PidTidList

/-!
# What a refresh puts into the lists

The entries of a directory listing, each in the list of its partition.
-/

namespace Lsvmi.Procfs

open Reasoning List
open ProcPid (PidTid pidOnlyTid)

variable {cache : PidTidListCache} (dir : DirNames) (listing : Listing) {name : Bytes}
  {item : Nat × PidTid}

theorem isDigit_ofNat {c : Char} (hc : c.isDigit) :
    isDigit (UInt8.ofNat c.toNat) ∧ (UInt8.ofNat c.toNat - 48).toNat = c.toNat - '0'.toNat := by
  have hrange : 48 ≤ c.toNat ∧ c.toNat ≤ 57 := by
    simp only [Char.isDigit, Bool.and_eq_true, decide_eq_true_eq, ge_iff_le] at hc
    exact ⟨UInt32.le_iff_toNat_le.mp hc.1, UInt32.le_iff_toNat_le.mp hc.2⟩
  have hnat : (UInt8.ofNat c.toNat).toNat = c.toNat := by
    refine UInt8.toNat_ofNat_of_lt' ?_
    show c.toNat < 256
    omega
  have hsub : (UInt8.ofNat c.toNat - 48).toNat = c.toNat - 48 := by
    rw [UInt8.toNat_sub_of_le, hnat]
    · rfl
    · rw [UInt8.le_iff_toNat_le, hnat]
      exact hrange.1
  refine ⟨?_, hsub⟩
  rw [isDigit, decide_eq_true_eq, UInt8.lt_iff_toNat_lt, hsub]
  show _ < 10
  omega

theorem invalidDigit_formatUint (n : Nat) : invalidDigit (formatUint n) = none := by
  refine invalidDigit_eq_none fun c hc => ?_
  obtain ⟨char, hchar, rfl⟩ := mem_map.mp hc
  exact (isDigit_ofNat (Nat.isDigit_of_mem_toDigits (by decide) (by decide) hchar)).1

theorem mul_ten (n : Int64) : (n <<< 3) + (n <<< 1) = 10 * n := by
  rw [← Int64.toBitVec_inj]
  simp only [Int64.toBitVec_add, Int64.toBitVec_mul]
  simp
  bv_omega

theorem foldl_digits (cs : List Char) (hcs : ∀ c ∈ cs, c.isDigit) (v : Nat) :
    (cs.map fun c => UInt8.ofNat c.toNat).foldl (fun v c => 10 * v + (c - 48).toNat) v =
      Nat.ofDigitChars 10 cs v := by
  induction cs generalizing v with
  | nil => rfl
  | cons c cs ih =>
    rw [forall_mem_cons] at hcs
    rw [map_cons, foldl_cons, Nat.ofDigitChars_cons, ← ih hcs.2, (isDigit_ofNat hcs.1).2]

theorem decimal_formatUint (n : Nat) : decimal (formatUint n) = n := by
  have hdigits : ∀ c ∈ Nat.toDigits 10 n, c.isDigit :=
    fun c hc => Nat.isDigit_of_mem_toDigits (by decide) (by decide) hc
  have hfold := foldl_digits (Nat.toDigits 10 n) hdigits 0
  rwa [Nat.ofDigitChars_ten_toDigits] at hfold

theorem foldl_int64 (name : Bytes) :
    name.foldl (fun (n : Int64) c => (n <<< 3) + (n <<< 1) + Int64.ofNat (c - 48).toNat) 0 =
      Int64.ofNat (decimal name) := by
  apply foldl_hom Int64.ofNat
  intro v c
  rw [mul_ten, Int64.ofNat_add, Int64.ofNat_mul]
  rfl

theorem dirNumber_formatUint (n : Nat) : dirNumber (formatUint n) = Int64.ofNat n := by
  unfold dirNumber
  rw [invalidDigit_formatUint]
  exact (foldl_int64 (formatUint n)).trans (by rw [decimal_formatUint])

/-- A name that is taken for a PID or a TID is the decimal form of a positive number. -/
theorem DirNames.eq_formatUint (hname : name ∈ dir.names) (hpos : 0 < dirNumber name) :
    ∃ n, 0 < n ∧ n < 2 ^ 63 ∧ name = formatUint n := by
  have hvalid : invalidDigit name = none := by
    unfold dirNumber at hpos
    split at hpos
    · exact absurd hpos (by decide)
    · assumption
  have hne : name ≠ [] := by
    rintro rfl
    exact absurd hpos (by decide)
  obtain ⟨n, hn, rfl⟩ := dir.canonical name hname hne hvalid
  rw [dirNumber_formatUint] at hpos
  refine ⟨n, ?_, hn, rfl⟩
  exact (Int64.ofNat_lt_iff_lt (by decide) hn).mp hpos

theorem partMask_cases (numPart : Int64) :
    partMask numPart = -1 ∨
      ∃ k < 31, numPart = Int64.ofNat (2 ^ k) ∧ partMask numPart = Int64.ofNat (2 ^ k - 1) := by
  unfold partMask
  split
  · split
    · rename_i m hfind
      obtain ⟨k, hk, rfl⟩ := mem_map.mp (mem_of_find?_eq_some hfind)
      have heq := find?_some hfind
      rw [decide_eq_true_eq] at heq
      have hpow : ∀ k ∈ List.range 31, (1 : Int64) <<< Int64.ofNat k = Int64.ofNat (2 ^ k) ∧
          (1 : Int64) <<< Int64.ofNat k - 1 = Int64.ofNat (2 ^ k - 1) := by decide
      exact .inr ⟨k, mem_range.mp hk, heq.symm.trans (hpow k hk).1, (hpow k hk).2⟩
    · exact .inl rfl
  · exact .inl rfl

theorem ofNat_and (m n : Nat) : Int64.ofNat m &&& Int64.ofNat n = Int64.ofNat (m &&& n) := by
  rw [← Int64.toBitVec_inj, Int64.toBitVec_and, Int64.toBitVec_ofNat', Int64.toBitVec_ofNat',
    Int64.toBitVec_ofNat', BitVec.ofNat_and]

structure PidTidListCache.PartsOk (cache : PidTidListCache) : Prop where
  one_le : 1 ≤ cache.numPart
  mask_eq : cache.mask = partMask cache.numPart

theorem newPidTidListCache_partsOk (numPart : Int64) (validFor : Int) (flags : UInt32) :
    (newPidTidListCache numPart validFor flags).PartsOk := by
  refine ⟨?_, rfl⟩
  unfold newPidTidListCache
  simp only
  split
  · decide
  · exact Int64.not_lt.mp ‹_›

open PidTidListCache

theorem PidTidListCache.PartsOk.partNo_eq (h : cache.PartsOk) {n : Nat}
    (hn : n < 2 ^ 63) : cache.partNo (Int64.ofNat n) = n % cache.numPart.toNatClampNeg := by
  have hparts : 0 ≤ cache.numPart := Int64.le_trans (by decide) h.one_le
  have hmod : (Int64.ofNat n % cache.numPart).toNatClampNeg =
      n % cache.numPart.toNatClampNeg := by
    rw [← Int64.ofNat_toNatClampNeg cache.numPart hparts,
      ← Int64.ofNat_mod hn cache.numPart.toNatClampNeg_lt,
      Int64.toNatClampNeg_ofNat_of_lt (Nat.lt_of_le_of_lt (Nat.mod_le _ _) hn),
      Int64.toNatClampNeg_ofNat_of_lt cache.numPart.toNatClampNeg_lt]
  unfold partNo
  simp only
  split
  · rename_i hmask
    rw [h.mask_eq] at hmask ⊢
    rcases partMask_cases cache.numPart with hnone | ⟨k, hk, hnum, hpow⟩
    · rw [hnone] at hmask
      exact absurd hmask (by decide)
    · have hlt : 2 ^ k < 2 ^ 63 := Nat.pow_lt_pow_right (by decide) (by omega)
      rw [hpow, ofNat_and, Nat.and_two_pow_sub_one_eq_mod, hnum,
        Int64.toNatClampNeg_ofNat_of_lt hlt,
        Int64.toNatClampNeg_ofNat_of_lt (Nat.lt_of_le_of_lt (Nat.mod_le _ _) hn)]
  · exact hmod

namespace PidTidListCache

variable (cache : PidTidListCache)

def taskEntries (pid : Int64) (name : Bytes) : List (Nat × PidTid) :=
  let tid := dirNumber name
  if tid ≤ 0 then [] else [(cache.partNo tid, ⟨pid.toInt, tid.toInt⟩)]

def nameEntries (listing : Listing) (name : Bytes) : List (Nat × PidTid) :=
  let pid := dirNumber name
  if pid ≤ 0 then []
  else
    (if cache.isPidEnabled then [(cache.partNo pid, ⟨pid.toInt, pidOnlyTid⟩)] else []) ++
      if cache.isTidEnabled then
        match listing.task name with
        | none => []
        | some tasks => tasks.names.flatMap (cache.taskEntries pid)
      else []

def entries (listing : Listing) : List (Nat × PidTid) :=
  listing.top.names.flatMap (cache.nameEntries listing)

theorem addTask_eq (spare : Nat → Nat) (pid : Int64) (state : Heap PidTid × List Slice)
    (name : Bytes) :
    cache.addTask spare pid state name = Heap.distribute spare state (cache.taskEntries pid name) := by
  unfold addTask taskEntries
  simp only
  split
  · rfl
  · simp [Heap.distribute]

theorem addName_eq (spare : Nat → Nat) (listing : Listing) (state : Heap PidTid × List Slice)
    (name : Bytes) :
    cache.addName spare listing state name =
      Heap.distribute spare state (cache.nameEntries listing name) := by
  have htid : ∀ state : Heap PidTid × List Slice, (if cache.isTidEnabled then
      match listing.task name with
      | none => some state
      | some tasks => tasks.names.foldlM (cache.addTask spare (dirNumber name)) state
    else some state) = Heap.distribute spare state (if cache.isTidEnabled then
      match listing.task name with
      | none => []
      | some tasks => tasks.names.flatMap (cache.taskEntries (dirNumber name))
    else []) := by
    intro state
    split
    · cases listing.task name with
      | none => rfl
      | some tasks => exact Heap.foldlM_distribute (cache.addTask_eq spare _) _ _
    · rfl
  unfold addName nameEntries
  simp only
  split
  · rfl
  · split
    · exact congrArg (Option.bind _) (funext htid)
    · exact htid state

end PidTidListCache

def DirNames.Has (dir : DirNames) (n : Nat) : Prop := 0 < n ∧ formatUint n ∈ dir.names

def Listed (pidEnabled tidEnabled : Bool) (listing : Listing) (e : PidTid) : Prop :=
  ∃ pid : Nat, listing.top.Has pid ∧ e.pid = pid ∧
    ((pidEnabled = true ∧ e.tid = pidOnlyTid) ∨
      (tidEnabled = true ∧ ∃ tasks, listing.task (formatUint pid) = some tasks ∧
        ∃ tid : Nat, tasks.Has tid ∧ e.tid = tid))

def partKey (e : PidTid) : Int := if e.tid = pidOnlyTid then e.pid else e.tid

theorem DirNames.has_iff :
    name ∈ dir.names ∧ 0 < dirNumber name ↔
      ∃ n, n < 2 ^ 63 ∧ dir.Has n ∧ name = formatUint n := by
  constructor
  · rintro ⟨hmem, hpos⟩
    obtain ⟨n, hn, hlt, rfl⟩ := dir.eq_formatUint hmem hpos
    exact ⟨n, hlt, ⟨hn, hmem⟩, rfl⟩
  · rintro ⟨n, hlt, ⟨hn, hmem⟩, rfl⟩
    refine ⟨hmem, ?_⟩
    rw [dirNumber_formatUint]
    exact (Int64.ofNat_lt_iff_lt (by decide) hlt).mpr hn

theorem DirNames.Has.lt {dir : DirNames} {n : Nat} (h : dir.Has n) : n < 2 ^ 63 := by
  have hne : formatUint n ≠ [] := by
    unfold formatUint
    simp
  obtain ⟨m, hm, heq⟩ := dir.canonical _ h.2 hne (invalidDigit_formatUint n)
  rw [← decimal_formatUint n, heq, decimal_formatUint]
  exact hm

theorem mem_taskEntries (hcache : cache.PartsOk) (tasks : DirNames)
    (pid : Nat) (hpid : pid < 2 ^ 63) :
    item ∈ tasks.names.flatMap (cache.taskEntries (Int64.ofNat pid)) ↔
      ∃ tid : Nat, tasks.Has tid ∧ item = (tid % cache.numPart.toNatClampNeg, ⟨pid, tid⟩) := by
  rw [mem_flatMap]
  constructor
  · rintro ⟨name, hname, hitem⟩
    unfold taskEntries at hitem
    simp only at hitem
    split at hitem
    · cases hitem
    rename_i hpos
    obtain ⟨tid, hlt, hhas, rfl⟩ := tasks.has_iff.mp ⟨hname, Int64.not_le.mp hpos⟩
    refine ⟨tid, hhas, ?_⟩
    rw [mem_singleton.mp hitem, dirNumber_formatUint, hcache.partNo_eq hlt,
      Int64.toInt_ofNat_of_lt hlt, Int64.toInt_ofNat_of_lt hpid]
  · rintro ⟨tid, hhas, rfl⟩
    obtain ⟨hname, hpos⟩ := tasks.has_iff.mpr ⟨tid, hhas.lt, hhas, rfl⟩
    refine ⟨formatUint tid, hname, ?_⟩
    unfold taskEntries
    simp only
    rw [if_neg (Int64.not_le.mpr hpos), dirNumber_formatUint, hcache.partNo_eq hhas.lt,
      Int64.toInt_ofNat_of_lt hhas.lt, Int64.toInt_ofNat_of_lt hpid]
    exact mem_singleton_self _

theorem mem_nameEntries (hcache : cache.PartsOk) (listing : Listing)
    {pid : Nat} (hpid : 0 < pid) (hlt : pid < 2 ^ 63) :
    item ∈ cache.nameEntries listing (formatUint pid) ↔
      (cache.isPidEnabled ∧
        item = (pid % cache.numPart.toNatClampNeg, ⟨pid, pidOnlyTid⟩)) ∨
      (cache.isTidEnabled ∧ ∃ tasks, listing.task (formatUint pid) = some tasks ∧
        ∃ tid : Nat, tasks.Has tid ∧
          item = (tid % cache.numPart.toNatClampNeg, ⟨pid, tid⟩)) := by
  have hpos : ¬ Int64.ofNat pid ≤ 0 :=
    Int64.not_le.mpr ((Int64.ofNat_lt_iff_lt (by decide) hlt).mpr hpid)
  unfold nameEntries
  simp only
  rw [dirNumber_formatUint, if_neg hpos, mem_append, hcache.partNo_eq hlt,
    Int64.toInt_ofNat_of_lt hlt]
  refine or_congr ?_ ?_
  · split
    all_goals simp [*]
  split
  · cases htask : listing.task (formatUint pid) with
    | none => simp
    | some tasks =>
      rw [mem_taskEntries hcache tasks pid hlt]
      simp [*]
  · simp [*]

theorem mem_entries (hcache : cache.PartsOk) (listing : Listing) :
    item ∈ cache.entries listing ↔
      Listed cache.isPidEnabled cache.isTidEnabled listing item.2 ∧
        (item.1 : Int) = partKey item.2 % cache.numPart.toNatClampNeg := by
  have hnat : ∀ (n : Nat), ((n % cache.numPart.toNatClampNeg : Nat) : Int) =
      (n : Int) % cache.numPart.toNatClampNeg := fun n => Int.natCast_emod n _
  unfold entries
  rw [mem_flatMap]
  constructor
  · rintro ⟨name, hname, hitem⟩
    by_cases hpos : 0 < dirNumber name
    · obtain ⟨pid, hlt, hhas, rfl⟩ := listing.top.has_iff.mp ⟨hname, hpos⟩
      rcases (mem_nameEntries hcache listing hhas.1 hlt).mp hitem with
        ⟨henabled, rfl⟩ | ⟨henabled, tasks, htask, tid, htid, rfl⟩
      · refine ⟨⟨pid, hhas, rfl, .inl ⟨henabled, rfl⟩⟩, ?_⟩
        rw [partKey, if_pos rfl, hnat]
      · refine ⟨⟨pid, hhas, rfl, .inr ⟨henabled, tasks, htask, tid, htid, rfl⟩⟩, ?_⟩
        have hne : (tid : Int) ≠ pidOnlyTid := Int.natCast_ne_zero.mpr (Nat.pos_iff_ne_zero.mp htid.1)
        rw [partKey, if_neg hne, hnat]
    · unfold nameEntries at hitem
      simp only at hitem
      rw [if_pos (Int64.not_lt.mp hpos)] at hitem
      cases hitem
  · obtain ⟨i, ⟨epid, etid⟩⟩ := item
    rintro ⟨⟨pid, hhas, hpid, hkind⟩, hkey⟩
    simp only at hpid hkind hkey
    subst hpid
    refine ⟨formatUint pid, hhas.2, (mem_nameEntries hcache listing hhas.1 hhas.lt).mpr ?_⟩
    rcases hkind with ⟨henabled, rfl⟩ | ⟨henabled, tasks, htask, tid, htid, rfl⟩
    · rw [partKey, if_pos rfl, ← hnat] at hkey
      exact .inl ⟨henabled, by rw [Int.ofNat_inj.mp hkey]⟩
    · have hne : (tid : Int) ≠ pidOnlyTid := Int.natCast_ne_zero.mpr (Nat.pos_iff_ne_zero.mp htid.1)
      rw [partKey, if_neg hne, ← hnat] at hkey
      exact .inr ⟨henabled, tasks, htask, tid, htid, by rw [Int.ofNat_inj.mp hkey]⟩

theorem DirNames.dirNumber_inj {name' : Bytes} (hname : name ∈ dir.names)
    (hname' : name' ∈ dir.names) (hpos : 0 < dirNumber name)
    (heq : (dirNumber name).toInt = (dirNumber name').toInt) : name = name' := by
  have hnum := Int64.toInt.inj heq
  obtain ⟨n, hlt, -, rfl⟩ := dir.has_iff.mp ⟨hname, hpos⟩
  obtain ⟨n', hlt', -, rfl⟩ := dir.has_iff.mp ⟨hname', hnum ▸ hpos⟩
  rw [dirNumber_formatUint, dirNumber_formatUint, Int64.toInt_ofNat_of_lt hlt,
    Int64.toInt_ofNat_of_lt hlt'] at heq
  rw [Int.ofNat_inj.mp heq]

theorem DirNames.nodup_flatMap {β : Type} {f : Bytes → List β} (key : β → Int)
    (hkey : ∀ name, ∀ x ∈ f name, 0 < dirNumber name ∧ key x = (dirNumber name).toInt)
    (hf : ∀ name ∈ dir.names, (f name).Nodup) : (dir.names.flatMap f).Nodup := by
  rw [List.nodup_flatMap]
  refine ⟨hf, dir.nodup.imp_of_mem ?_⟩
  intro name name' hname hname' hne x hx hx'
  obtain ⟨hpos, hx⟩ := hkey name x hx
  obtain ⟨-, hx'⟩ := hkey name' x hx'
  exact hne (dir.dirNumber_inj hname hname' hpos (hx.symm.trans hx'))

namespace PidTidListCache

variable (cache : PidTidListCache) {e : PidTid}

theorem taskEntries_key {pid : Int64} {name : Bytes}
    (he : e ∈ (cache.taskEntries pid name).map Prod.snd) :
    0 < dirNumber name ∧ e = ⟨pid.toInt, (dirNumber name).toInt⟩ := by
  unfold taskEntries at he
  simp only at he
  split at he
  · cases he
  · rename_i hpos
    rw [map_singleton, mem_singleton] at he
    exact ⟨Int64.not_le.mp hpos, he⟩

theorem nodup_tasks (tasks : DirNames) (pid : Int64) :
    ((tasks.names.flatMap (cache.taskEntries pid)).map Prod.snd).Nodup := by
  rw [map_flatMap]
  refine tasks.nodup_flatMap PidTid.tid ?_ ?_
  · intro name e he
    obtain ⟨hpos, rfl⟩ := cache.taskEntries_key he
    exact ⟨hpos, rfl⟩
  intro name _
  unfold taskEntries
  simp only
  split
  · exact nodup_nil
  · exact nodup_singleton _

theorem tasks_key (tasks : DirNames) {pid : Int64}
    (he : e ∈ (tasks.names.flatMap (cache.taskEntries pid)).map Prod.snd) :
    e.pid = pid.toInt ∧ 0 < e.tid := by
  rw [map_flatMap, mem_flatMap] at he
  obtain ⟨name, -, he⟩ := he
  obtain ⟨hpos, rfl⟩ := cache.taskEntries_key he
  exact ⟨rfl, Int64.lt_iff_toInt_lt.mp hpos⟩

theorem nameEntries_key {name : Bytes} (he : e ∈ (cache.nameEntries listing name).map Prod.snd) :
    0 < dirNumber name ∧ e.pid = (dirNumber name).toInt := by
  unfold nameEntries at he
  simp only at he
  split at he
  · cases he
  rename_i hpos
  refine ⟨Int64.not_le.mp hpos, ?_⟩
  rw [map_append, mem_append] at he
  rcases he with he | he
  · split at he
    · rw [map_singleton, mem_singleton] at he
      rw [he]
    · cases he
  split at he
  · split at he
    · cases he
    · exact (cache.tasks_key _ he).1
  · cases he

theorem nodup_nameEntries (name : Bytes) :
    ((cache.nameEntries listing name).map Prod.snd).Nodup := by
  unfold nameEntries
  simp only
  split
  · exact nodup_nil
  rw [map_append, nodup_append]
  refine ⟨?_, ?_, ?_⟩
  · split
    · exact nodup_singleton _
    · exact nodup_nil
  · split
    · split
      · exact nodup_nil
      · exact cache.nodup_tasks _ _
    · exact nodup_nil
  · -- the TID of the entry for the PID itself is 0
    intro e he e' he' heq
    subst heq
    split at he
    · rw [map_singleton, mem_singleton] at he
      split at he'
      · split at he'
        · cases he'
        · have htid := (cache.tasks_key _ he').2
          rw [he] at htid
          exact absurd htid (Int.lt_irrefl 0)
      · cases he'
    · cases he

theorem nodup_entries : ((cache.entries listing).map Prod.snd).Nodup := by
  unfold entries
  rw [map_flatMap]
  exact listing.top.nodup_flatMap PidTid.pid (fun name e he => cache.nameEntries_key listing he)
    fun name _ => cache.nodup_nameEntries listing name

end PidTidListCache

end Lsvmi.Procfs
