import Lsvmi.Procfs.PidTidListEntries
import Lsvmi.Reasoning.Runs

/-!
# Calls of `GetPidTidList`

The calls of several goroutines on one cache, one after the other under its lock, with refreshes
that fail.  Between the calls the callers make arrays and write to the ones they have.
-/

namespace Lsvmi.Procfs

open Reasoning List Option Heap
open ProcPid (PidTid pidOnlyTid)

variable {cache cache' : PidTidListCache} {h : Heap PidTid}

/-! ## One refresh -/

namespace PidTidListCache

def arrays (cache : PidTidListCache) : List Nat := (cache.pidLists.getD []).map Slice.addr

/-- The lists have arrays of their own, and there is one for each partition. -/
def ListsOk (cache : PidTidListCache) (h : Heap PidTid) : Prop :=
  ∀ lists, cache.pidLists = some lists →
    h.Separate lists ∧ lists.length = cache.numPart.toNatClampNeg

structure SameSettings (cache cache' : PidTidListCache) : Prop where
  numPart_eq : cache'.numPart = cache.numPart
  mask_eq : cache'.mask = cache.mask
  validFor_eq : cache'.validFor = cache.validFor
  flags_eq : cache'.flags = cache.flags

/-- What a refresh leaves, with the list of each partition. -/
structure Refreshed (cache : PidTidListCache) (h : Heap PidTid) (list : Nat → List PidTid)
    (cache' : PidTidListCache) (h' : Heap PidTid) : Prop where
  settings : cache.SameSettings cache'
  listsOk : cache'.ListsOk h'
  some_lists : ∃ lists, cache'.pidLists = some lists ∧
    ∀ j < cache.numPart.toNatClampNeg, lists[j]?.map h'.read = some (list j)
  changes : Heap.Changes cache.arrays h h'
  arrays_new : ∀ a ∈ cache'.arrays, a ∈ cache.arrays ∨ h.size ≤ a

theorem clearLists_spec (hlists : cache.ListsOk h) :
    (cache.clearLists h).1.Separate (cache.clearLists h).2 ∧
      (cache.clearLists h).2.length = cache.numPart.toNatClampNeg ∧
      Changes cache.arrays h (cache.clearLists h).1 ∧
      (∀ a ∈ (cache.clearLists h).2.map Slice.addr, a ∈ cache.arrays ∨ h.size ≤ a) ∧
      ∀ s ∈ (cache.clearLists h).2, s.len = 0 := by
  unfold clearLists arrays
  cases hpid : cache.pidLists with
  | none =>
    obtain ⟨hsep, hlen, hchanges, hnew⟩ := h.makeEmpty_spec cache.numPart.toNatClampNeg
    refine ⟨hsep, hlen, hchanges, fun a ha => ?_, fun s hs => (hnew s hs).2⟩
    obtain ⟨s, hs, rfl⟩ := mem_map.mp ha
    exact .inr (hnew s hs).1
  | some lists =>
    obtain ⟨hsep, hlen⟩ := hlists lists hpid
    refine ⟨hsep.clear, by simpa using hlen, .refl _ h, fun a ha => ?_, fun s hs => ?_⟩
    · left
      simpa using ha
    · obtain ⟨t, -, rfl⟩ := mem_map.mp hs
      rfl

theorem entries_lt (hparts : cache.PartsOk) (listing : Listing) :
    ∀ item ∈ cache.entries listing, item.1 < cache.numPart.toNatClampNeg := by
  intro item hitem
  have hkey := ((mem_entries hparts listing).mp hitem).2
  have hpos : 0 < cache.numPart.toNatClampNeg := by
    have hle := Int64.toNatClampNeg_le hparts.one_le
    rwa [Int64.toNatClampNeg_one] at hle
  have hlt := Int.emod_lt_of_pos (partKey item.2) (Int.natCast_pos.mpr hpos)
  omega

/-- A refresh does not end the process.  It leaves the entries of the listing, or nothing if there
is no listing. -/
theorem refresh_spec (spare : Nat → Nat) (hparts : cache.PartsOk) (hlists : cache.ListsOk h)
    (listing : Except String Listing) (timeNow : Int) :
    ∃ err cache' h', cache.refresh spare h listing timeNow = some (err, cache', h') ∧
      match listing with
      | .error text => err = some text ∧ cache'.initialized = cache.initialized ∧
          cache'.retrievedTime = cache.retrievedTime ∧ cache.Refreshed h (fun _ => []) cache' h'
      | .ok listing => err = none ∧ cache'.initialized ∧
          cache'.retrievedTime = timeNow ∧
          cache.Refreshed h (Heap.share (cache.entries listing)) cache' h' := by
  obtain ⟨hsep, hlen, hchanges, haddrs, hempty⟩ := clearLists_spec hlists
  have hread : ∀ j < cache.numPart.toNatClampNeg,
      (cache.clearLists h).2[j]?.map (cache.clearLists h).1.read = some [] := by
    intro j hj
    have hget := getElem?_eq_getElem (hlen ▸ hj : j < (cache.clearLists h).2.length)
    rw [hget, map_some, Heap.read, hempty _ (getElem_mem _), take_zero]
  unfold refresh
  cases listing with
  | error text =>
    refine ⟨_, _, _, rfl, rfl, rfl, rfl, ⟨rfl, rfl, rfl, rfl⟩, ?_, ⟨_, rfl, hread⟩, hchanges, ?_⟩
    · intro lists hsome
      cases hsome
      exact ⟨hsep, hlen⟩
    · exact haddrs
  | ok listing =>
    have hitems : ∀ item ∈ cache.entries listing, item.1 < (cache.clearLists h).2.length := by
      rw [hlen]
      exact entries_lt hparts listing
    obtain ⟨h', ls', hdistribute, happended⟩ := Heap.distribute_spec spare hsep hitems
    have hloop : listing.top.names.foldlM (cache.addName spare listing) (cache.clearLists h) =
        some (h', ls') := by
      rw [Heap.foldlM_distribute (cache.addName_eq spare listing)]
      exact hdistribute
    refine ⟨none, { cache with
      pidLists := some ls', initialized := true, retrievedTime := timeNow
      refreshCount := cache.refreshCount + 1 }, h', ?_, rfl, rfl, rfl, ⟨rfl, rfl, rfl, rfl⟩, ?_,
      ⟨ls', rfl, ?_⟩, ?_, ?_⟩
    · simp only [hloop, bind_eq_bind, bind_some]
      rfl
    · intro lists hsome
      cases hsome
      exact ⟨happended.separate, happended.length_eq.trans hlen⟩
    · intro j hj
      have hold := hread j hj
      obtain ⟨s, hs, hsread⟩ := map_eq_some_iff.mp hold
      rw [happended.read_eq, hs, map_some, hsread, nil_append]
    · exact hchanges.trans happended.changes haddrs
    · intro a ha
      rcases happended.addrs a ha with hold | hnew
      · exact haddrs a hold
      · exact .inr (Nat.le_trans hchanges.size_le hnew)

theorem SameSettings.partsOk (h : cache.SameSettings cache')
    (hparts : cache.PartsOk) : cache'.PartsOk := by
  refine ⟨h.numPart_eq ▸ hparts.one_le, ?_⟩
  rw [h.mask_eq, h.numPart_eq]
  exact hparts.mask_eq

theorem SameSettings.entries_eq (h : cache.SameSettings cache')
    (listing : Listing) : cache'.entries listing = cache.entries listing := by
  have hpart : cache'.partNo = cache.partNo := by
    funext n
    simp only [partNo, h.mask_eq, h.numPart_eq]
  have hpid : cache'.isPidEnabled = cache.isPidEnabled := by simp only [isPidEnabled, h.flags_eq]
  have htid : cache'.isTidEnabled = cache.isTidEnabled := by simp only [isTidEnabled, h.flags_eq]
  have htask : cache'.taskEntries = cache.taskEntries := by
    funext pid name
    simp only [taskEntries, hpart]
  unfold entries nameEntries
  simp only [hpart, hpid, htid, htask]

theorem SameSettings.trans {cache'' : PidTidListCache} (h : cache.SameSettings cache')
    (h' : cache'.SameSettings cache'') : cache.SameSettings cache'' :=
  ⟨h'.numPart_eq.trans h.numPart_eq, h'.mask_eq.trans h.mask_eq,
    h'.validFor_eq.trans h.validFor_eq, h'.flags_eq.trans h.flags_eq⟩

theorem stale_mono {timeNow timeNow' : Int} (hle : timeNow ≤ timeNow')
    (h : cache.stale timeNow) : cache.stale timeNow' := by
  unfold stale at h ⊢
  rw [Bool.or_eq_true, decide_eq_true_eq] at h ⊢
  refine h.imp_right fun hlt => Int.lt_of_lt_of_le hlt ?_
  unfold timeSince
  omega

/-! ## Handing out a list -/

theorem makeInto_spec (h : Heap PidTid) {into : Option Slice}
    (hinto : ∀ s, into = some s → h.Valid s) (n : Nat) :
    (makeInto h into n).1.Valid (makeInto h into n).2 ∧ (makeInto h into n).2.len = n ∧
      Changes [] h (makeInto h into n).1 ∧
      ((∃ s, into = some s ∧ (makeInto h into n).2.addr = s.addr) ∨
        (makeInto h into n).2.addr = h.size) := by
  have hnew : (h.alloc (replicate n default)).Valid ⟨h.size, n⟩ := by
    refine ⟨Nat.lt_succ_self _, ?_⟩
    show n ≤ (Function.update h.array h.size _ h.size).length
    rw [Function.update_self]
    exact Nat.le_of_eq length_replicate.symm
  unfold makeInto
  split
  · exact ⟨hnew, rfl, changes_alloc h _, .inr rfl⟩
  rename_i s
  split
  · exact ⟨hnew, rfl, changes_alloc h _, .inr rfl⟩
  · rename_i hcap
    exact ⟨⟨(hinto s rfl).addr_lt, Nat.not_lt.mp hcap⟩, rfl, .refl _ h, .inl ⟨s, rfl, rfl⟩⟩

end PidTidListCache

/-! ## Runs -/

open PidTidListCache (GetCall)

/-- The cache, the heap it shares with its callers, and what has happened so far. -/
structure World where
  cache : PidTidListCache
  heap : Heap PidTid
  now : Int
  /-- what the latest successful refresh has read -/
  last : Option Listing
  /-- the arrays the callers have -/
  known : List Nat
  returned : List Slice

def World.new (numPart : Int64) (validFor : Int) (flags : UInt32) (now : Int) : World :=
  ⟨newPidTidListCache numPart validFor flags, .empty, now, none, [], []⟩

inductive CacheEvent where
  | get (call : GetCall)
  | invalidate
  /-- a caller makes an array -/
  | make (contents : List PidTid)
  /-- a caller writes to an array it has -/
  | write (addr : Nat) (contents : List PidTid)

namespace World

/-- The clock does not go back, and a caller hands in a slice of its own. -/
structure Admissible (w : World) (call : GetCall) : Prop where
  now_le : w.now ≤ call.timeNow
  timeNow_le : call.timeNow ≤ call.refreshTime
  into_known : ∀ s, call.into = some s → s.addr ∈ w.known ∧ s.len ≤ w.heap.cap s

/-- The listing that the latest successful refresh has read, after a call. -/
def lastAfter (w : World) (call : GetCall) : Option Listing :=
  if w.cache.isPart call.partNo ∧ w.cache.stale call.timeNow = true then
    match call.listing with
    | .ok listing => some listing
    | .error _ => w.last
  else w.last

def get (spare : Nat → Nat) (w : World) (call : GetCall) :
    Option (Except String (Option Slice) × World) :=
  (w.cache.getPidTidList spare w.heap call).map fun (result, cache, heap) =>
    let slices := match result with
      | .ok (some s) => [s]
      | _ => []
    (result, { cache, heap, now := call.refreshTime, last := w.lastAfter call
               known := slices.map Slice.addr ++ w.known, returned := slices ++ w.returned })

end World

def CacheSteps (spare : Nat → Nat) (w : World) : CacheEvent → World → Prop
  | .get call, w' => w.Admissible call ∧ ∃ result, w.get spare call = some (result, w')
  | .invalidate, w' => w' = { w with cache := w.cache.invalidate }
  | .make contents, w' =>
    w' = { w with heap := w.heap.alloc contents, known := w.heap.size :: w.known }
  | .write addr contents, w' => addr ∈ w.known ∧ contents.length = (w.heap.array addr).length ∧
    w' = { w with heap := w.heap.write addr contents }

/-- Unless they are too old, the lists have the entries of the latest listing. -/
def World.Fresh (w : World) : Prop :=
  ∃ listing lists, w.last = some listing ∧ w.cache.pidLists = some lists ∧
    ∀ j < w.cache.numPart.toNatClampNeg,
      lists[j]?.map w.heap.read = some (Heap.share (w.cache.entries listing) j)

/-- `c₀` is the cache at the start. -/
structure CacheInv (c₀ : PidTidListCache) (w : World) : Prop where
  settings : c₀.SameSettings w.cache
  partsOk : c₀.PartsOk
  listsOk : w.cache.ListsOk w.heap
  not_known : ∀ a ∈ w.cache.arrays, a ∉ w.known
  known_lt : ∀ a ∈ w.known, a < w.heap.size
  returned_known : ∀ s ∈ w.returned, s.addr ∈ w.known
  fresh : w.cache.stale w.now = false → w.Fresh

section

variable {c₀ : PidTidListCache} {w : World} {spare : Nat → Nat} {s : Slice} {h' : Heap PidTid}
  {w' : World} {call : GetCall} {list : Nat → List PidTid}

open PidTidListCache

theorem mem_arrays {lists : List Slice} (hlists : cache.pidLists = some lists) (hs : s ∈ lists) :
    s.addr ∈ cache.arrays := by
  unfold arrays
  rw [hlists]
  exact mem_map.mpr ⟨s, hs, rfl⟩

theorem listsOk_frame {h : Heap PidTid} {touched : List Nat} (hlists : cache.ListsOk h)
    (hchanges : Changes touched h h') (hnot : ∀ a ∈ cache.arrays, a ∉ touched) :
    cache.ListsOk h' ∧ ∀ lists, cache.pidLists = some lists →
      ∀ s ∈ lists, h'.read s = h.read s := by
  constructor
  · intro lists hsome
    obtain ⟨hsep, hlen⟩ := hlists lists hsome
    exact ⟨⟨fun s hs => hchanges.valid (hsep.valid s hs) (hnot _ (mem_arrays hsome hs)),
      hsep.nodup⟩, hlen⟩
  · intro lists hsome s hs
    obtain ⟨hsep, -⟩ := hlists lists hsome
    exact hchanges.read_eq (hsep.valid s hs).addr_lt (hnot _ (mem_arrays hsome hs))

theorem World.Fresh.frame (h : w.Fresh) (hcache : w'.cache = w.cache) (hlast : w'.last = w.last)
    (hread : ∀ lists, w.cache.pidLists = some lists → ∀ s ∈ lists, w'.heap.read s = w.heap.read s) :
    w'.Fresh := by
  obtain ⟨listing, lists, hlisting, hlists, hreads⟩ := h
  refine ⟨listing, lists, hlast.trans hlisting, hcache ▸ hlists, fun j hj => ?_⟩
  rw [hcache] at hj ⊢
  rw [← hreads j hj]
  cases hget : lists[j]? with
  | none => rfl
  | some s => rw [map_some, map_some, hread lists hlists s (mem_of_getElem? hget)]

theorem CacheInv.frame {touched : List Nat} (hinv : CacheInv c₀ w)
    (hcache : w'.cache = w.cache) (hnow : w.now ≤ w'.now) (hlast : w'.last = w.last)
    (hchanges : Changes touched w.heap w'.heap)
    (htouched : ∀ a ∈ touched, a ∈ w.known ∨ w.heap.size ≤ a)
    (hknown : ∀ a ∈ w'.known, a < w'.heap.size ∧ (a ∈ w.known ∨ w.heap.size ≤ a))
    (hreturned : ∀ s ∈ w'.returned, s.addr ∈ w'.known) : CacheInv c₀ w' := by
  have hlt : ∀ a ∈ w.cache.arrays, a < w.heap.size := by
    intro a ha
    unfold arrays at ha
    cases hlists : w.cache.pidLists with
    | none =>
      rw [hlists] at ha
      cases ha
    | some lists =>
      rw [hlists] at ha
      obtain ⟨s, hs, rfl⟩ := mem_map.mp ha
      exact ((hinv.listsOk lists hlists).1.valid s hs).addr_lt
  have hapart : ∀ a ∈ w.cache.arrays, ¬ (a ∈ w.known ∨ w.heap.size ≤ a) := by
    rintro a ha (hknown | hnew)
    · exact hinv.not_known a ha hknown
    · exact Nat.not_lt.mpr hnew (hlt a ha)
  obtain ⟨hlists, hreads⟩ := listsOk_frame hinv.listsOk hchanges
    fun a ha hmem => hapart a ha (htouched a hmem)
  refine ⟨hcache ▸ hinv.settings, hinv.partsOk, hcache ▸ hlists, ?_,
    fun a ha => (hknown a ha).1, hreturned, ?_⟩
  · rw [hcache]
    exact fun a ha hmem => hapart a ha (hknown a hmem).2
  intro hstale
  rw [hcache] at hstale
  refine (hinv.fresh ?_).frame hcache hlast hreads
  rw [Bool.eq_false_iff] at hstale ⊢
  exact fun hold => hstale (stale_mono hnow hold)

theorem CacheInv.later (hinv : CacheInv c₀ w) {now : Int} (hnow : w.now ≤ now) :
    CacheInv c₀ { w with now } :=
  hinv.frame rfl hnow rfl (.refl [] _) nofun (fun a ha => ⟨hinv.known_lt a ha, .inl ha⟩)
    hinv.returned_known

def GetOk (c₀ : PidTidListCache) (call : GetCall) (w' : World) :
    Except String (Option Slice) → Prop
  | .error err => call.listing = .error err
  | .ok none => ¬ c₀.isPart call.partNo
  | .ok (some s) => ∃ listing, w'.last = some listing ∧ (w'.heap.read s).Nodup ∧
      ∀ e, e ∈ w'.heap.read s ↔ Listed c₀.isPidEnabled c₀.isTidEnabled listing e ∧
        partKey e % c₀.numPart.toInt = call.partNo.toInt

theorem getOk_of_read {listing : Listing} (hparts : c₀.PartsOk)
    (hpart : c₀.isPart call.partNo) (hlast : w.last = some listing)
    (hread : w.heap.read s = share (c₀.entries listing) call.partNo.toNatClampNeg) :
    GetOk c₀ call w (.ok (some s)) := by
  have hnum : (c₀.numPart.toNatClampNeg : Int) = c₀.numPart.toInt :=
    Int64.cast_toNatClampNeg _ (Int64.le_trans (by decide) hparts.one_le)
  have hno := Int64.cast_toNatClampNeg _ hpart.1
  refine ⟨listing, hlast, ?_, fun e => ?_⟩
  · rw [hread]
    exact (c₀.nodup_entries listing).sublist (share_sublist _ _)
  · rw [hread, mem_share, mem_entries hparts, hnum]
    simp only [hno, eq_comm]

theorem CacheInv.handOut (hinv : CacheInv c₀ w) (hfresh : w.Fresh)
    (hinto : ∀ s, call.into = some s → s.addr ∈ w.known ∧ s.len ≤ w.heap.cap s)
    (hi : c₀.isPart call.partNo) :
    ∃ s h', w.cache.handOut w.heap call = some (s, h') ∧
      CacheInv c₀ { w with heap := h', known := s.addr :: w.known, returned := s :: w.returned } ∧
      GetOk c₀ call
        { w with heap := h', known := s.addr :: w.known, returned := s :: w.returned }
        (.ok (some s)) := by
  obtain ⟨listing, lists, hlast, hlists, hreads⟩ := hfresh
  obtain ⟨hsep, hlen⟩ := hinv.listsOk lists hlists
  have hpart : call.partNo.toNatClampNeg < w.cache.numPart.toNatClampNeg := by
    rw [hinv.settings.numPart_eq]
    have hle := Int64.toNatClampNeg_le (Int64.le_of_lt hi.2)
    refine Nat.lt_of_le_of_ne hle fun heq => Int64.ne_of_lt hi.2 ?_
    rw [← Int64.ofNat_toNatClampNeg call.partNo hi.1, heq, Int64.ofNat_toNatClampNeg]
    exact Int64.le_trans hi.1 (Int64.le_of_lt hi.2)
  obtain ⟨list, hlist, hlistRead⟩ := map_eq_some_iff.mp (hreads _ hpart)
  have hmem : list ∈ lists := mem_of_getElem? hlist
  rw [hinv.settings.entries_eq] at hlistRead
  have hvalid : ∀ t, call.into = some t → w.heap.Valid t :=
    fun t ht => ⟨hinv.known_lt _ (hinto t ht).1, (hinto t ht).2⟩
  obtain ⟨hs, hslen, hchanges, haddr⟩ := PidTidListCache.makeInto_spec w.heap hvalid list.len
  cases hmake : PidTidListCache.makeInto w.heap call.into list.len with
  | mk h s =>
    rw [hmake] at hs hslen hchanges haddr
    have hread : h.read list = w.heap.read list :=
      hchanges.read_eq (hsep.valid list hmem).addr_lt nofun
    have hreadLen : (h.read list).length = s.len := by
      rw [hread, read_length (hsep.valid list hmem)]
      exact hslen.symm
    have hown : s.addr ∈ w.known ∨ w.heap.size ≤ s.addr := by
      rcases haddr with ⟨t, ht, heq⟩ | heq
      · exact .inl (heq ▸ (hinto t ht).1)
      · exact .inr (Nat.le_of_eq heq.symm)
    have htouched : ∀ a ∈ [s.addr], a ∈ w.known ∨ w.heap.size ≤ a := by
      intro a ha
      rw [mem_singleton.mp ha]
      exact hown
    have hcopy : Changes [s.addr] w.heap (h.copy s (h.read list)) :=
      (hchanges.mono nofun).trans (changes_write h s.addr _) fun a ha => .inl ha
    refine ⟨s, h.copy s (h.read list), ?_, hinv.frame rfl (Int.le_refl _) rfl hcopy htouched ?_ ?_,
      getOk_of_read hinv.partsOk hi hlast ?_⟩
    · unfold PidTidListCache.handOut
      simp only [hlists, hlist, hmake, bind_eq_bind, bind_some]
      rfl
    · intro a ha
      rcases mem_cons.mp ha with rfl | ha
      · exact ⟨hs.addr_lt, hown⟩
      · exact ⟨Nat.lt_of_lt_of_le (hinv.known_lt a ha) hchanges.size_le, .inl ha⟩
    · intro t ht
      rcases mem_cons.mp ht with rfl | ht
      · exact mem_cons_self
      · exact mem_cons_of_mem _ (hinv.returned_known t ht)
    · exact (copy_read h hreadLen).trans (hread.trans hlistRead)

theorem CacheInv.refreshed (hinv : CacheInv c₀ w)
    (h : w.cache.Refreshed w.heap list w'.cache w'.heap) (hknown : w'.known = w.known)
    (hreturned : w'.returned = w.returned) (hfresh : w'.cache.stale w'.now = false → w'.Fresh) :
    CacheInv c₀ w' where
  settings := hinv.settings.trans h.settings
  partsOk := hinv.partsOk
  listsOk := h.listsOk
  not_known a ha hmem := by
    rw [hknown] at hmem
    rcases h.arrays_new a ha with hold | hnew
    · exact hinv.not_known a hold hmem
    · exact Nat.not_lt.mpr hnew (hinv.known_lt a hmem)
  known_lt a ha := by
    rw [hknown] at ha
    exact Nat.lt_of_lt_of_le (hinv.known_lt a ha) h.changes.size_le
  returned_known s hs := by
    rw [hreturned] at hs
    rw [hknown]
    exact hinv.returned_known s hs
  fresh := hfresh

theorem fresh_of_refreshed {listing : Listing}
    (h : w.cache.Refreshed w.heap (share (w.cache.entries listing)) w'.cache w'.heap)
    (hlast : w'.last = some listing) : w'.Fresh := by
  obtain ⟨lists, hlists, hreads⟩ := h.some_lists
  refine ⟨listing, lists, hlast, hlists, fun j hj => ?_⟩
  rw [h.settings.entries_eq]
  exact hreads j (h.settings.numPart_eq ▸ hj)

theorem CacheInv.cap_of_refreshed (hinv : CacheInv c₀ w)
    (h : w.cache.Refreshed w.heap list cache' h') (hs : s.addr ∈ w.known) :
    h'.cap s = w.heap.cap s := by
  rw [cap, h.changes.array_eq _ (hinv.known_lt _ hs) fun hmem => hinv.not_known _ hmem hs]
  rfl

theorem CacheInv.refreshed_returned (hinv : CacheInv c₀ w)
    (h : w.cache.Refreshed w.heap list cache' h') :
    ∀ s ∈ w.returned, h'.read s = w.heap.read s := by
  intro s hs
  have hknown := hinv.returned_known s hs
  exact h.changes.read_eq (hinv.known_lt _ hknown) fun hmem => hinv.not_known _ hmem hknown

theorem CacheInv.get (hinv : CacheInv c₀ w) (hcall : w.Admissible call) (spare : Nat → Nat) :
    ∃ result w', w.get spare call = some (result, w') ∧ CacheInv c₀ w' ∧
      GetOk c₀ call w' result := by
  have hpartIff : w.cache.isPart call.partNo ↔ c₀.isPart call.partNo := by
    unfold isPart
    rw [hinv.settings.numPart_eq]
  have hlater : w.now ≤ call.refreshTime := Int.le_trans hcall.now_le hcall.timeNow_le
  unfold World.get getPidTidList World.lastAfter
  by_cases hpart : w.cache.isPart call.partNo
  · simp only [hpart, if_true, true_and]
    cases hstale : w.cache.stale call.timeNow with
    | false =>
      have hfresh : w.Fresh := by
        refine hinv.fresh (Bool.eq_false_iff.mpr fun hold => ?_)
        rw [stale_mono hcall.now_le hold] at hstale
        cases hstale
      obtain ⟨s, h', hout, hinv', hok⟩ := (hinv.later hlater).handOut
        (hfresh.frame rfl rfl fun _ _ _ _ => rfl) hcall.into_known (hpartIff.mp hpart)
      simp only [Bool.false_eq_true, if_false, bind_some, hout, map_some]
      exact ⟨_, _, rfl, hinv', hok⟩
    | true =>
      simp only [if_true]
      obtain ⟨err, cache', h', hrefresh, hspec⟩ := refresh_spec spare
        (hinv.settings.partsOk hinv.partsOk) hinv.listsOk call.listing call.refreshTime
      rw [hrefresh]
      cases hlisting : call.listing with
      | error text =>
        rw [hlisting] at hspec
        obtain ⟨rfl, hinit, htime, hrefreshed⟩ := hspec
        refine ⟨_, _, rfl, hinv.refreshed hrefreshed rfl rfl fun hnot => ?_, hlisting⟩
        -- a refresh that fails leaves the lists empty, and the listing as old as it was
        have hold := stale_mono hcall.timeNow_le hstale
        unfold stale at hold hnot
        rw [hinit, htime, hrefreshed.settings.validFor_eq, hold] at hnot
        cases hnot
      | ok listing =>
        rw [hlisting] at hspec
        obtain ⟨rfl, -, -, hrefreshed⟩ := hspec
        have hfresh : World.Fresh { w with
            cache := cache', heap := h', now := call.refreshTime, last := some listing } :=
          fresh_of_refreshed hrefreshed rfl
        have hinv' : CacheInv c₀ { w with
            cache := cache', heap := h', now := call.refreshTime, last := some listing } :=
          hinv.refreshed hrefreshed rfl rfl fun _ => hfresh
        have hinto : ∀ s, call.into = some s → s.addr ∈ w.known ∧ s.len ≤ h'.cap s := by
          intro s hs
          obtain ⟨hknown, hlen⟩ := hcall.into_known s hs
          exact ⟨hknown, hinv.cap_of_refreshed hrefreshed hknown ▸ hlen⟩
        obtain ⟨s, h'', hout, hinv'', hok⟩ := hinv'.handOut hfresh hinto (hpartIff.mp hpart)
        simp only [bind_some, hout, map_some]
        exact ⟨_, _, rfl, hinv'', hok⟩
  · simp only [hpart, if_false, false_and]
    exact ⟨_, _, rfl, hinv.later hlater, fun hi => hpart (hpartIff.mpr hi)⟩

theorem CacheInv.step {e : CacheEvent} (hinv : CacheInv c₀ w)
    (h : CacheSteps spare w e w') : CacheInv c₀ w' := by
  cases e with
  | get call =>
    obtain ⟨hcall, result, hget⟩ := h
    obtain ⟨result', w'', hget', hinv', -⟩ := hinv.get hcall spare
    rw [hget] at hget'
    cases hget'
    exact hinv'
  | invalidate =>
    obtain rfl := h
    exact ⟨⟨hinv.settings.numPart_eq, hinv.settings.mask_eq, hinv.settings.validFor_eq,
      hinv.settings.flags_eq⟩, hinv.partsOk, hinv.listsOk, hinv.not_known, hinv.known_lt,
      hinv.returned_known, fun hnot => absurd hnot (by simp [stale, invalidate])⟩
  | make contents =>
    obtain rfl := h
    refine hinv.frame rfl (Int.le_refl _) rfl (changes_alloc _ _) nofun ?_ ?_
    · intro a ha
      rcases mem_cons.mp ha with rfl | ha
      · exact ⟨Nat.lt_succ_self _, .inr (Nat.le_refl _)⟩
      · exact ⟨Nat.lt_succ_of_lt (hinv.known_lt a ha), .inl ha⟩
    · exact fun s hs => mem_cons_of_mem _ (hinv.returned_known s hs)
  | write addr contents =>
    obtain ⟨haddr, -, rfl⟩ := h
    refine hinv.frame rfl (Int.le_refl _) rfl (changes_write _ _ _) ?_
      (fun a ha => ⟨hinv.known_lt a ha, .inl ha⟩) hinv.returned_known
    intro a ha
    rw [mem_singleton.mp ha]
    exact .inl haddr

theorem new_cacheInv (numPart : Int64) (validFor : Int) (flags : UInt32) (now : Int) :
    CacheInv (newPidTidListCache numPart validFor flags) (.new numPart validFor flags now) where
  settings := ⟨rfl, rfl, rfl, rfl⟩
  partsOk := newPidTidListCache_partsOk numPart validFor flags
  listsOk := nofun
  not_known := nofun
  known_lt := nofun
  returned_known := nofun
  fresh h := absurd h (by simp [World.new, newPidTidListCache, stale])

theorem exists_unique_part {c₀ : PidTidListCache} (hparts : c₀.PartsOk) (key : Int) :
    ∃! i : Int64, c₀.isPart i ∧ key % c₀.numPart.toInt = i.toInt := by
  have hpos : 0 < c₀.numPart.toInt :=
    Int.lt_of_lt_of_le (by decide) (Int64.le_iff_toInt_le.mp hparts.one_le)
  have hle := Int.emod_nonneg key (Int.ne_of_gt hpos)
  have hlt := Int.emod_lt_of_pos key hpos
  have hmax := c₀.numPart.toInt_lt
  have hofInt : (Int64.ofInt (key % c₀.numPart.toInt)).toInt = key % c₀.numPart.toInt :=
    Int64.toInt_ofInt_of_le (by omega) (Int.lt_trans hlt hmax)
  refine ⟨Int64.ofInt (key % c₀.numPart.toInt), ⟨⟨?_, ?_⟩, hofInt.symm⟩, ?_⟩
  · rw [Int64.le_iff_toInt_le, hofInt]
    exact hle
  · rw [Int64.lt_iff_toInt_lt, hofInt]
    exact hlt
  · rintro i ⟨-, hi⟩
    rw [hi, Int64.ofInt_toInt]

/-- In every state a call returns, once each, the entries of its partition of the listing that the
latest successful refresh has read, an error only if the directory cannot be read now, and nothing
only for a number that is no partition.  A refresh leaves the slices alone that were returned
before.  Every entry belongs to one partition. -/
theorem get_returns_partition {numPart : Int64} {validFor : Int} {flags : UInt32} {now : Int}
    {es : List CacheEvent} {c₀ : PidTidListCache}
    (hc₀ : c₀ = newPidTidListCache numPart validFor flags)
    (hrun : Run (CacheSteps spare) (.new numPart validFor flags now) es w) :
    (∀ call, w.Admissible call →
      ∃ result w', w.get spare call = some (result, w') ∧ GetOk c₀ call w' result) ∧
    (∀ listing timeNow, ∃ err cache' h',
      w.cache.refresh spare w.heap listing timeNow = some (err, cache', h') ∧
        ∀ s ∈ w.returned, h'.read s = w.heap.read s) ∧
    ∀ listing e, Listed c₀.isPidEnabled c₀.isTidEnabled listing e →
      ∃! i : Int64, c₀.isPart i ∧ partKey e % c₀.numPart.toInt = i.toInt := by
  subst hc₀
  have hinv := hrun.invariant (new_cacheInv numPart validFor flags now)
    fun _ _ _ hinv h => hinv.step h
  refine ⟨fun call hcall => ?_, fun listing timeNow => ?_,
    fun listing e _ => exists_unique_part hinv.partsOk (partKey e)⟩
  · obtain ⟨result, w', hget, -, hok⟩ := hinv.get hcall spare
    exact ⟨result, w', hget, hok⟩
  obtain ⟨err, cache', h', hrefresh, hspec⟩ := refresh_spec spare
    (hinv.settings.partsOk hinv.partsOk) hinv.listsOk listing timeNow
  refine ⟨err, cache', h', hrefresh, ?_⟩
  cases listing with
  | error text | ok listing => exact hinv.refreshed_returned hspec.2.2.2

end

def dirOf (numbers : List Nat) (hnodup : numbers.Nodup) (hlt : ∀ n ∈ numbers, n < 2 ^ 63) :
    DirNames where
  names := utf8 "self" :: numbers.map formatUint
  nodup := by
    have hinj : Function.Injective formatUint := by
      intro m n heq
      rw [← decimal_formatUint m, heq, decimal_formatUint]
    refine nodup_cons.mpr ⟨fun hmem => ?_, hnodup.map hinj⟩
    obtain ⟨n, -, heq⟩ := List.mem_map.mp hmem
    have hvalid := invalidDigit_formatUint n
    rw [heq] at hvalid
    exact absurd hvalid (by decide)
  canonical name hname _ hvalid := by
    rcases mem_cons.mp hname with rfl | hmem
    · exact absurd hvalid (by decide)
    · obtain ⟨n, hn, rfl⟩ := List.mem_map.mp hmem
      exact ⟨n, hlt n hn, rfl⟩

/-- The process 1, with the threads 1 and 6, and the process 4, which is gone before its threads are
read. -/
def twoProcesses : Listing where
  top := dirOf [1, 4] (by decide) (by decide)
  task name := if name = formatUint 1 then some (dirOf [1, 6] (by decide) (by decide)) else none

def firstCall : GetCall := ⟨1, none, 10, .ok twoProcesses, 20⟩

def failedCall : GetCall := ⟨0, some ⟨6, 2⟩, 2000, .error "no such file or directory", 2001⟩

def lastCall : GetCall := ⟨0, some ⟨6, 2⟩, 3000, .ok twoProcesses, 3001⟩

def handsIn (w : World) (call : GetCall) : Bool :=
  decide (w.now ≤ call.timeNow) && decide (w.known = [6]) && decide (2 ≤ w.heap.cap ⟨6, 2⟩)

theorem admissible_of_handsIn {w : World} {call : GetCall} (h : handsIn w call)
    (hinto : call.into = some ⟨6, 2⟩) (htime : call.timeNow ≤ call.refreshTime) :
    w.Admissible call := by
  simp only [handsIn, Bool.and_eq_true, decide_eq_true_eq] at h
  refine ⟨h.1.1, htime, fun s hs => ?_⟩
  obtain rfl := some.inj (hinto.symm.trans hs)
  exact ⟨by rw [h.1.2]; exact mem_singleton_self _, h.2⟩

theorem get_returns_partition_after_failure : ∃ w w' s,
    Run (CacheSteps id) (.new 2 1000 3 0) [.get firstCall, .get failedCall] w ∧
    w.get id lastCall = some (.ok (some s), w') ∧
    GetOk (newPidTidListCache 2 1000 3) lastCall w' (.ok (some s)) := by
  have heval : ((World.new 2 1000 3 0).get id firstCall).any (fun first =>
      handsIn first.2 failedCall && (first.2.get id failedCall).any fun failed =>
        handsIn failed.2 lastCall && (failed.2.get id lastCall).any fun last =>
          match last.1 with
          | .ok (some _) => true
          | _ => false) = true := by
    decide +kernel
  obtain ⟨⟨r₁, w₁⟩, hfirst, hrest⟩ := (any_eq_true _ _).mp heval
  obtain ⟨hin₁, hrest⟩ := Bool.and_eq_true_iff.mp hrest
  obtain ⟨⟨r₂, w₂⟩, hfailed, hrest⟩ := (any_eq_true _ _).mp hrest
  obtain ⟨hin₂, hrest⟩ := Bool.and_eq_true_iff.mp hrest
  obtain ⟨⟨r₃, w₃⟩, hlast, hslice⟩ := (any_eq_true _ _).mp hrest
  have hrun : Run (CacheSteps id) (.new 2 1000 3 0) [.get firstCall, .get failedCall] w₂ := by
    refine .cons ⟨⟨by decide, by decide, nofun⟩, r₁, hfirst⟩ (.cons ⟨?_, r₂, hfailed⟩ .start)
    exact admissible_of_handsIn hin₁ rfl (by decide)
  obtain ⟨result, w', hget, hok⟩ :=
    (get_returns_partition rfl hrun).1 lastCall (admissible_of_handsIn hin₂ rfl (by decide))
  rw [hlast] at hget
  cases hget
  split at hslice
  · rename_i s hresult
    obtain rfl : r₃ = .ok (some s) := hresult
    exact ⟨w₂, w₃, s, hrun, hlast, hok⟩
  · cases hslice

end Lsvmi.Procfs
