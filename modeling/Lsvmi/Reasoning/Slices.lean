import Mathlib.Data.List.Nodup
import Mathlib.Logic.Function.Basic

/-!
# Slices of arrays on a heap

A slice is the first part of an array, and several slices may share one array.  Appending to a slice
writes behind its end where the array has room, and moves the slice to a new array where it has not.
-/

namespace Lsvmi.Reasoning

open List Function

variable {α : Type*}

structure Heap (α : Type*) where
  array : Nat → List α
  /-- The addresses below have been given out. -/
  size : Nat

structure Slice where
  addr : Nat
  len : Nat
  deriving DecidableEq, Repr

namespace Heap

def empty : Heap α := ⟨fun _ => [], 0⟩

def cap (h : Heap α) (s : Slice) : Nat := (h.array s.addr).length

def read (h : Heap α) (s : Slice) : List α := (h.array s.addr).take s.len

structure Valid (h : Heap α) (s : Slice) : Prop where
  addr_lt : s.addr < h.size
  len_le : s.len ≤ h.cap s

def alloc (h : Heap α) (contents : List α) : Heap α :=
  ⟨Function.update h.array h.size contents, h.size + 1⟩

def write (h : Heap α) (addr : Nat) (contents : List α) : Heap α :=
  { h with array := Function.update h.array addr contents }

/-- `spare` is the room that a new array has beyond the length that is needed. -/
def append [Inhabited α] (spare : Nat → Nat) (h : Heap α) (s : Slice) (x : α) : Heap α × Slice :=
  if s.len < h.cap s then
    (h.write s.addr ((h.array s.addr).set s.len x), { s with len := s.len + 1 })
  else
    (h.alloc (h.read s ++ x :: List.replicate (spare s.len) default), ⟨h.size, s.len + 1⟩)

/-- Overwrite the first elements of `dst`, as far as it goes. -/
def copy (h : Heap α) (dst : Slice) (values : List α) : Heap α :=
  h.write dst.addr (values.take dst.len ++ (h.array dst.addr).drop (min dst.len values.length))

/-- `h'` comes from `h` by allocations and by writes to the arrays in `touched`. -/
structure Changes (touched : List Nat) (h h' : Heap α) : Prop where
  size_le : h.size ≤ h'.size
  array_eq : ∀ a < h.size, a ∉ touched → h'.array a = h.array a

variable {h h' h'' : Heap α} {touched touched' : List Nat} {s : Slice}

theorem Changes.refl (touched : List Nat) (h : Heap α) : Changes touched h h :=
  ⟨Nat.le_refl _, fun _ _ _ => rfl⟩

theorem Changes.trans (h₁ : Changes touched h h') (h₂ : Changes touched' h' h'')
    (hfresh : ∀ a ∈ touched', a ∈ touched ∨ h.size ≤ a) : Changes touched h h'' where
  size_le := Nat.le_trans h₁.size_le h₂.size_le
  array_eq a ha hnot := by
    have hnot' : a ∉ touched' := by
      intro hmem
      rcases hfresh a hmem with hold | hnew
      · exact hnot hold
      · exact Nat.not_lt.mpr hnew ha
    rw [h₂.array_eq a (Nat.lt_of_lt_of_le ha h₁.size_le) hnot', h₁.array_eq a ha hnot]

section

variable (hc : Changes touched h h')
include hc

theorem Changes.mono (hsub : ∀ a ∈ touched, a ∈ touched') : Changes touched' h h' :=
  ⟨hc.size_le, fun a ha hnot => hc.array_eq a ha fun hmem => hnot (hsub a hmem)⟩

theorem Changes.read_eq (haddr : s.addr < h.size) (hnot : s.addr ∉ touched) : h'.read s = h.read s := by
  rw [read, read, hc.array_eq _ haddr hnot]

theorem Changes.valid (hs : h.Valid s) (hnot : s.addr ∉ touched) : h'.Valid s := by
  refine ⟨Nat.lt_of_lt_of_le hs.addr_lt hc.size_le, ?_⟩
  rw [cap, hc.array_eq _ hs.addr_lt hnot]
  exact hs.len_le

end

theorem changes_alloc (h : Heap α) (contents : List α) : Changes [] h (h.alloc contents) where
  size_le := Nat.le_succ _
  array_eq _ ha _ := update_of_ne (Nat.ne_of_lt ha) _ _

theorem changes_write (h : Heap α) (addr : Nat) (contents : List α) :
    Changes [addr] h (h.write addr contents) where
  size_le := Nat.le_refl _
  array_eq _ _ hnot := update_of_ne (fun ha => hnot (mem_singleton.mpr ha)) _ _

theorem read_length (hs : h.Valid s) : (h.read s).length = s.len := by
  rw [read, length_take]
  exact Nat.min_eq_left hs.len_le

theorem append_spec [Inhabited α] (spare : Nat → Nat) (hs : h.Valid s) (x : α) :
    (h.append spare s x).1.Valid (h.append spare s x).2 ∧
      (h.append spare s x).1.read (h.append spare s x).2 = h.read s ++ [x] ∧
      Changes [s.addr] h (h.append spare s x).1 ∧
      ((h.append spare s x).2.addr = s.addr ∨ (h.append spare s x).2.addr = h.size) := by
  unfold append
  split
  · rename_i hroom
    refine ⟨⟨hs.addr_lt, ?_⟩, ?_, changes_write _ _ _, .inl rfl⟩
    · show s.len + 1 ≤ (update h.array s.addr _ s.addr).length
      rw [update_self, length_set]
      exact hroom
    show (update h.array s.addr _ s.addr).take (s.len + 1) = _
    rw [update_self, take_set, take_add_one, getElem?_eq_getElem hroom,
      Option.toList_some, ← read, set_append_right _ _ (Nat.le_of_eq (read_length hs)),
      read_length hs, Nat.sub_self]
    rfl
  · have hlen := read_length hs
    have hchanges : Changes [s.addr] h
        (h.alloc (h.read s ++ x :: replicate (spare s.len) default)) :=
      (changes_alloc h _).mono nofun
    refine ⟨⟨Nat.lt_succ_self _, ?_⟩, ?_, hchanges, .inr rfl⟩
    · show s.len + 1 ≤ (update h.array h.size _ h.size).length
      rw [update_self, length_append, hlen, length_cons]
      omega
    · show (update h.array h.size _ h.size).take (s.len + 1) = _
      rw [update_self, ← hlen, take_length_add_append]
      rfl

theorem copy_read (h : Heap α) {values : List α} (hlen : values.length = s.len) :
    (h.copy s values).read s = values := by
  show (update h.array s.addr _ s.addr).take s.len = values
  rw [update_self, ← hlen, take_length, take_left]

/-- No two of the slices share their array. -/
structure Separate (h : Heap α) (ls : List Slice) : Prop where
  valid : ∀ s ∈ ls, h.Valid s
  nodup : (ls.map Slice.addr).Nodup

/-- Append to one of the slices; `none` is an index out of range. -/
def appendAt [Inhabited α] (spare : Nat → Nat) (state : Heap α × List Slice) (i : Nat) (x : α) :
    Option (Heap α × List Slice) :=
  state.2[i]?.map fun s =>
    let (h, s) := state.1.append spare s x
    (h, state.2.set i s)

variable {ls ls' : List Slice}

theorem Separate.ne_addr (hsep : h.Separate ls) {i j : Nat} {s t : Slice} (hs : ls[i]? = some s)
    (ht : ls[j]? = some t) (hij : i ≠ j) : s.addr ≠ t.addr := by
  intro heq
  have hi : i < (ls.map Slice.addr).length := by
    rw [length_map]
    exact (List.getElem?_eq_some_iff.mp hs).1
  refine hij ((getElem?_inj hi hsep.nodup).mp ?_)
  rw [getElem?_map, getElem?_map, hs, ht, Option.map_some, Option.map_some, heq]

structure Appended (h : Heap α) (ls : List Slice) (added : Nat → List α) (h' : Heap α)
    (ls' : List Slice) : Prop where
  separate : h'.Separate ls'
  length_eq : ls'.length = ls.length
  changes : Changes (ls.map Slice.addr) h h'
  /-- an array is an old one or a new one -/
  addrs : ∀ a ∈ ls'.map Slice.addr, a ∈ ls.map Slice.addr ∨ h.size ≤ a
  read_eq : ∀ j : Nat, ls'[j]?.map h'.read = ls[j]?.map fun s => h.read s ++ added j

theorem Appended.refl (hsep : h.Separate ls) : Appended h ls (fun _ => []) h ls where
  separate := hsep
  length_eq := rfl
  changes := .refl _ h
  addrs _ ha := .inl ha
  read_eq j := by simp

theorem Appended.trans {added added' : Nat → List α} {ls'' : List Slice}
    (h₁ : Appended h ls added h' ls') (h₂ : Appended h' ls' added' h'' ls'') :
    Appended h ls (fun j => added j ++ added' j) h'' ls'' where
  separate := h₂.separate
  length_eq := h₂.length_eq.trans h₁.length_eq
  changes := h₁.changes.trans h₂.changes h₁.addrs
  addrs a ha := by
    rcases h₂.addrs a ha with hold | hnew
    · exact h₁.addrs a hold
    · exact .inr (Nat.le_trans h₁.changes.size_le hnew)
  read_eq j := by
    have hread : ls'[j]?.map (fun s => h'.read s ++ added' j) =
        (ls'[j]?.map h'.read).map (· ++ added' j) := by
      rw [Option.map_map]
      rfl
    rw [h₂.read_eq, hread, h₁.read_eq, Option.map_map]
    simp [comp_def]

theorem appendAt_spec [Inhabited α] (spare : Nat → Nat) (hsep : h.Separate ls) {i : Nat}
    (hi : i < ls.length) (x : α) :
    ∃ h' ls', appendAt spare (h, ls) i x = some (h', ls') ∧
      Appended h ls (fun j => if i = j then [x] else []) h' ls' := by
  have hs : ls[i]? = some ls[i] := getElem?_eq_getElem hi
  obtain ⟨hvalid, hread, hchanges, haddr⟩ := append_spec spare (hsep.valid ls[i] (getElem_mem hi)) x
  refine ⟨(h.append spare ls[i] x).1, ls.set i (h.append spare ls[i] x).2, ?_, ?_, ?_, ?_, ?_, ?_⟩
  · rw [appendAt]
    simp only [hs, Option.map_some]
  · constructor
    · intro t ht
      obtain ⟨j, hj⟩ := mem_iff_getElem?.mp ht
      rw [getElem?_set] at hj
      split at hj
      · cases hj
        exact hvalid
      · rename_i hij
        have hne := hsep.ne_addr hj hs (Ne.symm hij)
        exact hchanges.valid (hsep.valid t (mem_of_getElem? hj)) (by simpa using hne)
    · rw [map_set]
      rcases haddr with heq | heq
      · have hsame : (ls.map Slice.addr).set i ls[i].addr = ls.map Slice.addr := by
          rw [← map_set, set_getElem_self]
        rw [heq, hsame]
        exact hsep.nodup
      rw [heq]
      refine hsep.nodup.set ?_
      intro hmem
      obtain ⟨t, ht, hta⟩ := mem_map.mp hmem
      exact Nat.ne_of_lt (hsep.valid t ht).addr_lt hta
  · exact length_set
  · refine hchanges.mono fun a ha => ?_
    rw [mem_singleton.mp ha]
    exact mem_map_of_mem (getElem_mem hi)
  · intro a ha
    obtain ⟨t, ht, rfl⟩ := mem_map.mp ha
    rcases mem_or_eq_of_mem_set ht with hold | rfl
    · exact .inl (mem_map_of_mem hold)
    · rcases haddr with heq | heq
      · rw [heq]
        exact .inl (mem_map_of_mem (getElem_mem hi))
      · exact .inr (Nat.le_of_eq heq.symm)
  · intro j
    by_cases hij : i = j
    · subst hij
      rw [getElem?_set_self hi, hs, Option.map_some, Option.map_some, hread, if_pos rfl]
    rw [getElem?_set_ne hij, if_neg hij]
    cases ht : ls[j]? with
    | none => rfl
    | some t =>
      have hne := hsep.ne_addr ht hs (Ne.symm hij)
      rw [Option.map_some, Option.map_some, append_nil,
        hchanges.read_eq (hsep.valid t (mem_of_getElem? ht)).addr_lt (by simpa using hne)]

/-- Append each value to the slice it belongs to. -/
def distribute [Inhabited α] (spare : Nat → Nat) (state : Heap α × List Slice)
    (items : List (Nat × α)) : Option (Heap α × List Slice) :=
  items.foldlM (fun state item => appendAt spare state item.1 item.2) state

def share (items : List (Nat × α)) (j : Nat) : List α :=
  items.filterMap fun item => if item.1 = j then some item.2 else none

theorem mem_share {items : List (Nat × α)} {j : Nat} {x : α} :
    x ∈ share items j ↔ (j, x) ∈ items := by
  unfold share
  rw [mem_filterMap]
  constructor
  · rintro ⟨⟨i, y⟩, hmem, hsome⟩
    split at hsome
    · rename_i hi
      cases hsome
      exact hi ▸ hmem
    · cases hsome
  · intro hmem
    exact ⟨(j, x), hmem, if_pos rfl⟩

theorem share_sublist (items : List (Nat × α)) (j : Nat) :
    (share items j).Sublist (items.map Prod.snd) := by
  induction items with
  | nil => exact .slnil
  | cons item items ih =>
    by_cases hj : item.1 = j
    · have hshare : share (item :: items) j = item.2 :: share items j := by simp [share, hj]
      rw [hshare, map_cons]
      exact ih.cons_cons item.2
    · have hshare : share (item :: items) j = share items j := by simp [share, hj]
      rw [hshare, map_cons]
      exact ih.cons item.2

theorem distribute_spec [Inhabited α] (spare : Nat → Nat) {items : List (Nat × α)}
    (hsep : h.Separate ls) (hitems : ∀ item ∈ items, item.1 < ls.length) :
    ∃ h' ls', distribute spare (h, ls) items = some (h', ls') ∧
      Appended h ls (share items) h' ls' := by
  induction items generalizing h ls with
  | nil => exact ⟨h, ls, rfl, .refl hsep⟩
  | cons item items ih =>
    rw [forall_mem_cons] at hitems
    obtain ⟨h₁, ls₁, hfirst, happended⟩ := appendAt_spec spare hsep hitems.1 item.2
    obtain ⟨h₂, ls₂, hrest, happended'⟩ := ih happended.separate
      fun item hitem => happended.length_eq ▸ hitems.2 item hitem
    refine ⟨h₂, ls₂, ?_, ?_⟩
    · rw [distribute, foldlM_cons, hfirst]
      exact hrest
    have hshare : share (item :: items) =
        fun j => (if item.1 = j then [item.2] else []) ++ share items j := by
      funext j
      by_cases hj : item.1 = j
      all_goals simp [share, hj]
    rw [hshare]
    exact happended.trans happended'

theorem foldlM_distribute [Inhabited α] {β : Type*} {spare : Nat → Nat}
    {body : Heap α × List Slice → β → Option (Heap α × List Slice)} {f : β → List (Nat × α)}
    (hbody : ∀ state x, body state x = distribute spare state (f x)) (xs : List β)
    (state : Heap α × List Slice) :
    xs.foldlM body state = distribute spare state (xs.flatMap f) := by
  induction xs generalizing state with
  | nil => rfl
  | cons x xs ih =>
    rw [foldlM_cons, flatMap_cons, distribute, foldlM_append, hbody]
    congr 1
    funext state
    exact ih state

/-- `n` empty slices with arrays of their own. -/
def makeEmpty (h : Heap α) : Nat → Heap α × List Slice
  | 0 => (h, [])
  | n + 1 =>
    let (h, ls) := makeEmpty h n
    (h.alloc [], ls ++ [⟨h.size, 0⟩])

theorem makeEmpty_spec (h : Heap α) (n : Nat) :
    (h.makeEmpty n).1.Separate (h.makeEmpty n).2 ∧ (h.makeEmpty n).2.length = n ∧
      Changes [] h (h.makeEmpty n).1 ∧ ∀ s ∈ (h.makeEmpty n).2, h.size ≤ s.addr ∧ s.len = 0 := by
  induction n with
  | zero => exact ⟨⟨nofun, nodup_nil⟩, rfl, .refl _ h, nofun⟩
  | succ n ih =>
    obtain ⟨hsep, hlen, hchanges, hnew⟩ := ih
    have halloc := changes_alloc (h.makeEmpty n).1 ([] : List α)
    refine ⟨⟨?_, ?_⟩, ?_, hchanges.trans halloc nofun, ?_⟩
    · intro s hs
      rcases mem_append.mp hs with hs | hs
      · exact halloc.valid (hsep.valid s hs) nofun
      · obtain rfl := mem_singleton.mp hs
        exact ⟨Nat.lt_succ_self _, Nat.zero_le _⟩
    · show (map Slice.addr ((h.makeEmpty n).2 ++ [_])).Nodup
      rw [map_append, map_singleton, ← concat_eq_append, nodup_concat]
      refine ⟨fun hmem => ?_, hsep.nodup⟩
      obtain ⟨s, hs, haddr⟩ := mem_map.mp hmem
      exact Nat.ne_of_lt (hsep.valid s hs).addr_lt haddr
    · show ((h.makeEmpty n).2 ++ [_]).length = n + 1
      rw [length_append, hlen, length_singleton]
    intro s hs
    rcases mem_append.mp hs with hs | hs
    · exact hnew s hs
    · obtain rfl := mem_singleton.mp hs
      exact ⟨hchanges.size_le, rfl⟩

theorem Separate.clear (hsep : h.Separate ls) :
    h.Separate (ls.map fun s => { s with len := 0 }) := by
  constructor
  · intro s hs
    obtain ⟨t, ht, rfl⟩ := mem_map.mp hs
    exact ⟨(hsep.valid t ht).addr_lt, Nat.zero_le _⟩
  · rw [map_map]
    exact hsep.nodup

end Heap

end Lsvmi.Reasoning
