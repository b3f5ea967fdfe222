import Mathlib.Data.List.Basic

/-!
# UTF-8

A character is encoded as a leading byte and up to three continuation bytes, which are the bytes
`10xxxxxx` and lead nothing.  From any place in an encoded text the character it belongs to is
found by going back over the continuation bytes.
-/

namespace Lsvmi.Reasoning.Utf8

open List

variable {pos start : Nat} {b : List UInt8}

def isContinuation (c : UInt8) : Bool := c &&& 192 == 128

def encode (text : List Char) : List UInt8 := text.flatMap String.utf8EncodeChar

@[simp] theorem encode_nil : encode [] = [] := rfl

@[simp] theorem encode_cons (c : Char) (text : List Char) :
    encode (c :: text) = String.utf8EncodeChar c ++ encode text := rfl

theorem isContinuation_eq (c : UInt8) : isContinuation c = decide (c.toNat / 64 = 2) := by
  have hall : ∀ b : BitVec 8, (b &&& 192 == 128) = decide (b.toNat / 64 = 2) := by decide
  rw [← UInt8.toNat_toBitVec, ← hall, Bool.eq_iff_iff]
  rw [isContinuation, beq_iff_eq, beq_iff_eq, ← UInt8.toBitVec_inj]
  rfl

theorem isContinuation_ofNat {n : Nat} (h : n < 64) : isContinuation (UInt8.ofNat (n + 128)) := by
  rw [isContinuation_eq, UInt8.toNat_ofNat', decide_eq_true_eq]
  omega

theorem not_isContinuation_ofNat {n : Nat} (h : n < 128 ∨ 192 ≤ n) (hlt : n < 256) :
    isContinuation (UInt8.ofNat n) = false := by
  rw [isContinuation_eq, UInt8.toNat_ofNat', decide_eq_false_iff_not]
  omega

/-- A leading byte and at most three continuation bytes. -/
structure IsCharacter (lead : UInt8) (rest : List UInt8) : Prop where
  leads : isContinuation lead = false
  continues : ∀ b ∈ rest, isContinuation b = true
  length_le : rest.length ≤ 3

theorem utf8EncodeChar_eq (c : Char) :
    ∃ lead rest, String.utf8EncodeChar c = lead :: rest ∧ IsCharacter lead rest := by
  have hc : c.val.toNat < 1114112 := by
    have hvalid := c.valid
    simp only [UInt32.isValidChar, Nat.isValidChar] at hvalid
    omega
  unfold String.utf8EncodeChar
  simp only
  split
  · refine ⟨_, _, rfl, not_isContinuation_ofNat (by omega) (by omega), ?_, by simp⟩
    simp
  split
  · refine ⟨_, _, rfl, not_isContinuation_ofNat (by omega) (by omega), ?_, by simp⟩
    simp only [mem_singleton, forall_eq]
    exact isContinuation_ofNat (by omega)
  split
  · refine ⟨_, _, rfl, not_isContinuation_ofNat (by omega) (by omega), ?_, by simp⟩
    simp only [mem_cons, not_mem_nil, or_false, forall_eq_or_imp, forall_eq]
    exact ⟨isContinuation_ofNat (by omega), isContinuation_ofNat (by omega)⟩
  · refine ⟨_, _, rfl, not_isContinuation_ofNat (by omega) (by omega), ?_, by simp⟩
    simp only [mem_cons, not_mem_nil, or_false, forall_eq_or_imp, forall_eq]
    exact ⟨isContinuation_ofNat (by omega), isContinuation_ofNat (by omega),
      isContinuation_ofNat (by omega)⟩

/-- The byte at `pos` is there and is a continuation byte, or not one. -/
def At (b : List UInt8) (pos : Nat) (continuation : Bool) : Prop :=
  (b[pos]?).map isContinuation = some continuation

/-- The character that the place `pos` belongs to starts at `start`: from there on there are only
continuation bytes. -/
structure StartsAt (b : List UInt8) (pos start : Nat) : Prop where
  le : start ≤ pos
  near : pos ≤ start + 3
  lead : At b start false
  between : ∀ q, start < q → q ≤ pos → At b q true

theorem At.append {continuation : Bool} (b' : List UInt8)
    (h : At b pos continuation) : At (b' ++ b) (b'.length + pos) continuation := by
  rw [At, getElem?_append_right (Nat.le_add_right _ _), Nat.add_sub_cancel_left]
  exact h

theorem StartsAt.append (b' : List UInt8) (h : StartsAt b pos start) :
    StartsAt (b' ++ b) (b'.length + pos) (b'.length + start) where
  le := Nat.add_le_add_left h.le _
  near := by
    have hnear := h.near
    omega
  lead := h.lead.append b'
  between := by
    intro q hstart hpos
    obtain ⟨q', rfl⟩ : ∃ q', q = b'.length + q' := ⟨q - b'.length, by omega⟩
    exact (h.between q' (by omega) (by omega)).append b'

theorem IsCharacter.startsAt {lead : UInt8} {rest : List UInt8} (h : IsCharacter lead rest)
    (b : List UInt8) (hpos : pos ≤ rest.length) :
    StartsAt (lead :: rest ++ b) pos 0 where
  le := Nat.zero_le _
  near := by
    have hlength := h.length_le
    omega
  lead := by
    rw [At, cons_append, getElem?_cons_zero, Option.map_some, h.leads]
  between := by
    intro q hq hle
    obtain ⟨q', rfl⟩ : ∃ q', q = q' + 1 := ⟨q - 1, by omega⟩
    have hlt : q' < rest.length := by omega
    rw [At, cons_append, getElem?_cons_succ, getElem?_append_left hlt,
      getElem?_eq_getElem hlt, Option.map_some, h.continues _ (getElem_mem hlt)]

/-- Every place belongs to a character, and the characters before it are the longest piece of the
text that ends there or earlier. -/
theorem exists_startsAt {text : List Char} (hpos : pos < (encode text).length) :
    ∃ k, StartsAt (encode text) pos (encode (text.take k)).length ∧
      ∀ k', (encode (text.take k')).length ≤ pos →
        (encode (text.take k')).length ≤ (encode (text.take k)).length := by
  induction text generalizing pos with
  | nil => cases hpos
  | cons c text ih =>
    obtain ⟨lead, rest, hc, hchar⟩ := utf8EncodeChar_eq c
    have hencode (k : Nat) : (encode ((c :: text).take (k + 1))).length =
        (String.utf8EncodeChar c).length + (encode (text.take k)).length := by
      rw [take_succ_cons, encode_cons, length_append]
    by_cases hfirst : pos < (String.utf8EncodeChar c).length
    · refine ⟨0, ?_, ?_⟩
      · rw [encode_cons, hc]
        rw [hc, length_cons] at hfirst
        exact hchar.startsAt _ (by omega)
      intro k' hk'
      cases k' with
      | zero => exact Nat.le_refl _
      | succ k' =>
        rw [hencode] at hk'
        omega
    · rw [encode_cons, length_append] at hpos
      have hrest : pos - (String.utf8EncodeChar c).length < (encode text).length := by omega
      obtain ⟨k, hstarts, hlongest⟩ := ih hrest
      refine ⟨k + 1, ?_, ?_⟩
      · have hstarts' := hstarts.append (String.utf8EncodeChar c)
        rw [Nat.add_sub_cancel' (by omega)] at hstarts'
        rw [hencode]
        exact hstarts'
      intro k' hk'
      cases k' with
      | zero => exact Nat.zero_le _
      | succ k' =>
        rw [hencode] at hk' ⊢
        rw [hencode]
        have hle := hlongest k' (by omega)
        omega

theorem take_encode (text : List Char) (k : Nat) :
    (encode text).take (encode (text.take k)).length = encode (text.take k) := by
  have hsplit : encode text = encode (text.take k) ++ encode (text.drop k) := by
    rw [encode, encode, encode, ← flatMap_append, take_append_drop]
  rw [hsplit]
  exact take_left

theorem StartsAt.of_isPrefix {b' : List UInt8} (h : StartsAt b pos start)
    (hb : b' <+: b) (hpos : pos < b'.length) : StartsAt b' pos start := by
  have hsame (q : Nat) (hq : q ≤ pos) (continuation : Bool) (hat : At b q continuation) :
      At b' q continuation := by
    obtain ⟨b'', rfl⟩ := hb
    rw [At, getElem?_append_left (by omega)] at hat
    exact hat
  exact ⟨h.le, h.near, hsame start h.le false h.lead,
    fun q hstart hq => hsame q hq true (h.between q hstart hq)⟩

theorem StartsAt.pred (h : StartsAt b (pos + 1) start)
    (hle : start ≤ pos) : StartsAt b pos start where
  le := hle
  near := by
    have hnear := h.near
    omega
  lead := h.lead
  between := fun q hstart hq => h.between q hstart (by omega)

end Lsvmi.Reasoning.Utf8
