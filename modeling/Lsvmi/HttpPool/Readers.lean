import Lsvmi.HttpPool.Body

/-!
# The two request bodies side by side

`BytesReadSeekCloser` and a `CreditReader` whose controller grants all that is desired, driven by the
same calls.
-/

namespace Lsvmi.HttpPool

open Reasoning List

inductive ReaderOp where
  /-- `Read` into a slice of length `n` -/
  | read (n : Nat)
  | seek (offset : Int64) (whence : Whence)
  | close
  | rewind
  deriving DecidableEq, Repr

inductive OpResult where
  | read (result : ReadResult)
  /-- the position, or none for an error -/
  | seek (position : Option Int)
  | ok
  deriving DecidableEq, Repr

namespace BytesReadSeekCloser

def seekTarget (buf : Buffer) (brsc : BytesReadSeekCloser) (offset : Int64) : Whence → Option Int
  | .seekStart => some offset.toInt
  | .seekCurrent => some (wrapInt64 (brsc.i + offset.toInt))
  | .seekEnd => some (wrapInt64 (buf.b.length + offset.toInt))
  | .other => none

def seek (buf : Buffer) (brsc : BytesReadSeekCloser) (offset : Int64) (whence : Whence) :
    Option Int × BytesReadSeekCloser :=
  -- `closedPos` is the length of the slice.
  if brsc.closed then (some buf.b.length, brsc)
  else match brsc.seekTarget buf offset whence with
    | none => (none, brsc)
    | some abs => if abs < 0 then (none, brsc) else (some abs, { brsc with i := abs.toNat })

def op (buf : Buffer) (brsc : BytesReadSeekCloser) : ReaderOp → OpResult × BytesReadSeekCloser
  | .read n => (.read (brsc.read buf n).1, (brsc.read buf n).2)
  | .seek offset whence => (.seek (brsc.seek buf offset whence).1, (brsc.seek buf offset whence).2)
  | .close => (.ok, brsc.close)
  | .rewind => (.ok, brsc.rewind)

end BytesReadSeekCloser

namespace CreditReader

/-- `Read` into a slice of length `n`, with what the controller grants for a desired and a least
acceptable credit; `none` when the slice it copies from is out of range. -/
def read (getCredit : Nat → Nat → Nat) (buf : Buffer) (cr : CreditReader) (n : Nat) :
    Option (ReadResult × CreditReader) :=
  match cr.readEnter buf n with
  | .inl result => some (result, cr)
  | .inr desired => cr.readAdvance buf (getCredit desired cr.minC)

def op (getCredit : Nat → Nat → Nat) (buf : Buffer) (cr : CreditReader) :
    ReaderOp → Option (OpResult × CreditReader)
  | .read n => (cr.read getCredit buf n).map fun r => (.read r.1, r.2)
  | .seek offset whence => some (.seek (cr.seek buf offset whence).1, (cr.seek buf offset whence).2)
  | .close => some (.ok, cr.close)
  | .rewind => some (.ok, cr.rewind)

end CreditReader

def fullCredit (desired _minAcceptable : Nat) : Nat := desired

structure Readers where
  brsc : BytesReadSeekCloser
  cr : CreditReader
  deriving DecidableEq, Repr

def newReaders (buf : Buffer) (minAcceptable : Nat) : Readers := ⟨.new buf, .new minAcceptable⟩

def Readers.step (buf : Buffer) (s : Readers) (op : ReaderOp) : Option Readers :=
  (s.cr.op fullCredit buf op).map fun r => ⟨(s.brsc.op buf op).2, r.2⟩

def Readers.Steps (buf : Buffer) (s : Readers) (op : ReaderOp) (s' : Readers) : Prop :=
  s.step buf op = some s'

def SameResult (buf : Buffer) (s : Readers) (op : ReaderOp) : Prop :=
  (s.cr.op fullCredit buf op).map Prod.fst = some (s.brsc.op buf op).1

/-- A call that returns the same on both: a `Read` unless only one of them is closed, which is so
before the first `Close` or `Rewind` of an empty slice, and a `Seek` of
* readers that are not closed, to a position before the end that is not given relative to the end, or
  to one that both reject;
* closed readers at the end of the slice, to a position in it. -/
def Fits (buf : Buffer) (s : Readers) : ReaderOp → Prop
  | .read _ => s.brsc.closed = s.cr.closed
  | .seek offset whence =>
    if s.brsc.closed then
      s.brsc.i = buf.b.length ∧
        (s.cr.seekTarget buf offset whence).any fun newR : Int => 0 ≤ newR ∧ newR < buf.b.length
    else
      (s.brsc.seekTarget buf offset whence).all fun abs : Int =>
        abs < 0 ∨ whence ≠ .seekEnd ∧ abs < buf.b.length
  | .close | .rewind => True

instance (buf : Buffer) (s : Readers) : DecidablePred (Fits buf s)
  | .read _ => inferInstanceAs (Decidable (s.brsc.closed = s.cr.closed))
  | .seek _ _ => inferInstanceAs (Decidable (if s.brsc.closed = true then _ else _))
  | .close | .rewind => inferInstanceAs (Decidable True)

/-- Where the readers are after calls that have returned the same on both. -/
structure Readers.Sync (buf : Buffer) (s : Readers) : Prop where
  pos_eq : s.cr.r = s.brsc.i
  pos_le : s.brsc.i ≤ buf.b.length
  /-- An empty slice is closed from the start for one of them only. -/
  closed_eq : s.brsc.closed = s.cr.closed ∨
    buf.b.length = 0 ∧ s.brsc.closed = true ∧ s.cr.closed = false

section

variable {buf : Buffer} {s s' : Readers} {offset : Int64} {whence : Whence}

open BytesReadSeekCloser

theorem newReaders_sync (buf : Buffer) (minAcceptable : Nat) :
    (newReaders buf minAcceptable).Sync buf := by
  refine ⟨rfl, Nat.zero_le _, ?_⟩
  cases hb : buf.b with
  | nil => exact .inr ⟨rfl, by simp [newReaders, new, hb], rfl⟩
  | cons => exact .inl (by simp [newReaders, new, CreditReader.new, hb])

/-- With all the credit it desires, a `CreditReader` reads what a `bytes.Reader` does. -/
theorem read_fullCredit (buf : Buffer) (cr : CreditReader) (hr : cr.r ≤ buf.b.length) (n : Nat) :
    cr.read fullCredit buf n =
      some ((BytesReadSeekCloser.read buf ⟨cr.r, cr.closed⟩ n).1,
        { cr with r := (BytesReadSeekCloser.read buf ⟨cr.r, cr.closed⟩ n).2.i }) := by
  obtain ⟨minC, r, closed⟩ := cr
  unfold CreditReader.read CreditReader.readEnter BytesReadSeekCloser.read fullCredit
  cases closed with
  | true => simp
  | false =>
    by_cases hend : buf.b.length ≤ r
    · simp [hend]
    by_cases hn : n = 0
    · simp [hn, hend]
    have hdesired : min n (buf.b.length - r) ≠ 0 := by omega
    have hroom : ¬ buf.b.length + buf.spare.length < r + min n (buf.b.length - r) := by omega
    have hbytes : ((buf.b ++ buf.spare).drop r).take (min n (buf.b.length - r)) =
        (buf.b.drop r).take n := by
      have hle : min n (buf.b.length - r) ≤ (buf.b.drop r).length := by
        rw [length_drop]
        omega
      rw [drop_append_of_le_length hr, take_append_of_le_length hle, ← length_drop,
        ← take_eq_take_min]
    simp only [hend, hn, CreditReader.readAdvance, hdesired, hroom, if_false, hbytes,
      Bool.false_eq_true, length_take, length_drop]

theorem brsc_read_pos_le (hi : s.brsc.i ≤ buf.b.length) (n : Nat) :
    (s.brsc.read buf n).2.i ≤ buf.b.length ∧ (s.brsc.read buf n).2.closed = s.brsc.closed := by
  unfold BytesReadSeekCloser.read
  split
  · exact ⟨hi, rfl⟩
  split
  · exact ⟨hi, rfl⟩
  · refine ⟨?_, rfl⟩
    simp only [length_take, length_drop]
    omega

theorem seekTarget_eq (hpos : s.cr.r = s.brsc.i) (hwhence : whence ≠ .seekEnd) :
    s.cr.seekTarget buf offset whence = s.brsc.seekTarget buf offset whence := by
  cases whence with
  | seekStart | other => rfl
  | seekCurrent => simp only [CreditReader.seekTarget, seekTarget, hpos]
  | seekEnd => exact absurd rfl hwhence

theorem seekEnd_apart (hlen : buf.b.length < 9223372036854775808) (offset : Int64) :
    let abs := wrapInt64 (buf.b.length + offset.toInt)
    let newR := wrapInt64 (buf.b.length - 1 + offset.toInt)
    (abs < 0 → newR < 0 ∨ buf.b.length ≤ newR) ∧ (0 ≤ abs → newR = abs - 1 ∨ newR < 0) := by
  have hlt := offset.toInt_lt
  have hle := offset.le_toInt
  simp only [wrapInt64, Int.bmod]
  omega

theorem Readers.Sync.cr_open (hs : s.Sync buf) (hopen : s.brsc.closed = false) :
    s.cr.closed = false := by
  rcases hs.closed_eq with heq | ⟨-, htrue, -⟩
  · exact heq ▸ hopen
  · rw [hopen] at htrue
    cases htrue

theorem seek_open (hlen : buf.b.length < 9223372036854775808) (hs : s.Sync buf)
    (hopen : s.brsc.closed = false) :
    (s.cr.seek buf offset whence).1 = (s.brsc.seek buf offset whence).1 ↔
      ∀ abs, s.brsc.seekTarget buf offset whence = some abs →
        abs < 0 ∨ whence ≠ .seekEnd ∧ abs < buf.b.length := by
  have hcr := hs.cr_open hopen
  unfold CreditReader.seek seek
  simp only [hopen, hcr, Bool.false_eq_true, if_false]
  by_cases hend : whence = .seekEnd
  · subst hend
    obtain ⟨hneg, hnonneg⟩ := seekEnd_apart hlen offset
    simp only [CreditReader.seekTarget, seekTarget, Option.some.injEq,
      forall_eq', ne_eq, not_true, false_and, or_false]
    by_cases habs : wrapInt64 (buf.b.length + offset.toInt) < 0
    · rw [if_pos (hneg habs), if_pos habs]
      simp [habs]
    rw [if_neg habs]
    have happart := hnonneg (Int.not_lt.mp habs)
    refine iff_of_false ?_ habs
    split
    · simp
    · simp only [Option.some.injEq]
      omega
  · rw [seekTarget_eq hs.pos_eq hend]
    cases s.brsc.seekTarget buf offset whence with
    | none => simp
    | some abs =>
      simp only [Option.some.injEq, forall_eq', ne_eq, hend, not_false_eq_true, true_and]
      by_cases hneg : abs < 0
      · simp [hneg]
      · by_cases hlt : abs < buf.b.length
        · simp [hneg, hlt, Int.not_le.mpr hlt]
        · simp [hneg, hlt, Int.not_lt.mp hlt]

theorem seek_closed (hs : s.Sync buf) (hclosed : s.brsc.closed) :
    (s.cr.seek buf offset whence).1 = (s.brsc.seek buf offset whence).1 ↔
      s.brsc.i = buf.b.length ∧ ∃ newR, s.cr.seekTarget buf offset whence = some newR ∧
        0 ≤ newR ∧ newR < buf.b.length := by
  unfold CreditReader.seek seek
  simp only [hclosed, if_true]
  cases s.cr.seekTarget buf offset whence with
  | none => simp
  | some newR =>
    simp only [Option.some.injEq, exists_eq_left']
    by_cases hrange : newR < 0 ∨ (buf.b.length : Int) ≤ newR
    · rw [if_pos hrange]
      refine iff_of_false (by simp) ?_
      rintro ⟨-, hle, hlt⟩
      omega
    rw [if_neg hrange]
    -- A position in the slice: the slice is not empty, so both are closed.
    rcases hs.closed_eq with heq | ⟨hnil, -, -⟩
    · rw [if_pos (heq ▸ hclosed), hs.pos_eq]
      simp only [Option.some.injEq]
      omega
    · omega

theorem seek_sync (hlen : buf.b.length < 9223372036854775808) (hs : s.Sync buf)
    (hfits : Fits buf s (.seek offset whence)) :
    Readers.Sync buf ⟨(s.brsc.seek buf offset whence).2, (s.cr.seek buf offset whence).2⟩ := by
  cases hclosed : s.brsc.closed with
  | true =>
    simp only [Fits, hclosed, if_true, Option.any_eq_true, decide_eq_true_eq] at hfits
    obtain ⟨-, newR, htarget, hle, hlt⟩ := hfits
    have hcr : s.cr.closed := by
      rcases hs.closed_eq with heq | ⟨hnil, -, -⟩
      · exact heq ▸ hclosed
      · omega
    have hrange : ¬ (newR < 0 ∨ (buf.b.length : Int) ≤ newR) := by omega
    unfold CreditReader.seek seek
    simp only [hclosed, hcr, htarget, hrange, if_true, if_false]
    exact hs
  | false =>
    simp only [Fits, hclosed, Bool.false_eq_true, if_false, Option.all_eq_true,
      decide_eq_true_eq] at hfits
    have hcr := hs.cr_open hclosed
    unfold CreditReader.seek seek
    simp only [hclosed, hcr, Bool.false_eq_true, if_false]
    by_cases hend : whence = .seekEnd
    · subst hend
      have hneg := (hfits _ rfl).resolve_right fun h => h.1 rfl
      have hrange := (seekEnd_apart hlen offset).1 hneg
      simp only [CreditReader.seekTarget, seekTarget, hneg, hrange, if_true]
      exact hs
    · rw [seekTarget_eq hs.pos_eq hend]
      cases htarget : s.brsc.seekTarget buf offset whence with
      | none => exact hs
      | some abs =>
        rcases hfits abs htarget with hneg | ⟨-, hlt⟩
        · simp only [hneg, true_or, if_true]
          exact hs
        by_cases hneg : abs < 0
        · simp only [hneg, true_or, if_true]
          exact hs
        have hbefore : ¬ (buf.b.length : Int) ≤ abs := by omega
        simp only [hneg, hbefore, or_self, if_false]
        refine ⟨rfl, ?_, .inl rfl⟩
        show abs.toNat ≤ buf.b.length
        omega

section

variable (hlen : buf.b.length < 9223372036854775808) (hs : s.Sync buf)
include hlen hs

theorem Readers.Sync.sameResult_iff (op : ReaderOp) : SameResult buf s op ↔ Fits buf s op := by
  cases op with
  | read n =>
    have hr : s.cr.r ≤ buf.b.length := hs.pos_eq ▸ hs.pos_le
    simp only [SameResult, CreditReader.op, BytesReadSeekCloser.op, Fits, read_fullCredit buf s.cr hr,
      Option.map_some, Option.some.injEq, OpResult.read.injEq, hs.pos_eq]
    rcases hs.closed_eq with heq | ⟨hnil, hclosed, hopen⟩
    · rw [← heq]
      simp
    · simp [BytesReadSeekCloser.read, hclosed, hopen, hnil]
  | seek offset whence =>
    simp only [SameResult, CreditReader.op, BytesReadSeekCloser.op, Fits, Option.map_some,
      Option.some.injEq, OpResult.seek.injEq]
    cases hclosed : s.brsc.closed with
    | true => simpa [Option.any_eq_true] using seek_closed hs hclosed
    | false => simpa [Option.all_eq_true] using seek_open hlen hs hclosed
  | close | rewind => simp [SameResult, CreditReader.op, BytesReadSeekCloser.op, Fits]

theorem Readers.Sync.step {op : ReaderOp} (hfits : Fits buf s op) (hstep : s.Steps buf op s') :
    s'.Sync buf := by
  obtain ⟨⟨result, cr⟩, hcr, rfl⟩ := Option.map_eq_some_iff.mp hstep
  cases op with
  | read n =>
    have hr : s.cr.r ≤ buf.b.length := hs.pos_eq ▸ hs.pos_le
    obtain ⟨hle, hclosed⟩ := brsc_read_pos_le hs.pos_le n
    have heq : s.brsc.closed = s.cr.closed := hfits
    simp only [CreditReader.op, read_fullCredit buf s.cr hr, Option.map_some, Option.some.injEq] at hcr
    cases hcr
    rw [hs.pos_eq, ← heq]
    exact ⟨rfl, hle, .inl hclosed⟩
  | seek offset whence =>
    cases hcr
    exact seek_sync hlen hs hfits
  | close =>
    cases hcr
    exact ⟨hs.pos_eq, hs.pos_le, .inl rfl⟩
  | rewind =>
    cases hcr
    exact ⟨rfl, Nat.zero_le _, .inl rfl⟩

end

/-- Over any slice and for any calls, both readers return the same if and only if every call fits the
state it finds; a slice has less than 2^63 bytes. -/
theorem sameResults_iff_fits (buf : Buffer) (hlen : buf.b.length < 9223372036854775808)
    (minAcceptable : Nat) (ops : List ReaderOp) :
    Always (Readers.Steps buf) (SameResult buf) (newReaders buf minAcceptable) ops ↔
      Always (Readers.Steps buf) (Fits buf) (newReaders buf minAcceptable) ops :=
  Always.iff_of_invariant (fun _ op hs (_ : True) => hs.sameResult_iff hlen op)
    (fun _ _ _ hs _ hfits hstep => hs.step hlen hfits hstep) (newReaders_sync buf minAcceptable)
    (Always.of_forall_mem (fun _ _ => trivial) _)

/-- `SendBuffer` and the transport do not seek: over a slice that is not empty all they call returns
the same. -/
theorem sameResults_of_no_seek (hne : buf.b ≠ []) (hlen : buf.b.length < 9223372036854775808)
    (minAcceptable : Nat) {ops : List ReaderOp}
    (hops : ∀ op ∈ ops, ∀ offset whence, op ≠ .seek offset whence) :
    Always (Readers.Steps buf) (SameResult buf) (newReaders buf minAcceptable) ops := by
  have hpos : buf.b.length ≠ 0 := fun hnil => hne (length_eq_zero_iff.mp hnil)
  have hfits : ∀ s op, s.Sync buf → (∀ offset whence, op ≠ .seek offset whence) → Fits buf s op := by
    intro s op hs hop
    cases op with
    | read n => exact hs.closed_eq.resolve_right fun hnil => hpos hnil.1
    | seek offset whence => exact absurd rfl (hop offset whence)
    | close | rewind => trivial
  exact Always.of_invariant (fun s op hs hop => (hs.sameResult_iff hlen op).mpr (hfits s op hs hop))
    (fun s op s' hs hop hstep => hs.step hlen (hfits s op hs hop) hstep)
    (newReaders_sync buf minAcceptable) (Always.of_forall_mem hops _)

theorem sameResults_of_no_seek_two_bytes :
    Always (Readers.Steps ⟨[1, 2], []⟩) (SameResult ⟨[1, 2], []⟩) (newReaders ⟨[1, 2], []⟩ 128)
      [.read 5, .close, .rewind, .read 1] :=
  sameResults_of_no_seek (by simp) (by decide) 128 (by simp)

/-- A slice of two bytes is read, rewound and read again from its second byte. -/
theorem sameResults_iff_fits_rewound :
    Always (Readers.Steps ⟨[1, 2], []⟩) (SameResult ⟨[1, 2], []⟩) (newReaders ⟨[1, 2], []⟩ 128)
      [.read 5, .read 5, .close, .rewind, .seek 1 .seekStart, .read 1] := by
  refine (sameResults_iff_fits ⟨[1, 2], []⟩ (by decide) 128 _).mpr ?_
  refine Always.of_checkRun (fun s op => decide (Fits ⟨[1, 2], []⟩ s op)) ?_ (by decide)
  exact fun s op hfits => of_decide_eq_true hfits

end

/-- Two bytes: the end is at position 2 for `bytes.Reader`, and at position 1 for `CreditReader`. -/
theorem seek_end_differs : ¬ ∀ (buf : Buffer) (minAcceptable : Nat) (ops : List ReaderOp),
    Always (Readers.Steps buf) (SameResult buf) (newReaders buf minAcceptable) ops := by
  intro h
  have hseek := (h ⟨[1, 2], []⟩ 128 [.seek 0 .seekEnd]).1
  revert hseek
  unfold SameResult
  decide

end Lsvmi.HttpPool
