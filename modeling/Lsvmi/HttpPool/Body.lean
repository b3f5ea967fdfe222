import Mathlib.Logic.Function.Basic
import Lsvmi.Reasoning.Runs

/-!
# The request body of `SendBuffer`

All the attempts of a `SendBuffer` call use one body, which is rewound before every attempt after
the first.  The transport of an attempt reads and closes the body on its own goroutine, and may go
on to do so after `client.Do` has returned with an error.
-/

namespace Lsvmi.HttpPool

open Reasoning List Function

/-- The slice `b`, and what its array holds up to the capacity. -/
structure Buffer where
  b : List UInt8
  spare : List UInt8
  deriving DecidableEq, Repr

/-- What a `Read` returns: the bytes, and whether the error is `io.EOF`. -/
structure ReadResult where
  bytes : List UInt8
  eof : Bool
  deriving DecidableEq, Repr

inductive Whence where
  | seekStart | seekCurrent | seekEnd
  | other
  deriving DecidableEq, Repr

def wrapInt64 (x : Int) : Int := x.bmod 18446744073709551616

/-! ## `BytesReadSeekCloser` -/

structure BytesReadSeekCloser where
  i : Nat
  closed : Bool
  deriving DecidableEq, Repr

namespace BytesReadSeekCloser

def new (buf : Buffer) : BytesReadSeekCloser := ⟨0, buf.b.isEmpty⟩

def read (buf : Buffer) (brsc : BytesReadSeekCloser) (n : Nat) :
    ReadResult × BytesReadSeekCloser :=
  if brsc.closed then (⟨[], false⟩, brsc)
  else if buf.b.length ≤ brsc.i then (⟨[], true⟩, brsc)
  else
    let bytes := (buf.b.drop brsc.i).take n
    (⟨bytes, false⟩, { brsc with i := brsc.i + bytes.length })

def close (brsc : BytesReadSeekCloser) : BytesReadSeekCloser := { brsc with closed := true }

def rewind (_ : BytesReadSeekCloser) : BytesReadSeekCloser := ⟨0, false⟩

end BytesReadSeekCloser

/-! ## `CreditReader` -/

structure CreditReader where
  minC : Nat
  r : Nat
  closed : Bool
  deriving DecidableEq, Repr

namespace CreditReader

def new (minAcceptable : Nat) : CreditReader := ⟨minAcceptable, 0, false⟩

def seekTarget (buf : Buffer) (cr : CreditReader) (offset : Int64) : Whence → Option Int
  | .seekCurrent => some (wrapInt64 (cr.r + offset.toInt))
  | .seekStart => some offset.toInt
  | .seekEnd => some (wrapInt64 (buf.b.length - 1 + offset.toInt))
  | .other => none

def seek (buf : Buffer) (cr : CreditReader) (offset : Int64) (whence : Whence) :
    Option Int × CreditReader :=
  match cr.seekTarget buf offset whence with
  | none => (none, cr)
  | some newR =>
    if newR < 0 ∨ buf.b.length ≤ newR then (none, cr)
    else if cr.closed then (some cr.r, cr)
    else (some newR, { cr with r := newR.toNat })

/-- `Read` into a slice of length `n`, up to the call of `GetCredit`: the result if there is no such
call, and the desired credit otherwise. -/
def readEnter (buf : Buffer) (cr : CreditReader) (n : Nat) : ReadResult ⊕ Nat :=
  if cr.closed then .inl ⟨[], false⟩
  else if buf.b.length ≤ cr.r then .inl ⟨[], true⟩
  else if n = 0 then .inl ⟨[], false⟩
  else .inr (min n (buf.b.length - cr.r))

/-- What `GetCredit` can return; 0 as the least acceptable credit stands for an exact match. -/
def granted (cr : CreditReader) (desired toRead : Nat) : Bool :=
  let minAcceptable := if cr.minC = 0 ∨ desired < cr.minC then desired else cr.minC
  minAcceptable ≤ toRead ∧ toRead ≤ desired

/-- The rest of `Read`; `none` when the slice `b[s:r]` ends behind the capacity. -/
def readAdvance (buf : Buffer) (cr : CreditReader) (toRead : Nat) :
    Option (ReadResult × CreditReader) :=
  if toRead = 0 then some (⟨[], false⟩, cr)
  else if buf.b.length + buf.spare.length < cr.r + toRead then none
  else
    some (⟨((buf.b ++ buf.spare).drop cr.r).take toRead, false⟩, { cr with r := cr.r + toRead })

def close (cr : CreditReader) : CreditReader := { cr with closed := true }

def rewind (cr : CreditReader) : CreditReader := { cr with r := 0, closed := false }

end CreditReader

/-! ## The attempts of one call -/

/-- `ReadSeekRewindCloser`. -/
inductive Body where
  | bytes (brsc : BytesReadSeekCloser)
  | credit (cr : CreditReader)
  deriving DecidableEq, Repr

def Body.pos : Body → Nat
  | .bytes brsc => brsc.i
  | .credit cr => cr.r

def Body.closed : Body → Bool
  | .bytes brsc => brsc.closed
  | .credit cr => cr.closed

def Body.close : Body → Body
  | .bytes brsc => .bytes brsc.close
  | .credit cr => .credit cr.close

def Body.rewind : Body → Body
  | .bytes brsc => .bytes brsc.rewind
  | .credit cr => .credit cr.rewind

def newBody (buf : Buffer) (hasCredit : Bool) : Body :=
  if hasCredit then .credit (.new 128) else .bytes (.new buf)

structure Sending where
  body : Body
  /-- the attempts that have been started -/
  attempt : Nat
  /-- the desired credit of the `Read` that an attempt has in `GetCredit` -/
  parked : Nat → Option Nat
  /-- the bytes that the `Read`s of an attempt have returned -/
  got : Nat → List UInt8
  /-- whether one of them has returned `io.EOF` -/
  eof : Nat → Bool

def newSending (buf : Buffer) (hasCredit : Bool) : Sending :=
  { body := newBody buf hasCredit, attempt := 0, parked := fun _ => none, got := fun _ => []
    eof := fun _ => false }

inductive BodyEvent where
  /-- the next attempt, up to the call of `client.Do` -/
  | start
  /-- a `Read` of attempt `k` into a slice of length `n`, up to `GetCredit` if that is called -/
  | read (k n : Nat)
  /-- the `GetCredit` call of attempt `k` returns -/
  | advance (k toRead : Nat)
  | close (k : Nat)
  deriving DecidableEq, Repr

def Sending.record (s : Sending) (k : Nat) (result : ReadResult) : Sending :=
  { s with
    got := Function.update s.got k (s.got k ++ result.bytes)
    eof := Function.update s.eof k (s.eof k || result.eof) }

def Sending.mayRead (s : Sending) (k : Nat) : Bool :=
  0 < k ∧ k ≤ s.attempt ∧ s.parked k = none

def Sending.step (buf : Buffer) (s : Sending) : BodyEvent → Option Sending
  | .start =>
    let attempt := s.attempt + 1
    some { s with attempt, body := if 1 < attempt then s.body.rewind else s.body }
  | .read k n =>
    if s.mayRead k then
      match s.body with
      | .bytes brsc =>
        let (result, brsc) := brsc.read buf n
        some ({ s with body := .bytes brsc }.record k result)
      | .credit cr =>
        match cr.readEnter buf n with
        | .inl result => some (s.record k result)
        -- It waits for credit, with the amount it was going to ask for.
        | .inr desired => some { s with parked := Function.update s.parked k (some desired) }
    else none
  | .advance k toRead =>
    match s.body, s.parked k with
    | .credit cr, some desired =>
      if cr.granted desired toRead then
        match cr.readAdvance buf toRead with
        | some (result, cr) =>
          some ({ s with body := .credit cr, parked := Function.update s.parked k none }.record k
            result)
        | none => none
      else none
    | _, _ => none
  | .close k =>
    if 0 < k ∧ k ≤ s.attempt then some { s with body := s.body.close } else none

def Sending.Steps (buf : Buffer) (s : Sending) (e : BodyEvent) (s' : Sending) : Prop :=
  s.step buf e = some s'

/-! ## Attempts that keep out of each other's way -/

/-- After the `Rewind` of a later attempt, a `Read` of an attempt is not issued unless the body is
closed, and does not get its credit. -/
def NoLateRead (s : Sending) : BodyEvent → Prop
  | .read k _ => k = s.attempt ∨ s.body.closed = true
  | .advance k _ => k = s.attempt
  | .start | .close _ => True

/-- The latest attempt has read up to the position of the body. -/
structure Sending.Inv (buf : Buffer) (s : Sending) : Prop where
  pos_le : s.body.pos ≤ buf.b.length
  pos_eq_zero : s.attempt = 0 → s.body.pos = 0
  got_current : s.got s.attempt = buf.b.take s.body.pos
  parked_le : ∀ desired, s.parked s.attempt = some desired →
    0 < s.attempt ∧ s.body.pos + desired ≤ buf.b.length
  got_later : ∀ k, s.attempt < k → s.got k = [] ∧ s.parked k = none
  got_start : ∀ k, s.got k <+: buf.b
  got_of_eof : ∀ k, s.eof k = true → s.got k = buf.b

section

variable {buf : Buffer} {s s' : Sending} {e : BodyEvent} {result : ReadResult} {cr : CreditReader}
  {n : Nat}

theorem Body.close_pos (body : Body) : body.close.pos = body.pos := by
  cases body <;> rfl

theorem Body.rewind_pos (body : Body) : body.rewind.pos = 0 := by
  cases body <;> rfl

theorem newBody_pos (buf : Buffer) (hasCredit : Bool) : (newBody buf hasCredit).pos = 0 := by
  cases hasCredit <;> rfl

@[simp] theorem record_nothing (s : Sending) (k : Nat) : s.record k ⟨[], false⟩ = s := by
  simp [Sending.record]

theorem newSending_inv (buf : Buffer) (hasCredit : Bool) : (newSending buf hasCredit).Inv buf := by
  have hpos : (newSending buf hasCredit).body.pos = 0 := newBody_pos buf hasCredit
  refine ⟨?_, fun _ => hpos, ?_, ?_, ?_, ?_, ?_⟩
  · rw [hpos]
    exact Nat.zero_le _
  · rw [hpos, take_zero]
    rfl
  · intro desired h
    cases h
  · exact fun k _ => ⟨rfl, rfl⟩
  · exact fun k => nil_prefix
  · intro k h
    cases h

theorem Sending.Inv.record (hs : s.Inv buf) (body : Body) (parked : Nat → Option Nat)
    (hattempt : 0 < s.attempt) (hle : body.pos ≤ buf.b.length)
    (hbytes : buf.b.take s.body.pos ++ result.bytes = buf.b.take body.pos)
    (heof : result.eof → body.pos = buf.b.length)
    (hcurrent : ∀ desired, parked s.attempt = some desired → body.pos + desired ≤ buf.b.length)
    (hlater : ∀ k, s.attempt < k → parked k = none) :
    ({ s with body, parked }.record s.attempt result).Inv buf := by
  have hgot : s.got s.attempt ++ result.bytes = buf.b.take body.pos := by
    rw [hs.got_current, hbytes]
  have hother : ∀ k, k ≠ s.attempt →
      update s.got s.attempt (s.got s.attempt ++ result.bytes) k = s.got k :=
    fun k hk => update_of_ne hk _ _
  refine ⟨hle, fun hzero => absurd hzero (Nat.ne_of_gt hattempt), ?_, ?_, ?_, ?_, ?_⟩
  · exact (update_self _ _ _).trans hgot
  · exact fun desired h => ⟨hattempt, hcurrent desired h⟩
  · intro k hk
    exact ⟨(hother k (Nat.ne_of_gt hk)).trans (hs.got_later k hk).1, hlater k hk⟩
  · intro k
    show update s.got s.attempt _ k <+: _
    by_cases hk : k = s.attempt
    · rw [hk, update_self, hgot]
      exact take_prefix _ _
    · rw [hother k hk]
      exact hs.got_start k
  · intro k hend
    show update s.got s.attempt _ k = _
    change update s.eof s.attempt _ k = true at hend
    by_cases hk : k = s.attempt
    · subst hk
      rw [update_self] at hend ⊢
      rcases Bool.or_eq_true_iff.mp hend with hwas | hnow
      -- Past its end the body gives nothing, so `b` is not exceeded.
      · have hall := hs.got_of_eof _ hwas
        have hlen := congrArg length hgot
        rw [hall, length_append, length_take] at hlen
        rw [hall, eq_nil_of_length_eq_zero (show result.bytes.length = 0 by omega), append_nil]
      · rw [hgot, heof hnow, take_length]
    · rw [hother k hk]
      rw [update_of_ne hk] at hend
      exact hs.got_of_eof k hend

theorem Sending.Inv.start (hs : s.Inv buf) (body : Body) (hpos : body.pos = 0) :
    { s with attempt := s.attempt + 1, body }.Inv buf := by
  obtain ⟨hgot, hparked⟩ := hs.got_later (s.attempt + 1) (Nat.lt_succ_self _)
  refine ⟨?_, fun _ => hpos, ?_, ?_, ?_, hs.got_start, hs.got_of_eof⟩
  · show body.pos ≤ _
    omega
  · show s.got (s.attempt + 1) = buf.b.take body.pos
    rw [hgot, hpos, take_zero]
  · intro desired h
    rw [hparked] at h
    cases h
  · exact fun k hk => hs.got_later k (Nat.lt_of_succ_lt hk)

theorem take_append_drop_take (l : List UInt8) (i n : Nat) :
    l.take i ++ (l.drop i).take n = l.take (i + ((l.drop i).take n).length) := by
  rw [take_add, length_take, ← take_eq_take_min]

theorem Sending.Inv.readBytes (hs : s.Inv buf) {brsc : BytesReadSeekCloser}
    (hbody : s.body = .bytes brsc) (hattempt : 0 < s.attempt)
    (hparked : s.parked s.attempt = none) (n : Nat) :
    ({ s with body := .bytes (brsc.read buf n).2 }.record s.attempt (brsc.read buf n).1).Inv buf := by
  have hpos : s.body.pos = brsc.i := by
    rw [hbody]
    rfl
  have hle : brsc.i ≤ buf.b.length := hpos ▸ hs.pos_le
  -- Each way out of `Read` extends what the attempt has got up to the new position.
  have hrecord : ∀ (i : Nat) (result : ReadResult), i ≤ buf.b.length →
      buf.b.take brsc.i ++ result.bytes = buf.b.take i →
      (result.eof → i = buf.b.length) →
      ({ s with body := .bytes { brsc with i } }.record s.attempt result).Inv buf := by
    intro i result hi hbytes heof
    refine hs.record (.bytes { brsc with i }) s.parked hattempt hi (hpos ▸ hbytes) heof ?_ ?_
    · intro desired h
      rw [hparked] at h
      cases h
    · exact fun k hk => (hs.got_later k hk).2
  unfold BytesReadSeekCloser.read
  split
  · exact hrecord brsc.i _ hle (append_nil _) (fun h => by cases h)
  split
  · exact hrecord brsc.i _ hle (append_nil _) (fun _ => by omega)
  · refine hrecord _ _ ?_ (take_append_drop_take _ _ _) (fun h => by cases h)
    rw [length_take, length_drop]
    omega

section

variable (hs : s.Inv buf) (hbody : s.body = .credit cr)
include hs hbody

theorem Sending.Inv.readAdvance {cr' : CreditReader} {desired toRead : Nat}
    (hparked : s.parked s.attempt = some desired) (hle : toRead ≤ desired)
    (h : cr.readAdvance buf toRead = some (result, cr')) :
    ({ s with body := .credit cr', parked := update s.parked s.attempt none }.record
      s.attempt result).Inv buf := by
  obtain ⟨hattempt, hdesired⟩ := hs.parked_le desired hparked
  have hpos : s.body.pos = cr.r := by
    rw [hbody]
    rfl
  rw [hpos] at hdesired
  have hrecord : ∀ (r : Nat) (result : ReadResult), r ≤ buf.b.length →
      buf.b.take cr.r ++ result.bytes = buf.b.take r → result.eof = false →
      ({ s with body := .credit { cr with r }
                parked := update s.parked s.attempt none }.record
        s.attempt result).Inv buf := by
    intro r result hr hbytes heof
    refine hs.record (.credit { cr with r }) _ hattempt hr (hpos ▸ hbytes) ?_ ?_ ?_
    · rw [heof]
      exact fun hc => by cases hc
    · intro desired h
      rw [update_self] at h
      cases h
    · intro k hk
      rw [update_of_ne (Nat.ne_of_gt hk)]
      exact (hs.got_later k hk).2
  unfold CreditReader.readAdvance at h
  split at h
  · cases h
    exact hrecord cr.r _ (by omega) (append_nil _) rfl
  split at h
  · cases h
  cases h
  refine hrecord _ _ (by omega) ?_ rfl
  -- The slice ends within `b`, so the spare capacity is not touched.
  rw [drop_append_of_le_length (by omega),
    take_append_of_le_length (by rw [length_drop]; omega), ← take_add]

theorem Sending.Inv.park {desired : Nat} (hattempt : 0 < s.attempt)
    (h : cr.readEnter buf n = .inr desired) :
    { s with parked := update s.parked s.attempt (some desired) }.Inv buf := by
  have hdesired : cr.r + desired ≤ buf.b.length := by
    unfold CreditReader.readEnter at h
    split at h
    · cases h
    split at h
    · cases h
    · split at h
      · cases h
      · cases h
        omega
  refine ⟨hs.pos_le, hs.pos_eq_zero, hs.got_current, ?_, ?_, hs.got_start, hs.got_of_eof⟩
  · intro d hd
    change update s.parked s.attempt _ s.attempt = some d at hd
    rw [update_self] at hd
    cases hd
    show _ ∧ s.body.pos + _ ≤ _
    rw [hbody]
    exact ⟨hattempt, hdesired⟩
  · intro k hk
    refine ⟨(hs.got_later k hk).1, ?_⟩
    show update s.parked s.attempt _ k = none
    rw [update_of_ne (Nat.ne_of_gt hk)]
    exact (hs.got_later k hk).2

theorem Sending.Inv.readEnter (hattempt : 0 < s.attempt) (hparked : s.parked s.attempt = none)
    (h : cr.readEnter buf n = .inl result) : (s.record s.attempt result).Inv buf := by
  have hbytes : result.bytes = [] ∧ (result.eof → s.body.pos = buf.b.length) := by
    have hle := hs.pos_le
    rw [hbody] at hle ⊢
    unfold CreditReader.readEnter at h
    split at h
    · cases h
      exact ⟨rfl, fun hc => by cases hc⟩
    split at h
    · cases h
      exact ⟨rfl, fun _ => Nat.le_antisymm hle ‹_›⟩
    · split at h
      · cases h
        exact ⟨rfl, fun hc => by cases hc⟩
      · cases h
  refine hs.record s.body s.parked hattempt hs.pos_le ?_ hbytes.2 ?_ ?_
  · rw [hbytes.1, append_nil]
  · intro desired hd
    rw [hparked] at hd
    cases hd
  · exact fun k hk => (hs.got_later k hk).2

end

theorem Sending.Inv.read (hs : s.Inv buf) {k : Nat} (h : s.Steps buf (.read k n) s')
    (hlate : k = s.attempt ∨ s.body.closed) : s'.Inv buf := by
  unfold Sending.Steps at h
  simp only [Sending.step] at h
  split at h
  · rename_i hmay
    simp only [Sending.mayRead, decide_eq_true_eq] at hmay
    obtain ⟨hk, -, hparked⟩ := hmay
    rcases hlate with rfl | hclosed
    · split at h
      · rename_i brsc hbody
        cases h
        exact hs.readBytes hbody hk hparked n
      rename_i cr hbody
      split at h
      · cases h
        exact hs.readEnter hbody hk hparked ‹_›
      · cases h
        exact hs.park hbody hk ‹_›
    -- A closed body returns nothing to anyone.
    · suffices hsame : s' = s by rw [hsame]; exact hs
      cases hbody : s.body with
      | bytes brsc =>
        have hread : brsc.read buf n = (⟨[], false⟩, brsc) := by
          rw [hbody] at hclosed
          exact if_pos hclosed
        simp only [hbody, hread, record_nothing] at h
        rw [← hbody] at h
        exact (Option.some.inj h).symm
      | credit cr =>
        have hread : cr.readEnter buf n = .inl ⟨[], false⟩ := by
          rw [hbody] at hclosed
          exact if_pos hclosed
        simp only [hbody, hread, record_nothing] at h
        exact (Option.some.inj h).symm
  · cases h

theorem Sending.Inv.step (hs : s.Inv buf) (h : s.Steps buf e s') (hlate : NoLateRead s e) :
    s'.Inv buf := by
  unfold Sending.Steps at h
  cases e with
  | start =>
    cases h
    refine hs.start _ ?_
    split
    · exact Body.rewind_pos _
    · exact hs.pos_eq_zero (by omega)
  | read k n => exact hs.read h hlate
  | advance k toRead =>
    obtain rfl : k = s.attempt := hlate
    simp only [Sending.step] at h
    split at h
    · rename_i cr desired hbody hparked
      split at h
      · rename_i hgranted
        simp only [CreditReader.granted, decide_eq_true_eq] at hgranted
        split at h
        · cases h
          exact hs.readAdvance hbody hparked hgranted.2 ‹_›
        · cases h
      · cases h
    · cases h
  | close k =>
    simp only [Sending.step] at h
    split at h
    · cases h
      refine ⟨?_, ?_, ?_, ?_, hs.got_later, hs.got_start, hs.got_of_eof⟩
      all_goals simp only [Body.close_pos]
      · exact hs.pos_le
      · exact hs.pos_eq_zero
      · exact hs.got_current
      · exact hs.parked_le
    · cases h

/-- Without late `Read`s every attempt gets a part of `b` from its start, and all of it if it sees
the end. -/
theorem attempts_read_body {hasCredit : Bool} {es : List BodyEvent}
    (hrun : Run (fun s e s' => s.Steps buf e s' ∧ NoLateRead s e) (newSending buf hasCredit) es s)
    (k : Nat) : s.got k <+: buf.b ∧ (s.eof k = true → s.got k = buf.b) := by
  have hs : s.Inv buf := by
    refine hrun.invariant (newSending_inv buf hasCredit) ?_
    rintro t f t' ht ⟨hstep, hlate⟩
    exact ht.step hstep hlate
  exact ⟨hs.got_start k, hs.got_of_eof k⟩

end

/-- Two attempts, of which the first one reads nothing before the second one reads it all. -/
theorem attempts_read_body_two_attempts : ∃ s : Sending,
    Run (fun s e s' => s.Steps ⟨[1, 2], []⟩ e s' ∧ NoLateRead s e) (newSending ⟨[1, 2], []⟩ true)
      [.start, .read 1 8, .start, .read 2 8, .advance 2 2, .read 2 8] s ∧
    s.eof 2 = true ∧ s.got 2 = [1, 2] := by
  obtain ⟨s, hrun, heof⟩ : ∃ s : Sending,
      Run (fun s e s' => s.Steps ⟨[1, 2], []⟩ e s' ∧ NoLateRead s e) (newSending ⟨[1, 2], []⟩ true)
        [.start, .read 1 8, .start, .read 2 8, .advance 2 2, .read 2 8] s ∧ s.eof 2 = true := by
    refine ⟨_, .cons ⟨rfl, trivial⟩ (.cons ⟨rfl, .inl ?_⟩ (.cons ⟨rfl, trivial⟩
      (.cons ⟨rfl, .inl ?_⟩ (.cons ⟨rfl, ?_⟩ (.cons ⟨rfl, .inl ?_⟩ .start))))), ?_⟩ <;> rfl
  exact ⟨s, hrun, heof, (attempts_read_body hrun 2).2 heof⟩

/-- The `Read` of the first attempt gets its credit, or is issued, after the second one has
rewound the body: the second attempt misses the first byte. -/
theorem late_read_breaks_retry :
    (∃ s, Run (Sending.Steps ⟨[1, 2], []⟩) (newSending ⟨[1, 2], []⟩ true)
      [.start, .read 1 1, .start, .advance 1 1, .read 2 8, .advance 2 1, .read 2 8] s ∧
      s.eof 2 = true ∧ s.got 2 = [2]) ∧
    ∃ s, Run (Sending.Steps ⟨[1, 2], []⟩) (newSending ⟨[1, 2], []⟩ false)
      [.start, .start, .read 1 1, .read 2 8, .read 2 8] s ∧ s.eof 2 = true ∧ s.got 2 = [2] :=
  ⟨⟨_, Run.of_foldlM (f := Sending.step ⟨[1, 2], []⟩) rfl, rfl, rfl⟩,
    ⟨_, Run.of_foldlM (f := Sending.step ⟨[1, 2], []⟩) rfl, rfl, rfl⟩⟩

end Lsvmi.HttpPool
