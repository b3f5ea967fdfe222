import Mathlib.Tactic.Ring
import Lsvmi.RateController.Credit

/-!
# The credit granted along a run

What the readers get over any part of a run comes from the credit at its start and from what is
replenished meanwhile.
-/

namespace Lsvmi.RateController

open Reasoning List
open HttpPool (Buffer CreditReader ReadResult)

variable {buf : Buffer} {cr : CreditReader}

structure CreditOk (N M : Int) (c : Credit) : Prop where
  replenishValue_eq : c.replenishValue = N
  max_eq : c.max = (newCredit N M).max
  nonneg : 0 ≤ c.current
  le_max : M ≠ creditNoLimit → c.current ≤ max M N

section

variable {N M : Int} {c c' : Credit} {desired minAcceptable got : Int}

theorem newCredit_max (N M : Int) (hM : M ≠ creditNoLimit) : (newCredit N M).max = max M N := by
  show (if M ≠ creditNoLimit ∧ M < N then N else M) = _
  split <;> omega

theorem CreditOk.replenish (h : CreditOk N M c) (hN : 0 ≤ N) :
    CreditOk N M c.replenish ∧ c.replenish.current ≤ c.current + N := by
  have hnonneg := h.nonneg
  have hcurrent : c.replenish.current =
      if c.max ≠ creditNoLimit ∧ c.max < c.current + N then c.max else c.current + N := by
    rw [← h.replenishValue_eq]
    rfl
  have hmax := h.max_eq
  by_cases hM : M = creditNoLimit
  · have hnoLimit : (newCredit N M).max = creditNoLimit := by simp [newCredit, hM]
    rw [if_neg (by simp [hmax, hnoLimit])] at hcurrent
    refine ⟨⟨h.replenishValue_eq, hmax, ?_, absurd hM⟩, hcurrent.le⟩
    omega
  -- a cap of 0 stands for none, but then nothing is ever replenished
  have hle := h.le_max hM
  rw [newCredit_max N M hM] at hmax
  unfold creditNoLimit at hcurrent
  refine ⟨⟨h.replenishValue_eq, hmax.trans (newCredit_max N M hM).symm, ?_, fun _ => ?_⟩, ?_⟩
  all_goals
    rw [hcurrent]
    split <;> omega

theorem getCredit_eq (h : c.getCredit desired minAcceptable = some (got, c')) :
    c' = { c with current := c.current - got } ∧ got ≤ desired ∧ got ≤ c.current := by
  have hleast : Credit.leastCredit desired minAcceptable ≤ desired := by
    unfold Credit.leastCredit
    split <;> omega
  unfold Credit.getCredit at h
  split at h
  · cases h
  · cases h
    refine ⟨rfl, ?_⟩
    split <;> omega

theorem CreditOk.getCredit (h : CreditOk N M c)
    (hget : c.getCredit desired minAcceptable = some (got, c')) (hgot : 0 ≤ got) :
    CreditOk N M c' ∧ c'.current = c.current - got := by
  obtain ⟨rfl, -, hle⟩ := getCredit_eq hget
  refine ⟨⟨h.replenishValue_eq, h.max_eq, ?_, fun hM => ?_⟩, rfl⟩
  · show 0 ≤ c.current - got
    omega
  · have := h.le_max hM
    show c.current - got ≤ max M N
    omega

end

def Reader.Ok (reader : Reader) : Prop :=
  ∀ n desired, reader.pending = some (n, desired) →
    0 < desired ∧ desired ≤ n ∧ reader.cr.r + desired ≤ reader.buf.b.length

theorem Reader.ok_of_none {reader : Reader} (h : reader.pending = none) : reader.Ok := by
  intro n desired hpending
  rw [h] at hpending
  cases hpending

theorem readEnter_desired {n desired : Nat} (h : cr.readEnter buf n = .inr desired) :
    0 < desired ∧ desired ≤ n ∧ cr.r + desired ≤ buf.b.length := by
  unfold CreditReader.readEnter at h
  split at h
  · cases h
  split at h
  · cases h
  · split at h
    · cases h
    · cases h
      omega

theorem readEnter_result {n : Nat} {result : ReadResult}
    (h : cr.readEnter buf n = .inl result) : result.bytes = [] := by
  unfold CreditReader.readEnter at h
  split at h
  · cases h
    rfl
  split at h
  · cases h
    rfl
  · split at h
    · cases h
      rfl
    · cases h

theorem readAdvance_result {cr' : CreditReader} {toRead : Nat} {result : ReadResult}
    (h : cr.readAdvance buf toRead = some (result, cr')) (hle : cr.r + toRead ≤ buf.b.length) :
    result.bytes = (buf.b.drop cr.r).take toRead ∧ result.bytes.length = toRead := by
  unfold CreditReader.readAdvance at h
  split at h
  · cases h
    simp [*]
  split at h
  · cases h
  cases h
  have hbytes : ((buf.b ++ buf.spare).drop cr.r).take toRead = (buf.b.drop cr.r).take toRead := by
    rw [drop_append_of_le_length (by omega), take_append_of_le_length]
    rw [length_drop]
    omega
  refine ⟨hbytes, ?_⟩
  show (((buf.b ++ buf.spare).drop cr.r).take toRead).length = _
  rw [hbytes, length_take, length_drop]
  omega

section

variable {R : Type} {N M : Int} {s s' : State R} {e : Event R} {out : Outcome} {g : R}

structure Inv (N M : Int) (s : State R) : Prop where
  credit_ok : CreditOk N M s.credit
  readers_ok : ∀ g, (s.readers g).Ok

def ReadOk (s : State R) (out : Outcome) : Event R → Prop
  | .grant g => ∃ n desired result, (s.readers g).pending = some (n, desired) ∧
      out.result = some result ∧ (result.bytes.length : Int) = out.granted ∧
      result.bytes.length ≤ n ∧ result.bytes.length ≤ (s.readers g).buf.b.length - (s.readers g).cr.r ∧
      result.bytes = ((s.readers g).buf.b.drop (s.readers g).cr.r).take result.bytes.length
  | .read _ _ => out.granted = 0 ∧ ∀ result, out.result = some result → result.bytes = []
  | _ => out = .nothing

def Outcome.delivered (out : Outcome) : Nat := (out.result.map fun result => result.bytes.length).getD 0

theorem ReadOk.delivered_eq (h : ReadOk s out e) : (out.delivered : Int) = out.granted := by
  unfold Outcome.delivered
  cases e with
  | grant g =>
    obtain ⟨_, _, result, -, hresult, hbytes, -⟩ := h
    rw [hresult]
    exact hbytes
  | read g n =>
    obtain ⟨hgranted, hresult⟩ := h
    rw [hgranted]
    cases hout : out.result with
    | none => rfl
    | some result =>
      show ((result.bytes.length : Nat) : Int) = 0
      rw [hresult result hout]
      rfl
  | replenish | rewind | close | reuse | seek =>
    rw [show out = .nothing from h]
    rfl

theorem started_inv (hN : 0 ≤ N) (readers : R → Int × Buffer) : Inv N M (started N M readers) :=
  ⟨⟨rfl, rfl, hN, fun _ => le_max_right M N⟩, fun _ => Reader.ok_of_none rfl⟩

variable [DecidableEq R]

theorem Inv.setReader (h : Inv N M s) {credit : Credit} (hcredit : CreditOk N M credit) (g : R)
    {reader : Reader} (hreader : reader.Ok) : Inv N M ({ s with credit }.setReader g reader) := by
  refine ⟨hcredit, fun g' => ?_⟩
  show (Function.update s.readers g reader g').Ok
  by_cases hg : g' = g
  · rw [hg, Function.update_self]
    exact hreader
  · rw [Function.update_of_ne hg]
    exact h.readers_ok g'

/-- What a step keeps, what it gives, and where the credit comes from. -/
structure StepOk (N M : Int) (s : State R) (e : Event R) (out : Outcome) (s' : State R) : Prop where
  inv : Inv N M s'
  read_ok : ReadOk s out e
  current_le : s'.credit.current + out.granted ≤
    s.credit.current + if e = .replenish then N else 0

theorem Inv.modify (h : Inv N M s) {f : Reader → Reader}
    (hf : ∀ reader, (f reader).pending = reader.pending) (hstep : s.modify g f = some (out, s')) :
    Inv N M s' ∧ out = .nothing ∧ s'.credit = s.credit := by
  unfold State.modify at hstep
  split at hstep
  · rename_i hnone
    cases hstep
    refine ⟨h.setReader h.credit_ok g (Reader.ok_of_none ?_), rfl, rfl⟩
    rw [hf]
    exact Option.isNone_iff_eq_none.mp hnone
  · cases hstep

theorem Inv.read (h : Inv N M s) {n : Nat} (hstep : s.read g n = some (out, s')) :
    StepOk N M s (.read g n) out s' := by
  unfold State.read at hstep
  simp only at hstep
  split at hstep
  · split at hstep
    · rename_i result hresult
      cases hstep
      refine ⟨h, ⟨rfl, ?_⟩, le_rfl⟩
      rintro _ ⟨⟩
      exact readEnter_result hresult
    · rename_i desired hdesired
      cases hstep
      refine ⟨h.setReader h.credit_ok g ?_, ⟨rfl, nofun⟩, le_rfl⟩
      rintro _ _ ⟨⟩
      exact readEnter_desired hdesired
  · cases hstep

theorem Inv.grant (h : Inv N M s) (hstep : s.grant g = some (out, s')) :
    StepOk N M s (.grant g) out s' := by
  unfold State.grant at hstep
  simp only at hstep
  split at hstep
  · cases hstep
  rename_i n desired hpending
  -- What is asked for was within the buffer when the `Read` began, and still is.
  obtain ⟨hpos, hasked, havailable⟩ := h.readers_ok g n desired hpending
  split at hstep
  · cases hstep
  rename_i got credit hget
  obtain ⟨-, hgot, -⟩ := getCredit_eq hget
  split at hstep
  · cases hstep
  rename_i hnonneg
  obtain ⟨⟨result, cr⟩, hadvance, hout⟩ := Option.map_eq_some_iff.mp hstep
  cases hout
  obtain ⟨hcredit, hcurrent⟩ := h.credit_ok.getCredit hget (by omega)
  obtain ⟨hbytes, hlen⟩ := readAdvance_result hadvance (by omega)
  refine ⟨h.setReader hcredit g (Reader.ok_of_none rfl), ?_, ?_⟩
  · refine ⟨n, desired, result, hpending, rfl, ?_, by omega, by omega, ?_⟩
    · show (result.bytes.length : Int) = got
      omega
    · rw [hlen]
      exact hbytes
  · show credit.current + got ≤ s.credit.current + 0
    omega

theorem Inv.step (hN : 0 ≤ N) (h : Inv N M s) (hstep : step s e = some (out, s')) :
    StepOk N M s e out s' := by
  -- Steps between `Read`s change one reader, and no credit.
  have hmodify : ∀ {g : R} {f : Reader → Reader}, s.modify g f = some (out, s') →
      (∀ reader, (f reader).pending = reader.pending) → ReadOk s out e = (out = .nothing) →
      StepOk N M s e out s' := by
    intro g f hstep hf hread
    obtain ⟨hinv, rfl, hcredit⟩ := h.modify hf hstep
    refine ⟨hinv, hread ▸ rfl, ?_⟩
    rw [hcredit]
    show s.credit.current + 0 ≤ _
    split <;> omega
  cases e
  all_goals simp only [RateController.step] at hstep
  case replenish =>
    cases hstep
    obtain ⟨hcredit, hle⟩ := h.credit_ok.replenish hN
    refine ⟨⟨hcredit, h.readers_ok⟩, rfl, ?_⟩
    show s.credit.replenish.current + 0 ≤ s.credit.current + N
    omega
  case read g n => exact h.read hstep
  case grant g => exact h.grant hstep
  case rewind g => exact hmodify hstep (fun _ => rfl) rfl
  case close g => exact hmodify hstep (fun _ => rfl) rfl
  case reuse g minAcceptable buf => exact hmodify hstep (fun _ => rfl) rfl
  case seek g offset whence => exact hmodify hstep (fun _ => rfl) rfl

/-- The state, with the credit granted and the bytes delivered so far. -/
structure RunState (R : Type) where
  state : State R
  granted : Int
  delivered : Nat

def startedRun (N M : Int) (readers : R → Int × Buffer) : RunState R := ⟨started N M readers, 0, 0⟩

def nextState (r : RunState R) (e : Event R) : Option (RunState R) :=
  (RateController.step r.state e).map fun (out, state) =>
    { state, granted := r.granted + out.granted, delivered := r.delivered + out.delivered }

def Steps (r : RunState R) (e : Event R) (r' : RunState R) : Prop := nextState r e = some r'

theorem Inv.of_steps (hN : 0 ≤ N) {r r' : RunState R} (h : Inv N M r.state) (hstep : Steps r e r') :
    ∃ out, StepOk N M r.state e out r'.state ∧ r'.granted = r.granted + out.granted ∧
      r'.delivered = r.delivered + out.delivered := by
  obtain ⟨⟨out, s'⟩, hs', rfl⟩ := Option.map_eq_some_iff.mp hstep
  exact ⟨out, h.step hN hs', rfl, rfl⟩

theorem segment_accounting (hN : 0 ≤ N) {r r' : RunState R} {es : List (Event R)}
    (h : Inv N M r.state) (hrun : Run Steps r es r') :
    Inv N M r'.state ∧
    r'.granted + r'.state.credit.current ≤
      r.granted + r.state.credit.current + es.count .replenish * N ∧
    (r'.delivered : Int) - r.delivered = r'.granted - r.granted := by
  -- Granted and current credit together grow by what is replenished, and by nothing else.
  induction hrun with
  | start => exact ⟨h, by simp, by omega⟩
  | @snoc es r₁ r₂ e _ hstep ih =>
    obtain ⟨hinv, hcurrent, hdelivered⟩ := ih
    obtain ⟨out, hok, hgranted, hbytes⟩ := hinv.of_steps hN hstep
    have hle := hok.current_le
    have hout := hok.read_ok.delivered_eq
    refine ⟨hok.inv, ?_, by omega⟩
    rw [count_append, hgranted]
    have hcount : ([e].count .replenish : Int) * N = if e = .replenish then N else 0 := by
      by_cases he : e = .replenish
      · rw [he, count_singleton_self, if_pos rfl]
        omega
      · rw [if_neg he, count_eq_zero_of_not_mem fun hmem => he (mem_singleton.mp hmem).symm]
        omega
    push_cast
    rw [add_mul, hcount]
    omega

/-- At every point of a run the credit is between 0 and its cap, and a read gets the next bytes of
its buffer, as many as it is granted. Over every segment of the run the granted bytes are bounded by
the credit at its start and what is replenished in it. -/
theorem credit_bounds_reads {readers : R → Int × Buffer} {es es' : List (Event R)}
    {r r' : RunState R} (hN : 0 ≤ N) (hrun : Run Steps (startedRun N M readers) es r)
    (hsegment : Run Steps r es' r') :
    0 ≤ r.state.credit.current ∧
    (M ≠ creditNoLimit → r.state.credit.current ≤ max M N) ∧
    (∀ e out s', RateController.step r.state e = some (out, s') → ReadOk r.state out e) ∧
    r'.granted - r.granted ≤ r.state.credit.current + es'.count .replenish * N ∧
    (M ≠ creditNoLimit → r'.granted - r.granted ≤ max M N + es'.count .replenish * N) ∧
    (r'.delivered : Int) - r.delivered = r'.granted - r.granted := by
  obtain ⟨hinv, -, -⟩ := segment_accounting hN (started_inv hN readers) hrun
  obtain ⟨hinv', hcurrent, hdelivered⟩ := segment_accounting hN hinv hsegment
  have hle := hinv.credit_ok.le_max
  have hnonneg := hinv'.credit_ok.nonneg
  refine ⟨hinv.credit_ok.nonneg, hle, fun e out s' hstep => (hinv.step hN hstep).read_ok, by omega,
    fun hM => ?_, hdelivered⟩
  have := hle hM
  omega

end

/-- A reader that takes two bytes or more, and one that takes all it asks for. -/
def twoReaders : Bool → Int × Buffer
  | false => (2, ⟨[10, 20, 30, 40], []⟩)
  | true => (0, ⟨[50, 60], []⟩)

theorem credit_bounds_reads_two_readers : ∃ r r' : RunState Bool,
    Run Steps (startedRun 3 5 twoReaders) [.read false 8] r ∧
    Run Steps r [.grant false, .read true 2, .replenish, .grant true] r' ∧
    r'.delivered = 5 ∧ r'.granted - r.granted ≤ 5 + 1 * 3 := by
  obtain ⟨r, r', hrun, hsegment, hdelivered⟩ : ∃ r r' : RunState Bool,
      Run Steps (startedRun 3 5 twoReaders) [.read false 8] r ∧
      Run Steps r [.grant false, .read true 2, .replenish, .grant true] r' ∧ r'.delivered = 5 :=
    ⟨_, _, Run.of_foldlM rfl, Run.of_foldlM rfl, rfl⟩
  obtain ⟨-, -, -, -, hcap, -⟩ := credit_bounds_reads (by decide) hrun hsegment
  exact ⟨r, r', hrun, hsegment, hdelivered, hcap (by decide)⟩

end Lsvmi.RateController
