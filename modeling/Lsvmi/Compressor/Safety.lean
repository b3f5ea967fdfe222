import Lsvmi.Compressor.Model
import Lsvmi.Reasoning.Runs

/-!
# No batch is sent without data

`doSend` is set whenever the bytes in the batch reach `batchReadByteLimit`.  An empty batch reaches a
limit that is not positive.
-/

namespace Lsvmi.Compressor

open Reasoning Function

/-- A loop that has written `written` buffers since its last send. -/
structure Loop.Sound (l : Loop) (written : Nat) : Prop where
  byteCount_pos : 0 < l.batchReadByteCount ↔ 0 < l.batchReadCount
  writer : 0 < l.batchReadCount → l.gzWriter = true
  written_pos : l.gzWriter = true → (0 < written ↔ 0 < l.batchReadCount)
  timerSet_iff : l.timerSet = true ↔ l.flushTimer ≠ .stopped
  timer_batch : l.flushTimer ≠ .stopped → 0 < l.batchReadCount

/-- A send closes a writer that is nil, or gives the sender a batch that has no data. -/
def Loop.BadSend (sender : Bool) (l : Loop) (written : Nat) : Prop :=
  ∃ isOpen, l.pc = .sending isOpen ∧ (l.gzWriter = false ∨ (sender = true ∧ written = 0))

/-- The loop is about to look at `doSend` with an empty batch, which has to be no cause for a send
unless there is a writer to close and no sender. -/
def Loop.LimitOk (sender : Bool) (l : Loop) : Prop :=
  l.batchReadCount = 0 → 0 < l.batchReadByteLimit ∨ (l.gzWriter = true ∧ sender = false)

section

variable {pool : CompressorPool} {l : Loop} {written : Nat} {sender isOpen : Bool}

theorem newLoop_sound (pool : CompressorPool) : (newLoop pool).Sound 0 :=
  ⟨Iff.rfl, nofun, nofun, iff_of_false nofun (absurd rfl), absurd rfl⟩

theorem Loop.Sound.goto (h : l.Sound written) (pc : LoopPc) : { l with pc }.Sound written :=
  ⟨h.byteCount_pos, h.writer, h.written_pos, h.timerSet_iff, h.timer_batch⟩

theorem Loop.decideSend_pc (b : Bool) :
    (l.decideSend isOpen).pc = .sending b ↔ l.doSend isOpen ∧ isOpen = b := by
  unfold Loop.decideSend
  by_cases hsend : l.doSend isOpen
  · simp [hsend]
  · cases isOpen <;> simp [hsend]

theorem Loop.Sound.not_badSend (h : l.Sound written) (hpos : 0 < l.batchReadCount) :
    ¬ l.BadSend sender written := by
  have hwriter := h.writer hpos
  have hwritten := (h.written_pos hwriter).mpr hpos
  rintro ⟨_, -, hnil | ⟨-, hzero⟩⟩
  · rw [hwriter] at hnil
    cases hnil
  · omega

theorem Loop.Sound.not_badSend_decideSend_iff (h : l.Sound written) :
    ¬ (l.decideSend isOpen).BadSend sender written ↔ l.LimitOk sender := by
  have hbytes := h.byteCount_pos
  by_cases hpos : 0 < l.batchReadCount
  · exact iff_of_true ((h.goto _).not_badSend hpos) fun hzero => by omega
  -- an empty batch is sent exactly when the limit is not positive
  have hsend : l.doSend isOpen ↔ ¬ 0 < l.batchReadByteLimit := by
    have hzero : l.batchReadByteCount = 0 := by omega
    simp [Loop.doSend, hzero]
  have hwritten : l.gzWriter → written = 0 := by
    intro hwriter
    have := h.written_pos hwriter
    omega
  have hbad : (l.decideSend isOpen).BadSend sender written ↔
      ¬ 0 < l.batchReadByteLimit ∧ ¬ (l.gzWriter ∧ sender = false) := by
    unfold Loop.BadSend
    simp only [Loop.decideSend_pc, hsend]
    show (∃ b, (_ ∧ isOpen = b) ∧ (l.gzWriter = false ∨ _)) ↔ _
    cases hwriter : l.gzWriter <;> cases sender <;> simp [hwritten, hwriter]
  rw [hbad, not_and_not_right, Loop.LimitOk]
  constructor
  · intro himp _
    by_cases hlimit : 0 < l.batchReadByteLimit
    · exact .inl hlimit
    · exact .inr (himp hlimit)
  · intro hok hlimit
    exact (hok (by omega)).resolve_left hlimit

theorem Loop.Sound.write {data : Bytes} (hwriter : l.gzWriter) (hdata : data ≠ [])
    (htimer : l.timerSet ↔ l.flushTimer ≠ .stopped) :
    (l.write data).Sound (written + 1) where
  byteCount_pos := by
    have := List.length_pos_of_ne_nil hdata
    refine iff_of_true ?_ (Nat.succ_pos _)
    show 0 < l.batchReadByteCount + data.length
    omega
  writer _ := hwriter
  written_pos _ := iff_of_true (Nat.succ_pos _) (Nat.succ_pos _)
  timerSet_iff := htimer
  timer_batch _ := Nat.succ_pos _

theorem Loop.Sound.discarded (l : Loop) (written : Nat) :
    { { l with flushTimer := .stopped }.clearBatch with
      gzWriter := false, stats := countWriteError l.stats }.Sound written where
  byteCount_pos := Iff.rfl
  writer := nofun
  written_pos := nofun
  timerSet_iff := iff_of_false nofun (absurd rfl)
  timer_batch := absurd rfl

def writesAt (buf : Option Bytes) (writeErr : Bool) : Nat :=
  if (dataOf buf).isSome && !writeErr then 1 else 0

def Loop.ReceiveOk (sender : Bool) (l : Loop) (buf : Option Bytes) (writeErr : Bool) : Prop :=
  (dataOf buf = none → l.LimitOk sender) ∧
  (dataOf buf ≠ none → writeErr = true → 0 < l.batchReadByteLimit)

theorem Loop.Sound.receive (h : l.Sound written) (hlevel : validLevel pool.compressionLevel)
    (sender : Bool) (buf : Option Bytes) (writeErr : Bool) :
    (l.receive pool buf writeErr).Sound (written + writesAt buf writeErr) ∧
    (¬ (l.receive pool buf writeErr).BadSend sender (written + writesAt buf writeErr) ↔
      l.ReceiveOk sender buf writeErr) := by
  unfold Loop.receive writesAt Loop.ReceiveOk
  cases hdata : dataOf buf with
  | none =>
    refine ⟨h.goto _, h.not_badSend_decideSend_iff.trans ?_⟩
    simp
  | some data =>
    have hlevel' : ¬ (l.batchReadCount = 0 ∧ l.gzWriter = false ∧
        validLevel pool.compressionLevel = false) := by simp [hlevel]
    -- the loop that writes the data
    obtain ⟨l', hl', hwriter, htimer, hlimit⟩ : ∃ l' : Loop,
        (if l.batchReadCount = 0 then l.startBatch pool else l) = l' ∧ l'.gzWriter ∧
        (l'.timerSet ↔ l'.flushTimer ≠ .stopped) ∧
        l'.batchReadByteLimit = l.batchReadByteLimit := by
      refine ⟨_, rfl, ?_⟩
      split
      · obtain ⟨-, -, hwriter, -, -, hlimit, -⟩ := l.startBatch_fields pool
        exact ⟨hwriter, l.startBatch_timer pool h.timerSet_iff, hlimit⟩
      · exact ⟨h.writer (by omega), h.timerSet_iff, rfl⟩
    simp only [if_neg hlevel', hl']
    cases writeErr with
    | false =>
      have hwrite : (l'.write data).Sound (written + 1) :=
        .write hwriter (dataOf_eq_some hdata) htimer
      refine ⟨hwrite.goto _, iff_of_true ((hwrite.goto _).not_badSend (Nat.succ_pos _)) ?_⟩
      simp
    | true =>
      have hdiscard : l'.discardBatch = some { { l' with flushTimer := .stopped }.clearBatch with
          gzWriter := false, stats := countWriteError l'.stats } := by
        unfold Loop.discardBatch
        rw [Loop.stopFlushTimer_eq htimer]
        rfl
      rw [hdiscard]
      have hsound := Loop.Sound.discarded l' written
      refine ⟨hsound.goto _, hsound.not_badSend_decideSend_iff.trans ?_⟩
      rw [Loop.LimitOk]
      show (0 = 0 → 0 < l'.batchReadByteLimit ∨ false = true ∧ _) ↔ _
      simp [hlimit]

theorem Loop.Sound.timerFires (h : l.Sound written) (htimer : l.flushTimer = .running) :
    { l with flushTimer := .fired }.Sound written := by
  have hset : l.timerSet := h.timerSet_iff.mpr (by simp [htimer])
  exact ⟨h.byteCount_pos, h.writer, h.written_pos, iff_of_true hset nofun,
    fun _ => h.timer_batch (by simp [htimer])⟩

theorem Loop.Sound.timeout (h : l.Sound written) : l.timeout.Sound written :=
  ⟨h.byteCount_pos, h.writer, h.written_pos, iff_of_false nofun (absurd rfl), absurd rfl⟩

theorem Loop.Sound.finishBatch (pool : CompressorPool) (l : Loop) (isOpen sender : Bool)
    (gzLen : Nat) (sendErr : Bool) :
    ({ l with flushTimer := .stopped }.finishBatch pool isOpen sender gzLen sendErr).Sound 0 := by
  have htimer : ({ l with flushTimer := .stopped }.finishBatch pool isOpen sender gzLen
      sendErr).flushTimer = .stopped := (Loop.updateCF_fields pool _ gzLen).1
  exact ⟨Iff.rfl, nofun, fun _ => Iff.rfl, iff_of_false nofun fun h => h htimer,
    fun h => absurd htimer h⟩

theorem not_badSend_of_pc (hpc : ∀ isOpen, l.pc ≠ .sending isOpen) : ¬ l.BadSend sender written :=
  fun ⟨isOpen, hsending, _⟩ => hpc isOpen hsending

end

/-- A pool with the number of buffers that each compressor has written since its last send. -/
structure RunWrites (n : Nat) where
  state : State n
  written : Fin n → Nat

section

variable {n : Nat} {pool : CompressorPool} {r r' : RunWrites n} {e : Event n}

def createdWrites (pool : CompressorPool) (n : Nat) : RunWrites n :=
  { state := created pool n, written := fun _ => 0 }

def RunWrites.next (r : RunWrites n) : Event n → Fin n → Nat
  | .receive i writeErr =>
    Function.update r.written i
      (r.written i + writesAt (r.state.metricsQueue.head?.getD none) writeErr)
  | .send i _ _ => Function.update r.written i 0
  | _ => r.written

def nextWrites (pool : CompressorPool) (r : RunWrites n) (e : Event n) : Option (RunWrites n) :=
  (step pool r.state e).map fun state => { state, written := r.next e }

def NoBadSend (r : RunWrites n) : Prop :=
  ∀ i, ¬ (r.state.loops i).BadSend r.state.sender (r.written i)

/-- Where a receive leaves a batch empty, the byte limit is positive. -/
def LimitsOk (r : RunWrites n) : Event n → Prop
  | .receive i writeErr => (r.state.loops i).ReceiveOk r.state.sender
      (r.state.metricsQueue.head?.getD none) writeErr
  | .receiveClosed i => (r.state.loops i).LimitOk r.state.sender
  | _ => True

def Sound (r : RunWrites n) : Prop := ∀ i, (r.state.loops i).Sound (r.written i)

theorem createdWrites_sound (pool : CompressorPool) (n : Nat) : Sound (createdWrites pool n) :=
  fun _ => newLoop_sound pool

theorem noBadSend_update_iff {i : Fin n} {l : Loop} {w : Nat} {P : Prop} (h : NoBadSend r)
    (hloops : r'.state.loops = update r.state.loops i l)
    (hwritten : r'.written = update r.written i w)
    (hsender : r'.state.sender = r.state.sender) (hl : ¬ l.BadSend r.state.sender w ↔ P) :
    NoBadSend r' ↔ P := by
  unfold NoBadSend
  rw [hloops, hwritten, hsender, ← hl]
  constructor
  · intro hbad
    have hi := hbad i
    rwa [update_self, update_self] at hi
  intro hi j
  by_cases hj : j = i
  · rw [hj, update_self, update_self]
    exact hi
  · rw [update_of_ne hj, update_of_ne hj]
    exact h j

theorem sound_update {i : Fin n} {l : Loop} {w : Nat} (h : Sound r) (hl : l.Sound w)
    (hloops : r'.state.loops = update r.state.loops i l)
    (hwritten : r'.written = update r.written i w) : Sound r' := by
  intro j
  rw [hloops, hwritten]
  by_cases hj : j = i
  · rw [hj, update_self, update_self]
    exact hl
  · rw [update_of_ne hj, update_of_ne hj]
    exact h j

theorem step_sound (hlevel : validLevel pool.compressionLevel) (h : Sound r)
    (hbad : NoBadSend r) (hstep : nextWrites pool r e = some r') :
    Sound r' ∧ (NoBadSend r' ↔ LimitsOk r e) := by
  obtain ⟨s', hs', rfl⟩ := Option.map_eq_some_iff.mp hstep
  have hself : ∀ i, r.written = update r.written i (r.written i) :=
    fun i => (update_eq_self i r.written).symm
  cases enabled_of_step hs' with
  | start =>
    exact ⟨fun i => (h i).goto .atSelect, iff_of_true (fun i => not_badSend_of_pc nofun) trivial⟩
  | startAgain | queueBuf | shutdown | shutdownAgain => exact ⟨h, iff_of_true hbad trivial⟩
  | @receive i writeErr buf rest hpc hqueue =>
    have hhead : r.state.metricsQueue.head?.getD none = buf := by rw [hqueue]; rfl
    -- The only step that can bring a batch without data to the sender, besides finding the queue
    -- closed.
    obtain ⟨hsound, hiff⟩ := (h i).receive hlevel r.state.sender buf writeErr
    have hwritten : r.next (.receive i writeErr) =
        update r.written i (r.written i + writesAt buf writeErr) := by
      rw [← hhead]
      rfl
    refine ⟨sound_update h hsound rfl hwritten, noBadSend_update_iff hbad rfl hwritten rfl ?_⟩
    show _ ↔ (r.state.loops i).ReceiveOk _ (r.state.metricsQueue.head?.getD none) writeErr
    rw [hhead]
    exact hiff
  | @receiveClosed i hpc hqueue hclosed =>
    refine ⟨sound_update h ((h i).goto _) rfl (hself i), ?_⟩
    exact noBadSend_update_iff hbad rfl (hself i) rfl (h i).not_badSend_decideSend_iff
  | @timerFires i htimer =>
    refine ⟨sound_update h ((h i).timerFires htimer) rfl (hself i), ?_⟩
    exact noBadSend_update_iff hbad rfl (hself i) rfl (iff_of_true (hbad i) trivial)
  | @timeout i hpc htimer =>
    have htimeout := (h i).timeout
    refine ⟨sound_update h htimeout rfl (hself i), ?_⟩
    refine noBadSend_update_iff hbad rfl (hself i) rfl (iff_of_true ?_ trivial)
    -- The flush timer runs only while there is a batch.
    exact htimeout.not_badSend ((h i).timer_batch (by simp [htimer]))
  | @sendStuck i _ _ isOpen hpc htimer =>
    rw [Loop.stopFlushTimer_eq (h i).timerSet_iff] at htimer
    cases htimer
  | @send i gzLen sendErr isOpen l hpc htimer hwriter =>
    rw [Loop.stopFlushTimer_eq (h i).timerSet_iff] at htimer
    cases htimer
    refine ⟨sound_update h (.finishBatch pool _ isOpen _ gzLen sendErr) rfl rfl, ?_⟩
    refine noBadSend_update_iff hbad rfl rfl rfl (iff_of_true (not_badSend_of_pc ?_) trivial)
    intro isOpen'
    show (if isOpen then LoopPc.atSelect else LoopPc.stopped) ≠ _
    split <;> exact nofun

/-- As long as every step meets the condition no send is bad, and the first step that does not meet
it leads to a bad one. -/
theorem sends_have_data_iff_limits {pkg : Packages} {cfg : CompressorPoolConfig}
    {es : List (Event n)} (hnew : newCompressorPool pkg cfg = .ok pool)
    (hrun : Run (fun r e r' => nextWrites pool r e = some r' ∧ LimitsOk r e) (createdWrites pool n)
      es r) (hstep : nextWrites pool r e = some r') :
    NoBadSend r ∧ (NoBadSend r' ↔ LimitsOk r e) := by
  have hlevel := newCompressorPool_ok hnew
  obtain ⟨hsound, hbad⟩ : Sound r ∧ NoBadSend r := by
    refine hrun.invariant (I := fun r => Sound r ∧ NoBadSend r)
      ⟨createdWrites_sound pool n, fun _ => not_badSend_of_pc nofun⟩ ?_
    rintro r e r' ⟨hsound, hbad⟩ ⟨hstep, hlimits⟩
    obtain ⟨hsound', hiff⟩ := step_sound hlevel hsound hbad hstep
    exact ⟨hsound', hiff.mpr hlimits⟩
  exact ⟨hbad, (step_sound hlevel hsound hbad hstep).2⟩

end

def emptyBuffer : List (Event 1) := [.start true, .queueBuf (some [])]

theorem sends_have_data_default_size : ∃ (pool : CompressorPool) (r r' : RunWrites 1),
    newCompressorPool (.reading 65536) defaultCompressorPoolConfig = .ok pool ∧
    Run (fun r e r' => nextWrites pool r e = some r' ∧ LimitsOk r e) (createdWrites pool 1)
      emptyBuffer r ∧
    nextWrites pool r (.receive 0 false) = some r' ∧ NoBadSend r' := by
  obtain ⟨pool, r, r', hnew, hrun, hstep, hlimit⟩ : ∃ (pool : CompressorPool) (r r' : RunWrites 1),
      newCompressorPool (.reading 65536) defaultCompressorPoolConfig = .ok pool ∧
      Run (fun r e r' => nextWrites pool r e = some r' ∧ LimitsOk r e) (createdWrites pool 1)
        emptyBuffer r ∧
      nextWrites pool r (.receive 0 false) = some r' ∧ 0 < (r.state.loops 0).batchReadByteLimit := by
    refine ⟨_, _, _, rfl, .cons ⟨rfl, trivial⟩ (.cons ⟨rfl, trivial⟩ .start), rfl, ?_⟩
    decide +kernel
  refine ⟨pool, r, r', hnew, hrun, hstep, (sends_have_data_iff_limits hnew hrun hstep).2.mpr ?_⟩
  exact ⟨fun _ _ => .inl hlimit, fun _ h => nomatch h⟩

/-- With the target size 0 the limit is 0, which the empty batch reaches. -/
theorem empty_buffer_closes_nil : ∃ (pool : CompressorPool) (r r' : RunWrites 1),
    newCompressorPool (.reading 0) { defaultCompressorPoolConfig with batchTargetSize := "0" } =
      .ok pool ∧
    Run (fun r e r' => nextWrites pool r e = some r') (createdWrites pool 1) emptyBuffer r ∧
    nextWrites pool r (.receive 0 false) = some r' ∧
    (r'.state.loops 0).pc = .sending true ∧ (r'.state.loops 0).gzWriter = false ∧
    ∀ gzLen sendErr, nextWrites pool r' (.send 0 gzLen sendErr) = none := by
  obtain ⟨pool, r, r', hnew, hrun, hstep, hpc, hwriter, htimer⟩ :
      ∃ (pool : CompressorPool) (r r' : RunWrites 1),
      newCompressorPool (.reading 0) { defaultCompressorPoolConfig with batchTargetSize := "0" } =
        .ok pool ∧
      Run (fun r e r' => nextWrites pool r e = some r') (createdWrites pool 1) emptyBuffer r ∧
      nextWrites pool r (.receive 0 false) = some r' ∧
      (r'.state.loops 0).pc = .sending true ∧ (r'.state.loops 0).gzWriter = false ∧
      (r'.state.loops 0).timerSet = false := by
    refine ⟨_, _, _, rfl, .cons rfl (.cons rfl .start), rfl, ?_, ?_, ?_⟩
    all_goals decide +kernel
  refine ⟨pool, r, r', hnew, hrun, hstep, hpc, hwriter, fun gzLen sendErr => ?_⟩
  simp [nextWrites, step, hpc, State.send, Loop.stopFlushTimer, htimer, hwriter]

end Lsvmi.Compressor
