import Mathlib.Data.UInt
import Mathlib.Tactic.Abel
import Mathlib.Data.List.Flatten
import Lsvmi.Compressor.Safety
import Lsvmi.Reasoning.Inventory

/-!
# Every buffer is sent once

What the loops have received is what they have sent and what is in their batches, in the order in
which they received it.
-/

namespace Lsvmi.Compressor

open Reasoning List Function

variable {l : Loop}

/-! ## The loop of one compressor -/

def Loop.batch (l : Loop) : List Bytes := if l.batchReadCount = 0 then [] else l.gzBuf

/-- The state of a loop whose writes succeed and whose byte limit is positive. -/
structure Loop.Ok (l : Loop) : Prop where
  sound : l.Sound l.batchReadCount
  count_eq : l.batchReadCount = l.batch.length
  byteCount_eq : l.batchReadByteCount = l.batch.flatten.length
  sending : ∀ isOpen, l.pc = .sending isOpen → l.batch ≠ []
  stopped : l.pc = .stopped → l.batch = []
  not_stuck : l.pc ≠ .stuck

section

variable {pool : CompressorPool} {l l' : Loop} {buf : Option Bytes} {data : Bytes}

theorem newLoop_ok (pool : CompressorPool) : (newLoop pool).Ok where
  sound := newLoop_sound pool
  count_eq := rfl
  byteCount_eq := rfl
  sending _ h := nomatch h
  stopped h := nomatch h
  not_stuck h := nomatch h

theorem Loop.batch_eq_gzBuf (hne : l.batch ≠ []) : l.batch = l.gzBuf := by
  unfold Loop.batch at hne ⊢
  split
  · rw [if_pos ‹_›] at hne
    exact absurd rfl hne
  · rfl

theorem Loop.Ok.count_pos (h : l.Ok) : 0 < l.batchReadCount ↔ l.batch ≠ [] := by
  rw [h.count_eq, length_pos_iff]

theorem Loop.Ok.goto (h : l.Ok) (pc : LoopPc)
    (hsending : ∀ isOpen, pc = .sending isOpen → l.batch ≠ [])
    (hstopped : pc = .stopped → l.batch = []) (hstuck : pc ≠ .stuck) : { l with pc }.Ok :=
  ⟨h.sound.goto pc, h.count_eq, h.byteCount_eq, hsending, hstopped, hstuck⟩

theorem Loop.Ok.decideSend (h : l.Ok) (hlimit : 0 < l.batchReadByteLimit) (isOpen : Bool) :
    (l.decideSend isOpen).Ok := by
  have hpos := h.sound.byteCount_pos.trans h.count_pos
  refine h.goto _ ?_ ?_ ?_
  · intro isOpen' hpc
    have hsend := ((Loop.decideSend_pc isOpen').mp hpc).1
    simp only [Loop.doSend, Bool.or_eq_true, Bool.and_eq_true, decide_eq_true_eq] at hsend
    rw [← hpos]
    omega
  · intro hpc
    by_contra hne
    rw [← ne_eq, ← hpos] at hne
    cases isOpen with
    | true => split at hpc <;> cases hpc
    | false => simp [Loop.doSend, hne] at hpc
  · repeat' split
    all_goals exact fun h => by cases h

theorem Loop.Ok.write (hcount : l.batchReadCount = l.gzBuf.length)
    (hbytes : l.batchReadByteCount = l.gzBuf.flatten.length)
    (hwriter : l.gzWriter) (htimer : l.timerSet ↔ l.flushTimer ≠ .stopped)
    (hpc : l.pc = .atSelect) (hdata : data ≠ []) : (l.write data).Ok where
  sound := .write hwriter hdata htimer
  count_eq := by
    show l.batchReadCount + 1 = (l.gzBuf ++ [data]).length
    rw [hcount, length_append]
    rfl
  byteCount_eq := by
    show l.batchReadByteCount + data.length = (l.gzBuf ++ [data]).flatten.length
    rw [hbytes, flatten_append, length_append, flatten_singleton]
  sending _ h := by
    rw [show (l.write data).pc = l.pc from rfl, hpc] at h
    cases h
  stopped h := by
    rw [show (l.write data).pc = l.pc from rfl, hpc] at h
    cases h
  not_stuck h := by
    rw [show (l.write data).pc = l.pc from rfl, hpc] at h
    cases h

theorem Loop.Ok.receive (h : l.Ok) (hpc : l.pc = .atSelect) (hlimit : 0 < l.batchReadByteLimit)
    (hlevel : validLevel pool.compressionLevel) (buf : Option Bytes) :
    (l.receive pool buf false).Ok ∧
    (l.receive pool buf false).batch = l.batch ++ (dataOf buf).toList ∧
    (l.receive pool buf false).stats = l.stats := by
  unfold Loop.receive
  split
  · rename_i hnone
    refine ⟨h.decideSend hlimit true, ?_, rfl⟩
    rw [hnone]
    exact (append_nil _).symm
  rename_i data hsome
  have hdata := dataOf_eq_some hsome
  rw [if_neg (by simp [hlevel]), hsome]
  simp only [Bool.false_eq_true, if_false]
  by_cases hzero : l.batchReadCount = 0
  · -- the first read of the batch
    have hbatch : l.batch = [] := if_pos hzero
    obtain ⟨hpc', hbuf, hwriter, hcount, hbytes, hlimit', hstats⟩ := l.startBatch_fields pool
    rw [if_pos hzero]
    have htimer := l.startBatch_timer pool h.sound.timerSet_iff
    refine ⟨(Loop.Ok.write ?_ ?_ hwriter htimer (hpc'.trans hpc) hdata).decideSend
      (hlimit'.symm ▸ hlimit) true, ?_, hstats⟩
    · rw [hcount, hbuf, hzero]
      rfl
    · rw [hbytes, hbuf, h.byteCount_eq, hbatch]
    · show (l.startBatch pool).gzBuf ++ [data] = _
      rw [hbuf, hbatch]
      rfl
  · have hbatch : l.batch = l.gzBuf := if_neg hzero
    have hwriter := h.sound.writer (Nat.pos_of_ne_zero hzero)
    rw [if_neg hzero]
    refine ⟨(Loop.Ok.write (hbatch ▸ h.count_eq) (hbatch ▸ h.byteCount_eq) hwriter
      h.sound.timerSet_iff hpc hdata).decideSend hlimit true, ?_, rfl⟩
    show l.gzBuf ++ [data] = _
    rw [hbatch]
    rfl

theorem Loop.decideSend_pc_stopped {isOpen : Bool} (h : (l.decideSend isOpen).pc = .stopped ∨
    (l.decideSend isOpen).pc = .sending false) : isOpen = false := by
  unfold Loop.decideSend at h
  cases isOpen with
  | false => rfl
  | true =>
    simp only [if_true] at h
    split at h <;> simp at h

theorem Loop.receive_not_stopped (hlevel : validLevel pool.compressionLevel) :
    ¬ ((l.receive pool buf false).pc = .stopped ∨ (l.receive pool buf false).pc = .sending false) := by
  unfold Loop.receive
  split
  · exact fun hpc => nomatch Loop.decideSend_pc_stopped hpc
  · rw [if_neg (by simp [hlevel])]
    exact fun hpc => nomatch Loop.decideSend_pc_stopped hpc

theorem Loop.Ok.timerFires (h : l.Ok) (htimer : l.flushTimer = .running) :
    { l with flushTimer := .fired }.Ok :=
  ⟨h.sound.timerFires htimer, h.count_eq, h.byteCount_eq, h.sending, h.stopped, h.not_stuck⟩

theorem Loop.Ok.timeout (h : l.Ok) (htimer : l.flushTimer = .fired) : l.timeout.Ok :=
  ⟨h.sound.timeout, h.count_eq, h.byteCount_eq,
    fun _ _ => h.count_pos.mp (h.sound.timer_batch (by simp [htimer])), nofun, nofun⟩

theorem Loop.finishBatch_ok (pool : CompressorPool) (l : Loop) (isOpen sender : Bool) (gzLen : Nat)
    (sendErr : Bool) :
    ({ l with flushTimer := .stopped }.finishBatch pool isOpen sender gzLen sendErr).Ok := by
  have hpc : ({ l with flushTimer := .stopped }.finishBatch pool isOpen sender gzLen sendErr).pc =
      if isOpen then .atSelect else .stopped := rfl
  refine ⟨.finishBatch pool l isOpen sender gzLen sendErr, rfl, rfl, ?_, fun _ => rfl, ?_⟩
  · intro isOpen' h
    rw [hpc] at h
    split at h <;> cases h
  · rw [hpc]
    split <;> exact nofun

theorem Loop.finishBatch_stats (pool : CompressorPool) (l : Loop) (isOpen : Bool) (gzLen : Nat)
    (sendErr : Bool) :
    (l.finishBatch pool isOpen true gzLen sendErr).stats.readCount =
      l.stats.readCount + UInt64.ofNat l.batchReadCount ∧
    (l.finishBatch pool isOpen true gzLen sendErr).stats.readByteCount =
      l.stats.readByteCount + UInt64.ofNat l.batchReadByteCount ∧
    (l.finishBatch pool isOpen true gzLen sendErr).stats.sendCount = l.stats.sendCount + 1 := by
  obtain ⟨-, hstats, hcount, hbytes⟩ := l.updateCF_fields pool gzLen
  have hfinish : (l.finishBatch pool isOpen true gzLen sendErr).stats =
      if sendErr then (l.updateCF pool gzLen).countBatch 1 0 1
      else (l.updateCF pool gzLen).countBatch 1 gzLen 0 := rfl
  rw [hfinish]
  split <;> simp [Loop.countBatch, hstats, hcount, hbytes]

end

/-! ## Runs -/

/-- A pool with what was queued, the buffers that have data, and what each compressor has received
of it. -/
structure RunState (n : Nat) where
  state : State n
  queued : List Bytes
  received : Fin n → List Bytes

def Event.queued {n : Nat} : Event n → Option Bytes
  | .queueBuf buf => dataOf buf
  | _ => none

def Event.receivedBy {n : Nat} (s : State n) (i : Fin n) : Event n → Option Bytes
  | .receive j _ => if j = i then s.metricsQueue.head?.bind dataOf else none
  | _ => none

section

variable {n : Nat} {pool : CompressorPool} {r r' : RunState n} {e : Event n}
  {batches : List (Fin n × List Bytes)} {i : Fin n}

def createdRun (pool : CompressorPool) (n : Nat) : RunState n :=
  { state := created pool n, queued := [], received := fun _ => [] }

def nextState (pool : CompressorPool) (r : RunState n) (e : Event n) : Option (RunState n) :=
  (step pool r.state e).map fun state =>
    { state, queued := r.queued ++ e.queued.toList
      received := fun i => r.received i ++ (e.receivedBy r.state i).toList }

/-- A step with a sender, with writes that succeed, and with byte limits that are positive. -/
structure GoodStep (pool : CompressorPool) (r : RunState n) (e : Event n) (r' : RunState n) : Prop where
  next : nextState pool r e = some r'
  sender : e ≠ .start false
  write : ∀ i, e ≠ .receive i true
  limit : ∀ i, 0 < (r.state.loops i).batchReadByteLimit

def goodNext (pool : CompressorPool) (r : RunState n) (e : Event n) : Option (RunState n) :=
  if e ≠ .start false ∧ (∀ i, e ≠ .receive i true) ∧ ∀ i, 0 < (r.state.loops i).batchReadByteLimit
  then nextState pool r e
  else none

theorem goodStep_of_goodNext (h : goodNext pool r e = some r') : GoodStep pool r e r' := by
  unfold goodNext at h
  split at h
  · rename_i hgood
    exact ⟨h, hgood.1, hgood.2.1, hgood.2.2⟩
  · cases h

def sentBy (batches : List (Fin n × List Bytes)) (i : Fin n) : List Bytes :=
  (batches.filter fun b => b.1 = i).flatMap Prod.snd

def allSent (batches : List (Fin n × List Bytes)) : List Bytes := batches.flatMap Prod.snd

structure Delivered (r : RunState n) (batches : List (Fin n × List Bytes)) : Prop where
  sent_eq : r.state.sent = batches.map fun b => (b.1, b.2.flatten)
  ne_nil : ∀ b ∈ batches, b.2 ≠ []
  received_eq : ∀ i, r.received i = sentBy batches i ++ (r.state.loops i).batch
  queued_eq : (r.queued : Multiset Bytes) = allSent batches +
    ∑ i, ((r.state.loops i).batch : Multiset Bytes) + r.state.metricsQueue.filterMap dataOf
  readCount : ∑ i, (r.state.loops i).stats.readCount = UInt64.ofNat (allSent batches).length
  readByteCount : ∑ i, (r.state.loops i).stats.readByteCount =
    UInt64.ofNat (allSent batches).flatten.length
  sendCount : ∑ i, (r.state.loops i).stats.sendCount = UInt64.ofNat batches.length

structure Inv (r : RunState n) : Prop where
  loops_ok : ∀ i, (r.state.loops i).Ok
  drained : ∀ i, (r.state.loops i).pc = .stopped ∨ (r.state.loops i).pc = .sending false →
    r.state.closed = true ∧ r.state.metricsQueue = []
  sender : ∀ i, (r.state.loops i).pc ≠ .created → r.state.sender = true
  delivered : ∃ batches, Delivered r batches

theorem createdRun_inv (pool : CompressorPool) (n : Nat) : Inv (createdRun pool n) where
  loops_ok _ := newLoop_ok pool
  drained _ h := by obtain h | h := h <;> cases h
  sender _ h := absurd rfl h
  delivered := by
    have hzero : ∀ x : UInt64, x = 0 → ∑ _i : Fin n, x = 0 := by
      rintro x rfl
      exact Finset.sum_const_zero
    refine ⟨[], rfl, nofun, fun _ => rfl, ?_, hzero _ rfl, hzero _ rfl, hzero _ rfl⟩
    show 0 = 0 + ∑ _i : Fin n, (0 : Multiset Bytes) + 0
    rw [Finset.sum_const_zero, add_zero, add_zero]

theorem Delivered.frame (h : Delivered r batches)
    (hsent : r'.state.sent = r.state.sent) (hqueue : r'.state.metricsQueue = r.state.metricsQueue)
    (hqueued : r'.queued = r.queued) (hreceived : r'.received = r.received)
    (hloops : ∀ i, (r'.state.loops i).batch = (r.state.loops i).batch ∧
      (r'.state.loops i).stats = (r.state.loops i).stats) : Delivered r' batches := by
  refine ⟨hsent.trans h.sent_eq, h.ne_nil, fun i => ?_, ?_, ?_, ?_, ?_⟩
  · rw [hreceived, h.received_eq, (hloops i).1]
  · rw [hqueued, hqueue, h.queued_eq, Finset.sum_congr rfl fun i _ => congrArg _ (hloops i).1]
  · rw [← h.readCount, Finset.sum_congr rfl fun i _ => congrArg _ (hloops i).2]
  · rw [← h.readByteCount, Finset.sum_congr rfl fun i _ => congrArg _ (hloops i).2]
  · rw [← h.sendCount, Finset.sum_congr rfl fun i _ => congrArg _ (hloops i).2]

theorem filterMap_dataOf_cons (buf : Option Bytes) (rest : List (Option Bytes)) :
    (buf :: rest).filterMap dataOf = (dataOf buf).toList ++ rest.filterMap dataOf := by
  rw [filterMap_cons]
  cases dataOf buf <;> rfl

theorem Delivered.queueBuf (h : Delivered r batches) {buf : Option Bytes}
    (hstate : r'.state = { r.state with metricsQueue := r.state.metricsQueue ++ [buf] })
    (hqueued : r'.queued = r.queued ++ (dataOf buf).toList) (hreceived : r'.received = r.received) :
    Delivered r' batches := by
  obtain ⟨state, queued, received⟩ := r'
  cases hstate
  cases hreceived
  refine ⟨h.sent_eq, h.ne_nil, h.received_eq, ?_, h.readCount, h.readByteCount, h.sendCount⟩
  rw [hqueued, ← Multiset.coe_add, h.queued_eq, filterMap_append, filterMap_dataOf_cons,
    filterMap_nil, append_nil, ← Multiset.coe_add, add_assoc]

theorem Delivered.receive (h : Delivered r batches) {buf : Option Bytes}
    {rest : List (Option Bytes)} (hqueue : r.state.metricsQueue = buf :: rest)
    (hbatch : l.batch = (r.state.loops i).batch ++ (dataOf buf).toList)
    (hstats : l.stats = (r.state.loops i).stats)
    (hstate : r'.state = { r.state with metricsQueue := rest }.setLoop i l)
    (hqueued : r'.queued = r.queued)
    (hreceived : ∀ j, r'.received j = r.received j ++ (if i = j then (dataOf buf).toList else [])) :
    Delivered r' batches := by
  have hloops : r'.state.loops = update r.state.loops i l := by rw [hstate]; rfl
  refine ⟨by rw [hstate]; exact h.sent_eq, h.ne_nil, fun j => ?_, ?_, ?_, ?_, ?_⟩
  · rw [hreceived, h.received_eq, hloops]
    by_cases hj : i = j
    · subst hj
      rw [if_pos rfl, update_self, hbatch, append_assoc]
    · rw [if_neg hj, update_of_ne (Ne.symm hj), append_nil]
  · -- the data goes from the queue to the batch
    obtain ⟨others, hsum, hupdate⟩ := exists_sum_update
      (fun l : Loop => (l.batch : Multiset Bytes)) r.state.loops i
    have hqueue' : r'.state.metricsQueue = rest := by rw [hstate]; rfl
    rw [hqueued, hloops, hqueue', h.queued_eq, hqueue, filterMap_dataOf_cons, hsum, hupdate,
      hbatch, ← Multiset.coe_add, ← Multiset.coe_add]
    abel
  · rw [hloops, sum_update_eq (g := fun l : Loop => l.stats.readCount) (by rw [hstats]), h.readCount]
  · rw [hloops, sum_update_eq (g := fun l : Loop => l.stats.readByteCount) (by rw [hstats]),
      h.readByteCount]
  · rw [hloops, sum_update_eq (g := fun l : Loop => l.stats.sendCount) (by rw [hstats]), h.sendCount]

theorem sentBy_append (batches : List (Fin n × List Bytes)) (i j : Fin n) (batch : List Bytes) :
    sentBy (batches ++ [(i, batch)]) j = sentBy batches j ++ if i = j then batch else [] := by
  unfold sentBy
  rw [filter_append, flatMap_append]
  congr 1
  by_cases hj : i = j
  · simp [hj]
  · simp [hj]

theorem allSent_append (batches : List (Fin n × List Bytes)) (i : Fin n) (batch : List Bytes) :
    allSent (batches ++ [(i, batch)]) = allSent batches ++ batch := by
  simp [allSent]

theorem sum_stats_update (f : CompressorStats → UInt64) {loops : Fin n → Loop}
    {m k : Nat} (hsum : ∑ j, f (loops j).stats = UInt64.ofNat m)
    (hadd : f l.stats = f (loops i).stats + UInt64.ofNat k) :
    ∑ j, f (update loops i l j).stats = UInt64.ofNat (m + k) := by
  obtain ⟨others, hsplit, hupdate⟩ := exists_sum_update (fun l : Loop => f l.stats) loops i
  rw [hupdate, hadd, UInt64.ofNat_add, ← hsum, hsplit]
  abel

theorem Delivered.send (h : Delivered r batches) {batch : List Bytes}
    (hbatch : (r.state.loops i).batch = batch) (hne : batch ≠ []) (hnil : l.batch = [])
    (hread : l.stats.readCount = (r.state.loops i).stats.readCount + UInt64.ofNat batch.length)
    (hbytes : l.stats.readByteCount =
      (r.state.loops i).stats.readByteCount + UInt64.ofNat batch.flatten.length)
    (hsend : l.stats.sendCount = (r.state.loops i).stats.sendCount + 1) (hstate : r'.state =
      { r.state with sent := r.state.sent ++ [(i, batch.flatten)] }.setLoop i l)
    (hqueued : r'.queued = r.queued) (hreceived : r'.received = r.received) :
    Delivered r' (batches ++ [(i, batch)]) := by
  have hloops : r'.state.loops = update r.state.loops i l := by rw [hstate]; rfl
  refine ⟨?_, ?_, fun j => ?_, ?_, ?_, ?_, ?_⟩
  · rw [hstate, map_append, ← h.sent_eq]
    rfl
  · intro b hb
    obtain hb | hb := mem_append.mp hb
    · exact h.ne_nil b hb
    · rw [mem_singleton.mp hb]
      exact hne
  · rw [hreceived, h.received_eq, hloops, sentBy_append]
    by_cases hj : i = j
    · subst hj
      rw [if_pos rfl, update_self, hnil, hbatch, append_nil]
    · rw [if_neg hj, update_of_ne (Ne.symm hj), append_nil]
  · obtain ⟨others, hsum, hupdate⟩ := exists_sum_update
      (fun l : Loop => (l.batch : Multiset Bytes)) r.state.loops i
    have hqueue : r'.state.metricsQueue = r.state.metricsQueue := by rw [hstate]; rfl
    rw [hqueued, hloops, hqueue, h.queued_eq, hsum, hupdate, hnil, hbatch, allSent_append,
      ← Multiset.coe_add, Multiset.coe_nil]
    abel
  · rw [hloops, allSent_append, length_append]
    exact sum_stats_update CompressorStats.readCount h.readCount hread
  · rw [hloops, allSent_append, flatten_append, length_append]
    exact sum_stats_update CompressorStats.readByteCount h.readByteCount hbytes
  · rw [hloops, length_append]
    exact sum_stats_update CompressorStats.sendCount h.sendCount hsend

section

variable (h : Inv r) (hok : l.Ok) (hdrained : l.pc = .stopped ∨ l.pc = .sending false →
  r.state.closed ∧ r.state.metricsQueue = []) (hstarted : l.pc ≠ .created → r.state.sender)
include h hok hdrained hstarted

theorem Inv.setLoop (hloops : r'.state.loops = update r.state.loops i l)
    (hclosed : r'.state.closed = r.state.closed)
    (hqueue : r.state.metricsQueue = [] → r'.state.metricsQueue = [])
    (hsender : r'.state.sender = r.state.sender) (hdelivered : ∃ batches, Delivered r' batches) : Inv r' := by
  refine ⟨?_, ?_, ?_, hdelivered⟩
  · rw [hloops]
    exact (forall_update_iff _ fun _ l => Loop.Ok l).mpr ⟨hok, fun j _ => h.loops_ok j⟩
  · rw [hloops, hclosed]
    exact (forall_update_iff _ fun _ (l : Loop) => l.pc = .stopped ∨ l.pc = .sending false →
      r.state.closed ∧ r'.state.metricsQueue = []).mpr
        ⟨fun hpc => (hdrained hpc).imp_right hqueue,
          fun j _ hpc => (h.drained j hpc).imp_right hqueue⟩
  · rw [hloops, hsender]
    exact (forall_update_iff _ fun _ (l : Loop) => l.pc ≠ .created → r.state.sender = true).mpr
      ⟨hstarted, fun j _ => h.sender j⟩

theorem Inv.keepBatch (hbatch : l.batch = (r.state.loops i).batch)
    (hstats : l.stats = (r.state.loops i).stats) (hstate : r'.state = r.state.setLoop i l)
    (hqueued : r'.queued = r.queued) (hreceived : r'.received = r.received) : Inv r' := by
  obtain ⟨batches, hdel⟩ := h.delivered
  have hloops : r'.state.loops = update r.state.loops i l := by rw [hstate]; rfl
  refine h.setLoop hok hdrained hstarted hloops (by rw [hstate]; rfl) (by rw [hstate]; exact id)
    (by rw [hstate]; rfl) ⟨batches, hdel.frame (by rw [hstate]; rfl) (by rw [hstate]; rfl) hqueued
      hreceived ?_⟩
  rw [hloops]
  exact (forall_update_iff _ fun j (l : Loop) => l.batch = (r.state.loops j).batch ∧
    l.stats = (r.state.loops j).stats).mpr ⟨⟨hbatch, hstats⟩, fun _ _ => ⟨rfl, rfl⟩⟩

end

theorem Inv.keepLoops (h : Inv r) (hsent : r'.state.sent = r.state.sent)
    (hqueue : r'.state.metricsQueue = r.state.metricsQueue) (hqueued : r'.queued = r.queued)
    (hreceived : r'.received = r.received) (hclosed : r.state.closed → r'.state.closed)
    (hloops : r'.state.loops = r.state.loops) (hsender : r'.state.sender = r.state.sender) :
    Inv r' := by
  obtain ⟨batches, hdel⟩ := h.delivered
  refine ⟨?_, ?_, ?_, batches, hdel.frame hsent hqueue hqueued hreceived fun i => ?_⟩
  · rw [hloops]
    exact h.loops_ok
  · rw [hloops, hqueue]
    exact fun i hpc => (h.drained i hpc).imp_left hclosed
  · rw [hloops, hsender]
    exact h.sender
  · rw [hloops]
    exact ⟨rfl, rfl⟩

theorem Inv.send (h : Inv r) {isOpen : Bool} (hpc : (r.state.loops i).pc = .sending isOpen)
    (gzLen : Nat) (sendErr : Bool) (hstate : r'.state =
      { r.state with
        sent := if r.state.sender then r.state.sent ++ [(i, (r.state.loops i).gzBuf.flatten)]
          else r.state.sent }.setLoop i
        ({ r.state.loops i with flushTimer := .stopped }.finishBatch pool isOpen r.state.sender gzLen
          sendErr))
    (hqueued : r'.queued = r.queued) (hreceived : r'.received = r.received) : Inv r' := by
  obtain ⟨batches, hdel⟩ := h.delivered
  have hok := h.loops_ok i
  have hne := hok.sending isOpen hpc
  have hon : r.state.sender := h.sender i (by simp [hpc])
  rw [hon, if_pos rfl, ← Loop.batch_eq_gzBuf hne] at hstate
  have hok' := Loop.finishBatch_ok pool (r.state.loops i) isOpen true gzLen sendErr
  obtain ⟨hread, hbytes, hsend⟩ :=
    Loop.finishBatch_stats pool { r.state.loops i with flushTimer := .stopped } isOpen gzLen sendErr
  refine h.setLoop (i := i) hok' ?_ (fun _ => hon) (by rw [hstate]; rfl) (by rw [hstate]; rfl)
    (by rw [hstate]; exact id) (by rw [hstate]; rfl)
    ⟨_, hdel.send rfl hne rfl ?_ ?_ hsend hstate hqueued hreceived⟩
  · -- the loop stops only where the queue was found closed
    intro hpc'
    refine h.drained i (.inr ?_)
    cases isOpen with
    | false => exact hpc
    | true => obtain hpc' | hpc' := hpc' <;> cases hpc'
  -- The counts of the batch are the ones of its buffers.
  · rw [hread, ← hok.count_eq]
  · rw [hbytes, ← hok.byteCount_eq]

theorem Inv.step (h : Inv r) (hlevel : validLevel pool.compressionLevel)
    (hstep : GoodStep pool r e r') : Inv r' := by
  obtain ⟨batches, hdel⟩ := h.delivered
  obtain ⟨hnext, hsender, hwrite, hlimit⟩ := hstep
  obtain ⟨s', hs', rfl⟩ := Option.map_eq_some_iff.mp hnext
  have hsame : ∀ l : List Bytes, l ++ [] = l := append_nil
  -- Buffers move from the queue to a batch and from a batch to the sender, and nowhere else.
  cases enabled_of_step hs' with
  | @start sender hstate =>
    have hon : sender := by
      cases sender with
      | true => rfl
      | false => exact absurd rfl hsender
    refine ⟨fun i => (h.loops_ok i).goto .atSelect nofun nofun nofun, ?_, fun _ _ => hon, batches,
      hdel.frame rfl rfl (hsame _) (funext fun _ => hsame _) fun _ => ⟨rfl, rfl⟩⟩
    intro i hpc
    obtain hpc | hpc := hpc <;> cases hpc
  | startAgain | shutdownAgain =>
    exact h.keepLoops rfl rfl (hsame _) (funext fun _ => hsame _) id rfl rfl
  | shutdown =>
    exact h.keepLoops rfl rfl (hsame _) (funext fun _ => hsame _) (fun _ => rfl) rfl rfl
  | @queueBuf buf hopen =>
    refine ⟨h.loops_ok, fun i hpc => ?_, h.sender, batches,
      hdel.queueBuf rfl rfl (funext fun _ => hsame _)⟩
    -- A loop that has stopped has found the queue closed.
    have hclosed := (h.drained i hpc).1
    rw [hopen] at hclosed
    cases hclosed
  | @receive i writeErr buf rest hpc hqueue =>
    have hfalse : writeErr = false := by
      cases writeErr with
      | false => rfl
      | true => exact absurd rfl (hwrite i)
    subst hfalse
    obtain ⟨hok, hbatch, hstats⟩ := (h.loops_ok i).receive hpc (hlimit i) hlevel buf
    refine h.setLoop (i := i) hok (fun hpc' => absurd hpc' (Loop.receive_not_stopped hlevel))
      (fun _ => h.sender i (by simp [hpc])) rfl rfl ?_ rfl
      ⟨batches, hdel.receive hqueue hbatch hstats rfl (hsame _) fun j => ?_⟩
    · intro hnil
      rw [hqueue] at hnil
      cases hnil
    · show r.received j ++ (if i = j then r.state.metricsQueue.head?.bind dataOf else none).toList = _
      rw [hqueue]
      split <;> rfl
  | @receiveClosed i hpc hqueue hclosed =>
    exact h.keepBatch ((h.loops_ok i).decideSend (hlimit i) false) (fun _ => ⟨hclosed, hqueue⟩)
      (fun _ => h.sender i (by simp [hpc])) rfl rfl rfl (hsame _) (funext fun _ => hsame _)
  | @timerFires i htimer =>
    exact h.keepBatch ((h.loops_ok i).timerFires htimer) (h.drained i) (h.sender i) rfl rfl rfl
      (hsame _) (funext fun _ => hsame _)
  | @timeout i hpc htimer =>
    refine h.keepBatch ((h.loops_ok i).timeout htimer) ?_
      (fun _ => h.sender i (by simp [hpc])) rfl rfl rfl (hsame _) (funext fun _ => hsame _)
    rintro (hpc' | hpc') <;> cases hpc'
  | @sendStuck i _ _ isOpen hpc htimer =>
    rw [Loop.stopFlushTimer_eq (h.loops_ok i).sound.timerSet_iff] at htimer
    cases htimer
  | @send i gzLen sendErr isOpen l hpc htimer hwriter =>
    rw [Loop.stopFlushTimer_eq (h.loops_ok i).sound.timerSet_iff] at htimer
    cases htimer
    exact h.send hpc gzLen sendErr rfl (hsame _) (funext fun _ => hsame _)

def ShutDown (s : State n) : Prop := s.closed = true ∧ ∀ i, (s.loops i).pc = .stopped

instance (s : State n) : Decidable (ShutDown s) :=
  inferInstanceAs (Decidable (s.closed = true ∧ ∀ i, (s.loops i).pc = .stopped))

/-- When the pool has been shut down, every buffer that was queued with data has been sent in one
batch of the compressor that received it, and the statistics count them. -/
theorem batches_partition_queued {pkg : Packages} {cfg : CompressorPoolConfig}
    {es : List (Event n)} (hnew : newCompressorPool pkg cfg = .ok pool) (hn : 0 < n)
    (hrun : Run (GoodStep pool) (createdRun pool n) es r) (hshut : ShutDown r.state) :
    ∃ batches : List (Fin n × List Bytes),
      r.state.sent = (batches.map fun b => (b.1, b.2.flatten)) ∧
      (∀ b ∈ batches, b.2 ≠ []) ∧
      (∀ i, r.received i = sentBy batches i) ∧
      (allSent batches).Perm r.queued ∧
      ∑ i, (r.state.loops i).stats.readCount = UInt64.ofNat r.queued.length ∧
      ∑ i, (r.state.loops i).stats.readByteCount = UInt64.ofNat r.queued.flatten.length ∧
      ∑ i, (r.state.loops i).stats.sendCount = UInt64.ofNat r.state.sent.length := by
  have hlevel := newCompressorPool_ok hnew
  have hinv : Inv r := hrun.invariant (createdRun_inv pool n) fun _ _ _ h hstep => h.step hlevel hstep
  obtain ⟨batches, hdel⟩ := hinv.delivered
  have hbatch : ∀ i, (r.state.loops i).batch = [] := fun i => (hinv.loops_ok i).stopped (hshut.2 i)
  have hqueue : r.state.metricsQueue = [] := (hinv.drained ⟨0, hn⟩ (.inl (hshut.2 _))).2
  have hperm : (allSent batches).Perm r.queued := by
    have hqueued := hdel.queued_eq
    simp only [hbatch, hqueue, filterMap_nil, Multiset.coe_nil, Finset.sum_const_zero,
      add_zero] at hqueued
    exact (Multiset.coe_eq_coe.mp hqueued).symm
  refine ⟨batches, hdel.sent_eq, hdel.ne_nil, fun i => ?_, hperm, ?_, ?_, ?_⟩
  · rw [hdel.received_eq, hbatch, append_nil]
  · rw [hdel.readCount, hperm.length_eq]
  · rw [hdel.readByteCount, hperm.flatten.length_eq]
  · rw [hdel.sendCount, hdel.sent_eq, length_map]

end

/-- Two compressors, one of which gets an empty buffer and two that have data. -/
def twoBatches : List (Event 2) :=
  [.queueBuf (some [97]), .start true, .queueBuf (some []), .queueBuf (some [98, 99]),
    .queueBuf (some [100]), .receive 0 false, .receive 1 false, .receive 1 false, .receive 1 false,
    .timerFires 1, .timeout 1, .send 1 30 false, .shutdown, .receiveClosed 1, .receiveClosed 0,
    .send 0 30 false]

theorem batches_partition_queued_two_batches : ∃ (pool : CompressorPool) (r : RunState 2),
    newCompressorPool (.reading 65536) defaultCompressorPoolConfig = .ok pool ∧
    Run (GoodStep pool) (createdRun pool 2) twoBatches r ∧ ShutDown r.state ∧
    r.queued = [[97], [98, 99], [100]] ∧ ∃ batches : List (Fin 2 × List Bytes),
      r.state.sent = (batches.map fun b => (b.1, b.2.flatten)) ∧
      (allSent batches).Perm [[97], [98, 99], [100]] := by
  obtain ⟨pool, hnew⟩ : ∃ pool,
      newCompressorPool (.reading 65536) defaultCompressorPoolConfig = .ok pool := ⟨_, rfl⟩
  have hend : (twoBatches.foldlM (goodNext pool) (createdRun pool 2)).any
      (fun r => ShutDown r.state ∧ r.queued = [[97], [98, 99], [100]]) = true := by
    cases hnew
    decide +kernel
  obtain ⟨r, hrun, hr⟩ := Run.exists_of_any hend
  obtain ⟨hshut, hqueued⟩ := of_decide_eq_true hr
  have hrun' := hrun.mono fun _ _ _ => goodStep_of_goodNext
  obtain ⟨batches, hsent, -, -, hperm, -⟩ := batches_partition_queued hnew Nat.two_pos hrun' hshut
  exact ⟨pool, r, hnew, hrun', hshut, hqueued, batches, hsent, hqueued ▸ hperm⟩

/-! ## The order of the buffers -/

variable {n : Nat} {pool : CompressorPool} {r r' : RunState n} {e : Event n}

def InOrder (r : RunState n) : Prop :=
  ∀ i, (r.received i ++ r.state.metricsQueue.filterMap dataOf).Sublist r.queued

theorem InOrder.step (h : InOrder r) (hnext : nextState pool r e = some r') : InOrder r' := by
  intro i
  have hi := h i
  obtain ⟨s', hs', rfl⟩ := Option.map_eq_some_iff.mp hnext
  cases enabled_of_step hs' with
  | @queueBuf buf =>
    simpa [Event.receivedBy, Event.queued, filterMap_dataOf_cons] using
      hi.append_right (dataOf buf).toList
  | @receive j _ buf rest _ hqueue =>
    rw [hqueue, filterMap_dataOf_cons] at hi
    by_cases hij : j = i
    · simpa [Event.receivedBy, Event.queued, State.setLoop, hqueue, hij] using hi
    · -- the buffer goes to another compressor
      have hrest := (sublist_append_right (dataOf buf).toList (rest.filterMap dataOf)).append_left
        (r.received i)
      simpa [Event.receivedBy, Event.queued, State.setLoop, hij] using hrest.trans hi
  | _ => simpa [Event.receivedBy, Event.queued, State.setLoop] using hi

/-- What each compressor has sent is the first part of what it has received, in the order in which
it was queued. -/
theorem sent_in_queued_order {pkg : Packages} {cfg : CompressorPoolConfig} {es : List (Event n)}
    (hnew : newCompressorPool pkg cfg = .ok pool)
    (hrun : Run (GoodStep pool) (createdRun pool n) es r) :
    ∃ batches : List (Fin n × List Bytes),
      r.state.sent = (batches.map fun b => (b.1, b.2.flatten)) ∧
      ∀ i, sentBy batches i <+: r.received i ∧ (r.received i).Sublist r.queued := by
  have hlevel := newCompressorPool_ok hnew
  have hinv : Inv r := hrun.invariant (createdRun_inv pool n) fun _ _ _ h hstep => h.step hlevel hstep
  have horder : InOrder r :=
    hrun.invariant (fun _ => .refl _) fun _ _ _ h hstep => h.step hstep.next
  obtain ⟨batches, hdel⟩ := hinv.delivered
  refine ⟨batches, hdel.sent_eq, fun i => ⟨?_, (sublist_append_left _ _).trans (horder i)⟩⟩
  rw [hdel.received_eq]
  exact prefix_append _ _

theorem sent_in_queued_order_two_batches : ∃ (pool : CompressorPool) (r : RunState 2),
    newCompressorPool (.reading 65536) defaultCompressorPoolConfig = .ok pool ∧
    Run (GoodStep pool) (createdRun pool 2) twoBatches r ∧ r.received 1 = [[98, 99], [100]] ∧
    ∃ batches : List (Fin 2 × List Bytes),
      r.state.sent = (batches.map fun b => (b.1, b.2.flatten)) ∧
      ∀ i, sentBy batches i <+: r.received i ∧ (r.received i).Sublist r.queued := by
  obtain ⟨pool, hnew⟩ : ∃ pool,
      newCompressorPool (.reading 65536) defaultCompressorPoolConfig = .ok pool := ⟨_, rfl⟩
  have hend : (twoBatches.foldlM (goodNext pool) (createdRun pool 2)).any
      (fun r => r.received 1 = [[98, 99], [100]]) = true := by
    cases hnew
    decide +kernel
  obtain ⟨r, hrun, hr⟩ := Run.exists_of_any hend
  have hrun' := hrun.mono fun _ _ _ => goodStep_of_goodNext
  exact ⟨pool, r, hnew, hrun', of_decide_eq_true hr, sent_in_queued_order hnew hrun'⟩

end Lsvmi.Compressor
