import Mathlib.Logic.Function.Basic
import Lsvmi.Compressor.Loop

/-!
# Generators, compressors and shutdown

The goroutines that use one pool as a transition system: the generators that queue buffers, the
loops of the compressors, and the one that starts the pool and shuts it down.  The queue has no
bound here, so that every run of a pool with a bounded one is among the runs of the model.
-/

namespace Lsvmi.Compressor

inductive CompressorPoolState where
  | created | running | stopped
  deriving DecidableEq, Repr

structure State (n : Nat) where
  metricsQueue : List (Option Bytes)
  closed : Bool
  state : CompressorPoolState
  sender : Bool
  loops : Fin n → Loop
  /-- the calls of `SendBuffer`, with the data that the batch encodes -/
  sent : List (Fin n × Bytes)

def created (pool : CompressorPool) (n : Nat) : State n :=
  { metricsQueue := [], closed := false, state := .created, sender := false
    loops := fun _ => newLoop pool, sent := [] }

inductive Event (n : Nat) where
  | start (sender : Bool)
  | queueBuf (buf : Option Bytes)
  | receive (i : Fin n) (writeErr : Bool)
  | receiveClosed (i : Fin n)
  | timerFires (i : Fin n)
  | timeout (i : Fin n)
  | send (i : Fin n) (gzLen : Nat) (sendErr : Bool)
  | shutdown
  deriving DecidableEq, Repr

section

variable {n : Nat}

def State.setLoop (s : State n) (i : Fin n) (l : Loop) : State n :=
  { s with loops := Function.update s.loops i l }

/-- The end of a batch.  The process ends where `gzWriter` is nil. -/
def State.send (pool : CompressorPool) (s : State n) (i : Fin n) (isOpen : Bool) (gzLen : Nat)
    (sendErr : Bool) : Option (State n) :=
  match (s.loops i).stopFlushTimer with
  | none => some (s.setLoop i { s.loops i with pc := .stuck })
  | some l =>
    if l.gzWriter then
      let sent := if s.sender then s.sent ++ [(i, l.gzBuf.flatten)] else s.sent
      some ({ s with sent }.setLoop i (l.finishBatch pool isOpen s.sender gzLen sendErr))
    else none

def step (pool : CompressorPool) (s : State n) : Event n → Option (State n)
  | .start sender =>
    if s.state = .created then
      some { s with
        state := .running, sender, loops := fun i => { s.loops i with pc := .atSelect } }
    else some s
  | .queueBuf buf =>
    -- A send on a closed channel ends the process.
    if s.closed then none else some { s with metricsQueue := s.metricsQueue ++ [buf] }
  | .receive i writeErr =>
    match (s.loops i).pc, s.metricsQueue with
    | .atSelect, buf :: rest =>
      some ({ s with metricsQueue := rest }.setLoop i ((s.loops i).receive pool buf writeErr))
    | _, _ => none
  | .receiveClosed i =>
    if (s.loops i).pc = .atSelect ∧ s.metricsQueue = [] ∧ s.closed then
      some (s.setLoop i (s.loops i).receiveClosed)
    else none
  | .timerFires i =>
    if (s.loops i).flushTimer = .running then
      some (s.setLoop i { s.loops i with flushTimer := .fired })
    else none
  | .timeout i =>
    if (s.loops i).pc = .atSelect ∧ (s.loops i).flushTimer = .fired then
      some (s.setLoop i (s.loops i).timeout)
    else none
  | .send i gzLen sendErr =>
    match (s.loops i).pc with
    | .sending isOpen => s.send pool i isOpen gzLen sendErr
    | _ => none
  | .shutdown =>
    if s.state = .stopped then some s else some { s with state := .stopped, closed := true }

def Steps (pool : CompressorPool) (s : State n) (e : Event n) (s' : State n) : Prop :=
  step pool s e = some s'

variable {pool : CompressorPool} {s s' : State n} {e : Event n}

inductive Enabled (pool : CompressorPool) (s : State n) : Event n → State n → Prop
  | start {sender : Bool} (hstate : s.state = .created) :
    Enabled pool s (.start sender) { s with
      state := .running, sender, loops := fun i => { s.loops i with pc := .atSelect } }
  | startAgain {sender : Bool} (hstate : s.state ≠ .created) : Enabled pool s (.start sender) s
  | queueBuf {buf : Option Bytes} (hopen : s.closed = false) :
    Enabled pool s (.queueBuf buf) { s with metricsQueue := s.metricsQueue ++ [buf] }
  | receive {i : Fin n} {writeErr : Bool} {buf : Option Bytes} {rest : List (Option Bytes)}
    (hpc : (s.loops i).pc = .atSelect) (hqueue : s.metricsQueue = buf :: rest) :
    Enabled pool s (.receive i writeErr)
      ({ s with metricsQueue := rest }.setLoop i ((s.loops i).receive pool buf writeErr))
  | receiveClosed {i : Fin n} (hpc : (s.loops i).pc = .atSelect) (hqueue : s.metricsQueue = [])
    (hclosed : s.closed = true) :
    Enabled pool s (.receiveClosed i) (s.setLoop i (s.loops i).receiveClosed)
  | timerFires {i : Fin n} (htimer : (s.loops i).flushTimer = .running) :
    Enabled pool s (.timerFires i) (s.setLoop i { s.loops i with flushTimer := .fired })
  | timeout {i : Fin n} (hpc : (s.loops i).pc = .atSelect)
    (htimer : (s.loops i).flushTimer = .fired) :
    Enabled pool s (.timeout i) (s.setLoop i (s.loops i).timeout)
  | sendStuck {i : Fin n} {gzLen : Nat} {sendErr isOpen : Bool}
    (hpc : (s.loops i).pc = .sending isOpen) (htimer : (s.loops i).stopFlushTimer = none) :
    Enabled pool s (.send i gzLen sendErr) (s.setLoop i { s.loops i with pc := .stuck })
  | send {i : Fin n} {gzLen : Nat} {sendErr isOpen : Bool} {l : Loop}
    (hpc : (s.loops i).pc = .sending isOpen) (htimer : (s.loops i).stopFlushTimer = some l)
    (hwriter : l.gzWriter = true) :
    Enabled pool s (.send i gzLen sendErr)
      ({ s with sent := if s.sender then s.sent ++ [(i, l.gzBuf.flatten)] else s.sent }.setLoop i
        (l.finishBatch pool isOpen s.sender gzLen sendErr))
  | shutdown (hstate : s.state ≠ .stopped) :
    Enabled pool s .shutdown { s with state := .stopped, closed := true }
  | shutdownAgain (hstate : s.state = .stopped) : Enabled pool s .shutdown s

theorem enabled_of_step (h : Steps pool s e s') : Enabled pool s e s' := by
  unfold Steps at h
  cases e with
  | start sender =>
    simp only [step] at h
    split at h
    · cases h
      exact .start ‹_›
    · cases h
      exact .startAgain ‹_›
  | queueBuf buf =>
    simp only [step] at h
    split at h
    · cases h
    · rename_i hopen
      cases h
      exact .queueBuf (Bool.eq_false_iff.mpr hopen)
  | receive i writeErr =>
    simp only [step] at h
    split at h
    · cases h
      exact .receive ‹_› ‹_›
    · cases h
  | receiveClosed i =>
    simp only [step] at h
    split at h
    · rename_i hcond
      cases h
      exact .receiveClosed hcond.1 hcond.2.1 hcond.2.2
    · cases h
  | timerFires i =>
    simp only [step] at h
    split at h
    · cases h
      exact .timerFires ‹_›
    · cases h
  | timeout i =>
    simp only [step] at h
    split at h
    · rename_i hcond
      cases h
      exact .timeout hcond.1 hcond.2
    · cases h
  | send i gzLen sendErr =>
    simp only [step] at h
    split at h
    · rename_i isOpen hpc
      unfold State.send at h
      split at h
      · cases h
        exact .sendStuck hpc ‹_›
      · split at h
        · cases h
          exact .send hpc ‹_› ‹_›
        · cases h
    · cases h
  | shutdown =>
    simp only [step] at h
    split at h
    · cases h
      exact .shutdownAgain ‹_›
    · cases h
      exact .shutdown ‹_›

end

end Lsvmi.Compressor
