import Lsvmi.Metrics
import Lsvmi.Reasoning.Runs
import Mathlib.Data.List.Nodup
import Mathlib.Logic.Function.Basic

/-!
# `ReadFileBufPool`

The parsers and the compressors take their buffers from pools that all goroutines share.  A buffer is
a pointer here, so that a slot above `poolSize` can still hold one that is in use.
-/

namespace Lsvmi

open Reasoning List Function Option

variable {maxPoolSize : Int}

abbrev BufRef := Nat

/-- The part of the process that the pool works on.  `nextBuf` and `nextFile` are the first buffer and
the first file that do not exist yet. -/
structure Process where
  content : BufRef → Bytes
  nextBuf : BufRef
  openFiles : List Nat
  nextFile : Nat

def Process.setContent (proc : Process) (b : BufRef) (content : Bytes) : Process :=
  { proc with content := Function.update proc.content b content }

def Process.newBuffer (proc : Process) : Process :=
  { proc.setContent proc.nextBuf [] with nextBuf := proc.nextBuf + 1 }

def Process.openFile (proc : Process) : Process :=
  { proc with openFiles := proc.nextFile :: proc.openFiles, nextFile := proc.nextFile + 1 }

structure ReadFileBufPool where
  pool : List BufRef
  maxPoolSize : Int
  poolSize : Nat
  maxReadSize : Int
  deriving DecidableEq

def newReadFileBufPool (maxPoolSize maxReadSize : Int) : ReadFileBufPool :=
  { pool := [], maxPoolSize, poolSize := 0, maxReadSize }

variable {p : ReadFileBufPool}

namespace ReadFileBufPool

/-- `none` is the panic of an index out of range. -/
def getBuf (p : ReadFileBufPool) (proc : Process) : Option (BufRef × ReadFileBufPool × Process) :=
  if 0 < p.poolSize then
    p.pool[p.poolSize - 1]?.map fun buf =>
      (buf, { p with poolSize := p.poolSize - 1 }, proc.setContent buf [])
  else
    some (proc.nextBuf, p, proc.newBuffer)

def returnBuf (p : ReadFileBufPool) (b : Option BufRef) : ReadFileBufPool :=
  match b with
  | none => p
  | some b =>
    if 0 < p.maxPoolSize ∧ p.maxPoolSize ≤ p.poolSize then
      p
    else if p.pool.length ≤ p.poolSize then
      { p with pool := p.pool ++ [b], poolSize := p.poolSize + 1 }
    else
      { p with pool := p.pool.set p.poolSize b, poolSize := p.poolSize + 1 }

/-! ## Reading a file -/

inductive ReadFileErr
  | sys (text : String)
  | eof
  | potentialTruncation
  deriving DecidableEq

/-- What the system answers: opening fails, or there are the bytes up to the end of the file or to a
read that fails. -/
inductive FileRead
  | openFailed (err : String)
  | opened (data : Bytes) (readErr : Option String)

/-- `io.CopyN`: no error means that all `n` bytes were there. -/
def copyN (data : Bytes) (readErr : Option String) (n : Int) : Bytes × Option ReadFileErr :=
  if n ≤ data.length then
    (data.take n.toNat, none)
  else
    (data, some ((readErr.map .sys).getD .eof))

def readBuf (maxReadSize : Int) (data : Bytes) (readErr : Option String) :
    Bytes × Option ReadFileErr :=
  if 0 < maxReadSize then
    match copyN data readErr maxReadSize with
    | (read, some .eof) => (read, none)
    | (read, none) => (read, some .potentialTruncation)
    | (read, some err) => (read, some err)
  else
    (data, readErr.map .sys)

def readFile (p : ReadFileBufPool) (proc : Process) (file : FileRead) :
    Option (Option BufRef × Option ReadFileErr × ReadFileBufPool × Process) :=
  match file with
  | .openFailed err => some (none, some (.sys err), p, proc)
  | .opened data readErr => do
    let (b, p, proc) ← p.getBuf proc.openFile
    let (read, err) := readBuf p.maxReadSize data readErr
    let proc := proc.setContent b (proc.content b ++ read)
    -- `f` is not closed on either way out.
    if err = none ∨ err = some .potentialTruncation then
      return (some b, err, p, proc)
    else
      return (none, err, p.returnBuf (some b), proc)

/-! ## The slots below `poolSize` -/

def live (p : ReadFileBufPool) : List BufRef := p.pool.take p.poolSize

/-- `GetBuf` finds a buffer: the last live one, or a new one when there is none. -/
theorem getBuf_spec (hsize : p.poolSize ≤ p.pool.length) (proc : Process) :
    (∃ b, p.getBuf proc = some (b, { p with poolSize := p.poolSize - 1 }, proc.setContent b []) ∧
      0 < p.poolSize ∧ p.live = { p with poolSize := p.poolSize - 1 }.live ++ [b]) ∨
    (p.getBuf proc = some (proc.nextBuf, p, proc.newBuffer) ∧ p.poolSize = 0) := by
  rw [getBuf]
  by_cases hpos : 0 < p.poolSize
  · left
    have hlt : p.poolSize - 1 < p.pool.length := by omega
    refine ⟨p.pool[p.poolSize - 1], ?_, hpos, ?_⟩
    · rw [if_pos hpos, getElem?_eq_getElem hlt, map_some]
    · show p.pool.take p.poolSize = p.pool.take (p.poolSize - 1) ++ [p.pool[p.poolSize - 1]]
      rw [take_append_getElem, Nat.sub_add_cancel hpos]
  · right
    exact ⟨if_neg hpos, by omega⟩

theorem returnBuf_spec (hsize : p.poolSize ≤ p.pool.length) (b : BufRef) :
    (p.returnBuf (some b) = p ∧ 0 < p.maxPoolSize ∧ p.maxPoolSize ≤ p.poolSize) ∨
    ((p.returnBuf (some b)).live = p.live ++ [b] ∧
      (p.returnBuf (some b)).poolSize = p.poolSize + 1 ∧
      p.poolSize + 1 ≤ (p.returnBuf (some b)).pool.length ∧
      (p.returnBuf (some b)).maxPoolSize = p.maxPoolSize ∧
      ¬(0 < p.maxPoolSize ∧ p.maxPoolSize ≤ p.poolSize)) := by
  by_cases hmax : 0 < p.maxPoolSize ∧ p.maxPoolSize ≤ p.poolSize
  · left
    exact ⟨if_pos hmax, hmax⟩
  right
  rw [returnBuf, if_neg hmax]
  by_cases hlen : p.pool.length ≤ p.poolSize
  · have heq : p.poolSize = p.pool.length := by omega
    rw [if_pos hlen]
    refine ⟨?_, rfl, ?_, rfl, hmax⟩
    · show (p.pool ++ [b]).take (p.poolSize + 1) = p.pool.take p.poolSize ++ [b]
      rw [heq, take_length, take_of_length_le (by simp)]
    · simp [heq]
  · rw [if_neg hlen]
    refine ⟨?_, rfl, ?_, rfl, hmax⟩
    · show (p.pool.set p.poolSize b).take (p.poolSize + 1) = p.pool.take p.poolSize ++ [b]
      rw [take_succ_eq_append_getElem (by rw [length_set]; omega),
        take_set_of_le (Nat.le_refl _), getElem_set_self]
    · rw [length_set]
      omega

end ReadFileBufPool

/-! ## The users of a pool -/

variable {G : Type*}

/-- `holder` is not kept by the program: the goroutine that has a buffer. -/
structure PoolState (G : Type*) where
  p : ReadFileBufPool
  proc : Process
  holder : BufRef → Option G

/-- What the goroutines do with a pool and its buffers.  `newBuffer` makes one outside of the pool, and
`finalize` is the garbage collector, which may close a file that was left open at any later time. -/
inductive PoolCall (G : Type*)
  | getBuf (g : G)
  | returnBuf (g : G) (b : BufRef)
  | returnNil (g : G)
  | newBuffer (g : G)
  | use (g : G) (b : BufRef) (content : Bytes)
  | handOver (g g' : G) (b : BufRef)
  | readFile (g : G) (file : ReadFileBufPool.FileRead)
  | finalize (file : Nat)

/-- A buffer is used, given away or returned by the goroutine that has it. -/
def PoolCall.Legal (s : PoolState G) : PoolCall G → Prop
  | .returnBuf g b | .use g b _ | .handOver g _ b => s.holder b = some g
  | _ => True

def PoolCall.apply (s : PoolState G) : PoolCall G → Option (PoolState G)
  | .getBuf g => (s.p.getBuf s.proc).map fun (b, p, proc) =>
    { p, proc, holder := Function.update s.holder b (some g) }
  | .returnBuf _ b => some { s with
    p := s.p.returnBuf (some b)
    holder := Function.update s.holder b none }
  | .returnNil _ => some { s with p := s.p.returnBuf none }
  | .newBuffer g => some { s with
    proc := s.proc.newBuffer
    holder := Function.update s.holder s.proc.nextBuf (some g) }
  | .use _ b content => some { s with proc := s.proc.setContent b content }
  | .handOver _ g' b => some { s with holder := Function.update s.holder b (some g') }
  | .readFile g file => (s.p.readFile s.proc file).map fun (ret, _, p, proc) =>
    { p, proc, holder := match ret with
      | some b => Function.update s.holder b (some g)
      | none => s.holder }
  | .finalize file => some { s with
    proc := { s.proc with openFiles := s.proc.openFiles.erase file } }

def PoolStep (s : PoolState G) (c : PoolCall G) (s' : PoolState G) : Prop :=
  c.Legal s ∧ c.apply s = some s'

def newPoolState (maxPoolSize maxReadSize : Int) (content : BufRef → Bytes) : PoolState G where
  p := newReadFileBufPool maxPoolSize maxReadSize
  proc := { content, nextBuf := 0, openFiles := [], nextFile := 0 }
  holder := fun _ => none

variable {s : PoolState G} {b : BufRef}

namespace PoolState

variable {maxPoolSize : Int}

/-- The live slots hold distinct buffers that nobody has; nothing is said about the other slots. -/
structure Inv (maxPoolSize : Int) (s : PoolState G) : Prop where
  size_le : s.p.poolSize ≤ s.p.pool.length
  nodup : s.p.live.Nodup
  free : ∀ b ∈ s.p.live, s.holder b = none
  live_lt : ∀ b ∈ s.p.live, b < s.proc.nextBuf
  held_lt : ∀ b, s.holder b ≠ none → b < s.proc.nextBuf
  maxPoolSize_eq : s.p.maxPoolSize = maxPoolSize
  bounded : 0 < maxPoolSize → s.p.poolSize ≤ maxPoolSize

theorem inv_new (maxPoolSize maxReadSize : Int) (content : BufRef → Bytes) :
    (newPoolState maxPoolSize maxReadSize content : PoolState G).Inv maxPoolSize where
  size_le := Nat.le_refl 0
  nodup := nodup_nil
  free _ hb := absurd hb not_mem_nil
  live_lt _ hb := absurd hb not_mem_nil
  held_lt _ hb := absurd rfl hb
  maxPoolSize_eq := rfl
  bounded hmax := Int.le_of_lt hmax

/-- `GetBuf` has taken `b`: it is empty, nobody has it, and there is room to put it back. -/
structure Taken (maxPoolSize : Int) (s : PoolState G) (b : BufRef) (p' : ReadFileBufPool)
    (proc' : Process) : Prop where
  inv : { s with p := p', proc := proc' }.Inv maxPoolSize
  empty : proc'.content b = []
  not_held : s.holder b = none
  not_live : b ∉ p'.live
  lt : b < proc'.nextBuf
  room : 0 < maxPoolSize → p'.poolSize < maxPoolSize

namespace Inv

variable {s : PoolState G} (h : s.Inv maxPoolSize)
include h

theorem proc {proc : Process} (hnext : proc.nextBuf = s.proc.nextBuf) :
    { s with proc }.Inv maxPoolSize where
  size_le := h.size_le
  nodup := h.nodup
  free := h.free
  live_lt := by rw [hnext]; exact h.live_lt
  held_lt := by rw [hnext]; exact h.held_lt
  maxPoolSize_eq := h.maxPoolSize_eq
  bounded := h.bounded

theorem newBuffer : { s with proc := s.proc.newBuffer }.Inv maxPoolSize where
  size_le := h.size_le
  nodup := h.nodup
  free := h.free
  live_lt b hb := Nat.lt_succ_of_lt (h.live_lt b hb)
  held_lt b hb := Nat.lt_succ_of_lt (h.held_lt b hb)
  maxPoolSize_eq := h.maxPoolSize_eq
  bounded := h.bounded

theorem nextBuf_not_held : s.holder s.proc.nextBuf = none := by
  by_contra hheld
  exact Nat.lt_irrefl _ (h.held_lt _ hheld)

theorem nextBuf_not_live : s.proc.nextBuf ∉ s.p.live :=
  fun hmem => Nat.lt_irrefl _ (h.live_lt _ hmem)

theorem not_live_of_held {g : G} (hb : s.holder b = some g) : b ∉ s.p.live := by
  intro hmem
  rw [h.free b hmem] at hb
  cases hb

theorem lt_of_held {g : G} (hb : s.holder b = some g) : b < s.proc.nextBuf :=
  h.held_lt b (by rw [hb]; exact some_ne_none g)

theorem getBuf : ∃ b p' proc', s.p.getBuf s.proc = some (b, p', proc') ∧
    s.Taken maxPoolSize b p' proc' ∧ proc'.openFiles = s.proc.openFiles := by
  rcases ReadFileBufPool.getBuf_spec h.size_le s.proc with ⟨b, hget, hpos, hlive⟩ | ⟨hget, hzero⟩
  · have hnodup := h.nodup
    have hfree := h.free
    have hlt := h.live_lt
    rw [hlive] at hnodup hfree hlt
    have hb := mem_append_right { s.p with poolSize := s.p.poolSize - 1 }.live
      (mem_singleton_self b)
    have hroom : 0 < maxPoolSize → ((s.p.poolSize - 1 : Nat) : Int) < maxPoolSize := by
      intro hmax
      have := h.bounded hmax
      omega
    refine ⟨b, _, _, hget, ⟨⟨?_, ?_, ?_, ?_, h.held_lt, h.maxPoolSize_eq, ?_⟩, update_self ..,
      hfree b hb, ?_, hlt b hb, hroom⟩, rfl⟩
    · exact Nat.le_trans (Nat.sub_le _ _) h.size_le
    · exact hnodup.of_append_left
    · exact fun c hc => hfree c (mem_append_left _ hc)
    · exact fun c hc => hlt c (mem_append_left _ hc)
    · exact fun hmax => Int.le_of_lt (hroom hmax)
    · exact fun hmem => disjoint_of_nodup_append hnodup hmem (mem_singleton_self b)
  · refine ⟨s.proc.nextBuf, _, _, hget, ⟨h.newBuffer, update_self .., h.nextBuf_not_held,
      h.nextBuf_not_live, Nat.lt_succ_self _, ?_⟩, rfl⟩
    rw [hzero]
    exact id

theorem hold (hb : b ∉ s.p.live) (hlt : b < s.proc.nextBuf) (g : Option G) :
    { s with holder := update s.holder b g }.Inv maxPoolSize where
  size_le := h.size_le
  nodup := h.nodup
  free c hc := by
    have hne : c ≠ b := fun heq => hb (heq ▸ hc)
    show update s.holder b g c = none
    rw [update_of_ne hne]
    exact h.free c hc
  live_lt := h.live_lt
  held_lt c hc := by
    by_cases hcb : c = b
    · rw [hcb]
      exact hlt
    · replace hc : update s.holder b g c ≠ none := hc
      rw [update_of_ne hcb] at hc
      exact h.held_lt c hc
  maxPoolSize_eq := h.maxPoolSize_eq
  bounded := h.bounded

theorem returnBuf (hb : b ∉ s.p.live) (hlt : b < s.proc.nextBuf) (hheld : s.holder b = none) :
    { s with p := s.p.returnBuf (some b) }.Inv maxPoolSize := by
  rcases ReadFileBufPool.returnBuf_spec h.size_le b with ⟨heq, _⟩ | ⟨hlive, hsize, hlen, hmaxSize, hroom⟩
  · rw [heq]
    exact h
  have hmem : ∀ c, c ∈ (s.p.returnBuf (some b)).live ↔ c ∈ s.p.live ∨ c = b := by
    intro c
    rw [hlive, mem_append, mem_singleton]
  refine ⟨?_, ?_, ?_, ?_, h.held_lt, hmaxSize.trans h.maxPoolSize_eq, ?_⟩
  · exact hsize ▸ hlen
  · show (s.p.returnBuf (some b)).live.Nodup
    rw [hlive, nodup_append]
    refine ⟨h.nodup, nodup_singleton b, fun c hc d hd heq => hb ?_⟩
    rw [← List.mem_singleton.mp hd, ← heq]
    exact hc
  · intro c hc
    rcases (hmem c).mp hc with hc | rfl
    · exact h.free c hc
    · exact hheld
  · intro c hc
    rcases (hmem c).mp hc with hc | rfl
    · exact h.live_lt c hc
    · exact hlt
  · rw [h.maxPoolSize_eq] at hroom
    rw [hsize]
    omega

end Inv

/-! ## What `ReadFile` leaves -/

/-- With a complete or a truncated file the buffer goes to the caller, and with a failed read to the
pool; the file stays as it was opened. -/
theorem readFile_opened {p' : ReadFileBufPool} {proc proc' : Process}
    (hget : p.getBuf proc.openFile = some (b, p', proc')) (data : Bytes) (readErr : Option String) :
    ∃ err proc'', proc''.nextBuf = proc'.nextBuf ∧ proc''.openFiles = proc'.openFiles ∧
      (p.readFile proc (.opened data readErr) = some (some b, err, p', proc'') ∨
       p.readFile proc (.opened data readErr) = some (none, err, p'.returnBuf (some b), proc'')) := by
  refine ⟨(ReadFileBufPool.readBuf p'.maxReadSize data readErr).2, proc'.setContent b
    (proc'.content b ++ (ReadFileBufPool.readBuf p'.maxReadSize data readErr).1), rfl, rfl, ?_⟩
  by_cases herr : (ReadFileBufPool.readBuf p'.maxReadSize data readErr).2 = none ∨
      (ReadFileBufPool.readBuf p'.maxReadSize data readErr).2 = some .potentialTruncation
  · left
    simp only [ReadFileBufPool.readFile, hget, bind_eq_bind, bind_some, if_pos herr]
    rfl
  · right
    simp only [ReadFileBufPool.readFile, hget, bind_eq_bind, bind_some, if_neg herr]
    rfl

def takenBuf (s : PoolState G) : ReadFileBufPool.FileRead → Option BufRef
  | .openFailed _ => none
  | .opened _ _ => (s.p.getBuf s.proc.openFile).map Prod.fst

theorem Taken.live_returnBuf {p' : ReadFileBufPool} {proc' : Process}
    (h : s.Taken maxPoolSize b p' proc') : b ∈ (p'.returnBuf (some b)).live := by
  rcases ReadFileBufPool.returnBuf_spec h.inv.size_le b with ⟨_, hmax, hfull⟩ | ⟨hlive, _⟩
  · rw [h.inv.maxPoolSize_eq] at hmax hfull
    exact absurd (h.room hmax) (Int.not_lt.mpr hfull)
  · rw [hlive]
    exact mem_append_right _ (mem_singleton_self b)

theorem Inv.readFile (h : s.Inv maxPoolSize) (data : Bytes) (readErr : Option String) :
    ∃ b ret err p' proc', s.takenBuf (.opened data readErr) = some b ∧
      s.p.readFile s.proc (.opened data readErr) = some (ret, err, p', proc') ∧
      proc'.openFiles = s.proc.nextFile :: s.proc.openFiles ∧
      { s with p := p', proc := proc' }.Inv maxPoolSize ∧ b < proc'.nextBuf ∧
      (ret = some b ∧ b ∉ p'.live ∨ ret = none ∧ b ∈ p'.live) := by
  have hopened : { s with proc := s.proc.openFile }.Inv maxPoolSize := h.proc rfl
  obtain ⟨b, p', proc', hget, htaken, hfiles⟩ := hopened.getBuf
  obtain ⟨err, proc'', hnext, hfiles', hret⟩ := readFile_opened hget data readErr
  have hbuf := congrArg (Option.map Prod.fst) hget
  have hopen := hfiles'.trans hfiles
  have hinv := htaken.inv.proc hnext
  have hlt : b < proc''.nextBuf := hnext ▸ htaken.lt
  rcases hret with hret | hret
  · exact ⟨b, _, _, _, _, hbuf, hret, hopen, hinv, hlt, .inl ⟨rfl, htaken.not_live⟩⟩
  · exact ⟨b, _, _, _, _, hbuf, hret, hopen, hinv.returnBuf htaken.not_live hlt htaken.not_held, hlt,
      .inr ⟨rfl, htaken.live_returnBuf⟩⟩

/-! ## Every use of the pool keeps the invariant -/

theorem Inv.step {s' : PoolState G} {c : PoolCall G} (h : s.Inv maxPoolSize)
    (hstep : PoolStep s c s') : s'.Inv maxPoolSize := by
  obtain ⟨hlegal, happly⟩ := hstep
  cases c with
  | getBuf g =>
    obtain ⟨b, p', proc', hget, htaken, _⟩ := h.getBuf
    rw [PoolCall.apply, hget] at happly
    cases happly
    exact htaken.inv.hold htaken.not_live htaken.lt (some g)
  | returnBuf g b =>
    cases happly
    have hb := h.not_live_of_held hlegal
    have hlt := h.lt_of_held hlegal
    exact (h.hold hb hlt none).returnBuf hb hlt (update_self ..)
  | returnNil g =>
    cases happly
    exact h
  | newBuffer g =>
    cases happly
    exact h.newBuffer.hold h.nextBuf_not_live (Nat.lt_succ_self _) (some g)
  | use g b content | finalize file =>
    cases happly
    exact h.proc rfl
  | handOver g g' b =>
    cases happly
    exact h.hold (h.not_live_of_held hlegal) (h.lt_of_held hlegal) (some g')
  | readFile g file =>
    cases file with
    | openFailed err =>
      cases happly
      exact h
    | opened data readErr =>
      obtain ⟨b, ret, err, p', proc', _, hread, _, hinv, hlt, hret⟩ := h.readFile data readErr
      rw [PoolCall.apply, hread] at happly
      rcases hret with ⟨rfl, hb⟩ | ⟨rfl, _⟩
      · cases happly
        exact hinv.hold hb hlt (some g)
      · cases happly
        exact hinv

end PoolState

/-- Whatever the goroutines do with the buffers they have, `GetBuf` gives an empty one that nobody has,
and the slots below `poolSize` are distinct buffers that nobody has. -/
theorem getBuf_exclusive {maxPoolSize maxReadSize : Int} {content : BufRef → Bytes}
    {cs : List (PoolCall G)} {s : PoolState G}
    (hrun : Run PoolStep (newPoolState maxPoolSize maxReadSize content) cs s) :
    (∃ b p' proc', s.p.getBuf s.proc = some (b, p', proc') ∧ s.holder b = none ∧
      proc'.content b = []) ∧
    s.p.poolSize ≤ s.p.pool.length ∧
    (s.p.pool.take s.p.poolSize).Nodup ∧
    (∀ b ∈ s.p.pool.take s.p.poolSize, s.holder b = none) ∧
    (0 < maxPoolSize → s.p.poolSize ≤ maxPoolSize) := by
  have hinv : s.Inv maxPoolSize := hrun.invariant
    (PoolState.inv_new maxPoolSize maxReadSize content) fun s c s' h hstep => h.step hstep
  obtain ⟨b, p', proc', hget, htaken, _⟩ := hinv.getBuf
  exact ⟨⟨b, p', proc', hget, htaken.not_held, htaken.empty⟩, hinv.size_le, hinv.nodup, hinv.free,
    hinv.bounded⟩

/-- A buffer comes back with its content and is the next one to be handed out. -/
theorem getBuf_exclusive_returned : ∃ s : PoolState Bool,
    Run PoolStep (newPoolState 1 0 fun _ => [])
      [.getBuf true, .use true 0 [97], .returnBuf true 0] s ∧
    s.p.live = [0] ∧ s.proc.content 0 = [97] ∧
    ∃ b p' proc', s.p.getBuf s.proc = some (b, p', proc') ∧ s.holder b = none ∧
      proc'.content b = [] := by
  obtain ⟨s, hs, hlive, hcontent⟩ : ∃ s : PoolState Bool, Run PoolStep (newPoolState 1 0 fun _ => [])
      [.getBuf true, .use true 0 [97], .returnBuf true 0] s ∧ s.p.live = [0] ∧
      s.proc.content 0 = [97] :=
    ⟨_, .cons ⟨trivial, rfl⟩ (.cons ⟨rfl, rfl⟩ (.cons ⟨rfl, rfl⟩ .start)), rfl, rfl⟩
  exact ⟨s, hs, hlive, hcontent, (getBuf_exclusive hs).1⟩

/-! ## Files and buffers that `ReadFile` gives back -/

/-- Every file that the call opened has been closed when it returns. -/
def PoolCall.ClosesFile (s : PoolState G) : PoolCall G → Prop
  | .readFile _ file => ∀ ret err p' proc', s.p.readFile s.proc file = some (ret, err, p', proc') →
    ∀ f ∈ proc'.openFiles, f ∈ s.proc.openFiles
  | _ => True

/-- The buffer that the call took is the caller's or in the pool when it returns, and not both. -/
def PoolCall.KeepsBuf (s : PoolState G) : PoolCall G → Prop
  | .readFile _ file => ∀ ret err p' proc', s.p.readFile s.proc file = some (ret, err, p', proc') →
    ∀ b, s.takenBuf file = some b → Xor (ret = some b) (b ∈ p'.live)
  | _ => True

def PoolCall.Opens : PoolCall G → Prop
  | .readFile _ (.opened _ _) => True
  | _ => False

theorem PoolState.Inv.keepsBuf (h : s.Inv maxPoolSize) (c : PoolCall G) : c.KeepsBuf s := by
  cases c with
  | readFile g file =>
    intro ret err p' proc' hread b hb
    cases file with
    | openFailed err => cases hb
    | opened data readErr =>
      obtain ⟨b', _, _, _, _, htaken, hread', _, _, _, hret⟩ := h.readFile data readErr
      cases htaken.symm.trans hb
      cases hread'.symm.trans hread
      rcases hret with ⟨rfl, hlive⟩ | ⟨rfl, hlive⟩
      · exact .inl ⟨rfl, hlive⟩
      · exact .inr ⟨hlive, nofun⟩
  | _ => trivial

theorem PoolState.Inv.closesFile_iff (h : s.Inv maxPoolSize)
    (hfiles : s.proc.openFiles = []) (c : PoolCall G) : c.ClosesFile s ↔ ¬c.Opens := by
  cases c with
  | readFile g file =>
    cases file with
    | openFailed err =>
      refine ⟨fun _ => id, fun _ ret err p' proc' hread => ?_⟩
      cases hread
      exact fun f hf => hf
    | opened data readErr =>
      refine ⟨fun hcloses => ?_, fun hopens => absurd trivial hopens⟩
      obtain ⟨_, ret, err, p', proc', _, hread, hopen, _⟩ := h.readFile data readErr
      have hmem := hcloses ret err p' proc' hread s.proc.nextFile (hopen ▸ mem_cons_self)
      rw [hfiles] at hmem
      cases hmem
  | _ => exact ⟨fun _ => id, fun _ => trivial⟩

theorem PoolState.Inv.openFiles_step {s' : PoolState G} {c : PoolCall G}
    (h : s.Inv maxPoolSize) (hfiles : s.proc.openFiles = []) (hopens : ¬c.Opens)
    (hstep : PoolStep s c s') : s'.proc.openFiles = [] := by
  obtain ⟨_, happly⟩ := hstep
  cases c with
  | getBuf g =>
    obtain ⟨b, p', proc', hget, _, hsame⟩ := h.getBuf
    rw [PoolCall.apply, hget] at happly
    cases happly
    exact hsame.trans hfiles
  | readFile g file =>
    cases file with
    | openFailed err =>
      cases happly
      exact hfiles
    | opened data readErr => exact absurd trivial hopens
  | finalize file =>
    cases happly
    show s.proc.openFiles.erase file = []
    rw [hfiles, erase_nil]
  | _ =>
    cases happly
    exact hfiles

/-- The buffers are always accounted for.  A file that was opened is still open when `ReadFile` returns,
so the calls leave nothing behind exactly when none of them could open its file. -/
theorem readFile_releases_iff_not_opens (maxPoolSize maxReadSize : Int) (content : BufRef → Bytes)
    (cs : List (PoolCall G)) :
    Always PoolStep (fun s c => s.proc.openFiles = [] ∧ c.ClosesFile s ∧ c.KeepsBuf s)
      (newPoolState maxPoolSize maxReadSize content) cs ↔
    Always PoolStep (fun _ c => ¬c.Opens) (newPoolState maxPoolSize maxReadSize content) cs := by
  apply Always.iff_of_invariant (H := fun _ _ => True)
    (I := fun s => s.Inv maxPoolSize ∧ s.proc.openFiles = [])
  · intro s c ⟨hinv, hfiles⟩ _
    rw [hinv.closesFile_iff hfiles]
    exact ⟨fun h => h.2.1, fun h => ⟨hfiles, h, hinv.keepsBuf c⟩⟩
  · intro s c s' ⟨hinv, hfiles⟩ _ hopens hstep
    exact ⟨hinv.step hstep, hinv.openFiles_step hfiles hopens hstep⟩
  · exact ⟨PoolState.inv_new maxPoolSize maxReadSize content, rfl⟩
  · exact Always.of_forall_mem (fun _ _ => trivial) _

/-- Reading a file of three bytes, well below the limit, leaves it open. -/
theorem readFile_leaves_file_open :
    ¬Always PoolStep (fun s c => s.proc.openFiles = [] ∧ c.ClosesFile s ∧ c.KeepsBuf s)
      (newPoolState 4 16 fun _ => []) [PoolCall.readFile () (.opened [49, 50, 10] none)] := by
  intro h
  have hmem := h.1.2.1 _ _ _ _ rfl 0 mem_cons_self
  cases hmem

end Lsvmi
