import Lsvmi.HttpPool.Body

/-!
# Credit, and the readers that share it

The credit of `NewCredit` as a transition system with the goroutine that replenishes it and with any
number of readers.  The `Read`s of one reader follow one another, as an `io.Reader` requires.
The credit does not overflow.
-/

namespace Lsvmi.RateController

open HttpPool (Buffer CreditReader ReadResult Whence)

def creditNoLimit : Int := 0
def creditExactMatch : Int := 0

structure Credit where
  current : Int
  max : Int
  replenishValue : Int
  deriving DecidableEq, Repr

def newCredit (replenishValue max : Int) : Credit :=
  { current := replenishValue
    max := if max ≠ creditNoLimit ∧ max < replenishValue then replenishValue else max
    replenishValue }

namespace Credit

def replenish (c : Credit) : Credit :=
  let current := c.current + c.replenishValue
  { c with current := if c.max ≠ creditNoLimit ∧ c.max < current then c.max else current }

def leastCredit (desired minAcceptable : Int) : Int :=
  if minAcceptable = creditExactMatch ∨ desired < minAcceptable then desired else minAcceptable

/-- `GetCredit`; nothing while it waits. -/
def getCredit (c : Credit) (desired minAcceptable : Int) : Option (Int × Credit) :=
  if c.current < leastCredit desired minAcceptable then none
  else
    let got := if desired ≤ c.current then desired else c.current
    some (got, { c with current := c.current - got })

end Credit

structure Reader where
  buf : Buffer
  cr : CreditReader
  /-- the length of the slice and the desired credit of the `Read` that is in `GetCredit` -/
  pending : Option (Nat × Nat)
  deriving DecidableEq, Repr

def newCreditReader (minAcceptable : Int) (buf : Buffer) : Reader :=
  { buf, cr := .new minAcceptable.toNat, pending := none }

namespace Reader

def reuse (reader : Reader) (minAcceptable : Int) (buf : Buffer) : Reader :=
  { reader with
    buf
    cr := { reader.cr with
      minC := if 0 ≤ minAcceptable then minAcceptable.toNat else reader.cr.minC, r := 0 } }

def seek (reader : Reader) (offset : Int64) (whence : Whence) : Reader :=
  { reader with cr := (reader.cr.seek reader.buf offset whence).2 }

end Reader

structure State (R : Type) where
  credit : Credit
  readers : R → Reader

def started {R : Type} (replenishValue max : Int) (readers : R → Int × Buffer) : State R :=
  { credit := newCredit replenishValue max
    readers := fun g => newCreditReader (readers g).1 (readers g).2 }

inductive Event (R : Type) where
  | replenish
  /-- a `Read` into a slice of length `n`, up to `GetCredit` if that is called -/
  | read (g : R) (n : Nat)
  /-- `GetCredit` returns, and then `Read` -/
  | grant (g : R)
  | rewind (g : R)
  | close (g : R)
  | reuse (g : R) (minAcceptable : Int) (buf : Buffer)
  | seek (g : R) (offset : Int64) (whence : Whence)
  deriving DecidableEq, Repr

/-- The credit that a step grants, and what a `Read` returns by it. -/
structure Outcome where
  granted : Int
  result : Option ReadResult
  deriving DecidableEq, Repr

def Outcome.nothing : Outcome := ⟨0, none⟩

section

variable {R : Type} [DecidableEq R]

def State.setReader (s : State R) (g : R) (reader : Reader) : State R :=
  { s with readers := Function.update s.readers g reader }

def State.modify (s : State R) (g : R) (f : Reader → Reader) : Option (Outcome × State R) :=
  if (s.readers g).pending.isNone then some (.nothing, s.setReader g (f (s.readers g))) else none

def State.read (s : State R) (g : R) (n : Nat) : Option (Outcome × State R) :=
  let reader := s.readers g
  if reader.pending.isNone then
    match reader.cr.readEnter reader.buf n with
    | .inl result => some (⟨0, some result⟩, s)
    | .inr desired => some (.nothing, s.setReader g { reader with pending := some (n, desired) })
  else none

def State.grant (s : State R) (g : R) : Option (Outcome × State R) :=
  let reader := s.readers g
  match reader.pending with
  | none => none
  | some (_, desired) =>
    match s.credit.getCredit desired reader.cr.minC with
    | none => none
    | some (got, credit) =>
      -- A slice that ends before it starts ends the process, and so does one behind the capacity.
      if got < 0 then none
      else (reader.cr.readAdvance reader.buf got.toNat).map fun (result, cr) =>
        (⟨got, some result⟩, { s with credit }.setReader g { reader with cr, pending := none })

def step (s : State R) : Event R → Option (Outcome × State R)
  | .replenish => some (.nothing, { s with credit := s.credit.replenish })
  | .read g n => s.read g n
  | .grant g => s.grant g
  | .rewind g => s.modify g fun reader => { reader with cr := reader.cr.rewind }
  | .close g => s.modify g fun reader => { reader with cr := reader.cr.close }
  | .reuse g minAcceptable buf => s.modify g fun reader => reader.reuse minAcceptable buf
  | .seek g offset whence => s.modify g fun reader => reader.seek offset whence

end

end Lsvmi.RateController
