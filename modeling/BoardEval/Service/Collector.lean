/-!
# Batch collectors

A collector decides when a batch that is being filled is run. Its clock opens
when the first job lands in an empty batch; the batch is ready when it is full
or when that first job has waited long enough. Later jobs do not move the
deadline. Times are milliseconds of any clock that does not run backwards.
-/

namespace BoardEval

/-- The clock of one server's batch. It counts no jobs: how many there are is told
to it with every question. -/
structure Collector where
  capacity : Nat
  maxWait : Nat
  /-- When the oldest job of the open batch arrived. -/
  openedAt : Option Nat
  deriving DecidableEq, Repr

namespace Collector

/-- A collector without an open batch. -/
def new (capacity maxWait : Nat) : Collector := ⟨capacity, maxWait, none⟩

/-- Room left in a batch of `pending` jobs. -/
def room (c : Collector) (pending : Nat) : Nat := c.capacity - pending

/-- Whether the clock of a batch runs. -/
def isOpen (c : Collector) : Bool := c.openedAt.isSome

/-- Take note that the batch holds `pending` jobs at time `now`. -/
def observe (c : Collector) (pending now : Nat) : Collector :=
  if 0 < pending ∧ c.openedAt.isNone then { c with openedAt := some now } else c

/-- Whether a batch of `pending` jobs is to be run at time `now`. -/
def isReady (c : Collector) (pending now : Nat) : Bool :=
  if pending = 0 then false
  else if c.capacity ≤ pending then true
  else
    match c.openedAt with
    | some opened => decide (c.maxWait ≤ now - opened)
    | none => false

/-- How long to wait for the next job: to the deadline of the open batch, but at
most `idle`. -/
def nextWait (c : Collector) (idle now : Nat) : Nat :=
  match c.openedAt with
  | some opened => min (c.maxWait - (now - opened)) idle
  | none => idle

/-- Take note that the batch has been run. -/
def close (c : Collector) : Collector := { c with openedAt := none }

end Collector

end BoardEval
