/-!
# Faults and failures

An operation can stop in two ways. An error is an outcome its caller is meant
to handle. A fault is a broken promise of the caller: the operation was used
outside its contract, and nothing it would have produced is meaningful. The two
never mix, so a law about errors does not have to mention contracts and a law
about contracts does not have to mention errors.

Sizes, indices and counts are unbounded natural numbers here. The one place
where a machine word shows is that a size or an index which does not fit in
64 bits is a fault; `fitsWord` is that check.
-/

namespace BoardEval

/-- A broken contract. A stated fault carries the sentence that names the
promise; an implicit one, such as an index outside its tensor or a length that
does not fit in a machine word, has no sentence of its own. -/
inductive Fault where
  | stated (text : String)
  | implicit
  deriving DecidableEq, Repr

/-- Why an operation that can be misused and can also fail did not finish. -/
inductive Failure (ε : Type) where
  | fault (broken : Fault)
  | error (cause : ε)
  deriving DecidableEq, Repr

namespace Failure

variable {ε δ : Type}

/-- Reword the error and leave a fault as it is. -/
def map (f : ε → δ) : Failure ε → Failure δ
  | .fault broken => .fault broken
  | .error cause => .error (f cause)

end Failure

/-- A check that can only fault is also a step of an operation that can fail. -/
instance {ε : Type} : MonadLift (Except Fault) (Except (Failure ε)) where
  monadLift
    | .ok value => .ok value
    | .error broken => .error (.fault broken)

/-- A step that can only fail with an error is also a step of an operation that
can be misused. -/
instance {ε : Type} : MonadLift (Except ε) (Except (Failure ε)) where
  monadLift
    | .ok value => .ok value
    | .error cause => .error (.error cause)

/-- Fault with `text` unless the promise holds. -/
def require (promise : Bool) (text : String) : Except Fault Unit :=
  if promise then .ok () else .error (.stated text)

/-- Fault without a sentence unless the promise holds. -/
def requireImplicit (promise : Bool) : Except Fault Unit :=
  if promise then .ok () else .error .implicit

/-- The number of machine words' values: sizes and indices stay below it. -/
def wordLimit : Nat := 0x10000000000000000

/-- A size or index, provided that it fits in a machine word. -/
def fitsWord (n : Nat) : Except Fault Nat :=
  if n < wordLimit then .ok n else .error .implicit

/-- The most bytes one allocation may hold. -/
def allocationLimit : Nat := 0x7fffffffffffffff

end BoardEval
