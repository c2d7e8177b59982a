import BoardEval.Fault

/-!
# Inverting checks

An operation that can fault is a chain of checks and computations. It succeeds
exactly if every link does, and then its result is that of the chain; these laws
take a chain apart one link at a time, so that no later proof opens a `do` block
by evaluation.
-/

namespace BoardEval

section

variable {ε α β : Type}

/-- A chain of two steps succeeds exactly if the first does and the second does
on its result. -/
theorem bind_ok_iff (step : Except ε α) (next : α → Except ε β) (result : β) :
    (step >>= next) = .ok result ↔ ∃ value, step = .ok value ∧ next value = .ok result := by
  cases step <;> simp [bind, Except.bind]

/-- A first step that succeeds drops out of its chain. -/
@[simp] theorem ok_bind (value : α) (next : α → Except ε β) :
    ((.ok value : Except ε α) >>= next) = next value := rfl

/-- A first step that fails stops its chain. -/
@[simp] theorem error_bind (cause : ε) (next : α → Except ε β) :
    ((.error cause : Except ε α) >>= next) = .error cause := rfl

/-- A pure step ends with its value and with nothing else. -/
theorem pure_ok_iff (value result : α) :
    (pure value : Except ε α) = .ok result ↔ value = result := by
  simp [pure, Except.pure]

/-- Raising a failure succeeds with nothing. -/
@[simp] theorem throw_ne_ok (cause : ε) (result : α) :
    (throw cause : Except ε α) ≠ .ok result := nofun

/-- A step that can only fail becomes a step that can be misused, its error an error. -/
@[simp] theorem lift_ok (value : α) :
    (liftM (.ok value : Except ε α) : Except (Failure ε) α) = .ok value := rfl

/-- An error stays an error among failures. -/
@[simp] theorem lift_error (cause : ε) :
    (liftM (.error cause : Except ε α) : Except (Failure ε) α) = .error (.error cause) := rfl

/-- So does a step that can only fault, its fault a fault. -/
@[simp] theorem lift_fault_ok (value : α) :
    (liftM (.ok value : Except Fault α) : Except (Failure ε) α) = .ok value := rfl

/-- A broken promise stays a fault among failures, and is never taken for an
error. -/
@[simp] theorem lift_fault_error (broken : Fault) :
    (liftM (.error broken : Except Fault α) : Except (Failure ε) α) = .error (.fault broken) := rfl

/-- A step that can only fault succeeds alike inside an operation that can fail. -/
@[simp] theorem lift_fault_ok_iff (step : Except Fault α) (result : α) :
    (liftM step : Except (Failure ε) α) = .ok result ↔ step = .ok result := by
  cases step <;> simp [liftM, monadLift, MonadLift.monadLift]

/-- A step that can only fail succeeds alike inside an operation that can be
misused. -/
@[simp] theorem lift_error_ok_iff (step : Except ε α) (result : α) :
    (liftM step : Except (Failure ε) α) = .ok result ↔ step = .ok result := by
  cases step <;> simp [liftM, monadLift, MonadLift.monadLift]

end

/-- A promise is kept exactly if it holds. -/
@[simp] theorem require_ok_iff (promise : Bool) (text : String) (u : Unit) :
    require promise text = .ok u ↔ promise = true := by
  cases promise <;> simp [require]

/-- An unspoken promise lets pass exactly what keeps it. -/
@[simp] theorem requireImplicit_ok_iff (promise : Bool) (u : Unit) :
    requireImplicit promise = .ok u ↔ promise = true := by
  cases promise <;> simp [requireImplicit]

/-- A number fits in a word exactly if it is below the limit, and is then
itself. -/
@[simp] theorem fitsWord_ok_iff (n result : Nat) :
    fitsWord n = .ok result ↔ n < wordLimit ∧ n = result := by
  unfold fitsWord
  split <;> simp [*]

end BoardEval
