import BoardEval.Engine.Host
import BoardEval.Proofs.Pools

/-!
# Forward passes

Two ways in which a forward pass can be regular, for batches of at most a given
number of rows. It computes a function if what it answers depends on what it is
shown alone, and not on what its output slices held. It is row-wise if row `i` of
every head is one function of row `i` of the inputs, whatever `i`, the number of
rows and the other rows are. A row-wise pass may still fail for a whole batch.

A function of rows makes a row-wise pass that never fails, by putting the rows of
its answers side by side.
-/

namespace BoardEval

/-- Every head has the width that the shape gives it. -/
structure HeadRow.Shaped (row : HeadRow) (s : PoolShape) : Prop where
  policy : row.policy.size = s.policyWidth
  pass : row.pass.size = s.policy
  value : row.value.size = valueSlots
  ownership : row.ownership.size = s.ownershipWidth
  score : row.score.size = scoreSlots

/-- What a row-wise network makes of one spatial and one global row. -/
abbrev RowNet := Tensor → Tensor → HeadRow

namespace Tensor

/-- The first `n` rows of a family side by side. -/
def joined (rows : Nat → Tensor) : Nat → Tensor
  | 0 => #[]
  | n + 1 => joined rows n ++ rows n

/-- Rows of one width, side by side, take up their number times the width. -/
theorem size_joined {rows : Nat → Tensor} {width : Nat} (n : Nat)
    (full : ∀ i < n, (rows i).size = width) : (joined rows n).size = n * width := by
  induction n with
  | zero => simp [joined]
  | succ n inductionHypothesis =>
    rw [joined, Array.size_append, inductionHypothesis fun i earlier => full i (by omega),
      full n (Nat.lt_succ_self n), Nat.add_mul, Nat.one_mul]

/-- Reading a row of rows that stand side by side gives the row. -/
theorem rowAt_joined {rows : Nat → Tensor} {width n i : Nat}
    (full : ∀ i < n, (rows i).size = width) (inside : i < n) :
    (joined rows n).rowAt width i = rows i := by
  have bound := row_bound width inside
  have rowSize := size_row (joined rows n) width i (size_joined n full ▸ bound)
  apply ext_values _ _ (rowSize.trans (full i inside).symm)
  intro k place
  rw [rowSize] at place
  rw [value_row _ _ _ _ place]
  -- The row lies in the front part until it is the last one.
  induction n with
  | zero => omega
  | succ n inductionHypothesis =>
    have front : ∀ i < n, (rows i).size = width := fun i earlier => full i (by omega)
    rw [joined, value_append, size_joined n front]
    rcases Nat.lt_succ_iff_lt_or_eq.mp inside with earlier | rfl
    · have last := row_bound width earlier
      have earlierSize := size_row (joined rows n) width i (size_joined n front ▸ last)
      have within : i * width + k < n * width := by
        rw [Nat.add_mul, Nat.one_mul] at last
        omega
      rw [if_pos within]
      exact inductionHypothesis front earlier last earlierSize
    · rw [if_neg (by omega), Nat.add_sub_cancel_left]

/-- Rows that are appended one after the other stand side by side. -/
theorem foldl_append_eq_joined (rows : Nat → Tensor) (n : Nat) :
    (List.range n).foldl (fun out r => out ++ rows r) #[] = joined rows n := by
  induction n with
  | zero => rfl
  | succ n inductionHypothesis =>
    rw [List.range_succ, List.foldl_append, inductionHypothesis]
    rfl

end Tensor

namespace RowNet

/-- The heads of a batch whose rows a network evaluates one by one. -/
def answer (net : RowNet) (s : PoolShape) (inputs : BatchInputs) (n : Nat) : BatchOutputs :=
  let rows i := net (inputs.spatialRow i) (inputs.globalRow i)
  { policy := Tensor.joined (fun i => (rows i).policy) n
    pass := Tensor.joined (fun i => (rows i).pass) n
    value := Tensor.joined (fun i => (rows i).value) n
    ownership := Tensor.joined (fun i => (rows i).ownership) n
    score := Tensor.joined (fun i => (rows i).score) n
    policyChannels := s.policy
    ownershipChannels := s.ownership
    plane := s.plane }

/-- The network answers every row in the widths of the shape. -/
def Fills (net : RowNet) (s : PoolShape) : Prop := ∀ spatial globals, (net spatial globals).Shaped s

/-- A network that repeats the first globals as win, loss and no result. -/
def echo (s : PoolShape) : RowNet := fun _ globals =>
  { policy := .zeros s.policyWidth
    pass := .zeros s.policy
    value := #[globals.valueAt 0, globals.valueAt 1, globals.valueAt 2]
    ownership := .zeros s.ownershipWidth
    score := .zeros scoreSlots }

/-- The echo returns heads of the right widths. -/
theorem echo_fills (s : PoolShape) : (echo s).Fills s :=
  fun _ _ => ⟨Tensor.size_zeros _, Tensor.size_zeros _, rfl, Tensor.size_zeros _,
    Tensor.size_zeros _⟩

variable {net : RowNet} {s : PoolShape}

/-- Rows of the right widths, side by side, fill the output tensors of a batch. -/
theorem answer_shaped (full : net.Fills s) (inputs : BatchInputs) (n : Nat) :
    (net.answer s inputs n).Shaped s n := by
  have fullRow (i : Nat) := full (inputs.spatialRow i) (inputs.globalRow i)
  exact ⟨rfl, rfl, rfl, Tensor.size_joined n fun i _ => (fullRow i).policy,
    Tensor.size_joined n fun i _ => (fullRow i).pass,
    Tensor.size_joined n fun i _ => (fullRow i).value,
    Tensor.size_joined n fun i _ => (fullRow i).ownership,
    Tensor.size_joined n fun i _ => (fullRow i).score⟩

/-- Row `i` of the heads is what the network makes of row `i`. -/
theorem answer_row (full : net.Fills s) (inputs : BatchInputs) {n i : Nat} (inside : i < n) :
    (net.answer s inputs n).row i = net (inputs.spatialRow i) (inputs.globalRow i) := by
  have fullRow (i : Nat) := full (inputs.spatialRow i) (inputs.globalRow i)
  have policy := Tensor.rowAt_joined (fun i _ => (fullRow i).policy) inside
  have pass := Tensor.rowAt_joined (fun i _ => (fullRow i).pass) inside
  have value := Tensor.rowAt_joined (fun i _ => (fullRow i).value) inside
  have ownership := Tensor.rowAt_joined (fun i _ => (fullRow i).ownership) inside
  have score := Tensor.rowAt_joined (fun i _ => (fullRow i).score) inside
  rw [PoolShape.policyWidth] at policy
  rw [PoolShape.ownershipWidth] at ownership
  simp only [BatchOutputs.row, answer, policy, pass, value, ownership, score]

end RowNet

namespace Forward

/-- The pass computes `f`: where `f` answers, it fills its output slices with the
answer, and where `f` refuses, it fails likewise. -/
structure Computes (run : Forward) (s : PoolShape) (limit : Nat)
    (f : BatchInputs → Nat → Except (Failure EngineError) BatchOutputs) : Prop where
  answers : ∀ inputs slots n heads, 1 ≤ n → n ≤ limit → inputs.Shaped s n → slots.Shaped s n →
    f inputs n = .ok heads → heads.Shaped s n ∧ run inputs slots n = .ok heads
  refuses : ∀ inputs slots n failure, 1 ≤ n → n ≤ limit → inputs.Shaped s n → slots.Shaped s n →
    f inputs n = .error failure → (run inputs slots n).result = .error failure

/-- The pass is row-wise: if it succeeds, it answers every row with what the network
makes of that row. -/
structure RowWise (run : Forward) (s : PoolShape) (limit : Nat) (net : RowNet) : Prop where
  rows : ∀ inputs slots n, 1 ≤ n → n ≤ limit → inputs.Shaped s n → slots.Shaped s n →
    (run inputs slots n).result = .ok () → (run inputs slots n).outputs.Shaped s n ∧
      ∀ i < n, (run inputs slots n).outputs.row i = net (inputs.spatialRow i) (inputs.globalRow i)

/-- The pass never fails. -/
def Succeeds (run : Forward) (s : PoolShape) (limit : Nat) : Prop :=
  ∀ inputs slots n, 1 ≤ n → n ≤ limit → inputs.Shaped s n → slots.Shaped s n →
    (run inputs slots n).result = .ok ()

/-- The pass may fail, but it breaks no promise of its own. -/
def Faultless (run : Forward) (s : PoolShape) (limit : Nat) : Prop :=
  ∀ inputs slots n broken, 1 ≤ n → n ≤ limit → inputs.Shaped s n → slots.Shaped s n →
    (run inputs slots n).result ≠ .error (.fault broken)

/-- The pass that evaluates row by row and never fails. -/
def ofRows (s : PoolShape) (net : RowNet) : Forward := fun inputs _ n => .ok (net.answer s inputs n)

/-- A pass made of rows never fails. -/
theorem ofRows_succeeds (s : PoolShape) (net : RowNet) (limit : Nat) :
    (ofRows s net).Succeeds s limit :=
  fun _ _ _ _ _ _ _ => rfl

/-- A pass made of rows looks at one row at a time. -/
theorem ofRows_rowWise {s : PoolShape} {net : RowNet} (full : net.Fills s) (limit : Nat) :
    (ofRows s net).RowWise s limit net where
  rows inputs _ n _ _ _ _ _ :=
    ⟨RowNet.answer_shaped full inputs n, fun _ inside => RowNet.answer_row full inputs inside⟩

/-- A pass made of rows is a function of the rows that it is shown; what the output
slots held before does not matter. -/
theorem ofRows_computes {s : PoolShape} {net : RowNet} (full : net.Fills s) (limit : Nat) :
    (ofRows s net).Computes s limit fun inputs n => .ok (net.answer s inputs n) where
  answers inputs _ n heads _ _ _ _ answered := by
    obtain rfl := Except.ok.inj answered
    exact ⟨RowNet.answer_shaped full inputs n, rfl⟩
  refuses _ _ _ _ _ _ _ _ refused := nomatch refused

/-- A pass that always fails for one cause computes that failure. -/
theorem fail_computes (cause : EngineError) (s : PoolShape) (limit : Nat) :
    Computes (fun _ slots _ => .fail slots cause) s limit fun _ _ => .error (.error cause) where
  answers _ _ _ _ _ _ _ _ answered := nomatch answered
  refuses _ _ _ failure _ _ _ _ refused := by
    obtain rfl := Except.error.inj refused
    rfl

/-- Two passes do the same on all batches up to a limit. -/
def Agrees (run other : Forward) (limit : Nat) : Prop :=
  ∀ inputs slots n, n ≤ limit → run inputs slots n = other inputs slots n

section

variable {run other : Forward} {s : PoolShape} {limit : Nat}

/-- Being a function of the inputs is a property of runs within capacity, so passes
that agree there share it. -/
theorem Agrees.computes (agrees : run.Agrees other limit)
    {f : BatchInputs → Nat → Except (Failure EngineError) BatchOutputs}
    (computes : other.Computes s limit f) : run.Computes s limit f where
  answers inputs slots n heads positive bound := by
    rw [agrees inputs slots n bound]
    exact computes.answers inputs slots n heads positive bound
  refuses inputs slots n failure positive bound := by
    rw [agrees inputs slots n bound]
    exact computes.refuses inputs slots n failure positive bound

/-- Looking at one row at a time is shared by passes that agree within capacity. -/
theorem Agrees.rowWise (agrees : run.Agrees other limit) {net : RowNet}
    (rowWise : other.RowWise s limit net) : run.RowWise s limit net where
  rows inputs slots n positive bound := by
    rw [agrees inputs slots n bound]
    exact rowWise.rows inputs slots n positive bound

/-- Never failing within capacity is shared by passes that agree there. -/
theorem Agrees.succeeds (agrees : run.Agrees other limit) (succeeds : other.Succeeds s limit) :
    run.Succeeds s limit := by
  intro inputs slots n positive bound
  rw [agrees inputs slots n bound]
  exact succeeds inputs slots n positive bound

end

end Forward

/-- A host engine that is ready to run a function. -/
def HostEngine.running (forward : Forward) : HostEngine :=
  { HostEngine.new .accelerated forward with context := some .default }

/-- A host engine with a context runs its own function for a model whose slot it finds, up to
the number of rows that the model was loaded for. -/
theorem HostEngine.forward_agrees_found (engine : HostEngine) (model : LoadedModel)
    (ready : engine.context.isSome = true)
    (found : ∀ slot, model.slot = some slot → engine.slots.contains slot = true) :
    Forward.Agrees (Engine.runBatch engine model) engine.forward model.config.maxBatchSize := by
  intro inputs slots n bound
  obtain ⟨config, present⟩ := Option.isSome_iff_exists.mp ready
  have nothing : model.slot.filter (fun slot => !engine.slots.contains slot) = none := by
    rw [Option.filter_eq_none_iff]
    intro slot here
    simp [found slot here]
  simp [Engine.runBatch, runBatch, present, nothing, Nat.not_lt.mpr bound]

/-- In particular it does for a model without slot. -/
theorem HostEngine.forward_agrees (engine : HostEngine) (model : LoadedModel)
    (ready : engine.context.isSome = true) (unslotted : model.slot = none) :
    Forward.Agrees (Engine.runBatch engine model) engine.forward model.config.maxBatchSize :=
  engine.forward_agrees_found model ready fun _ here => nomatch unslotted.symm.trans here

end BoardEval
