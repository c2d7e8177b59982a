import BoardEval.Engine.Network
import BoardEval.Proofs.GuardedBatches

/-!
# Slices of a pool in use

A pool is handed out to callers, who may put what they please into its input rows, its blended
rows and, through the slices of a batch, its output rows. Such a pool need not have zeros in
its padding, so it need not be sound. What no write changes is the size of a tensor, and the
slices of a batch have the sizes of their rows for that reason alone.

A network is therefore always shown its inputs under the two shapes that it takes.
-/

namespace BoardEval

namespace Pool

/-- The pools that can be met when callers write what they please: one that was created, for
any valid descriptor, capacity and extents, and what writes to any of its rows make of it. -/
inductive InUse : Pool → Prop where
  | created {p : Pool} (d : Descriptor) (capacity : Nat) (board plane : Extent)
      (made : create d capacity board plane = .ok p) : p.InUse
  | shown {p : Pool} (used : p.InUse) (r : Nat) (spatial globals : Tensor) :
      (p.setInputRow r spatial globals).InUse
  | answered {p : Pool} (used : p.InUse) (n : Nat) (out : BatchOutputs) : (p.store n out).InUse
  | blended {p : Pool} (used : p.InUse) (r : Nat) (plane : Tensor) : (p.setBlendedRow r plane).InUse

/-- The tensors of the slices have the sizes that the shape asks for, and these fit in
memory. -/
structure Sized (p : Pool) : Prop where
  fit : p.shape.Fit
  memory : p.shape.InMemory p.capacity
  spatial : p.spatial.Holds p.capacity p.shape.spatialWidth
  globals : p.globals.Holds p.capacity p.shape.globals
  policy : p.policy.Holds p.capacity p.shape.policyWidth
  pass : p.pass.Holds p.capacity p.shape.policy
  value : p.value.Holds p.capacity valueSlots
  ownership : p.ownership.Holds p.capacity p.shape.ownershipWidth
  score : p.score.Holds p.capacity scoreSlots

variable {p : Pool}

/-- Pools in use are sized. The induction is on what was written: a created pool is sized, and
a write keeps the size of the tensor that it writes to. -/
theorem InUse.sized (used : p.InUse) : p.Sized := by
  induction used with
  | created d capacity board plane made =>
    obtain ⟨sound, _⟩ := create_sound d capacity board plane _ made
    exact { sound with memory := create_inMemory d capacity board plane _ made }
  | shown _ r spatial globals sized =>
    exact { sized with
      spatial := Rows.setRow_holds sized.spatial r spatial
      globals := Rows.setRow_holds sized.globals r globals }
  | answered _ n out sized =>
    exact { sized with
      policy := Rows.setFirstRows_holds sized.policy n out.policy
      pass := Rows.setFirstRows_holds sized.pass n out.pass
      value := Rows.setFirstRows_holds sized.value n out.value
      ownership := Rows.setFirstRows_holds sized.ownership n out.ownership
      score := Rows.setFirstRows_holds sized.score n out.score }
  | blended _ _ _ sized => exact { sized with }

/-- A plane holds a playable board, so it has rows and columns. -/
theorem Sized.plane (sized : p.Sized) : 0 < p.shape.plane.height ∧ 0 < p.shape.plane.width := by
  obtain ⟨rows, cells, _⟩ := Extent.playable_cells sized.memory.board
  have columns : 0 < p.shape.board.width := Nat.pos_of_mul_pos_right cells
  have fits := sized.fit.board
  simp only [Extent.fitsWithin, Bool.and_eq_true, decide_eq_true_eq] at fits
  omega

/-- What it means that a batch was handed out. -/
theorem batch_ok_iff {n : Nat} {inputs : BatchInputs} {slots : BatchOutputs} :
    p.batch n = .ok (inputs, slots) ↔
      (1 ≤ n ∧ n ≤ p.capacity) ∧ inputs = p.inputs n ∧ slots = p.outputs n := by
  simp only [batch, bind_ok_iff, requireBatch_ok_iff, pure_ok_iff, Prod.mk.injEq]
  constructor
  · rintro ⟨_, bound, rfl, rfl⟩
    exact ⟨bound, rfl, rfl⟩
  · rintro ⟨bound, rfl, rfl⟩
    exact ⟨(), bound, rfl, rfl⟩

/-- The slices of a batch are as many rows of the shape. -/
theorem Sized.slices (sized : p.Sized) {n : Nat} (bound : n ≤ p.capacity) :
    (p.inputs n).Shaped p.shape n ∧ (p.outputs n).Shaped p.shape n :=
  ⟨⟨rfl, rfl, rfl, Rows.size_firstRows sized.spatial bound,
    Rows.size_firstRows sized.globals bound⟩,
  ⟨rfl, rfl, rfl, Rows.size_firstRows sized.policy bound, Rows.size_firstRows sized.pass bound,
    Rows.size_firstRows sized.value bound, Rows.size_firstRows sized.ownership bound,
    Rows.size_firstRows sized.score bound⟩⟩

end Pool

namespace Network

/-- Rounding keeps the number of values. -/
@[simp] theorem size_rounded (half : Bool) (t : Tensor) : (rounded half t).size = t.size := by
  cases half <;> simp [rounded]

/-- In single precision nothing is rounded. -/
@[simp] theorem rounded_single (t : Tensor) : rounded false t = t := rfl

/-- The inputs of `n` rows of a pool, under the shapes that a network takes. -/
structure Shown (s : PoolShape) (n : Nat) (half : Bool) (inputs : BatchInputs)
    (spatial : ShapedTensor 4) (globals : ShapedTensor 2) : Prop where
  spatialShape : spatial.shape = #v[n, s.spatial, s.plane.height, s.plane.width]
  spatialValues : spatial.values = rounded half inputs.spatial
  globalShape : globals.shape = #v[n, s.globals]
  globalValues : globals.values = rounded half inputs.globals

/-- Inputs of the shape of a pool can be shown to a network, whose heads are those that it
makes of them. -/
theorem heads_shown (net : Network) (half : Bool) {inputs : BatchInputs} {s : PoolShape} {n : Nat}
    (shaped : inputs.Shaped s n) :
    ∃ spatial globals, Shown s n half inputs spatial globals ∧
      net.heads half inputs n = net.forward spatial globals := by
  obtain ⟨spatialValues, globalValues, _, _, _⟩ := inputs
  obtain ⟨rfl, rfl, rfl, spatialSize, globalSize⟩ := shaped
  have spatialFits : (rounded half spatialValues).size =
      volume #v[n, s.spatial, s.plane.height, s.plane.width].toList := by
    rw [size_rounded, spatialSize]
    simp [volume, PoolShape.spatialWidth, Extent.cells, Nat.mul_comm s.plane.width]
  have globalFits : (rounded half globalValues).size = volume #v[n, s.globals].toList := by
    rw [size_rounded, globalSize]
    simp [volume]
  refine ⟨⟨_, _, spatialFits⟩, ⟨_, _, globalFits⟩, ⟨rfl, rfl, rfl, rfl⟩, ?_⟩
  simp only [heads, ShapedTensor.reshape, dif_pos spatialFits, dif_pos globalFits, ok_bind]

end Network

end BoardEval
