import BoardEval.Tensor.Copy

/-!
# Shaped tensors

A shaped tensor is a flat tensor together with the lengths of its axes, of which
there is a fixed number, its rank. Values are in row-major order, and there are
exactly as many of them as the lengths say; the type carries that promise, so a
flat tensor can be given a shape only if it has the right size.
-/

namespace BoardEval

/-- The number of values of a tensor whose axes have the given lengths. -/
def volume (axes : List Nat) : Nat := axes.foldr (fun length rest => length * rest) 1

/-- Values in row-major order and the lengths of their axes. -/
structure ShapedTensor (rank : Nat) where
  shape : Vector Nat rank
  values : Tensor
  size_eq : values.size = volume shape.toList
  deriving DecidableEq

namespace ShapedTensor

variable {rank : Nat}

/-- A flat tensor under a shape; a fault if the shape has another number of
values. -/
def reshape (shape : Vector Nat rank) (values : Tensor) : Except Fault (ShapedTensor rank) :=
  if size_eq : values.size = volume shape.toList then .ok ⟨shape, values, size_eq⟩
  else .error .implicit

/-- The tensor whose values are a function of their positions. -/
def ofFlat (shape : Vector Nat rank) (f : Nat → Number.Single) : ShapedTensor rank where
  shape := shape
  values := Array.ofFn fun i : Fin (volume shape.toList) => f i
  size_eq := Array.size_ofFn

/-- A table whose values are a function of row and column. -/
def table (rows columns : Nat) (f : Nat → Nat → Number.Single) : ShapedTensor 2 :=
  ofFlat #v[rows, columns] fun i => f (i / columns) (i % columns)

/-- Planes, `channels` in every row, whose values are a function of the row, the
channel and the position in the plane. -/
def planes (rows channels height width : Nat) (f : Nat → Nat → Nat → Number.Single) :
    ShapedTensor 4 :=
  let cells := height * width
  ofFlat #v[rows, channels, height, width] fun i =>
    f (i / (channels * cells)) (i / cells % channels) (i % cells)

/-- Reshaping returns the tensor of that shape with those values, if there is one. -/
theorem reshape_eq_ok_iff (shape : Vector Nat rank) (values : Tensor) (t : ShapedTensor rank) :
    reshape shape values = .ok t ↔ t.shape = shape ∧ t.values = values := by
  unfold reshape
  split
  · constructor
    · rintro ⟨⟩
      exact ⟨rfl, rfl⟩
    · rintro ⟨rfl, rfl⟩
      rfl
  · rename_i differs
    constructor
    · rintro ⟨⟩
    · rintro ⟨rfl, rfl⟩
      exact absurd t.size_eq differs

end ShapedTensor

end BoardEval
