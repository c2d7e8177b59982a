import BoardEval.Tensor.Copy

/-!
# Tensors of rows

A batch keeps one flat tensor per kind of data and gives each request one row
of it. All rows of a tensor have one width, so row `r` starts at `r * width`,
rows do not overlap, and the rows below `n` are the first `n * width` values.
-/

namespace BoardEval

/-- A flat tensor that is cut into rows of one width. -/
structure Rows where
  width : Nat
  data : Tensor
  deriving DecidableEq

namespace Rows

/-- Zero rows. -/
def zeros (count width : Nat) : Rows := ⟨width, Tensor.zeros (count * width)⟩

/-- Row `r`; a fault if the tensor ends before the row does. -/
def row (t : Rows) (r : Nat) : Except Fault Tensor :=
  if (r + 1) * t.width ≤ t.data.size then
    .ok (t.data.extract (r * t.width) ((r + 1) * t.width))
  else .error .implicit

/-- The rows below `n` as one flat tensor. -/
def firstRows (t : Rows) (n : Nat) : Tensor := t.data.extract 0 (n * t.width)

/-- Write `values` from position `start` on; what would fall behind the end of
the tensor is not written. -/
def overwrite (t : Rows) (start : Nat) (values : Tensor) : Rows :=
  { t with data := t.data.overwrite start values }

/-- Replace row `r`. -/
def setRow (t : Rows) (r : Nat) (values : Tensor) : Rows := t.overwrite (r * t.width) values

/-- Replace value `i` of row `r`. -/
def setCell (t : Rows) (r i : Nat) (value : Number.Single) : Except Fault Rows := do
  let row ← t.row r
  requireImplicit (decide (i < row.size))
  return t.overwrite (r * t.width + i) #[value]

/-- Replace the rows below `n` by the first values of a tensor; where it is too
short the rows keep what they hold. -/
def setFirstRows (t : Rows) (n : Nat) (values : Tensor) : Rows :=
  t.overwrite 0 (values.extract 0 (n * t.width))

end Rows

end BoardEval
