import BoardEval.Number.Binary
import BoardEval.Symmetry
import BoardEval.Tensor.Layout

/-!
# Copies under a symmetry

A copy moves the live window of a flat tensor from one layout to another. To
canonical orientation, the value at a cell goes to the cell that the symmetry
maps it to; from canonical orientation, it comes from there. Both are lists of
moves, each from a source position to a destination position, and no other
destination is written.

Before anything is written the two layouts must have one extent and each
tensor must reach the last corner of its window. Under these two promises no
move leaves its tensor, so moves are made without further checks.
-/

namespace BoardEval

/-- A flat tensor. -/
abbrev Tensor := Array Number.Single

namespace Tensor

/-- The value at a position; zero outside, where no move reads. -/
def valueAt (t : Tensor) (i : Nat) : Number.Single := t.getD i .zero

/-- A tensor of `n` zeros. -/
def zeros (n : Nat) : Tensor := Array.replicate n .zero

/-- Replace the values from position `start` on; a fault if they reach beyond the
end. -/
def splice (t : Tensor) (start : Nat) (values : Tensor) : Except Fault Tensor :=
  if start + values.size ≤ t.size then
    .ok (t.extract 0 start ++ values ++ t.extract (start + values.size) t.size)
  else .error .implicit

/-- Make writes in order, each a position and a value; what would fall behind the
end is not written. -/
def write (t : Tensor) (writes : List (Nat × Number.Single)) : Tensor :=
  writes.foldl (fun out w => out.setIfInBounds w.1 w.2) t

/-- Write `values` from position `start` on. -/
def overwrite (t : Tensor) (start : Nat) (values : Tensor) : Tensor :=
  t.write ((List.range values.size).map fun i => (start + i, values.valueAt i))

/-- Make moves in order, each a source position and a destination position. -/
def move (src : Tensor) (moves : List (Nat × Nat)) (dst : Tensor) : Tensor :=
  dst.write (moves.map fun m => (m.2, src.valueAt m.1))

/-- The promises of a copy. -/
def checkCopy (src : Tensor) (srcLayout : Layout) (dst : Tensor) (dstLayout : Layout)
    (channels : Nat) : Except Fault Unit := do
  require (srcLayout.extent = dstLayout.extent) "symmetry copy between different board extents"
  let needed ← srcLayout.requiredInWord channels
  require (decide (needed ≤ src.size))
    ("source tensor too small: " ++ toString src.size ++ " < " ++ toString needed)
  let needed ← dstLayout.requiredInWord channels
  require (decide (needed ≤ dst.size))
    ("destination tensor too small: " ++ toString dst.size ++ " < " ++ toString needed)

/-- Moves from request orientation to canonical orientation. -/
def movesToCanonical (srcLayout dstLayout : Layout) (channels : Nat) (s : Symmetry) :
    List (Nat × Nat) :=
  (srcLayout.places channels).map fun (c, y, x) =>
    let (row, column) := s.cell srcLayout.extent y x
    (srcLayout.index c y x, dstLayout.index c row column)

/-- Moves from canonical orientation to request orientation. -/
def movesFromCanonical (srcLayout dstLayout : Layout) (channels : Nat) (s : Symmetry) :
    List (Nat × Nat) :=
  (srcLayout.places channels).map fun (c, y, x) =>
    let (row, column) := s.cell srcLayout.extent y x
    (srcLayout.index c row column, dstLayout.index c y x)

/-- Copy the window of `src` into `dst`, turned to canonical orientation. -/
def copyToCanonical (src : Tensor) (srcLayout : Layout) (dst : Tensor) (dstLayout : Layout)
    (channels : Nat) (s : Symmetry) : Except Fault Tensor := do
  checkCopy src srcLayout dst dstLayout channels
  return move src (movesToCanonical srcLayout dstLayout channels s) dst

/-- Copy the window of `src` into `dst`, turned back to request orientation. -/
def copyFromCanonical (src : Tensor) (srcLayout : Layout) (dst : Tensor) (dstLayout : Layout)
    (channels : Nat) (s : Symmetry) : Except Fault Tensor := do
  checkCopy src srcLayout dst dstLayout channels
  return move src (movesFromCanonical srcLayout dstLayout channels s) dst

/-- Turn dense inputs, in either channel order, to a dense channel-first tensor
in canonical orientation. -/
def copyInputs (src dst : Tensor) (extent : Extent) (channels : Nat) (channelLast : Bool)
    (s : Symmetry) : Except Fault Tensor := do
  let srcLayout ← (Layout.dense extent channels channelLast).inWord
  let dstLayout ← (Layout.channelFirst extent).inWord
  copyToCanonical src srcLayout dst dstLayout channels s

/-- Turn one dense canonical plane back to request orientation. -/
def copyOutputs (src dst : Tensor) (extent : Extent) (s : Symmetry) : Except Fault Tensor := do
  let layout ← (Layout.channelFirst extent).inWord
  copyFromCanonical src layout dst layout 1 s

end Tensor

end BoardEval
