import BoardEval.Fault

/-!
# Board extents

An extent is the size of a rectangular board. Networks are compiled for one
fixed square; a smaller board lives in its top-left corner, so every size that
a board or a plane can have is an extent, and fitting into another extent is
the basic relation between them.
-/

namespace BoardEval

/-- Cells per row and rows per board. -/
structure Extent where
  width : Nat
  height : Nat
  deriving DecidableEq, Repr

namespace Extent

/-- The longest side that networks are compiled for. -/
def longestSide : Nat := 19

/-- The shortest side a playable board may have. -/
def shortestSide : Nat := 2

/-- The square board with this side. -/
def square (side : Nat) : Extent := ⟨side, side⟩

/-- The extent that every network is compiled for. -/
def compiled : Extent := square longestSide

/-- An unspecified extent is the compiled one. -/
instance : Inhabited Extent := ⟨compiled⟩

/-- Number of cells. -/
def cells (e : Extent) : Nat := e.width * e.height

/-- Number of cells, provided that it fits in a machine word. -/
def cellsInWord (e : Extent) : Except Fault Nat := fitsWord e.cells

/-- On a square board the symmetries that swap rows and columns are possible. -/
def isSquare (e : Extent) : Bool := e.width == e.height

/-- Both sides are at most those of `plane`. -/
def fitsWithin (e plane : Extent) : Bool :=
  decide (e.width ≤ plane.width) && decide (e.height ≤ plane.height)

/-- A side between the shortest and the longest one. -/
def sideAllowed (side : Nat) : Bool :=
  decide (shortestSide ≤ side) && decide (side ≤ longestSide)

/-- Both sides are allowed. -/
def isPlayable (e : Extent) : Bool := sideAllowed e.width && sideAllowed e.height

/-- Whether the cell in row `y` and column `x` lies on the board. -/
def contains (e : Extent) (y x : Nat) : Bool := decide (y < e.height) && decide (x < e.width)

/-- The cells as (row, column), row by row. -/
def positions (e : Extent) : List (Nat × Nat) :=
  if e.width = 0 then [] else
    (List.range e.height).flatMap fun y => (List.range e.width).map fun x => (y, x)

/-- Width, a cross, height. -/
def text (e : Extent) : String := toString e.width ++ "x" ++ toString e.height

end Extent

end BoardEval
