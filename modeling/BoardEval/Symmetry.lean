import BoardEval.Extent

/-!
# Board symmetries

A symmetry flips the rows, flips the columns and then transposes, each or not.
On a board that is not square there is no transpose, and a symmetry that has
one acts without it. Requests see the board in their own orientation and
networks in the canonical one; a symmetry maps cells of the first to cells of
the second.
-/

namespace BoardEval

/-- One of the eight symmetries of a square board. -/
structure Symmetry where
  flipsY : Bool
  flipsX : Bool
  transposes : Bool
  deriving DecidableEq, Repr

namespace Symmetry

/-- The symmetry that leaves every cell where it is. -/
def identity : Symmetry := ⟨false, false, false⟩

/-- An unspecified symmetry is the identity. -/
instance : Inhabited Symmetry := ⟨identity⟩

/-- Codes count flips of rows once, flips of columns twice and the transpose
four times. -/
def code (s : Symmetry) : Nat := s.flipsY.toNat + 2 * s.flipsX.toNat + 4 * s.transposes.toNat

/-- The symmetry with the given code, if it is below eight. -/
def ofCode? (code : Nat) : Option Symmetry :=
  if code < 8 then some ⟨code % 2 == 1, code / 2 % 2 == 1, code / 4 == 1⟩ else none

/-- What is said about a code that has no symmetry. -/
def codeMessage (code : Nat) : String :=
  "symmetry code " ++ toString code ++ " out of range 0-7"

/-- All symmetries, by code. -/
def all : List Symmetry := (List.range 8).filterMap ofCode?

/-- The symmetry as it acts on a board: the transpose needs a square. -/
def effective (s : Symmetry) (e : Extent) : Symmetry :=
  { s with transposes := s.transposes && e.isSquare }

/-- Undoing flips and then a transpose is a transpose and then the flips, which
trades the two flips. -/
def inverse (s : Symmetry) : Symmetry :=
  if s.transposes then ⟨s.flipsX, s.flipsY, true⟩ else s

/-- The canonical cell of the cell in row `y` and column `x`; the result means
something for cells of the board. -/
def cell (s : Symmetry) (e : Extent) (y x : Nat) : Nat × Nat :=
  let row := if s.flipsY then e.height - 1 - y else y
  let column := if s.flipsX then e.width - 1 - x else x
  if s.transposes && e.isSquare then (column, row) else (row, column)

/-- The canonical cell, where a flip needs a row or column that it can flip. -/
def cellChecked (s : Symmetry) (e : Extent) (y x : Nat) : Except Fault (Nat × Nat) :=
  if (s.flipsY && decide (e.height ≤ y)) || (s.flipsX && decide (e.width ≤ x)) then
    .error .implicit
  else .ok (s.cell e y x)

/-- Reading a code back gives the symmetry. -/
theorem ofCode?_code (s : Symmetry) : ofCode? s.code = some s := by
  rcases s with ⟨_ | _, _ | _, _ | _⟩ <;> rfl

/-- A second inversion undoes the first. -/
theorem inverse_inverse (s : Symmetry) : s.inverse.inverse = s := by
  rcases s with ⟨_ | _, _ | _, _ | _⟩ <;> rfl

end Symmetry

end BoardEval
