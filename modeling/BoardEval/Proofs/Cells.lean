import BoardEval.Symmetry

/-!
# Cells under a symmetry

A symmetry permutes the cells of every board, square or not: it maps the board
into itself, and each canonical cell comes from exactly one cell. The inverse map
is given by name, `source`; it undoes the transpose first and then the flips.
-/

namespace BoardEval

namespace Extent

/-- The listed cells are those of the board. -/
theorem mem_positions (e : Extent) (y x : Nat) :
    (y, x) ∈ e.positions ↔ y < e.height ∧ x < e.width := by
  unfold positions
  split
  · rename_i empty
    simp [empty]
  · simp [List.mem_flatMap]

/-- A cell is on the board if both coordinates are below its lengths. -/
theorem contains_iff (e : Extent) (y x : Nat) :
    e.contains y x = true ↔ y < e.height ∧ x < e.width := by
  simp [contains]

end Extent

namespace Symmetry

/-- Whether the symmetry trades rows and columns on a board. -/
def turns (s : Symmetry) (e : Extent) : Bool := s.transposes && e.isSquare

/-- Rows and columns are traded on square boards only. -/
theorem turns_square (s : Symmetry) (e : Extent) (turned : s.turns e = true) :
    e.width = e.height := by
  simp only [turns, Extent.isSquare, Bool.and_eq_true, beq_iff_eq] at turned
  exact turned.2

/-- The cell that a symmetry takes to a canonical cell. -/
def source (s : Symmetry) (e : Extent) (row column : Nat) : Nat × Nat :=
  let (y, x) := if s.turns e then (column, row) else (row, column)
  (if s.flipsY then e.height - 1 - y else y, if s.flipsX then e.width - 1 - x else x)

/-- A symmetry does not leave the board. -/
theorem cell_inside (s : Symmetry) (e : Extent) (y x : Nat) (rows : y < e.height)
    (columns : x < e.width) :
    (s.cell e y x).1 < e.height ∧ (s.cell e y x).2 < e.width := by
  have flippedRow : (if s.flipsY then e.height - 1 - y else y) < e.height := by split <;> omega
  have flippedColumn : (if s.flipsX then e.width - 1 - x else x) < e.width := by split <;> omega
  by_cases turned : s.turns e = true
  · have square := s.turns_square e turned
    simp only [cell, turns] at turned ⊢
    simp only [turned, if_true]
    omega
  · simp only [cell, turns] at turned ⊢
    simp only [turned, Bool.false_eq_true, if_false]
    exact ⟨flippedRow, flippedColumn⟩

/-- The source of a canonical cell lies on the board. -/
theorem source_inside (s : Symmetry) (e : Extent) (row column : Nat) (rows : row < e.height)
    (columns : column < e.width) :
    (s.source e row column).1 < e.height ∧ (s.source e row column).2 < e.width := by
  by_cases turned : s.turns e = true
  · have square := s.turns_square e turned
    simp only [source, turned, if_true]
    constructor <;> split <;> omega
  · simp only [source, turned, Bool.false_eq_true, if_false]
    constructor <;> split <;> omega

/-- The source of a canonical cell is taken to it. -/
theorem cell_source (s : Symmetry) (e : Extent) (row column : Nat) (rows : row < e.height)
    (columns : column < e.width) :
    s.cell e (s.source e row column).1 (s.source e row column).2 = (row, column) := by
  by_cases turned : s.turns e = true
  · have square := s.turns_square e turned
    simp only [source, turned, if_true]
    simp only [turns] at turned
    simp only [cell, turned, if_true, Prod.mk.injEq]
    constructor <;> split <;> omega
  · simp only [source, turned, Bool.false_eq_true, if_false]
    simp only [turns] at turned
    simp only [cell, turned, Bool.false_eq_true, if_false, Prod.mk.injEq]
    constructor <;> split <;> omega

/-- A cell is the source of the cell that it is taken to. -/
theorem source_cell (s : Symmetry) (e : Extent) (y x : Nat) (rows : y < e.height)
    (columns : x < e.width) :
    s.source e (s.cell e y x).1 (s.cell e y x).2 = (y, x) := by
  by_cases turned : s.turns e = true
  · have square := s.turns_square e turned
    have same := turned
    simp only [turns] at same
    simp only [cell, same, source, turned, if_true, Prod.mk.injEq]
    constructor <;> split <;> omega
  · have same := turned
    simp only [turns] at same
    simp only [cell, same, source, turned, Bool.false_eq_true, if_false, Prod.mk.injEq]
    constructor <;> split <;> omega

/-- Different cells are taken to different cells. -/
theorem cell_injective (s : Symmetry) (e : Extent) {y x y' x' : Nat} (rows : y < e.height)
    (columns : x < e.width) (rows' : y' < e.height) (columns' : x' < e.width)
    (same : s.cell e y x = s.cell e y' x') : y = y' ∧ x = x' := by
  have left := s.source_cell e y x rows columns
  have right := s.source_cell e y' x' rows' columns'
  rw [same, right] at left
  exact ⟨(Prod.mk.inj left).1.symm, (Prod.mk.inj left).2.symm⟩

end Symmetry

end BoardEval
