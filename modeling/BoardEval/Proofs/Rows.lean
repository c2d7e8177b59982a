import BoardEval.Proofs.Writes
import BoardEval.Tensor.Rows

/-!
# Rows of a batch tensor

A tensor that holds a number of rows of one width keeps holding them through
every update. Replacing one row changes no other row, and replacing the rows
below a bound makes exactly those rows the ones that were given.
-/

namespace BoardEval

namespace Rows

/-- The tensor consists of `count` rows of the given width. -/
structure Holds (t : Rows) (count rowWidth : Nat) : Prop where
  width : t.width = rowWidth
  size : t.data.size = count * rowWidth

/-- Row `r` as a slice, also where the tensor ends before it. -/
def slice (t : Rows) (r : Nat) : Tensor := t.data.rowAt t.width r

/-- Rows of zeros are rows of the width asked for. -/
theorem zeros_holds (count width : Nat) : (zeros count width).Holds count width :=
  ⟨rfl, by simp [zeros]⟩

variable {t : Rows} {count width : Nat}

/-- Each of the rows can be read. -/
theorem row_ok (held : t.Holds count width) {r : Nat} (bound : r < count) :
    t.row r = .ok (t.slice r) := by
  have inside : (r + 1) * t.width ≤ t.data.size := by
    rw [held.size, held.width]
    exact Tensor.row_bound width bound
  simp [row, inside, slice, Tensor.rowAt]

/-- A row that can be read is the slice of its positions. -/
theorem row_ok_iff (t : Rows) (r : Nat) (values : Tensor) :
    t.row r = .ok values ↔ (r + 1) * t.width ≤ t.data.size ∧ t.slice r = values := by
  unfold row
  split <;> simp [*, slice, Tensor.rowAt]

/-- Every row has the width. -/
theorem size_slice (held : t.Holds count width) {r : Nat} (bound : r < count) :
    (t.slice r).size = width := by
  have inside : (r + 1) * t.width ≤ t.data.size := by
    rw [held.size, held.width]
    exact Tensor.row_bound width bound
  rw [slice, Tensor.size_row _ _ _ inside, held.width]

/-- Writing anywhere leaves as many rows as there were; what would go beyond the end
is not written. -/
theorem overwrite_holds (held : t.Holds count width) (start : Nat) (values : Tensor) :
    (t.overwrite start values).Holds count width :=
  ⟨held.width, by simp [overwrite, held.size]⟩

/-- Writing a row leaves as many rows as there were. -/
theorem setRow_holds (held : t.Holds count width) (r : Nat) (values : Tensor) :
    (t.setRow r values).Holds count width := overwrite_holds held _ _

/-- Writing the first rows leaves as many rows as there were. -/
theorem setFirstRows_holds (held : t.Holds count width) (n : Nat) (values : Tensor) :
    (t.setFirstRows n values).Holds count width := overwrite_holds held _ _

/-- A replaced row reads as what it was replaced by. -/
theorem slice_setRow (held : t.Holds count width) {r : Nat} (bound : r < count) {values : Tensor}
    (full : values.size = width) : (t.setRow r values).slice r = values := by
  have rowSize := size_slice (setRow_holds held r values) bound
  apply Tensor.ext_values _ _ (rowSize.trans full.symm)
  intro i inside
  rw [rowSize] at inside
  have last := Tensor.row_bound width bound
  rw [Nat.add_mul, Nat.one_mul, ← held.size] at last
  have place : i < (t.setRow r values).width := (setRow_holds held r values).width ▸ inside
  rw [slice, Tensor.value_row _ _ _ _ place]
  simp only [setRow, overwrite, held.width]
  rw [Tensor.value_overwrite _ _ _ _ (by omega), if_pos (by omega), Nat.add_sub_cancel_left]

/-- Overwriting values in front of a row or behind it leaves the row as it was. -/
theorem slice_overwrite_apart (held : t.Holds count width) {r : Nat} (bound : r < count)
    {start : Nat} {values : Tensor}
    (apart : start + values.size ≤ r * width ∨ (r + 1) * width ≤ start) :
    (t.overwrite start values).slice r = t.slice r := by
  have kept := overwrite_holds held start values
  have rowSize := size_slice kept bound
  apply Tensor.ext_values _ _ (rowSize.trans (size_slice held bound).symm)
  intro i inside
  rw [rowSize] at inside
  have last := Tensor.row_bound width bound
  rw [← held.size] at last
  rw [Nat.add_mul, Nat.one_mul] at apart last
  rw [slice, Tensor.value_row _ _ _ _ (kept.width ▸ inside), slice,
    Tensor.value_row _ _ _ _ (held.width ▸ inside)]
  simp only [overwrite, held.width]
  rw [Tensor.value_overwrite _ _ _ _ (by omega), if_neg (by omega)]

/-- Replacing a row leaves every other row as it was. -/
theorem slice_setRow_other (held : t.Holds count width) {r other : Nat} (bound : other < count)
    {values : Tensor} (full : values.size ≤ width) (apart : other ≠ r) :
    (t.setRow r values).slice other = t.slice other := by
  apply slice_overwrite_apart held bound
  rw [held.width]
  rcases Nat.lt_or_gt_of_ne apart with before | after
  · exact .inr (Tensor.row_bound width before)
  · have next := Tensor.row_bound width after
    rw [Nat.add_mul, Nat.one_mul] at next
    exact .inl (by omega)

/-- Replacing a row by itself changes nothing. -/
theorem setRow_slice (held : t.Holds count width) {r : Nat} (bound : r < count) :
    t.setRow r (t.slice r) = t := by
  have full := size_slice held bound
  generalize read : t.slice r = values at full ⊢
  have kept := setRow_holds held r values
  have data : (t.setRow r values).data = t.data := by
    apply Tensor.ext_rows _ _ count width kept.size held.size
    intro other inside
    have same : (t.setRow r values).slice other = t.slice other := by
      by_cases here : other = r
      · rw [here, slice_setRow held bound full, read]
      · exact slice_setRow_other held inside (Nat.le_of_eq full) here
    simpa only [slice, kept.width, held.width] using same
  simp only [setRow, overwrite] at data ⊢
  rw [data]

/-- The first rows as one tensor hold that many rows. -/
theorem size_firstRows (held : t.Holds count width) {n : Nat} (bound : n ≤ count) :
    (t.firstRows n).size = n * width := by
  have inside := Nat.mul_le_mul_right width bound
  simp only [firstRows, Array.size_extract, held.size, held.width]
  omega

/-- Reading a row of the first rows reads the row itself. -/
theorem rowAt_firstRows (held : t.Holds count width) {n r : Nat} (bound : n ≤ count)
    (inside : r < n) : (t.firstRows n).rowAt width r = t.slice r := by
  have last := Tensor.row_bound width inside
  have fits : (r + 1) * width ≤ (t.firstRows n).size := by
    rw [size_firstRows held bound]
    exact last
  have rowSize := Tensor.size_row _ width r fits
  apply Tensor.ext_values _ _ (rowSize.trans (size_slice held (by omega)).symm)
  intro i place
  rw [rowSize] at place
  rw [Nat.add_mul, Nat.one_mul] at last
  rw [Tensor.value_row _ _ _ _ place, slice, Tensor.value_row _ _ _ _ (held.width ▸ place),
    firstRows, Tensor.value_extract _ _ _ _ (by rw [held.width]; omega), Nat.zero_add, held.width]

/-- Rows that were replaced together read as the rows that were given. -/
theorem slice_setFirstRows (held : t.Holds count width) {n r : Nat} (bound : n ≤ count)
    (inside : r < n) {values : Tensor} (full : values.size = n * width) :
    (t.setFirstRows n values).slice r = values.rowAt width r := by
  have last := Tensor.row_bound width inside
  have room := Nat.mul_le_mul_right width bound
  have rowSize := size_slice (setFirstRows_holds held n values) (show r < count by omega)
  apply Tensor.ext_values _ _ (rowSize.trans (Tensor.size_row _ width r (full ▸ last)).symm)
  intro i place
  rw [rowSize] at place
  rw [Nat.add_mul, Nat.one_mul] at last
  have given : (values.extract 0 (n * t.width)).size = n * width := by
    simp [held.width, full]
  have width' : i < (t.setFirstRows n values).width :=
    (setFirstRows_holds held n values).width ▸ place
  rw [Tensor.value_row _ _ _ _ place, slice, Tensor.value_row _ _ _ _ width']
  simp only [setFirstRows, overwrite]
  rw [Tensor.value_overwrite _ _ _ _ (by rw [held.size, held.width]; omega), given, held.width,
    if_pos (by omega), Tensor.value_extract _ _ _ _ (by omega)]
  simp

/-- Replacing the rows below a bound leaves the others as they were. -/
theorem slice_setFirstRows_other (held : t.Holds count width) {n r : Nat} (bound : r < count)
    (behind : n ≤ r) (values : Tensor) : (t.setFirstRows n values).slice r = t.slice r := by
  apply slice_overwrite_apart held bound
  have before := Nat.mul_le_mul_right width behind
  simp only [Array.size_extract, held.width]
  exact .inl (by omega)

end Rows

end BoardEval
