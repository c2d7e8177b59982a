import BoardEval.Tensor.Copy

/-!
# Reading a tensor after writes

A flat tensor is known by its size and by the value at every position. Writes
never change the size. A position that no write names keeps its value, and a
position that is named gets the value on which the writes that name it agree;
the order of the writes does not matter then.

A row is a slice of fixed width. Slicing and joining are described by values as
well, so that later proofs compare tensors position by position.
-/

namespace BoardEval

open Number (Single)

namespace Tensor

/-- Inside the tensor the value is the stored element. -/
theorem value_inside (t : Tensor) (i : Nat) (inside : i < t.size) : t.valueAt i = t[i] := by
  simp [valueAt, inside]

/-- Outside the tensor every value is zero. -/
theorem value_outside (t : Tensor) (i : Nat) (outside : t.size ≤ i) :
    t.valueAt i = .zero := by
  simp [valueAt, Nat.not_lt.mpr outside]

/-- Size and values determine a tensor. -/
theorem ext_values (left right : Tensor) (size : left.size = right.size)
    (same : ∀ i < left.size, left.valueAt i = right.valueAt i) : left = right := by
  apply Array.ext size
  intro i leftBound rightBound
  simpa only [value_inside left i leftBound, value_inside right i rightBound]
    using same i leftBound

/-- As many zeros as were asked for. -/
@[simp] theorem size_zeros (n : Nat) : (zeros n).size = n := by simp [zeros]

/-- Zeros are zero inside the tensor and outside. -/
@[simp] theorem value_zeros (n i : Nat) : (zeros n).valueAt i = .zero := by
  by_cases inside : i < n
  · rw [value_inside _ _ (by simpa using inside)]
    simp [zeros]
  · exact value_outside _ _ (by simpa using inside)

/-- One write changes its position, if that lies inside, and nothing else. -/
theorem value_set (t : Tensor) (position i : Nat) (value : Single) :
    valueAt (t.setIfInBounds position value) i =
      if position = i ∧ i < t.size then value else t.valueAt i := by
  simp only [valueAt, Array.getD_eq_getD_getElem?, Array.getElem?_setIfInBounds]
  by_cases same : position = i
  · subst position
    by_cases inside : i < t.size <;> simp [inside]
  · simp [same]

/-- Writing values keeps the length; places outside are not written. -/
@[simp] theorem size_write (t : Tensor) (writes : List (Nat × Single)) :
    (t.write writes).size = t.size := by
  unfold write
  induction writes generalizing t with
  | nil => rfl
  | cons first rest inductionHypothesis =>
    rw [List.foldl_cons, inductionHypothesis, Array.size_setIfInBounds]

/-- A position that no write names keeps its value. -/
theorem value_write_other (t : Tensor) (writes : List (Nat × Single)) (i : Nat)
    (other : ∀ w ∈ writes, w.1 ≠ i) : (t.write writes).valueAt i = t.valueAt i := by
  unfold write
  induction writes generalizing t with
  | nil => rfl
  | cons first rest inductionHypothesis =>
    have untouched : first.1 ≠ i := other first List.mem_cons_self
    rw [List.foldl_cons,
      inductionHypothesis _ fun w member => other w (List.mem_cons_of_mem _ member), value_set]
    simp [untouched]

/-- A named position gets the value on which all writes to it agree. Induction
runs over the writes: the last one that names the position decides, and the
condition says what it writes. -/
theorem value_write (t : Tensor) (writes : List (Nat × Single)) (i : Nat) (value : Single)
    (inside : i < t.size) (named : ∃ w ∈ writes, w.1 = i)
    (agreed : ∀ w ∈ writes, w.1 = i → w.2 = value) : (t.write writes).valueAt i = value := by
  induction writes generalizing t with
  | nil => simp at named
  | cons first rest inductionHypothesis =>
    have step : t.write (first :: rest) = write (t.setIfInBounds first.1 first.2) rest := rfl
    rw [step]
    by_cases later : ∃ w ∈ rest, w.1 = i
    · exact inductionHypothesis _ (by simpa using inside) later
        fun w member => agreed w (List.mem_cons_of_mem _ member)
    · have here : first.1 = i := by
        obtain ⟨w, member, position⟩ := named
        rcases List.mem_cons.mp member with rfl | member
        · exact position
        · exact absurd ⟨w, member, position⟩ later
      rw [value_write_other _ _ _ fun w member position => later ⟨w, member, position⟩, value_set,
        if_pos ⟨here, inside⟩]
      exact agreed first List.mem_cons_self here

/-- The result of writes does not depend on the values that they replace: two
tensors that agree wherever nothing is written agree everywhere afterwards. -/
theorem write_congr (left right : Tensor) (writes : List (Nat × Single))
    (size : left.size = right.size)
    (agree : ∀ i < left.size, (∀ w ∈ writes, w.1 ≠ i) → left.valueAt i = right.valueAt i) :
    left.write writes = right.write writes := by
  induction writes generalizing left right with
  | nil => exact ext_values left right size fun i inside => agree i inside (by simp)
  | cons first rest inductionHypothesis =>
    apply inductionHypothesis
    · simpa using size
    · intro i inside other
      have bound : i < left.size := by simpa using inside
      rw [value_set, value_set]
      by_cases here : first.1 = i
      · simp [here, bound, size ▸ bound]
      · simp only [here, false_and, if_false]
        apply agree i bound
        intro w member
        rcases List.mem_cons.mp member with rfl | member
        · exact here
        · exact other w member

/-- Overwriting keeps the length. -/
@[simp] theorem size_overwrite (t : Tensor) (start : Nat) (values : Tensor) :
    (t.overwrite start values).size = t.size := by
  simp [overwrite]

/-- Overwriting replaces the values from its start on and keeps all others. -/
theorem value_overwrite (t : Tensor) (start : Nat) (values : Tensor) (i : Nat)
    (inside : i < t.size) :
    (t.overwrite start values).valueAt i =
      if start ≤ i ∧ i < start + values.size then values.valueAt (i - start) else t.valueAt i := by
  unfold overwrite
  split
  · rename_i covered
    apply value_write _ _ _ _ inside
    · exact ⟨(i, values.valueAt (i - start)),
        List.mem_map.mpr ⟨i - start, List.mem_range.mpr (by omega), by
          rw [show start + (i - start) = i by omega]⟩, rfl⟩
    · intro w member position
      obtain ⟨k, _, rfl⟩ := List.mem_map.mp member
      have source : k = i - start := by
        have sum : start + k = i := position
        omega
      rw [source]
  · rename_i outside
    apply value_write_other
    intro w member position
    obtain ⟨k, bound, rfl⟩ := List.mem_map.mp member
    have bound := List.mem_range.mp bound
    have sum : start + k = i := position
    exact outside (by omega)

/-- Moving values keeps the length of the destination. -/
@[simp] theorem size_move (src : Tensor) (moves : List (Nat × Nat)) (dst : Tensor) :
    (move src moves dst).size = dst.size := by
  simp [move]

/-- A move brings the value at its source to its destination if every move to that
destination has the same source. -/
theorem value_move (src : Tensor) (moves : List (Nat × Nat)) (dst : Tensor) (source target : Nat)
    (inside : target < dst.size) (member : (source, target) ∈ moves)
    (agreed : ∀ m ∈ moves, m.2 = target → m.1 = source) :
    (move src moves dst).valueAt target = src.valueAt source := by
  apply value_write _ _ _ _ inside
  · exact ⟨(target, src.valueAt source), List.mem_map.mpr ⟨_, member, rfl⟩, rfl⟩
  · intro w written position
    obtain ⟨m, listed, rfl⟩ := List.mem_map.mp written
    exact congrArg src.valueAt (agreed m listed position)

/-- What is no destination keeps its value. -/
theorem value_move_other (src : Tensor) (moves : List (Nat × Nat)) (dst : Tensor) (i : Nat)
    (other : ∀ m ∈ moves, m.2 ≠ i) : (move src moves dst).valueAt i = dst.valueAt i := by
  apply value_write_other
  intro w written
  obtain ⟨m, listed, rfl⟩ := List.mem_map.mp written
  exact other m listed

/-- The result of moves does not depend on the values that they replace. -/
theorem move_congr (src : Tensor) (moves : List (Nat × Nat)) (left right : Tensor)
    (size : left.size = right.size)
    (agree : ∀ i < left.size, (∀ m ∈ moves, m.2 ≠ i) → left.valueAt i = right.valueAt i) :
    move src moves left = move src moves right := by
  apply write_congr left right _ size
  intro i inside other
  exact agree i inside fun m listed =>
    other (m.2, src.valueAt m.1) (List.mem_map.mpr ⟨m, listed, rfl⟩)

/-- A slice reads the values from its start on. -/
theorem value_extract (t : Tensor) (start stop i : Nat) (inside : i < stop - start) :
    valueAt (t.extract start stop) i = t.valueAt (start + i) := by
  simp only [valueAt, Array.getD_eq_getD_getElem?, Array.getElem?_extract]
  by_cases bound : i < min stop t.size - start
  · simp [bound]
  · have beyond : t.size ≤ start + i := by omega
    simp [bound, Nat.not_lt.mpr beyond]

/-- A joined tensor reads its left part first and then its right part. -/
theorem value_append (left right : Tensor) (i : Nat) :
    valueAt (left ++ right) i =
      if i < left.size then left.valueAt i else right.valueAt (i - left.size) := by
  simp only [valueAt, Array.getD_eq_getD_getElem?, Array.getElem?_append]
  split <;> rfl

/-- Row `r` of a flat tensor that is cut into rows of one width. -/
def rowAt (t : Tensor) (width r : Nat) : Tensor := t.extract (r * width) ((r + 1) * width)

/-- A row that lies inside the tensor has the full width. -/
theorem size_row (t : Tensor) (width r : Nat) (inside : (r + 1) * width ≤ t.size) :
    (t.rowAt width r).size = width := by
  rw [Nat.add_mul, Nat.one_mul] at inside
  simp only [rowAt, Array.size_extract, Nat.add_mul, Nat.one_mul]
  omega

/-- Row `r` begins at position `r * width`. -/
theorem value_row (t : Tensor) (width r i : Nat) (inside : i < width) :
    (t.rowAt width r).valueAt i = t.valueAt (r * width + i) := by
  apply value_extract
  rw [Nat.add_mul]
  omega

/-- Rows of `n` rows lie inside a tensor that holds `n` of them. -/
theorem row_bound {n r : Nat} (width : Nat) (bound : r < n) : (r + 1) * width ≤ n * width :=
  Nat.mul_le_mul_right width bound

/-- A position in a row tells the row by division and its place in the row by the remainder. -/
theorem row_digits {width i : Nat} (r : Nat) (inside : i < width) :
    (r * width + i) / width = r ∧ (r * width + i) % width = i := by
  constructor
  · rw [Nat.mul_comm, Nat.mul_add_div (by omega), Nat.div_eq_of_lt inside, Nat.add_zero]
  · rw [Nat.mul_comm, Nat.mul_add_mod, Nat.mod_eq_of_lt inside]

/-- So positions in distinct rows are distinct, and positions in one row are for distinct
places. -/
theorem row_position {width r i s j : Nat} (first : i < width) (second : j < width)
    (same : r * width + i = s * width + j) : r = s ∧ i = j := by
  obtain ⟨row, place⟩ := row_digits r first
  obtain ⟨row', place'⟩ := row_digits s second
  rw [same] at row place
  exact ⟨row.symm.trans row', place.symm.trans place'⟩

/-- Two tensors of `n` rows are equal if all their rows are. -/
theorem ext_rows (left right : Tensor) (n width : Nat) (leftSize : left.size = n * width)
    (rightSize : right.size = n * width)
    (same : ∀ r < n, left.rowAt width r = right.rowAt width r) : left = right := by
  apply ext_values left right (leftSize.trans rightSize.symm)
  intro i inside
  rw [leftSize] at inside
  have positive : 0 < width := Nat.pos_of_ne_zero fun zero => by simp [zero] at inside
  have row : i / width < n := Nat.div_lt_of_lt_mul (by rwa [Nat.mul_comm])
  have place : i % width < width := Nat.mod_lt i positive
  have split : i = i / width * width + i % width := by
    rw [Nat.mul_comm]
    exact (Nat.div_add_mod i width).symm
  rw [split, ← value_row left width _ _ place, ← value_row right width _ _ place, same _ row]

end Tensor

end BoardEval
