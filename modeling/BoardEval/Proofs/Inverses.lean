import BoardEval.Proofs.Turns

/-!
# Inverses of symmetries

The inverse of a symmetry is an inverse among the symmetries of a square: a transpose comes
first instead of last, so the two flips trade places. A board that is not square has no
transpose, and there nothing may be traded. So the symmetry that undoes another one on a board
is the inverse of what that one does on the board, and the plain inverse will do exactly where
it makes no difference: on a square, for a symmetry without a transpose, and for one that flips
both sides or neither.

Dense tensors are restored accordingly. The copy back goes to canonical orientation like the
copy before it, under the symmetry that undoes the first; this is not a copy from canonical
orientation, which needs no inverse.
-/

namespace BoardEval

namespace Symmetry

variable {s t : Symmetry} {e : Extent}

/-- Every cell of the board is brought back to where it came from. -/
def Undoes (t s : Symmetry) (e : Extent) : Prop :=
  ∀ y < e.height, ∀ x < e.width, t.cell e (s.cell e y x).1 (s.cell e y x).2 = (y, x)

/-- A symmetry acts on a board by its effective part alone. -/
theorem effective_cell (s : Symmetry) (e : Extent) (y x : Nat) :
    (s.effective e).cell e y x = s.cell e y x := by
  have turns : ((s.effective e).transposes && e.isSquare) = (s.transposes && e.isSquare) := by
    simp [effective]
  unfold cell
  rw [turns]
  rfl

/-- The inverse of the effective part finds the source of every canonical cell. On a square the
two sides have one length, which is why the flips can trade places. -/
theorem inverse_effective_cell (s : Symmetry) (e : Extent) (row column : Nat) :
    (s.effective e).inverse.cell e row column = s.source e row column := by
  by_cases turned : s.turns e = true
  · have square := s.turns_square e turned
    have board : e.isSquare = true := by simp [Extent.isSquare, square]
    have effective : s.effective e = ⟨s.flipsY, s.flipsX, true⟩ := by
      rw [effective, show (s.transposes && e.isSquare) = true from turned]
    simp only [effective, inverse, if_true, cell, board, Bool.true_and, source, turned, square]
  · have straight : s.turns e = false := Bool.not_eq_true _ ▸ turned
    have effective : s.effective e = ⟨s.flipsY, s.flipsX, false⟩ := by
      rw [effective, show (s.transposes && e.isSquare) = false from straight]
    simp only [effective, inverse, cell, source, straight, Bool.false_and, Bool.false_eq_true,
      if_false]

/-- On every board, the inverse of the effective part undoes a symmetry. -/
theorem inverse_effective_undoes (s : Symmetry) (e : Extent) :
    (s.effective e).inverse.Undoes s e := by
  intro y rows x columns
  rw [inverse_effective_cell]
  exact s.source_cell e y x rows columns

/-- Inverting and restricting to a board can be exchanged on a square, for a symmetry without a
transpose, and for one whose flips may trade places. -/
theorem effective_inverse (s : Symmetry) (e : Extent)
    (agree : e.width = e.height ∨ s.transposes = false ∨ s.flipsY = s.flipsX) :
    s.inverse.effective e = (s.effective e).inverse := by
  obtain ⟨flipsY, flipsX, transposes⟩ := s
  rcases agree with square | straight | flips
  · have board : e.isSquare = true := by simp [Extent.isSquare, square]
    cases transposes <;> simp [inverse, effective, board]
  · obtain rfl : transposes = false := straight
    simp [inverse, effective]
  · obtain rfl : flipsY = flipsX := flips
    cases transposes <;> cases board : e.isSquare <;> simp [inverse, effective, board]

/-- The plain inverse undoes a symmetry exactly where it agrees with the inverse of the
effective part. Elsewhere one side is flipped on the way there and the other one on the way
back, which takes the first corner to the last. -/
theorem inverse_undoes_iff (s : Symmetry) (columns : 0 < e.width) (rows : 0 < e.height) :
    s.inverse.Undoes s e ↔ e.width = e.height ∨ s.transposes = false ∨ s.flipsY = s.flipsX := by
  constructor
  · intro undoes
    by_cases square : e.width = e.height
    · exact .inl square
    right
    obtain ⟨flipsY, flipsX, transposes⟩ := s
    cases transposes with
    | false => exact .inl rfl
    | true =>
      right
      have board : e.isSquare = false := by simpa [Extent.isSquare] using square
      have corner := undoes 0 rows 0 columns
      cases flipsY <;> cases flipsX
      case false.false => rfl
      case true.true => rfl
      all_goals
        simp [inverse, cell, board] at corner
        omega
  · intro agree y inside x within
    rw [← effective_cell, effective_inverse s e agree]
    exact inverse_effective_undoes s e y inside x within

end Symmetry

namespace Tensor

/-- A copy under one symmetry and then one under another, both to canonical orientation and by
way of any tensor that stores the board, restores every dense tensor bit for bit, in either
channel order. -/
def Restores (s t : Symmetry) (e : Extent) : Prop :=
  ∀ (channels : Nat) (last : Bool) (midLayout : Layout) (src mid back : Tensor),
    midLayout.Stores e channels → src.size = channels * e.cells → src.size < wordLimit →
    mid.Reaches midLayout channels → back.size = src.size →
    ∃ turned,
      copyToCanonical src (.dense e channels last) mid midLayout channels s = .ok turned ∧
      copyToCanonical turned midLayout back (.dense e channels last) channels t = .ok src

/-- Dense layouts are among those in which a board is stored. -/
theorem dense_stores (e : Extent) (channels : Nat) (last : Bool) :
    (Layout.dense e channels last).Stores e channels := by
  cases last with
  | false => exact .channelFirst
  | true => exact .channelLast

/-- A tensor of the size of a dense one reaches its last corner. -/
theorem dense_reaches {t : Tensor} {e : Extent} {channels : Nat} (last : Bool)
    (size : t.size = channels * e.cells) (word : t.size < wordLimit) :
    t.Reaches (.dense e channels last) channels :=
  ⟨word, size ▸ Layout.dense_required_le e channels last⟩

/-- Dense tensors are equal if their windows are: they have no other positions. -/
theorem SameWindow.dense_eq {e : Extent} {channels : Nat} {last : Bool} {left right : Tensor}
    (leftSize : left.size = channels * e.cells) (rightSize : right.size = channels * e.cells)
    (same : SameWindow e channels left (.dense e channels last) right (.dense e channels last)) :
    left = right := by
  apply ext_values left right (leftSize.trans rightSize.symm)
  intro i inside
  obtain ⟨c, y, x, ⟨channel, row, column⟩, rfl⟩ :=
    Layout.dense_covers e channels last (leftSize ▸ inside)
  rw [Layout.dense_extent] at row column
  exact same c channel y row x column

/-- What a symmetry undoes cell by cell it undoes on dense tensors. -/
theorem restores_of_undoes {s t : Symmetry} {e : Extent} (undoes : t.Undoes s e) :
    Restores s t e := by
  intro channels last midLayout src mid back midStores size word midReaches backSize
  have stores := dense_stores e channels last
  have backReaches : back.Reaches (.dense e channels last) channels :=
    dense_reaches last (backSize.trans size) (backSize ▸ word)
  obtain ⟨turned, copied, carried⟩ :=
    toCanonical_carried stores midStores (dense_reaches last size word) midReaches s
  obtain ⟨restored, returned, again⟩ := toCanonical_carried midStores stores
    (midReaches.resized carried.size) backReaches t
  have window : SameWindow e channels restored (.dense e channels last) src
      (.dense e channels last) := by
    intro c channel y row x column
    obtain ⟨imageRow, imageColumn⟩ := s.cell_inside e y x row column
    -- The second copy takes the image of the cell, which the first copy has filled.
    have there := again.moved c channel _ imageRow _ imageColumn
    rw [Layout.imageIndex, undoes y row x column] at there
    rw [there]
    exact carried.moved c channel y row x column
  obtain rfl := SameWindow.dense_eq (again.size.trans (backSize.trans size)) size window
  exact ⟨turned, copied, returned⟩

end Tensor

namespace Symmetry

/-- A symmetry does not leave the board, and the inverse of its effective part undoes it there.
The plain inverse undoes it exactly if the board is square, the symmetry has no transpose or
both of its flips are alike. A copy under the symmetry and then a copy under one that undoes it
restores every dense tensor. -/
theorem inverse_on_boards (s : Symmetry) (e : Extent) (columns : 0 < e.width)
    (rows : 0 < e.height) :
    (∀ y < e.height, ∀ x < e.width,
      (s.cell e y x).1 < e.height ∧ (s.cell e y x).2 < e.width) ∧
    (s.effective e).inverse.Undoes s e ∧ Tensor.Restores s (s.effective e).inverse e ∧
    (s.inverse.Undoes s e ↔
      e.width = e.height ∨ s.transposes = false ∨ s.flipsY = s.flipsX) ∧
    (e.width = e.height ∨ s.transposes = false ∨ s.flipsY = s.flipsX →
      Tensor.Restores s s.inverse e) := by
  have plain := s.inverse_undoes_iff columns rows
  refine ⟨?_, s.inverse_effective_undoes e,
    Tensor.restores_of_undoes (s.inverse_effective_undoes e), plain, ?_⟩
  · intro y row x column
    exact s.cell_inside e y x row column
  · intro agree
    exact Tensor.restores_of_undoes (plain.mpr agree)

/-- On three columns and two rows, for the symmetry that flips the rows and transposes. -/
theorem inverse_on_boards_rectangle :
    let s : Symmetry := ⟨true, false, true⟩
    let e : Extent := ⟨3, 2⟩
    0 < e.width ∧ 0 < e.height ∧ (s.effective e).inverse.Undoes s e ∧
      Tensor.Restores s (s.effective e).inverse e ∧ ¬s.inverse.Undoes s e := by
  intro s e
  have columns : 0 < e.width := by decide
  have rows : 0 < e.height := by decide
  obtain ⟨_, undoes, restores, plain, _⟩ := inverse_on_boards s e columns rows
  exact ⟨columns, rows, undoes, restores, fun wrong => absurd (plain.mp wrong) (by decide)⟩

/-- There the plain inverse does not undo the symmetry: it flips the columns instead of the
rows. A board that went there and back has made half a turn. -/
theorem rectangle_makes_half_turn :
    let s : Symmetry := ⟨true, false, true⟩
    let e : Extent := ⟨3, 2⟩
    let src : Tensor := #[⟨1⟩, ⟨2⟩, ⟨3⟩, ⟨4⟩, ⟨5⟩, ⟨6⟩]
    s.cell e 0 0 = (1, 0) ∧ s.inverse.cell e 1 0 = (1, 2) ∧ ¬s.inverse.Undoes s e ∧
      ∃ turned,
        Tensor.copyToCanonical src (.channelFirst e) (.zeros 6) (.channelFirst e) 1 s =
          .ok turned ∧
        Tensor.copyToCanonical turned (.channelFirst e) (.zeros 6) (.channelFirst e) 1 s.inverse =
          .ok #[⟨6⟩, ⟨5⟩, ⟨4⟩, ⟨3⟩, ⟨2⟩, ⟨1⟩] := by
  refine ⟨rfl, rfl, ?_, _, rfl, rfl⟩
  intro undoes
  have corner := undoes 0 (by decide) 0 (by decide)
  exact absurd corner (by decide)

end Symmetry

end BoardEval
