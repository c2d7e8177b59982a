import BoardEval.Proofs.Layouts

/-!
# Copies under a symmetry

A copy between two layouts of one extent succeeds exactly if both tensors are
long enough. To canonical orientation it puts the value of each place at the
image of its cell; from canonical orientation it fetches the value from there.
Either way a position at which the destination layout stores no place keeps its
value, and every other position is written, so the values that the window had
before are forgotten.
-/

namespace BoardEval

namespace Tensor

variable {src dst : Tensor} {srcLayout dstLayout : Layout} {channels : Nat} {s : Symmetry}

/-- The promises of a copy, each of them needed. -/
theorem checkCopy_ok_iff (u : Unit) :
    checkCopy src srcLayout dst dstLayout channels = .ok u ↔
      srcLayout.extent = dstLayout.extent ∧
      (srcLayout.required channels < wordLimit ∧ srcLayout.required channels ≤ src.size) ∧
      (dstLayout.required channels < wordLimit ∧ dstLayout.required channels ≤ dst.size) := by
  simp only [checkCopy, Layout.requiredInWord, bind_ok_iff, require_ok_iff, fitsWord_ok_iff,
    decide_eq_true_eq]
  constructor
  · rintro ⟨_, extents, _, ⟨srcWord, rfl⟩, _, srcRoom, _, ⟨dstWord, rfl⟩, dstRoom⟩
    exact ⟨extents, ⟨srcWord, srcRoom⟩, dstWord, dstRoom⟩
  · rintro ⟨extents, ⟨srcWord, srcRoom⟩, dstWord, dstRoom⟩
    exact ⟨u, extents, _, ⟨srcWord, rfl⟩, u, srcRoom, _, ⟨dstWord, rfl⟩, dstRoom⟩

/-- A copy to canonical orientation whose promises hold makes its moves. -/
theorem copyToCanonical_ok (extents : srcLayout.extent = dstLayout.extent)
    (srcWord : srcLayout.required channels < wordLimit)
    (srcRoom : srcLayout.required channels ≤ src.size)
    (dstWord : dstLayout.required channels < wordLimit)
    (dstRoom : dstLayout.required channels ≤ dst.size) :
    copyToCanonical src srcLayout dst dstLayout channels s =
      .ok (move src (movesToCanonical srcLayout dstLayout channels s) dst) := by
  have checked : checkCopy src srcLayout dst dstLayout channels = .ok () :=
    (checkCopy_ok_iff ()).mpr ⟨extents, ⟨srcWord, srcRoom⟩, dstWord, dstRoom⟩
  simp only [copyToCanonical, checked]
  rfl

/-- The same from canonical orientation. -/
theorem copyFromCanonical_ok (extents : srcLayout.extent = dstLayout.extent)
    (srcWord : srcLayout.required channels < wordLimit)
    (srcRoom : srcLayout.required channels ≤ src.size)
    (dstWord : dstLayout.required channels < wordLimit)
    (dstRoom : dstLayout.required channels ≤ dst.size) :
    copyFromCanonical src srcLayout dst dstLayout channels s =
      .ok (move src (movesFromCanonical srcLayout dstLayout channels s) dst) := by
  have checked : checkCopy src srcLayout dst dstLayout channels = .ok () :=
    (checkCopy_ok_iff ()).mpr ⟨extents, ⟨srcWord, srcRoom⟩, dstWord, dstRoom⟩
  simp only [copyFromCanonical, checked]
  rfl

/-- A move to canonical orientation goes from a place to the image of its cell. -/
theorem mem_movesToCanonical (m : Nat × Nat) :
    m ∈ movesToCanonical srcLayout dstLayout channels s ↔
      ∃ c y x, srcLayout.Live channels c y x ∧
        m = (srcLayout.index c y x, dstLayout.index c (s.cell srcLayout.extent y x).1
          (s.cell srcLayout.extent y x).2) := by
  simp only [movesToCanonical, List.mem_map]
  constructor
  · rintro ⟨⟨c, y, x⟩, listed, rfl⟩
    exact ⟨c, y, x, (srcLayout.mem_places channels c y x).mp listed, rfl⟩
  · rintro ⟨c, y, x, live, rfl⟩
    exact ⟨(c, y, x), (srcLayout.mem_places channels c y x).mpr live, rfl⟩

/-- A move from canonical orientation goes from the image of a cell to its place. -/
theorem mem_movesFromCanonical (m : Nat × Nat) :
    m ∈ movesFromCanonical srcLayout dstLayout channels s ↔
      ∃ c y x, srcLayout.Live channels c y x ∧
        m = (srcLayout.index c (s.cell srcLayout.extent y x).1 (s.cell srcLayout.extent y x).2,
          dstLayout.index c y x) := by
  simp only [movesFromCanonical, List.mem_map]
  constructor
  · rintro ⟨⟨c, y, x⟩, listed, rfl⟩
    exact ⟨c, y, x, (srcLayout.mem_places channels c y x).mp listed, rfl⟩
  · rintro ⟨c, y, x, live, rfl⟩
    exact ⟨(c, y, x), (srcLayout.mem_places channels c y x).mpr live, rfl⟩

section

variable (extents : srcLayout.extent = dstLayout.extent)
include extents

/-- The image of a place of the source window is a place of the destination
window. -/
theorem image_live {c y x : Nat} (live : srcLayout.Live channels c y x) :
    dstLayout.Live channels c (s.cell srcLayout.extent y x).1
      (s.cell srcLayout.extent y x).2 := by
  obtain ⟨channel, rows, columns⟩ := live
  have inside := s.cell_inside srcLayout.extent y x rows columns
  exact ⟨channel, extents ▸ inside.1, extents ▸ inside.2⟩

/-- To canonical orientation, the value of a place arrives at the image of its
cell. A symmetry takes no other cell there, and the layout stores nothing else at
that position, so no later move replaces it. -/
theorem value_toCanonical (separates : dstLayout.Separates channels)
    (room : dstLayout.required channels ≤ dst.size) {c y x : Nat}
    (live : srcLayout.Live channels c y x) :
    (move src (movesToCanonical srcLayout dstLayout channels s) dst).valueAt
        (dstLayout.index c (s.cell srcLayout.extent y x).1 (s.cell srcLayout.extent y x).2) =
      src.valueAt (srcLayout.index c y x) := by
  have image := image_live (s := s) extents live
  apply value_move
  · exact Nat.lt_of_lt_of_le (dstLayout.index_lt_required image) room
  · exact (mem_movesToCanonical _).mpr ⟨c, y, x, live, rfl⟩
  · intro m listed target
    obtain ⟨c', y', x', live', rfl⟩ := (mem_movesToCanonical m).mp listed
    obtain ⟨rfl, row, column⟩ := separates (image_live extents live') image target
    obtain ⟨rfl, rfl⟩ := s.cell_injective srcLayout.extent live'.2.1 live'.2.2 live.2.1 live.2.2
      (Prod.ext row column)
    rfl

/-- From canonical orientation, a place gets the value at the image of its cell. -/
theorem value_fromCanonical (separates : dstLayout.Separates channels)
    (room : dstLayout.required channels ≤ dst.size) {c y x : Nat}
    (live : dstLayout.Live channels c y x) :
    (move src (movesFromCanonical srcLayout dstLayout channels s) dst).valueAt
        (dstLayout.index c y x) =
      src.valueAt (srcLayout.index c (s.cell srcLayout.extent y x).1
        (s.cell srcLayout.extent y x).2) := by
  have listed : srcLayout.Live channels c y x := ⟨live.1, extents ▸ live.2.1, extents ▸ live.2.2⟩
  apply value_move
  · exact Nat.lt_of_lt_of_le (dstLayout.index_lt_required live) room
  · exact (mem_movesFromCanonical _).mpr ⟨c, y, x, listed, rfl⟩
  · intro m member target
    obtain ⟨c', y', x', live', rfl⟩ := (mem_movesFromCanonical m).mp member
    have there : dstLayout.Live channels c' y' x' :=
      ⟨live'.1, extents ▸ live'.2.1, extents ▸ live'.2.2⟩
    obtain ⟨rfl, rfl, rfl⟩ := separates there live target
    rfl

/-- Every position of the destination window is the destination of a move to
canonical orientation: each canonical cell has a source. -/
theorem toCanonical_covers {c y x : Nat} (live : dstLayout.Live channels c y x) :
    ∃ m ∈ movesToCanonical srcLayout dstLayout channels s, m.2 = dstLayout.index c y x := by
  obtain ⟨channel, rows, columns⟩ := live
  rw [← extents] at rows columns
  have inside := s.source_inside srcLayout.extent y x rows columns
  have image := s.cell_source srcLayout.extent y x rows columns
  refine ⟨_, (mem_movesToCanonical _).mpr ⟨c, _, _, ⟨channel, inside.1, inside.2⟩, rfl⟩, ?_⟩
  rw [image]

/-- A position outside the destination window keeps its value. -/
theorem value_toCanonical_other (i : Nat)
    (outside : ∀ {c y x}, dstLayout.Live channels c y x → dstLayout.index c y x ≠ i) :
    (move src (movesToCanonical srcLayout dstLayout channels s) dst).valueAt i =
      dst.valueAt i := by
  apply value_move_other
  intro m listed
  obtain ⟨c, y, x, live, rfl⟩ := (mem_movesToCanonical m).mp listed
  exact outside (image_live extents live)

/-- What the destination window held before a copy to canonical orientation does
not matter. -/
theorem toCanonical_congr {left right : Tensor} (size : left.size = right.size)
    (agree : ∀ i < left.size, (∀ {c y x}, dstLayout.Live channels c y x →
      dstLayout.index c y x ≠ i) → left.valueAt i = right.valueAt i) :
    move src (movesToCanonical srcLayout dstLayout channels s) left =
      move src (movesToCanonical srcLayout dstLayout channels s) right := by
  apply move_congr _ _ _ _ size
  intro i inside other
  apply agree i inside
  intro c y x live here
  obtain ⟨m, listed, target⟩ := toCanonical_covers (s := s) extents live
  exact other m listed (target.trans here)

end

end Tensor

end BoardEval
