import BoardEval.Proofs.Cells
import BoardEval.Proofs.Checks
import BoardEval.Proofs.Writes

/-!
# Layouts as index maps

The layouts in use never store two places of their window at one position. In
planes of a larger extent this holds for the cells of the whole plane, so a cell
outside the window is stored where no cell of the window is.

The length that a layout requires bounds every position of its window, and it is
the least such bound; a tensor that holds the planes of the layout is long
enough.
-/

namespace BoardEval

namespace Layout

/-- The window of a layout for a number of channels. -/
def Live (l : Layout) (channels c y x : Nat) : Prop :=
  c < channels ∧ y < l.extent.height ∧ x < l.extent.width

/-- No two places of the window share a position. -/
def Separates (l : Layout) (channels : Nat) : Prop :=
  ∀ {c y x c' y' x'}, l.Live channels c y x → l.Live channels c' y' x' →
    l.index c y x = l.index c' y' x' → c = c' ∧ y = y' ∧ x = x'

/-- The listed places are those of the window. -/
theorem mem_places (l : Layout) (channels c y x : Nat) :
    (c, y, x) ∈ l.places channels ↔ l.Live channels c y x := by
  unfold places Live
  by_cases none : channels = 0
  · simp [none]
  · simp only [none, if_false]
    by_cases empty : l.extent.positions.isEmpty = true
    · simp only [empty, if_true, List.not_mem_nil, false_iff]
      rintro ⟨_, rows, columns⟩
      have listed := (l.extent.mem_positions y x).mpr ⟨rows, columns⟩
      simp [List.isEmpty_iff.mp empty] at listed
    · simp only [empty, Bool.false_eq_true, if_false, List.mem_flatMap, List.mem_range,
        List.mem_map, Prod.mk.injEq]
      constructor
      · rintro ⟨channel, bound, cell, listed, rfl, rfl⟩
        exact ⟨bound, (l.extent.mem_positions y x).mp listed⟩
      · rintro ⟨bound, cell⟩
        exact ⟨c, bound, (y, x), (l.extent.mem_positions y x).mpr cell, rfl, rfl⟩

/-- Every place of the window is stored below the required length. -/
theorem index_lt_required (l : Layout) {channels c y x : Nat} (live : l.Live channels c y x) :
    l.index c y x < l.required channels := by
  obtain ⟨channel, row, column⟩ := live
  have nonempty : ¬(channels = 0 ∨ l.extent.width = 0 ∨ l.extent.height = 0) := by omega
  simp only [required, nonempty, if_false, index]
  have channelPart : c * l.channelStride ≤ (channels - 1) * l.channelStride :=
    Nat.mul_le_mul_right _ (by omega)
  have rowPart : y * l.rowStride ≤ (l.extent.height - 1) * l.rowStride :=
    Nat.mul_le_mul_right _ (by omega)
  have cellPart : x * l.cellStride ≤ (l.extent.width - 1) * l.cellStride :=
    Nat.mul_le_mul_right _ (by omega)
  omega

/-- A bound on every position of the window bounds the required length: that
length is reached by the last corner. -/
theorem required_le (l : Layout) (channels bound : Nat)
    (below : ∀ {c y x}, l.Live channels c y x → l.index c y x < bound) :
    l.required channels ≤ bound := by
  unfold required
  split
  · exact Nat.zero_le _
  · rename_i nonempty
    exact below ⟨by omega, by omega, by omega⟩

/-- Channel-first positions count rows of planes and then cells of rows. -/
theorem channelFirst_index (e : Extent) (c y x : Nat) :
    (channelFirst e).index c y x = (c * e.height + y) * e.width + x := by
  simp only [index, channelFirst, Extent.cells, Nat.mul_one, Nat.add_mul]
  rw [Nat.mul_assoc, Nat.mul_comm e.width]

/-- Channel-last positions count cells and then channels. -/
theorem channelLast_index (e : Extent) (channels c y x : Nat) :
    (channelLast e channels).index c y x = (y * e.width + x) * channels + c := by
  simp only [index, channelLast, Nat.mul_one, Nat.add_mul, Nat.mul_assoc]
  omega

/-- Cells of planes are stored at different positions. -/
theorem channelFirst_injective (e : Extent) {c y x c' y' x' : Nat} (rows : y < e.height)
    (columns : x < e.width) (rows' : y' < e.height) (columns' : x' < e.width)
    (same : (channelFirst e).index c y x = (channelFirst e).index c' y' x') :
    c = c' ∧ y = y' ∧ x = x' := by
  rw [channelFirst_index, channelFirst_index] at same
  obtain ⟨rowsSame, column⟩ := Tensor.row_position columns columns' same
  obtain ⟨channel, row⟩ := Tensor.row_position rows rows' rowsSame
  exact ⟨channel, row, column⟩

/-- The cells of the first `channels` planes fill the first positions. -/
theorem channelFirst_lt (e : Extent) {channels c y x : Nat} (channel : c < channels)
    (rows : y < e.height) (columns : x < e.width) :
    (channelFirst e).index c y x < channels * e.cells := by
  rw [channelFirst_index, Extent.cells, Nat.mul_comm e.width, ← Nat.mul_assoc]
  have plane : c * e.height + y + 1 ≤ channels * e.height := by
    have next := Nat.mul_le_mul_right e.height (show c + 1 ≤ channels from channel)
    rw [Nat.add_mul] at next
    omega
  have all := Nat.mul_le_mul_right e.width plane
  rw [Nat.add_mul] at all
  omega

/-- The channels of the cells fill the first positions. -/
theorem channelLast_lt (e : Extent) {channels c y x : Nat} (channel : c < channels)
    (rows : y < e.height) (columns : x < e.width) :
    (channelLast e channels).index c y x < channels * e.cells := by
  rw [channelLast_index, Extent.cells, Nat.mul_comm channels]
  have cell : y * e.width + x + 1 ≤ e.width * e.height := by
    have next := Nat.mul_le_mul_right e.width (show y + 1 ≤ e.height from rows)
    rw [Nat.add_mul, Nat.mul_comm e.height] at next
    omega
  have all := Nat.mul_le_mul_right channels cell
  rw [Nat.add_mul] at all
  omega

/-- Dense channel-first tensors keep all places apart. -/
theorem channelFirst_separates (e : Extent) (channels : Nat) :
    (channelFirst e).Separates channels :=
  fun live live' same => channelFirst_injective e live.2.1 live.2.2 live'.2.1 live'.2.2 same

/-- Dense channel-last tensors keep all places apart. -/
theorem channelLast_separates (e : Extent) (channels : Nat) :
    (channelLast e channels).Separates channels := by
  intro c y x c' y' x' live live' same
  rw [channelLast_index, channelLast_index] at same
  obtain ⟨cell, channel⟩ := Tensor.row_position live.1 live'.1 same
  obtain ⟨row, column⟩ := Tensor.row_position live.2.2 live'.2.2 cell
  exact ⟨channel, row, column⟩

/-- The order of channels does not change which board a dense tensor is about. -/
@[simp] theorem dense_extent (e : Extent) (channels : Nat) (last : Bool) :
    (dense e channels last).extent = e := by
  cases last <;> rfl

/-- Without gaps, every place is stored below the number of places. -/
theorem dense_lt (e : Extent) (channels : Nat) (last : Bool) {c y x : Nat}
    (live : (dense e channels last).Live channels c y x) :
    (dense e channels last).index c y x < channels * e.cells := by
  cases last with
  | false => exact channelFirst_lt e live.1 live.2.1 live.2.2
  | true => exact channelLast_lt e live.1 live.2.1 live.2.2

/-- Dense tensors keep all places apart, in either order of channels. -/
theorem dense_separates (e : Extent) (channels : Nat) (last : Bool) :
    (dense e channels last).Separates channels := by
  cases last with
  | false => exact channelFirst_separates e channels
  | true => exact channelLast_separates e channels

/-- A dense tensor needs one value for each channel and cell. -/
theorem dense_required_le (e : Extent) (channels : Nat) (last : Bool) :
    (dense e channels last).required channels ≤ channels * e.cells :=
  required_le _ _ _ (dense_lt e channels last)

/-- A dense tensor has no other positions: each of them stores a place of the window. -/
theorem dense_covers (e : Extent) (channels : Nat) (last : Bool) {i : Nat}
    (inside : i < channels * e.cells) :
    ∃ c y x, (dense e channels last).Live channels c y x ∧
      (dense e channels last).index c y x = i := by
  have split (n : Nat) : i / n * n + i % n = i := Nat.div_add_mod' i n
  cases last with
  | false =>
    -- Rows of planes first, and then cells of rows.
    have width : 0 < e.width := Nat.pos_of_ne_zero fun zero => by
      simp [Extent.cells, zero] at inside
    have height : 0 < e.height := Nat.pos_of_ne_zero fun zero => by
      simp [Extent.cells, zero] at inside
    have planeRow : i / e.width < channels * e.height := by
      apply Nat.div_lt_of_lt_mul
      rwa [Extent.cells, Nat.mul_left_comm] at inside
    refine ⟨i / e.width / e.height, i / e.width % e.height, i % e.width,
      ⟨Nat.div_lt_of_lt_mul (by rwa [Nat.mul_comm]), Nat.mod_lt _ height, Nat.mod_lt _ width⟩, ?_⟩
    show (channelFirst e).index _ _ _ = i
    rw [channelFirst_index, Nat.div_add_mod', split]
  | true =>
    -- Cells first, and then channels.
    have positive : 0 < channels := Nat.pos_of_ne_zero fun zero => by simp [zero] at inside
    have width : 0 < e.width := Nat.pos_of_ne_zero fun zero => by
      simp [Extent.cells, zero] at inside
    have cell : i / channels < e.width * e.height := Nat.div_lt_of_lt_mul inside
    refine ⟨i % channels, i / channels / e.width, i / channels % e.width,
      ⟨Nat.mod_lt _ positive, Nat.div_lt_of_lt_mul cell, Nat.mod_lt _ width⟩, ?_⟩
    show (channelLast e channels).index _ _ _ = i
    rw [channelLast_index, Nat.div_add_mod', split]

section

variable {live plane : Extent}

/-- The window of planes of a larger extent is stored as those planes are. -/
theorem padded_index (live plane : Extent) (c y x : Nat) :
    (padded live plane).index c y x = (channelFirst plane).index c y x := rfl

/-- A cell of the window is a cell of the plane. -/
theorem plane_cell (fits : live.fitsWithin plane = true) {y x : Nat} (rows : y < live.height)
    (columns : x < live.width) : y < plane.height ∧ x < plane.width := by
  simp only [Extent.fitsWithin, Bool.and_eq_true, decide_eq_true_eq] at fits
  omega

/-- A board inside larger planes keeps its places apart, row by row of the
planes. -/
theorem padded_separates (fits : live.fitsWithin plane = true) (channels : Nat) :
    (padded live plane).Separates channels := by
  intro c y x c' y' x' here there same
  obtain ⟨rows, columns⟩ := plane_cell fits here.2.1 here.2.2
  obtain ⟨rows', columns'⟩ := plane_cell fits there.2.1 there.2.2
  exact channelFirst_injective plane rows columns rows' columns' same

/-- Planes of the larger extent are long enough for the window. -/
theorem padded_required_le (fits : live.fitsWithin plane = true) (channels : Nat) :
    (padded live plane).required channels ≤ channels * plane.cells := by
  apply required_le
  intro c y x here
  obtain ⟨rows, columns⟩ := plane_cell fits here.2.1 here.2.2
  exact channelFirst_lt plane here.1 rows columns

/-- A cell of the plane outside the window is stored at a position of its own. -/
theorem padding_apart (fits : live.fitsWithin plane = true) {channels c y x c' y' x' : Nat}
    (rows : y < plane.height) (columns : x < plane.width)
    (outside : live.contains y x = false)
    (inside : (padded live plane).Live channels c' y' x') :
    (padded live plane).index c' y' x' ≠ (padded live plane).index c y x := by
  intro same
  obtain ⟨rows', columns'⟩ := plane_cell fits inside.2.1 inside.2.2
  obtain ⟨_, rfl, rfl⟩ := channelFirst_injective plane rows' columns' rows columns same
  rw [(live.contains_iff y' x').mpr inside.2] at outside
  exact Bool.noConfusion outside

end

end Layout

end BoardEval
