import BoardEval.Proofs.Corners
import Mathlib.Data.Set.Function
import Mathlib.Order.Interval.Set.Defs

/-!
# Layouts as one-to-one maps

A layout without gaps numbers the places of its window: each position below the number of
channels times the number of cells is the position of exactly one place, whichever of the two
orders the layout has. Nothing is left over, so that number is the length it requires.

A layout in planes of a larger extent leaves gaps. It takes each place to where the larger
plane stores the cell of the same row and column. Division by the size of a plane and then by
its width finds the place again, so a short row never runs on into the next row of the plane,
nor the last row into the next plane; what the window does not take is padding.

Both are facts about natural numbers. As long as the products of the sides and the number of
channels are machine words, no guard on the way to a position stops.
-/

namespace BoardEval

namespace Extent

/-- The planes of an extent can be counted in machine words: one row, one plane, and all of
them together. -/
structure PlanesInWord (e : Extent) (channels : Nat) : Prop where
  width : e.width < wordLimit
  cells : e.cells < wordLimit
  size : channels * e.cells < wordLimit

/-- All products that a layout without gaps is made of are machine words, in either order. -/
structure InWord (e : Extent) (channels : Nat) : Prop extends e.PlanesInWord channels where
  row : e.width * channels < wordLimit
  channels : channels < wordLimit

/-- The plane, the row and the column of a position in planes that follow each other. -/
def locate (plane : Extent) (i : Nat) : Nat × Nat × Nat :=
  (i / plane.cells, i % plane.cells / plane.width, i % plane.cells % plane.width)

/-- The positions in planes at which cells of the board `live` are stored, when it lies in the
top-left corner of each plane. -/
def livePositions (live plane : Extent) (channels : Nat) : Set Nat :=
  {i | i < channels * plane.cells ∧
    live.contains (plane.locate i).2.1 (plane.locate i).2.2 = true}

/-- A position in planes tells the plane, the row and the column. The cells of a plane are
fewer than its size, and the columns of a row fewer than its width. -/
theorem locate_index (plane : Extent) (c : Nat) {y x : Nat} (rows : y < plane.height)
    (columns : x < plane.width) :
    plane.locate ((Layout.channelFirst plane).index c y x) = (c, y, x) := by
  have cell : y * plane.width + x < plane.cells := by
    have next := Nat.mul_le_mul_right plane.width (show y + 1 ≤ plane.height from rows)
    rw [Nat.add_mul, Nat.one_mul, Nat.mul_comm plane.height] at next
    unfold cells
    omega
  have index : (Layout.channelFirst plane).index c y x =
      c * plane.cells + (y * plane.width + x) := by
    simp only [Layout.index, Layout.channelFirst, Nat.mul_one, Nat.add_assoc]
  obtain ⟨planes, rest⟩ := Tensor.row_digits c cell
  obtain ⟨row, column⟩ := Tensor.row_digits y columns
  rw [locate, index, planes, rest, row, column]

end Extent

namespace Layout

/-- The places of the window. -/
def window (l : Layout) (channels : Nat) : Set (Nat × Nat × Nat) :=
  {place | l.Live channels place.1 place.2.1 place.2.2}

/-- The position of a place. -/
def position (l : Layout) (place : Nat × Nat × Nat) : Nat := l.index place.1 place.2.1 place.2.2

/-- A layout can be used on the machine: its strides are machine words, and the position of
each place is found without a guard stopping on the way. -/
structure Addressed (l : Layout) (channels : Nat) : Prop where
  strides : l.inWord = .ok l
  found : ∀ place ∈ l.window channels, l.placeStepwise place = .ok (l.position place)

/-- Strides that are machine words and positions below such a word are all that is needed. -/
theorem Addressed.of_bound {l : Layout} {channels size : Nat} (word : size < wordLimit)
    (strides : l.inWord = .ok l)
    (below : ∀ {c y x}, l.Live channels c y x → l.index c y x < size) :
    l.Addressed channels where
  strides := strides
  found := by
    rintro ⟨c, y, x⟩ live
    rw [placeStepwise, indexStepwise_eq]
    exact fitsWord_ok (Nat.lt_trans (below live) word)

section

variable (e : Extent) (channels : Nat) (last : Bool)

/-- A layout without gaps numbers its places. -/
theorem dense_bijective :
    Set.BijOn (dense e channels last).position ((dense e channels last).window channels)
      (Set.Iio (channels * e.cells)) := by
  refine ⟨?_, ?_, ?_⟩
  · rintro ⟨c, y, x⟩ live
    exact dense_lt e channels last live
  · rintro ⟨c, y, x⟩ live ⟨c', y', x'⟩ live' same
    obtain ⟨rfl, rfl, rfl⟩ := dense_separates e channels last live live' same
    rfl
  · intro i inside
    obtain ⟨c, y, x, live, here⟩ := dense_covers e channels last inside
    exact ⟨(c, y, x), live, here⟩

/-- So it requires one value for each place, and none for a window without places: the last
number is that of a place. -/
theorem dense_required : (dense e channels last).required channels = channels * e.cells := by
  apply Nat.le_antisymm (dense_required_le e channels last)
  by_cases none : channels * e.cells = 0
  · rw [none]
    exact Nat.zero_le _
  · obtain ⟨c, y, x, live, here⟩ := dense_covers e channels last
      (show channels * e.cells - 1 < channels * e.cells by omega)
    have reached := (dense e channels last).index_lt_required live
    omega

/-- Dense tensors whose values are counted in a word have all their places in a
word, in either order of channels. -/
theorem dense_addressed (words : e.InWord channels) :
    (dense e channels last).Addressed channels := by
  apply Addressed.of_bound words.size
  · cases last with
    | false => exact if_pos ⟨words.cells, words.width, one_lt_wordLimit⟩
    | true => exact if_pos ⟨one_lt_wordLimit, words.row, words.channels⟩
  · exact dense_lt e channels last

end

section

variable {live plane : Extent} (fits : live.fitsWithin plane = true) (channels : Nat)
include fits

/-- A place of the window is that place of the larger planes. -/
theorem padded_locate {place : Nat × Nat × Nat}
    (inside : place ∈ (padded live plane).window channels) :
    plane.locate ((padded live plane).position place) = place := by
  obtain ⟨c, y, x⟩ := place
  obtain ⟨rows, columns⟩ := plane_cell fits inside.2.1 inside.2.2
  exact plane.locate_index c rows columns

/-- The window in larger planes takes exactly the positions of live cells. A position in the
planes is that of some cell of them, and it is live exactly if that cell lies on the board. -/
theorem padded_bijective :
    Set.BijOn (padded live plane).position ((padded live plane).window channels)
      (live.livePositions plane channels) := by
  refine ⟨?_, ?_, ?_⟩
  · rintro ⟨c, y, x⟩ inside
    obtain ⟨rows, columns⟩ := plane_cell fits inside.2.1 inside.2.2
    refine ⟨channelFirst_lt plane inside.1 rows columns, ?_⟩
    rw [padded_locate fits channels inside]
    exact (live.contains_iff y x).mpr inside.2
  · intro place inside place' inside' same
    rw [← padded_locate fits channels inside, same, padded_locate fits channels inside']
  · rintro i ⟨inside, onBoard⟩
    obtain ⟨c, y, x, ⟨channel, rows, columns⟩, rfl⟩ := dense_covers plane channels false inside
    refine ⟨(c, y, x), ⟨channel, ?_⟩, rfl⟩
    rw [dense_extent] at rows columns
    have located := plane.locate_index c rows columns
    rw [show (dense plane channels false).index c y x = (channelFirst plane).index c y x from rfl,
      located] at onBoard
    exact (live.contains_iff y x).mp onBoard

/-- So do padded planes, if all cells of the planes are counted, not only the live
ones. -/
theorem padded_addressed (words : plane.PlanesInWord channels) :
    (padded live plane).Addressed channels := by
  apply Addressed.of_bound words.size
  · exact if_pos ⟨words.cells, words.width, one_lt_wordLimit⟩
  · intro c y x inside
    obtain ⟨rows, columns⟩ := plane_cell fits inside.2.1 inside.2.2
    exact channelFirst_lt plane inside.1 rows columns

end

/-- Layouts store each place at a position of its own. Without gaps, in either order, the
positions of the window are exactly those below the number of channels times the number of
cells, which is therefore the length that the layout requires. In larger planes the position of
a place is that of its channel, row and column there, and the positions of the window are
exactly those of live cells, so that none of them is in the padding of any channel. Where the
products of sides and channels are machine words, nothing overflows on the way. -/
theorem index_maps_faithful (e live plane : Extent) (channels : Nat) :
    (e.InWord channels → ∀ last,
      (dense e channels last).Addressed channels ∧
      Set.BijOn (dense e channels last).position ((dense e channels last).window channels)
        (Set.Iio (channels * e.cells)) ∧
      (dense e channels last).requiredStepwise channels = .ok (channels * e.cells)) ∧
    (live.fitsWithin plane = true →
      (plane.PlanesInWord channels → (padded live plane).Addressed channels) ∧
      Set.BijOn (padded live plane).position ((padded live plane).window channels)
        (live.livePositions plane channels) ∧
      ∀ place ∈ (padded live plane).window channels,
        plane.locate ((padded live plane).position place) = place) := by
  constructor
  · intro words last
    refine ⟨dense_addressed e channels last words, dense_bijective e channels last, ?_⟩
    rw [requiredStepwise_eq, requiredInWord, dense_required]
    exact fitsWord_ok words.size
  · intro fits
    exact ⟨padded_addressed fits channels, padded_bijective fits channels,
      fun place inside => padded_locate fits channels inside⟩

/-- On a board of three columns and two rows with two channels, alone and in square planes. -/
theorem index_maps_faithful_rectangle :
    let e : Extent := ⟨3, 2⟩
    let plane : Extent := .square 3
    e.InWord 2 ∧ e.fitsWithin plane = true ∧ plane.PlanesInWord 2 ∧
      Set.BijOn (channelLast e 2).position ((channelLast e 2).window 2) (Set.Iio 12) ∧
      (channelLast e 2).requiredStepwise 2 = .ok 12 ∧
      (padded e plane).placeStepwise (1, 1, 2) = .ok 14 ∧ plane.locate 14 = (1, 1, 2) := by
  intro e plane
  have boardWords : e.PlanesInWord 2 := by constructor <;> decide
  have words : e.InWord 2 := ⟨boardWords, by decide, by decide⟩
  have fits : e.fitsWithin plane = true := by decide
  have planeWords : plane.PlanesInWord 2 := by constructor <;> decide
  obtain ⟨dense, padded⟩ := index_maps_faithful e e plane 2
  obtain ⟨_, numbered, required⟩ := dense words true
  obtain ⟨addressed, _, located⟩ := padded fits
  have inside : (1, 1, 2) ∈ (Layout.padded e plane).window 2 :=
    ⟨by decide, by decide, by decide⟩
  exact ⟨words, fits, planeWords, numbered, required, (addressed planeWords).found _ inside,
    located _ inside⟩

end Layout

end BoardEval
