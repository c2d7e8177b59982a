import BoardEval.Proofs.Copies

/-!
# Turning a window and turning it back

Boards are stored in three ways: channel-first, channel-last, or in the corner of
larger planes. A copy under a symmetry between any two of them is described in full
by where each place of the window is read and where it is written; every other
position of the destination keeps its value. The two directions of copying undo
each other, whatever the layouts in between are.

Nothing is asked of the sides of a board or of the number of channels. A window
without cells has no places, and a copy of it writes nothing.
-/

namespace BoardEval

namespace Layout

/-- The layouts in which a board with a number of channels is stored. -/
inductive Stores (e : Extent) (channels : Nat) : Layout → Prop where
  | channelFirst : Stores e channels (.channelFirst e)
  | channelLast : Stores e channels (.channelLast e channels)
  | padded {plane : Extent} (fits : e.fitsWithin plane = true) :
      Stores e channels (.padded e plane)

variable {e : Extent} {channels : Nat} {l : Layout}

/-- The layout is about the board that it stores. -/
theorem Stores.extent (stores : Stores e channels l) : l.extent = e := by
  cases stores <;> rfl

/-- Each of the layouts stores the places of its window apart. -/
theorem Stores.separates (stores : Stores e channels l) : l.Separates channels := by
  cases stores with
  | channelFirst => exact channelFirst_separates e channels
  | channelLast => exact channelLast_separates e channels
  | padded fits => exact padded_separates fits channels

/-- All places of the board are inside its window. -/
theorem Stores.live (stores : Stores e channels l) {c y x : Nat} (channel : c < channels)
    (row : y < e.height) (column : x < e.width) : l.Live channels c y x := by
  rw [← stores.extent] at row column
  exact ⟨channel, row, column⟩

/-- The position of the canonical image of a cell. -/
def imageIndex (l : Layout) (s : Symmetry) (e : Extent) (c y x : Nat) : Nat :=
  l.index c (s.cell e y x).1 (s.cell e y x).2

/-- The image of a place is stored inside the window as well. -/
theorem Stores.image_live (stores : Stores e channels l) (s : Symmetry) {c y x : Nat}
    (channel : c < channels) (row : y < e.height) (column : x < e.width) :
    l.Live channels c (s.cell e y x).1 (s.cell e y x).2 := by
  obtain ⟨imageRow, imageColumn⟩ := s.cell_inside e y x row column
  exact stores.live channel imageRow imageColumn

end Layout

namespace Tensor

/-- A tensor, of a length that a machine word can hold, which reaches the last corner
of a window. -/
structure Reaches (t : Tensor) (l : Layout) (channels : Nat) : Prop where
  word : t.size < wordLimit
  room : l.required channels ≤ t.size

/-- Only the length of a tensor decides how far it reaches. -/
theorem Reaches.resized {t other : Tensor} {l : Layout} {channels : Nat}
    (reaches : t.Reaches l channels) (same : other.size = t.size) : other.Reaches l channels :=
  ⟨same ▸ reaches.word, same ▸ reaches.room⟩

/-- `out` is `dst` but for the window: for every place, the value that `src` has at one
position stands at another. Both positions lie inside their tensors. -/
structure Carried (e : Extent) (channels : Nat) (source target : Nat → Nat → Nat → Nat)
    (src dst out : Tensor) : Prop where
  size : out.size = dst.size
  inside : ∀ c < channels, ∀ y < e.height, ∀ x < e.width,
    source c y x < src.size ∧ target c y x < dst.size
  moved : ∀ c < channels, ∀ y < e.height, ∀ x < e.width,
    out.valueAt (target c y x) = src.valueAt (source c y x)
  kept : ∀ i, (∀ c < channels, ∀ y < e.height, ∀ x < e.width, target c y x ≠ i) →
    out.valueAt i = dst.valueAt i

section

variable {e : Extent} {channels : Nat} {srcLayout dstLayout : Layout}
  (srcStores : srcLayout.Stores e channels) (dstStores : dstLayout.Stores e channels)
  {src dst : Tensor} (srcReaches : src.Reaches srcLayout channels)
  (dstReaches : dst.Reaches dstLayout channels) (s : Symmetry)
include srcStores dstStores srcReaches dstReaches

/-- A copy to canonical orientation carries every place to the image of its cell. -/
theorem toCanonical_carried :
    ∃ out, copyToCanonical src srcLayout dst dstLayout channels s = .ok out ∧
      Carried e channels srcLayout.index (dstLayout.imageIndex s e) src dst out := by
  have extents : srcLayout.extent = dstLayout.extent :=
    srcStores.extent.trans dstStores.extent.symm
  refine ⟨_, copyToCanonical_ok extents
    (Nat.lt_of_le_of_lt srcReaches.room srcReaches.word) srcReaches.room
    (Nat.lt_of_le_of_lt dstReaches.room dstReaches.word) dstReaches.room, ?_⟩
  constructor
  case size => exact size_move _ _ _
  case inside =>
    intro c channel y row x column
    have source := srcLayout.index_lt_required (srcStores.live channel row column)
    have image := dstLayout.index_lt_required (dstStores.image_live s channel row column)
    exact ⟨Nat.lt_of_lt_of_le source srcReaches.room, Nat.lt_of_lt_of_le image dstReaches.room⟩
  case moved =>
    intro c channel y row x column
    obtain rfl := srcStores.extent
    exact value_toCanonical extents dstStores.separates dstReaches.room
      (srcStores.live channel row column)
  case kept =>
    intro i elsewhere
    apply value_move_other
    intro m listed
    obtain ⟨c, y, x, ⟨channel, row, column⟩, rfl⟩ := (mem_movesToCanonical m).mp listed
    rw [srcStores.extent] at row column ⊢
    exact elsewhere c channel y row x column

/-- A copy from canonical orientation fetches every place from the image of its cell. -/
theorem fromCanonical_carried :
    ∃ out, copyFromCanonical src srcLayout dst dstLayout channels s = .ok out ∧
      Carried e channels (srcLayout.imageIndex s e) dstLayout.index src dst out := by
  have extents : srcLayout.extent = dstLayout.extent :=
    srcStores.extent.trans dstStores.extent.symm
  refine ⟨_, copyFromCanonical_ok extents
    (Nat.lt_of_le_of_lt srcReaches.room srcReaches.word) srcReaches.room
    (Nat.lt_of_le_of_lt dstReaches.room dstReaches.word) dstReaches.room, ?_⟩
  constructor
  case size => exact size_move _ _ _
  case inside =>
    intro c channel y row x column
    have image := srcLayout.index_lt_required (srcStores.image_live s channel row column)
    have target := dstLayout.index_lt_required (dstStores.live channel row column)
    exact ⟨Nat.lt_of_lt_of_le image srcReaches.room, Nat.lt_of_lt_of_le target dstReaches.room⟩
  case moved =>
    intro c channel y row x column
    obtain rfl := srcStores.extent
    exact value_fromCanonical extents dstStores.separates dstReaches.room
      (dstStores.live channel row column)
  case kept =>
    intro i elsewhere
    apply value_move_other
    intro m listed
    obtain ⟨c, y, x, ⟨channel, row, column⟩, rfl⟩ := (mem_movesFromCanonical m).mp listed
    rw [srcStores.extent] at row column
    exact elsewhere c channel y row x column

end

/-- Two tensors hold the same window, each in its own layout, bit for bit. -/
def SameWindow (e : Extent) (channels : Nat) (left : Tensor) (leftLayout : Layout)
    (right : Tensor) (rightLayout : Layout) : Prop :=
  ∀ c < channels, ∀ y < e.height, ∀ x < e.width,
    left.valueAt (leftLayout.index c y x) = right.valueAt (rightLayout.index c y x)

variable {e : Extent} {channels : Nat}

/-- What is carried on from the positions that it was carried to is the first
tensor's value. -/
theorem Carried.chain {source middle target : Nat → Nat → Nat → Nat}
    {src mid turned last back : Tensor} (first : Carried e channels source middle src mid turned)
    (second : Carried e channels middle target turned last back) :
    ∀ c < channels, ∀ y < e.height, ∀ x < e.width,
      back.valueAt (target c y x) = src.valueAt (source c y x) := by
  intro c channel y row x column
  rw [second.moved c channel y row x column, first.moved c channel y row x column]

/-- Tensors that agree at the images of all cells agree on the window: every canonical
cell is the image of one. -/
theorem sameWindow_of_images (s : Symmetry) {left right : Tensor} {leftLayout rightLayout : Layout}
    (images : ∀ c < channels, ∀ y < e.height, ∀ x < e.width,
      left.valueAt (leftLayout.imageIndex s e c y x) =
        right.valueAt (rightLayout.imageIndex s e c y x)) :
    SameWindow e channels left leftLayout right rightLayout := by
  intro c channel row rows column columns
  obtain ⟨rowSource, columnSource⟩ := s.source_inside e row column rows columns
  have same := images c channel _ rowSource _ columnSource
  simp only [Layout.imageIndex, s.cell_source e row column rows columns] at same
  exact same

/-- A copy under a symmetry succeeds on tensors that are long enough. To canonical
orientation it writes the value of every place at the image of its cell, from canonical
orientation it writes the value at the image at the place, and either way it writes
nothing else. A copy in the other direction, on to any layout of the board, brings the
window back. -/
theorem copies_exact (s : Symmetry) (e : Extent) (channels : Nat)
    {srcLayout midLayout lastLayout : Layout} (srcStores : srcLayout.Stores e channels)
    (midStores : midLayout.Stores e channels) (lastStores : lastLayout.Stores e channels)
    {src mid last : Tensor} (srcReaches : src.Reaches srcLayout channels)
    (midReaches : mid.Reaches midLayout channels)
    (lastReaches : last.Reaches lastLayout channels) :
    (∃ turned, copyToCanonical src srcLayout mid midLayout channels s = .ok turned ∧
      Carried e channels srcLayout.index (midLayout.imageIndex s e) src mid turned ∧
      ∃ back, copyFromCanonical turned midLayout last lastLayout channels s = .ok back ∧
        SameWindow e channels back lastLayout src srcLayout) ∧
    (∃ turned, copyFromCanonical src srcLayout mid midLayout channels s = .ok turned ∧
      Carried e channels (srcLayout.imageIndex s e) midLayout.index src mid turned ∧
      ∃ back, copyToCanonical turned midLayout last lastLayout channels s = .ok back ∧
        SameWindow e channels back lastLayout src srcLayout) := by
  constructor
  · obtain ⟨turned, copied, carried⟩ :=
      toCanonical_carried srcStores midStores srcReaches midReaches s
    obtain ⟨back, returned, again⟩ := fromCanonical_carried midStores lastStores
      (midReaches.resized carried.size) lastReaches s
    exact ⟨turned, copied, carried, back, returned, carried.chain again⟩
  · obtain ⟨turned, copied, carried⟩ :=
      fromCanonical_carried srcStores midStores srcReaches midReaches s
    obtain ⟨back, returned, again⟩ := toCanonical_carried midStores lastStores
      (midReaches.resized carried.size) lastReaches s
    exact ⟨turned, copied, carried, back, returned, sameWindow_of_images s (carried.chain again)⟩

/-- Two channels of a board of three columns and two rows, channel-last, through planes of
five columns and four rows to channel-first. On a board that is not square the symmetry
flips and does not transpose. -/
theorem copies_exact_sample :
    let board : Extent := ⟨3, 2⟩
    let plane : Extent := ⟨5, 4⟩
    let s : Symmetry := ⟨true, true, true⟩
    let src : Tensor := #[⟨1⟩, ⟨2⟩, ⟨3⟩, ⟨4⟩, ⟨5⟩, ⟨6⟩, ⟨7⟩, ⟨8⟩, ⟨9⟩, ⟨10⟩, ⟨11⟩, ⟨12⟩]
    (Layout.channelLast board 2).Stores board 2 ∧ (Layout.padded board plane).Stores board 2 ∧
      (Layout.channelFirst board).Stores board 2 ∧
      src.Reaches (.channelLast board 2) 2 ∧ (zeros 40).Reaches (.padded board plane) 2 ∧
      (zeros 12).Reaches (.channelFirst board) 2 ∧
      ∃ turned, copyToCanonical src (.channelLast board 2) (zeros 40) (.padded board plane) 2 s =
          .ok turned ∧
        ∃ back, copyFromCanonical turned (.padded board plane) (zeros 12) (.channelFirst board) 2 s =
            .ok back ∧
          SameWindow board 2 back (.channelFirst board) src (.channelLast board 2) := by
  intro board plane s src
  have last : (Layout.channelLast board 2).Stores board 2 := .channelLast
  have padded : (Layout.padded board plane).Stores board 2 := .padded (by decide)
  have first : (Layout.channelFirst board).Stores board 2 := .channelFirst
  have source : src.Reaches (.channelLast board 2) 2 := ⟨by decide, by decide⟩
  have middle : (zeros 40).Reaches (.padded board plane) 2 :=
    ⟨by rw [size_zeros]; decide, by rw [size_zeros]; decide⟩
  have target : (zeros 12).Reaches (.channelFirst board) 2 :=
    ⟨by rw [size_zeros]; decide, by rw [size_zeros]; decide⟩
  obtain ⟨turned, copied, _, back, returned, window⟩ :=
    (copies_exact s board 2 last padded first source middle target).1
  exact ⟨last, padded, first, source, middle, target, turned, copied, back, returned, window⟩

end Tensor

end BoardEval
