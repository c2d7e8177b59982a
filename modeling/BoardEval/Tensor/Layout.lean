import BoardEval.Extent

/-!
# Strided layouts

A layout says where the value of a channel at a cell is stored in a flat
tensor: the position is a linear function of channel, row and column. The
extent is the live window of the layout; its strides may describe a larger
allocation, whose other positions no cell of the window is stored at.

The layouts in use are channel-first and channel-last without gaps, and
channel-first planes of a larger extent with the window in the top-left corner.
Positions are natural numbers; `indexInWord` and `requiredInWord` are the same
numbers under the condition that they fit in a machine word.
-/

namespace BoardEval

/-- Where the values of a board lie in a flat tensor: one stride for each
coordinate. Nothing keeps two coordinates from the same place; layouts in use keep
them apart by their strides. -/
structure Layout where
  extent : Extent
  channelStride : Nat
  rowStride : Nat
  cellStride : Nat
  deriving DecidableEq, Repr

namespace Layout

/-- One plane after the other, without gaps. -/
def channelFirst (e : Extent) : Layout := ⟨e, e.cells, e.width, 1⟩

/-- All channels of a cell side by side, without gaps. -/
def channelLast (e : Extent) (channels : Nat) : Layout := ⟨e, 1, e.width * channels, channels⟩

/-- Without gaps, in either order. -/
def dense (e : Extent) (channels : Nat) (last : Bool) : Layout :=
  if last then channelLast e channels else channelFirst e

/-- Planes of extent `plane` with the window in the top-left corner. -/
def padded (live plane : Extent) : Layout := ⟨live, plane.cells, plane.width, 1⟩

/-- A layout all of whose strides fit in a machine word. -/
def inWord (l : Layout) : Except Fault Layout :=
  if l.channelStride < wordLimit ∧ l.rowStride < wordLimit ∧ l.cellStride < wordLimit then .ok l
  else .error .implicit

/-- Position of channel `c` at row `y` and column `x`. -/
def index (l : Layout) (c y x : Nat) : Nat :=
  c * l.channelStride + y * l.rowStride + x * l.cellStride

/-- The places of the window as (channel, row, column), one channel after the
other. Without channels there are none, however large the window is, and its
cells are not listed. -/
def places (l : Layout) (channels : Nat) : List (Nat × Nat × Nat) :=
  if channels = 0 then [] else
    let cells := l.extent.positions
    if cells.isEmpty then [] else (List.range channels).flatMap fun c => cells.map (c, ·)

/-- The place of a value, provided that it can be computed in a machine word. -/
def indexInWord (l : Layout) (c y x : Nat) : Except Fault Nat := fitsWord (l.index c y x)

/-- The least length that holds `channels` channels of the window: nothing for
an empty one, otherwise one more than the position of its last corner. -/
def required (l : Layout) (channels : Nat) : Nat :=
  if channels = 0 ∨ l.extent.width = 0 ∨ l.extent.height = 0 then 0
  else l.index (channels - 1) (l.extent.height - 1) (l.extent.width - 1) + 1

/-- The length of a tensor with room for all channels, provided that it can be
computed in a machine word. -/
def requiredInWord (l : Layout) (channels : Nat) : Except Fault Nat := fitsWord (l.required channels)

end Layout

end BoardEval
