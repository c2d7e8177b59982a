import BoardEval.Config
import BoardEval.Descriptor
import BoardEval.Tensor.Rows

/-!
# Batch pools

A pool owns the tensors of a batch: what goes into a network and what comes
out, each with one row per request. Spatial rows are planes of the extent that
the network is compiled for; a smaller board occupies the live window in the
top-left corner of every plane, and the rest of a plane is padding.

A pool is made once, full of zeros, and then reused. A batch uses the first
rows; an engine is shown exactly those rows and can write nothing else.
-/

namespace BoardEval

/-- The extents and channel counts from which all widths of a pool follow. -/
structure PoolShape where
  /-- The live board. -/
  board : Extent
  /-- The planes that hold it. -/
  plane : Extent
  spatial : Nat
  globals : Nat
  policy : Nat
  value : Nat
  ownership : Nat
  deriving DecidableEq, Repr

namespace PoolShape

/-- The channels of a model on a board that lies in larger or equal planes. -/
def ofDescriptor (d : Descriptor) (board plane : Extent) : PoolShape :=
  ⟨board, plane, d.spatial, d.globals, d.policy, d.value, d.ownership⟩

/-- Values of a dense request tensor. -/
def denseSpatial (s : PoolShape) : Nat := s.spatial * s.board.cells

/-- Width of a spatial row. -/
def spatialWidth (s : PoolShape) : Nat := s.spatial * s.plane.cells

/-- Width of a policy row. -/
def policyWidth (s : PoolShape) : Nat := s.plane.cells * s.policy

/-- Width of an ownership row. -/
def ownershipWidth (s : PoolShape) : Nat := s.ownership * s.plane.cells

/-- Where the live window lies in the planes of spatial, policy and ownership
rows. -/
def layout (s : PoolShape) : Layout := .padded s.board s.plane

/-- A shape whose board fits its planes and whose widths all fit in a machine
word. -/
def create (d : Descriptor) (board plane : Extent) : Except Fault PoolShape := do
  require (board.fitsWithin plane)
    ("board extent " ++ board.text ++ " exceeds compiled extent " ++ plane.text)
  let s := ofDescriptor d board plane
  let widths := [board.cells + 1, plane.cells, s.denseSpatial, s.spatialWidth,
    s.ownership * board.cells, s.ownershipWidth]
  requireImplicit (widths.all fun width => decide (width < wordLimit))
  return s

end PoolShape

/-- Storage for the batches of one handle: for every tensor as many rows as a batch
may have requests. Batches write over each other, so a row keeps what an earlier
batch left where a later one writes nothing. -/
structure Pool where
  capacity : Nat
  shape : PoolShape
  modelName : String
  spatial : Rows
  globals : Rows
  policy : Rows
  pass : Rows
  value : Rows
  ownership : Rows
  score : Rows
  /-- The blended policy of each row, in canonical orientation, while the row is
  decoded. -/
  blended : Rows

/-- What a network is shown: the spatial and global rows of a batch. -/
structure BatchInputs where
  spatial : Tensor
  globals : Tensor
  spatialChannels : Nat
  globalChannels : Nat
  plane : Extent

/-- What a network fills: the rows of a batch in each output tensor. -/
structure BatchOutputs where
  policy : Tensor
  pass : Tensor
  value : Tensor
  ownership : Tensor
  score : Tensor
  policyChannels : Nat
  ownershipChannels : Nat
  plane : Extent

namespace BatchInputs

/-- The number of rows of input tensors of the given lengths, read off the global
tensor, or off the spatial tensor of a network without globals. -/
def rowCount (spatialLength globalLength spatialChannels globalChannels : Nat) (plane : Extent) :
    Except Fault Nat :=
  if 0 < globalChannels then .ok (globalLength / globalChannels)
  else do
    let cells ← plane.cellsInWord
    let width ← fitsWord (spatialChannels * cells)
    return spatialLength / max width 1

/-- The number of rows. -/
def batchSize (b : BatchInputs) : Except Fault Nat :=
  rowCount b.spatial.size b.globals.size b.spatialChannels b.globalChannels b.plane

end BatchInputs

namespace Pool

/-- Zero rows for `capacity` requests. -/
def blank (shape : PoolShape) (modelName : String) (capacity : Nat) : Pool where
  capacity := capacity
  shape := shape
  modelName := modelName
  spatial := .zeros capacity shape.spatialWidth
  globals := .zeros capacity shape.globals
  policy := .zeros capacity shape.policyWidth
  pass := .zeros capacity shape.policy
  value := .zeros capacity valueSlots
  ownership := .zeros capacity shape.ownershipWidth
  score := .zeros capacity scoreSlots
  blended := .zeros capacity shape.board.cells

/-- A pool for a valid descriptor, a playable board and at least one row, whose
board fits the planes. It is a fault if one tensor is too large to allocate. -/
def create (d : Descriptor) (capacity : Nat) (board plane : Extent) :
    Except (Failure SetupError) Pool := do
  d.validate
  board.validate
  if capacity = 0 then
    throw (.error (.invalidConfig .emptyBatch))
  if !board.fitsWithin plane then
    throw (.error (.invalidConfig (.extentTooLarge board plane)))
  let shape ← PoolShape.create d board plane
  let widths := [shape.spatialWidth, shape.globals, shape.policyWidth, shape.policy, valueSlots,
    shape.ownershipWidth, scoreSlots, board.cells]
  requireImplicit (widths.all fun width => decide (4 * (capacity * width) ≤ allocationLimit))
  return blank shape d.name capacity

/-- Whether a cell of a plane belongs to the live window. -/
def inLiveWindow (p : Pool) (y x : Nat) : Bool := p.shape.board.contains y x

/-- Cells of a plane outside the live window. -/
def paddingCells (p : Pool) : List (Nat × Nat) :=
  p.shape.plane.positions.filter fun (y, x) => !p.inLiveWindow y x

/-- Whether every spatial value outside the live window is zero, of either
sign. -/
def paddingIsClear (p : Pool) : Bool :=
  let layout := Layout.channelFirst p.shape.plane
  (List.range p.capacity).all fun r =>
    (List.range p.shape.spatial).all fun c =>
      p.paddingCells.all fun (y, x) =>
        (p.spatial.data.valueAt (r * p.spatial.width + layout.index c y x)).isZero

/-- The promise that a batch has between one and `limit` rows. -/
def requireBatch (n limit : Nat) : Except Fault Unit :=
  require (decide (1 ≤ n) && decide (n ≤ limit))
    ("batch size " ++ toString n ++ " outside 1..=" ++ toString limit)

/-- The input rows of a batch. -/
def inputs (p : Pool) (n : Nat) : BatchInputs where
  spatial := p.spatial.firstRows n
  globals := p.globals.firstRows n
  spatialChannels := p.shape.spatial
  globalChannels := p.shape.globals
  plane := p.shape.plane

/-- The output rows of a batch. -/
def outputs (p : Pool) (n : Nat) : BatchOutputs where
  policy := p.policy.firstRows n
  pass := p.pass.firstRows n
  value := p.value.firstRows n
  ownership := p.ownership.firstRows n
  score := p.score.firstRows n
  policyChannels := p.shape.policy
  ownershipChannels := p.shape.ownership
  plane := p.shape.plane

/-- Replace the input rows of one request. -/
def setInputRow (p : Pool) (r : Nat) (spatial globals : Tensor) : Pool :=
  { p with spatial := p.spatial.setRow r spatial, globals := p.globals.setRow r globals }

/-- Replace the blended policy of one request. -/
def setBlendedRow (p : Pool) (r : Nat) (plane : Tensor) : Pool :=
  { p with blended := p.blended.setRow r plane }

/-- The rows of a batch, input and output. -/
def batch (p : Pool) (n : Nat) : Except Fault (BatchInputs × BatchOutputs) := do
  requireBatch n p.capacity
  return (p.inputs n, p.outputs n)

/-- Put the output rows of a batch back. -/
def store (p : Pool) (n : Nat) (out : BatchOutputs) : Pool :=
  { p with
    policy := p.policy.setFirstRows n out.policy
    pass := p.pass.setFirstRows n out.pass
    value := p.value.setFirstRows n out.value
    ownership := p.ownership.setFirstRows n out.ownership
    score := p.score.setFirstRows n out.score }

end Pool

end BoardEval
