import BoardEval.Pool
import BoardEval.Request

/-!
# Decoding output rows

A row of a network's output becomes the evaluation of one request: the policy
is blended from one or two planes and turned back to the orientation of the
request, the pass beside it is blended alike, ownership is turned back if the
evaluation has room for it, and the score slots are read by a table that
depends on the network's version.
-/

namespace BoardEval

open Number (Single Double)

/-- Linear blend of the base and the optimistic policy, computed in double
precision and narrowed at the end. -/
def blend (base optimistic : Single) (optimism : Double) : Single :=
  let kept := base.toDouble.mul (Double.one.sub optimism)
  let gained := optimistic.toDouble.mul optimism
  (kept.add gained).toSingle

/-- Read the score slots of a network of the given version. Early networks have
no second moment, so it is the square of the mean; later ones add the lead, and
then the three remaining statistics. -/
def ScoreStatistics.ofSlots (slots : Tensor) (version : Int) : Except Fault ScoreStatistics := do
  require (decide (6 ≤ slots.size))
    ("score block needs at least 6 slots, got " ++ toString slots.size)
  let mean := slots.valueAt 0
  return {
    mean := mean
    meanSquare := if 4 ≤ version then slots.valueAt 1 else mean.mul mean
    lead := if 8 ≤ version then slots.valueAt 2 else mean
    timeLeftVariance := if 9 ≤ version then slots.valueAt 3 else .zero
    winLossError := if 9 ≤ version then slots.valueAt 4 else .zero
    scoreError := if 9 ≤ version then slots.valueAt 5 else .zero }

namespace Pool

/-- The blended policy of a row as writes to a dense plane in canonical
orientation. -/
def blendWrites (s : PoolShape) (row : Tensor) (optimism : Double) : List (Nat × Single) :=
  let padded := s.layout
  let dense := Layout.channelFirst s.board
  let second := s.plane.cells
  s.board.positions.map fun (y, x) =>
    let i := padded.index 0 y x
    (dense.index 0 y x, blend (row.valueAt i) (row.valueAt (second + i)) optimism)

/-- Blend the policy of row `r` into the plane that the pool keeps for it. -/
def blendRow (p : Pool) (r : Nat) (row : Tensor) (optimism : Double) :
    Except Fault (Pool × Tensor) := do
  let plane ← p.blended.row r
  let plane := plane.write (blendWrites p.shape row optimism)
  return (p.setBlendedRow r plane, plane)

/-- Write the policy of every cell, in request orientation, and of the pass.
With one channel the base plane is copied; otherwise the first two channels are
blended. -/
def decodePolicy (p : Pool) (r : Nat) (request : Request) (out : Evaluation) :
    Except Fault (Pool × Evaluation) := do
  let row ← p.policy.row r
  let pass ← p.pass.row r
  let board := p.shape.board
  let cells := board.cells
  requireImplicit (decide (cells ≤ out.policy.size))
  let cellPart := out.policy.extract 0 cells
  let passPart := out.policy.extract cells out.policy.size
  requireImplicit (!passPart.isEmpty)
  let dense := Layout.channelFirst board
  if p.shape.policy = 1 then
    let turned ← Tensor.copyFromCanonical row p.shape.layout cellPart dense 1 request.symmetry
    return (p, { out with policy := turned ++ passPart.setIfInBounds 0 (pass.valueAt 0) })
  else
    let (p, plane) ← p.blendRow r row request.optimism
    let blended := blend (pass.valueAt 0) (pass.valueAt 1) request.optimism
    let turned ← Tensor.copyFromCanonical plane dense cellPart dense 1 request.symmetry
    return (p, { out with policy := turned ++ passPart.setIfInBounds 0 blended })

/-- Write win, loss and no result as they stand. -/
def decodeValue (p : Pool) (r : Nat) (out : Evaluation) : Except Fault Evaluation := do
  let row ← p.value.row r
  return { out with win := row.valueAt 0, loss := row.valueAt 1, noResult := row.valueAt 2 }

/-- Write the ownership of every cell, in request orientation, if the evaluation
has room for it. -/
def decodeOwnership (p : Pool) (r : Nat) (s : Symmetry) (out : Evaluation) :
    Except Fault Evaluation :=
  match out.ownership with
  | none => .ok out
  | some map => do
    let row ← p.ownership.row r
    let dense := Layout.channelFirst p.shape.board
    let turned ← Tensor.copyFromCanonical row p.shape.layout map dense 1 s
    return { out with ownership := some turned }

/-- Write the score statistics. -/
def decodeScore (p : Pool) (r : Nat) (version : Int) (out : Evaluation) :
    Except Fault Evaluation := do
  let row ← p.score.row r
  let statistics ← ScoreStatistics.ofSlots row version
  return { out with score := statistics }

/-- The promises of a decoding: the evaluation is made for the pool's board and
has one policy value per cell and one for the pass. -/
def checkRoom (p : Pool) (out : Evaluation) : Except Fault Unit := do
  let board := p.shape.board
  require (out.extent = board)
    ("output extent " ++ out.extent.text ++ " does not match buffer extent " ++ board.text)
  require (out.policy.size == board.cells + 1)
    "policy array must hold every cell plus the pass slot"

/-- Write parts of an evaluation in order, up to the first that faults. What was
written before it stays written. -/
def writeParts (out : Evaluation) :
    List (Evaluation → Except Fault Evaluation) → Evaluation × Except Fault Unit
  | [] => (out, .ok ())
  | part :: rest =>
    match part out with
    | .error broken => (out, .error broken)
    | .ok out => writeParts out rest

/-- Write every part of an evaluation. -/
def decodeRow (p : Pool) (r : Nat) (request : Request) (out : Evaluation) (version : Int) :
    Pool × Evaluation × Except Fault Unit :=
  match p.checkRoom out with
  | .error broken => (p, out, .error broken)
  | .ok () =>
    match p.decodePolicy r request out with
    | .error broken => (p, out, .error broken)
    | .ok (p, out) =>
      (p, writeParts out
        [p.decodeValue r, p.decodeOwnership r request.symmetry, p.decodeScore r version])

end Pool

end BoardEval
