import BoardEval.Tensor.Copy

/-!
# Requests and evaluations

A request is one position to evaluate: its feature tensors in the orientation
and channel order of the caller, the symmetry under which the network should
see it, and how far the policy should lean to the optimistic plane. An
evaluation is what comes back, in the orientation of the request and from
white's point of view.
-/

namespace BoardEval

/-- One position to be evaluated. Which symmetry the network sees it under, and how
far the optimistic policy counts, is up to whoever asks. -/
structure Request where
  /-- Dense spatial features of the live board. -/
  spatial : Tensor
  globals : Tensor
  symmetry : Symmetry
  /-- Weight of the optimistic policy plane. -/
  optimism : Number.Double
  wantsOwnership : Bool
  extent : Extent
  deriving DecidableEq

/-- A request without symmetry, optimism or ownership. -/
def Request.plain (spatial globals : Tensor) (extent : Extent) : Request :=
  ⟨spatial, globals, .identity, .zero, false, extent⟩

/-- The statistics of the score head. -/
structure ScoreStatistics where
  mean : Number.Single
  meanSquare : Number.Single
  lead : Number.Single
  timeLeftVariance : Number.Single
  winLossError : Number.Single
  scoreError : Number.Single
  deriving DecidableEq, Repr

/-- The statistics of a network without a score head, and of a new evaluation. -/
def ScoreStatistics.zero : ScoreStatistics := ⟨.zero, .zero, .zero, .zero, .zero, .zero⟩

/-- What a network says about one request, in the orientation of the request. Its
tensors are made before the evaluation and filled in place. -/
structure Evaluation where
  extent : Extent
  /-- One value per cell and a last one for the pass. -/
  policy : Tensor
  win : Number.Single
  loss : Number.Single
  noResult : Number.Single
  /-- One value per cell; absent where ownership is not wanted. -/
  ownership : Option Tensor
  score : ScoreStatistics
  deriving DecidableEq

namespace Evaluation

/-- An evaluation of zeros for a board, with room for ownership if asked for. -/
def blank (extent : Extent) (withOwnership : Bool) : Evaluation where
  extent := extent
  policy := Tensor.zeros (extent.cells + 1)
  win := .zero
  loss := .zero
  noResult := .zero
  ownership := if withOwnership then some (Tensor.zeros extent.cells) else none
  score := .zero

/-- The same for a board of any size; a fault if there are too many cells for
their number, or for the bytes of the policy, to fit in a machine word. -/
def blankChecked (extent : Extent) (withOwnership : Bool) : Except Fault Evaluation := do
  let cells ← extent.cellsInWord
  requireImplicit (decide (4 * (cells + 1) ≤ allocationLimit))
  return blank extent withOwnership

/-- Room for the answer to a request. -/
def forRequest (r : Request) : Evaluation := blank r.extent r.wantsOwnership

/-- The last policy value. -/
def passPolicy (e : Evaluation) : Except Fault Number.Single :=
  match e.policy.back? with
  | some value => .ok value
  | none => .error .implicit

/-- All policy values but the last. -/
def cellPolicy (e : Evaluation) : Except Fault Tensor :=
  if e.policy.isEmpty then .error .implicit else .ok e.policy.pop

end Evaluation

end BoardEval
