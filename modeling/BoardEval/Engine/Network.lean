import BoardEval.Engine.Basic
import BoardEval.Tensor.Shaped

/-!
# Networks on shaped tensors

A network is a function from shaped input tensors to shaped heads, which may
fault instead. Running it over a batch reshapes the flat rows, applies the
function and writes every head back flat, one after the other; a head whose
number of values is not that of its output rows stops the run, and heads written
before it stay written.

The score head comes as one block of ten values per row, or split in a block of
four and a block of eight, of which the first six are used.

With half precision every input is rounded before the function is applied and
every head after.

Heads hold single-precision numbers. A head of another element type, which a
run would refuse with a failed execution before it looks at the number of
values, is not modelled; whatever is proved here about networks is about those
that return single-precision heads.
-/

namespace BoardEval

open Number (Single)

/-- The score head, whole or split. -/
inductive ScoreHead where
  | unified (scores : ShapedTensor 2)
  | split (main more : ShapedTensor 2)
  deriving DecidableEq

/-- What a network returns: five heads of single-precision numbers, of any
shapes, also shapes that do not fit the batch. -/
structure NetworkHeads where
  policy : ShapedTensor 4
  pass : ShapedTensor 2
  value : ShapedTensor 2
  ownership : ShapedTensor 4
  score : ScoreHead
  deriving DecidableEq

/-- A network: the function it computes and the version it was made for. -/
structure Network where
  /-- From spatial planes and globals to heads. -/
  forward : ShapedTensor 4 → ShapedTensor 2 → Except Fault NetworkHeads
  /-- The version that the network declares. -/
  version : Option Int

namespace Network

/-- Width of a row of the main block of a split score head. -/
def mainScoreSlots : Nat := 4

/-- Width of a row of the other block of a split score head. -/
def moreScoreSlots : Nat := 8

/-- Round through half precision if asked to. -/
def rounded (half : Bool) (t : Tensor) : Tensor := if half then t.map Single.throughHalf else t

/-- The flat values of a head, provided that there are as many as expected. Its
shape is not looked at. The values are single-precision numbers by their type,
so reading them cannot fail. -/
def headValues {rank : Nat} (name : String) (head : ShapedTensor rank) (half : Bool)
    (expected : Nat) : Except EngineError Tensor :=
  let values := rounded half head.values
  if values.size = expected then .ok values
  else .error (.shapeMismatch (name ++ " head produced " ++ toString values.size
    ++ " values, expected " ++ toString expected))

/-- One row of ten scores: the row of the main block and the first six values of
the row of the other. -/
def mergedRow (main more : Tensor) (r : Nat) : Tensor :=
  main.extract (r * mainScoreSlots) ((r + 1) * mainScoreSlots)
    ++ more.extract (r * moreScoreSlots) (r * moreScoreSlots + (scoreSlots - mainScoreSlots))

/-- Merge a split score head, provided that both blocks have `rows` rows. -/
def mergeScores (main more : Tensor) (rows expected : Nat) : Except EngineError Tensor :=
  if main.size = rows * mainScoreSlots ∧ more.size = rows * moreScoreSlots
      ∧ expected = rows * scoreSlots then
    .ok ((List.range rows).foldl (fun out r => out ++ mergedRow main more r) #[])
  else .error (.shapeMismatch ("score heads " ++ toString main.size ++ "+" ++ toString more.size
    ++ " do not fit " ++ toString rows ++ " rows"))

/-- The flat values of the score head. -/
def scoreValues (head : ScoreHead) (half : Bool) (rows expected : Nat) :
    Except EngineError Tensor :=
  match head with
  | .unified scores => headValues "score_values" scores half expected
  | .split main more =>
    mergeScores (rounded half main.values) (rounded half more.values) rows expected

/-- Write one head, or stop with the error of reading it. -/
def writeHead (values : Except EngineError Tensor) (set : Tensor → BatchOutputs)
    (out : BatchOutputs) : BatchRun :=
  match values with
  | .ok values => .ok (set values)
  | .error cause => .fail out cause

/-- Write all heads in a fixed order. -/
def writeHeads (heads : NetworkHeads) (half : Bool) (rows : Nat) (out : BatchOutputs) : BatchRun :=
  (writeHead (headValues "policy" heads.policy half out.policy.size)
      (fun values => { out with policy := values }) out).andThen fun out =>
  (writeHead (headValues "policy_pass" heads.pass half out.pass.size)
      (fun values => { out with pass := values }) out).andThen fun out =>
  (writeHead (headValues "value" heads.value half out.value.size)
      (fun values => { out with value := values }) out).andThen fun out =>
  (writeHead (headValues "ownership" heads.ownership half out.ownership.size)
      (fun values => { out with ownership := values }) out).andThen fun out =>
  writeHead (scoreValues heads.score half rows out.score.size)
    (fun values => { out with score := values }) out

/-- The heads that the network makes of the inputs of a batch. -/
def heads (net : Network) (half : Bool) (inputs : BatchInputs) (n : Nat) :
    Except Fault NetworkHeads := do
  let spatial ← ShapedTensor.reshape
    #v[n, inputs.spatialChannels, inputs.plane.height, inputs.plane.width]
    (rounded half inputs.spatial)
  let globals ← ShapedTensor.reshape #v[n, inputs.globalChannels] (rounded half inputs.globals)
  net.forward spatial globals

/-- Run the network over `n` rows. -/
def run (net : Network) (half : Bool) (inputs : BatchInputs) (out : BatchOutputs) (n : Nat) :
    BatchRun :=
  match net.heads half inputs n with
  | .ok heads => writeHeads heads half n out
  | .error broken => ⟨out, .error (.fault broken)⟩

end Network

end BoardEval
