import BoardEval.Engine.Host
import BoardEval.Engine.Network

/-!
# Probe networks

Forward passes that make visible what happens around a network. Echoing returns
the inputs as outputs, so that a symmetry, an offset or a stride that goes wrong
shows in the result; a sentinel also marks the padding; patterns and fixed heads
number the positions of the outputs; counting reports the shape of the batch.
-/

namespace BoardEval

open Number (Single)

namespace Probe

/-- The first plane of a spatial row. -/
def firstPlane (inputs : BatchInputs) (r : Nat) : Tensor :=
  let cells := inputs.plane.cells
  let start := r * (inputs.spatialChannels * cells)
  inputs.spatial.extract start (start + cells)

/-- The first global value of a row. -/
def firstGlobal (inputs : BatchInputs) (r : Nat) : Single :=
  inputs.globals.valueAt (r * inputs.globalChannels)

/-- Apply a row writer to every row of a batch. -/
def forRows (n : Nat) (write : BatchOutputs → Nat → BatchOutputs) (out : BatchOutputs) :
    BatchOutputs :=
  (List.range n).foldl write out

/-- A row of values computed from their indices. -/
def tabulate (n : Nat) (f : Nat → Single) : Tensor := ((List.range n).map f).toArray

/-- Write nothing: what earlier batches left stays. -/
def silent : Forward := fun _ out _ => .ok out

/-- One row of an echo: the first plane as every policy plane and as the first
ownership plane, and simple functions of the first global value elsewhere. -/
def echoRow (inputs : BatchInputs) (out : BatchOutputs) (r : Nat) : BatchOutputs :=
  let cells := inputs.plane.cells
  let plane := firstPlane inputs r
  let g := firstGlobal inputs r
  let channels := out.policyChannels
  { out with
    policy := (List.range channels).foldl
      (fun policy c => policy.overwrite ((r * channels + c) * cells) plane) out.policy
    pass := out.pass.overwrite (r * channels) (tabulate channels fun c => g.add (.ofInt c))
    value := out.value.overwrite (r * valueSlots) #[g, (Single.ofInt 1).add g.neg, .ofInt 7]
    ownership := out.ownership.overwrite (r * out.ownershipChannels * cells) plane
    score := out.score.overwrite (r * scoreSlots)
      (tabulate scoreSlots fun i => (g.mul (.ofInt 10)).add (.ofInt i)) }

/-- Return the inputs as outputs. -/
def echo : Forward := fun inputs out n => .ok (forRows n (echoRow inputs) out)

/-- Positions of padding cells in `planes` consecutive planes. -/
def paddingPositions (plane live : Extent) (planes : Nat) : List Nat :=
  let outside := plane.positions.filter fun (y, x) => !live.contains y x
  (List.range planes).flatMap fun c =>
    outside.map fun (y, x) => (Layout.channelFirst plane).index c y x

/-- The value that a sentinel puts on padding. -/
def sentinelMark : Single := .ofInt (-777)

/-- Refuse a batch whose padding is not zero; otherwise echo and mark the padding
of the outputs. -/
def sentinel (live : Extent) : Forward := fun inputs out n =>
  let positions := paddingPositions inputs.plane live
  if (positions (n * inputs.spatialChannels)).any fun i => !(inputs.spatial.valueAt i).isZero then
    .fail out (.executeFailed "padding carries input")
  else
    let echoed := forRows n (echoRow inputs) out
    let mark (planes : Nat) (t : Tensor) : Tensor :=
      (positions planes).foldl (fun t i => t.setIfInBounds i sentinelMark) t
    .ok { echoed with
      policy := mark (n * out.policyChannels) echoed.policy
      ownership := mark (n * out.ownershipChannels) echoed.ownership }

/-- Fail in every batch. -/
def failing (cause : EngineError) : Forward := fun _ out _ => .fail out cause

/-- Number the positions of policy, pass and ownership; add the row to the given
values and repeat the given scores in every row. -/
def pattern (value scores : Tensor) : Forward := fun _ out n =>
  if value.size < valueSlots ∨ scores.size ≠ scoreSlots then .fault out
  else .ok { out with
    policy := tabulate out.policy.size fun i => .ofInt ((7 * i + 3) % 65521 : Nat)
    pass := tabulate out.pass.size fun i => .ofInt (i + 1 : Nat)
    ownership := tabulate out.ownership.size fun i => (Single.ofInt ((5 * i + 1) % 32749 : Nat)).neg
    value := ((List.range n).flatMap fun (r : Nat) => (List.range valueSlots).map fun k =>
      (value.valueAt k).add (.ofInt r)).toArray
    score := ((List.range n).flatMap fun _ => scores.toList).toArray }

/-- Put given values at the start of every head, as far as there is room. -/
def fixedHeads (policy pass value ownership scores : Tensor) : Forward := fun _ out _ =>
  .ok { out with
    policy := out.policy.overwrite 0 policy
    pass := out.pass.overwrite 0 pass
    value := out.value.overwrite 0 value
    ownership := out.ownership.overwrite 0 ownership
    score := out.score.overwrite 0 scores }

/-- Report, as the value of every row, the batch size, the row and the batch size
read off the inputs, and as its first score the first global value. -/
def count : Forward := fun inputs out n =>
  match inputs.batchSize with
  | .error _ => .fault out
  | .ok size => .ok <| forRows n (fun out r => { out with
      value := out.value.overwrite (r * valueSlots) #[.ofInt n, .ofInt r, .ofInt size]
      score := out.score.overwrite (r * scoreSlots) #[firstGlobal inputs r] }) out

end Probe

/-- A network that returns its inputs in heads of chosen widths. -/
structure EchoNetwork where
  policyChannels : Nat
  ownershipChannels : Nat
  passWidth : Nat
  valueWidth : Nat
  /-- Scores of the first row, whole or split. -/
  scores : Tensor ⊕ (Tensor × Tensor)
  version : Option Int

namespace EchoNetwork

/-- Planes that are each the first plane of their row with something done to it. -/
def planeHead (spatial : ShapedTensor 4) (channels : Nat) (f : Nat → Single → Single) :
    ShapedTensor 4 :=
  let (height, width) := (spatial.shape[2], spatial.shape[3])
  let rowWidth := spatial.shape[1] * (height * width)
  .planes spatial.shape[0] channels height width fun r c i =>
    f c (spatial.values.valueAt (r * rowWidth + i))

/-- Scores of every row: those of the first row plus the row. -/
def scoreTable (n : Nat) (scores : Tensor) : ShapedTensor 2 :=
  .table n scores.size fun r i => (scores.valueAt i).add (.ofInt r)

/-- The widths of all heads. -/
def widths (net : EchoNetwork) : List Nat :=
  [net.policyChannels, net.ownershipChannels, net.passWidth, net.valueWidth] ++
    match net.scores with
    | .inl scores => [scores.size]
    | .inr (main, more) => [main.size, more.size]

/-- A head is joined from its columns or planes, so having none of them is a
fault. -/
def forward (net : EchoNetwork) (spatial : ShapedTensor 4) (globals : ShapedTensor 2) :
    Except Fault NetworkHeads := do
  requireImplicit (net.widths.all fun width => decide (0 < width))
  let n := globals.shape[0]
  let first (r : Nat) : Single := globals.values.valueAt (r * globals.shape[1])
  return {
    policy := planeHead spatial net.policyChannels fun c x => x.add (.ofInt c)
    pass := .table n net.passWidth fun r c => (first r).add (.ofInt c)
    value := .table n net.valueWidth fun r k =>
      if k = 0 then first r else if k = 1 then (first r).neg.add (.ofInt 1) else .ofInt k
    ownership := planeHead spatial net.ownershipChannels fun _ x => x
    score := match net.scores with
      | .inl scores => .unified (scoreTable n scores)
      | .inr (main, more) => .split (scoreTable n main) (scoreTable n more) }

/-- The probe as a network with the version it declares. -/
def network (net : EchoNetwork) : Network := ⟨net.forward, net.version⟩

end EchoNetwork

end BoardEval
