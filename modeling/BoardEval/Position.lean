import BoardEval.Service.Dispatch

/-!
# Checking one position

A position is a square board with its features, one plane per channel and one
list per row of a plane. It becomes a plain request that wants ownership, is run
as a batch of one, and the decoded heads are reported in the shape of the board.
Everything about a position that does not fit the network is an error; no
position can break the contract of a batch.
-/

namespace BoardEval

open Number (Single)

/-- A position as it was read, before anything was checked: the planes may have any
number of rows, and rows any length. -/
structure Position where
  width : Nat
  height : Nat
  /-- Channels of rows of values. -/
  spatial : List (List Tensor)
  globals : Tensor
  deriving DecidableEq

/-- The decoded heads of one position. -/
structure Report where
  policy : List Tensor
  passPolicy : Tensor
  value : Tensor
  ownership : List Tensor
  score : Tensor
  modelVersion : Int
  spatialChannels : Nat
  globalChannels : Nat
  policyChannels : Nat
  deriving DecidableEq

namespace Position

/-- The extent that the position claims. -/
def extent (p : Position) : Extent := ⟨p.width, p.height⟩

/-- The board is playable and square. -/
def checkBoard (p : Position) : Except ReportError Unit :=
  if !p.extent.isPlayable then .error (.position (.boardSize p.extent))
  else if !p.extent.isSquare then .error (.position (.notSquare p.extent))
  else .ok ()

/-- Every row of a plane has the width of the board. -/
def checkRows (e : Extent) (channel : Nat) : Nat → List Tensor → Except ReportError Unit
  | _, [] => .ok ()
  | y, row :: rest =>
    if row.size ≠ e.width then
      .error (.position (.rowLength channel y row.size e.width))
    else checkRows e channel (y + 1) rest

/-- Every plane has the height of the board and rows of its width. -/
def checkPlanes (e : Extent) : Nat → List (List Tensor) → Except ReportError Unit
  | _, [] => .ok ()
  | c, plane :: rest =>
    if plane.length ≠ e.height then
      .error (.position (.planeRows c plane.length e.height))
    else do
      checkRows e c 0 plane
      checkPlanes e (c + 1) rest

/-- All values, channel by channel and row by row. -/
def flat (p : Position) : Tensor := (p.spatial.flatMap fun plane => plane.flatMap (·.toList)).toArray

/-- The request for a network, with channel-last tensors if asked for. -/
def toRequest (p : Position) (d : Descriptor) (channelLast : Bool) :
    Except (Failure ReportError) Request := do
  p.checkBoard
  let e := p.extent
  if p.spatial.length ≠ d.spatial then
    throw (.error (.position (.spatialChannels p.spatial.length d.spatial)))
  if p.globals.size ≠ d.globals then
    throw (.error (.position (.globalChannels p.globals.size d.globals)))
  checkPlanes e 0 p.spatial
  let spatial ←
    if channelLast then
      Tensor.copyToCanonical p.flat (.channelFirst e) (Tensor.zeros p.flat.size)
        (.channelLast e d.spatial) d.spatial .identity
    else (.ok p.flat : Except Fault Tensor)
  return { Request.plain spatial p.globals e with wantsOwnership := true }

/-- Cut a flat plane into rows. -/
def toRows (e : Extent) (plane : Tensor) : List Tensor :=
  (List.range ((plane.size + e.width - 1) / e.width)).map fun y =>
    plane.extract (y * e.width) ((y + 1) * e.width)

/-- Arrange an evaluation in the shape of its board. -/
def report (h : Handle) (out : Evaluation) : Except Fault Report := do
  let cells ← out.cellPolicy
  let pass ← out.passPolicy
  let s := out.score
  return {
    policy := toRows out.extent cells
    passPolicy := #[pass]
    value := #[out.win, out.loss, out.noResult]
    ownership := (out.ownership.map (toRows out.extent)).getD []
    score := #[s.mean, s.meanSquare, s.lead, s.timeLeftVariance, s.winLossError, s.scoreError]
    modelVersion := h.model.version
    spatialChannels := h.descriptor.spatial
    globalChannels := h.descriptor.globals
    policyChannels := h.descriptor.policy }

variable {ε : Type} [Engine ε]

/-- Evaluate a position as a batch of one. Its board must be the handle's. -/
def evaluate (p : Position) (h : Handle) (engine : ε) (pool : Pool) :
    Pool × Except (Failure ReportError) Report :=
  if p.extent ≠ h.board then
    (pool, .error (.error (.position (.boardDiffers p.extent h.board))))
  else
    match p.toRequest h.descriptor h.inputsChannelLast with
    | .error failure => (pool, .error failure)
    | .ok request =>
      let run := h.execute engine pool [request] [.forRequest request]
      match run.result, run.outputs with
      | .error failure, _ => (run.pool, .error (failure.map .service))
      | .ok (), out :: _ =>
        match report h out with
        | .ok report => (run.pool, .ok report)
        | .error broken => (run.pool, .error (.fault broken))
      | .ok (), [] => (run.pool, .error (.fault .implicit))

end Position

end BoardEval
