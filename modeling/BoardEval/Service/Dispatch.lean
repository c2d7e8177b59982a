import BoardEval.Decode
import BoardEval.Service.Handle

/-!
# Running a batch

Requests are written to the first rows of a pool, turned to canonical
orientation; the engine runs the model over those rows once; and every row is
decoded into the evaluation of its request, by the version that the engine
reports.

A batch has a contract: its size, the pool and every request and evaluation
must fit the handle. Sizes and pool are checked before anything is written, rows
one by one as they are written. The engine is called only if everything was in
order, and evaluations are written only if the engine succeeded.
-/

namespace BoardEval

/-- The pool and the evaluations after a batch, and how it ended. -/
structure Execution where
  pool : Pool
  outputs : List Evaluation
  result : Except (Failure ServiceError) Unit

namespace Handle

/-- Whether a pool was made for the handle's board, planes and model. -/
def checkPool (h : Handle) (p : Pool) : Except Fault Unit := do
  require (p.shape.board = h.board) "pool extent does not match handle"
  require (p.shape.plane = h.model.config.plane) "pool backend extent does not match handle"
  require (p.modelName == h.descriptor.name && p.shape.spatial == h.descriptor.spatial
      && p.shape.globals == h.descriptor.globals && p.shape.policy == h.descriptor.policy
      && p.shape.ownership == h.descriptor.ownership)
    "pool was built for another model"

/-- The promises about the batch as a whole. -/
def checkBatch (h : Handle) (p : Pool) (requests outputs : Nat) : Except Fault Unit := do
  Pool.requireBatch requests h.maxBatchSize
  require (decide (requests ≤ p.capacity))
    ("batch size " ++ toString requests ++ " exceeds pool capacity " ++ toString p.capacity)
  require (outputs == requests) "one output per request"
  h.checkPool p

/-- The promises about one row. -/
def checkRow (h : Handle) (p : Pool) (r : Nat) (request : Request) (out : Evaluation) :
    Except Fault Unit := do
  require (out.extent = h.board)
    ("output " ++ toString r ++ " has extent " ++ out.extent.text ++ ", handle is " ++ h.board.text)
  require (request.extent = h.board)
    ("request " ++ toString r ++ " has extent " ++ request.extent.text ++ ", handle is "
      ++ h.board.text)
  require (request.spatial.size == p.shape.denseSpatial)
    ("request " ++ toString r ++ " spatial input has wrong length")
  require (request.globals.size == p.shape.globals)
    ("request " ++ toString r ++ " global input has wrong length")

/-- Write a request to a row: the globals as they are, the spatial features in
canonical orientation into the live window. -/
def loadRow (h : Handle) (p : Pool) (r : Nat) (request : Request) : Except Fault Pool := do
  let row ← p.spatial.row r
  let source := Layout.dense h.board p.shape.spatial h.inputsChannelLast
  let row ← Tensor.copyToCanonical request.spatial source row p.shape.layout p.shape.spatial
    request.symmetry
  return p.setInputRow r row request.globals

/-- Check and write rows from row `r` on, up to the first one that is not in
order. -/
def loadRows (h : Handle) : Nat → List (Request × Evaluation) → Pool → Pool × Except Fault Unit
  | _, [], p => (p, .ok ())
  | r, (request, out) :: rest, p =>
    match h.checkRow p r request out with
    | .error broken => (p, .error broken)
    | .ok () =>
      match h.loadRow p r request with
      | .error broken => (p, .error broken)
      | .ok p => h.loadRows (r + 1) rest p

/-- Check a batch and write its rows. -/
def load (h : Handle) (p : Pool) (requests : List Request) (outputs : List Evaluation) :
    Pool × Except Fault Unit :=
  match h.checkBatch p requests.length outputs.length with
  | .error broken => (p, .error broken)
  | .ok () => h.loadRows 0 (requests.zip outputs) p

/-- Decode rows from row `r` on, up to the first evaluation that has no room for
its row; those after it stay as they were. -/
def decodeRows (version : Int) :
    Nat → List (Request × Evaluation) → Pool → Pool × List Evaluation × Except Fault Unit
  | _, [], p => (p, [], .ok ())
  | r, (request, out) :: rest, p =>
    match p.decodeRow r request out version with
    | (p, out, .error broken) => (p, out :: rest.map (·.2), .error broken)
    | (p, out, .ok ()) =>
      let (p, outs, result) := decodeRows version (r + 1) rest p
      (p, out :: outs, result)

/-- Evaluate `requests` as one batch into `outputs`, row for row, by a forward
pass. -/
def executeBy (h : Handle) (forward : Forward) (p : Pool) (requests : List Request)
    (outputs : List Evaluation) : Execution :=
  match h.load p requests outputs with
  | (p, .error broken) => ⟨p, outputs, .error (.fault broken)⟩
  | (p, .ok ()) =>
    let n := requests.length
    let run := forward (p.inputs n) (p.outputs n) n
    let p := p.store n run.outputs
    match run.result with
    | .error failure => ⟨p, outputs, .error (failure.map .engine)⟩
    | .ok () =>
      let (p, outputs, decoded) := decodeRows h.model.version 0 (requests.zip outputs) p
      ⟨p, outputs, decoded.mapError .fault⟩

variable {ε : Type} [Engine ε]

/-- What an engine does with the model of a handle. -/
def forward (h : Handle) (engine : ε) : Forward := Engine.runBatch engine h.model

/-- Evaluate a batch by running the model on an engine. -/
def execute (h : Handle) (engine : ε) (p : Pool) (requests : List Request)
    (outputs : List Evaluation) : Execution :=
  h.executeBy (h.forward engine) p requests outputs

end Handle

end BoardEval
