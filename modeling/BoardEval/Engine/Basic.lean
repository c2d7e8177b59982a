import BoardEval.Pool

/-!
# Engines

An engine runs networks on one kind of device. It has at most one context,
loads models into it, and runs a loaded model over the rows of a batch. The
secondary engine may keep models in numbered slots.

Every operation returns the engine as it is afterwards, also when it fails, so
that what a failure leaves behind can be stated. A run of a batch changes
output tensors only; those too are returned when it fails.
-/

namespace BoardEval

/-- Routing indices below this one go to the accelerated engine, the others to
the secondary engine. -/
def secondaryRoutingStart : Int := 100

/-- The engine that serves a routing index. Negative indices count as accelerated
ones. -/
def EngineKind.ofRoutingIndex (index : Int) : EngineKind :=
  if index < secondaryRoutingStart then .accelerated else .secondary

/-- What an engine says about itself. -/
structure Capabilities where
  name : String
  kind : EngineKind
  /-- Can run in half precision. -/
  halfPrecision : Bool
  gpu : Bool
  deriving DecidableEq, Repr

/-- How one handle wants its model to be run. -/
structure ModelConfig where
  /-- The planes that every tensor is shaped for. -/
  plane : Extent
  maxBatchSize : Nat
  half : Bool
  channelLast : Bool
  routingIndex : Int
  server : Nat
  deriving DecidableEq, Repr

/-- A model as one engine loaded it. -/
structure LoadedModel where
  kind : EngineKind
  /-- The version that the engine reports; decoding follows it. -/
  version : Int
  slot : Option Int
  config : ModelConfig
  deriving DecidableEq, Repr

/-- The output tensors after a run and whether it succeeded. -/
structure BatchRun where
  outputs : BatchOutputs
  result : Except (Failure EngineError) Unit

namespace BatchRun

/-- A run that succeeded with these outputs. -/
def ok (outputs : BatchOutputs) : BatchRun := ⟨outputs, .ok ()⟩

/-- A run that an engine gave up with an error; the outputs are as far as it got. -/
def fail (outputs : BatchOutputs) (cause : EngineError) : BatchRun :=
  ⟨outputs, .error (.error cause)⟩

/-- A run that broke an unspoken promise, such as a slice beyond its tensor. -/
def fault (outputs : BatchOutputs) : BatchRun := ⟨outputs, .error (.fault .implicit)⟩

/-- Go on with the outputs of a run that succeeded. -/
def andThen (run : BatchRun) (next : BatchOutputs → BatchRun) : BatchRun :=
  match run.result with
  | .ok () => next run.outputs
  | .error _ => run

end BatchRun

/-- A forward pass over the rows of a batch. -/
abbrev Forward := BatchInputs → BatchOutputs → Nat → BatchRun

/-- The operations of an engine whose states are `ε`. The slot operations return
nothing where an engine has no slots. -/
class Engine (ε : Type) where
  capabilities : ε → Capabilities
  hasContext : ε → Option Bool
  createContext : ε → ContextConfig → ε × Except EngineError Unit
  destroyContext : ε → ε
  loadModel : ε → Descriptor → ModelConfig → ε × Except (Failure EngineError) LoadedModel
  releaseModel : ε → LoadedModel → ε
  runBatch : ε → LoadedModel → Forward
  createSlot : ε → Descriptor → ModelConfig → Option (ε × Except (Failure EngineError) Int)
  destroySlot : ε → Int → Option (ε × Except EngineError Unit)
  slotVersion : ε → Int → Option (Except EngineError Int)
  liveSlots : ε → Option Nat

/-- The refusal of a batch that is larger than a model was compiled for. -/
def overCapacity (batch capacity : Nat) : EngineError :=
  .shapeMismatch ("batch of " ++ toString batch ++ " exceeds compiled capacity "
    ++ toString capacity)

end BoardEval
