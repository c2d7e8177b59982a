import BoardEval.Engine.Basic

/-!
# The scripted engine

An engine that computes nothing and fails where its script says so. It stands in
for a device that breaks: creating a context and loading a model can fail at
any call, and running a batch fails always or never.
-/

namespace BoardEval

/-- The calls of an engine that can fail. -/
inductive EngineCall where
  | createContext
  | loadModel
  | runBatch
  deriving DecidableEq, Repr

/-- The state of an engine that fails on demand: what it was told to fail with, and
how often it was called. -/
structure ScriptedEngine where
  name : String
  kind : EngineKind
  /-- The error of the n-th creation of a context, if it fails. -/
  onCreate : Nat → Option EngineError
  /-- The error of the n-th loading of a model, if it fails. -/
  onLoad : Nat → Option EngineError
  /-- The error of every run, if runs fail. -/
  onRun : Option EngineError
  hasContext : Bool
  /-- Creations and loadings so far. -/
  creations : Nat
  loads : Nat

namespace ScriptedEngine

/-- An engine that fails in every call of one kind and in no other. -/
def failingAt (name : String) (kind : EngineKind) (call : EngineCall) (cause : EngineError) :
    ScriptedEngine :=
  let when (c : EngineCall) : Option EngineError := if c = call then some cause else none
  ⟨name, kind, fun _ => when .createContext, fun _ => when .loadModel, when .runBatch, false, 0, 0⟩

/-- A call counts also when it fails; a failed one leaves the context as it was. -/
def createContext (e : ScriptedEngine) : ScriptedEngine × Except EngineError Unit :=
  let called := { e with creations := e.creations + 1 }
  match e.onCreate e.creations with
  | some cause => (called, .error cause)
  | none => ({ called with hasContext := true }, .ok ())

/-- A call counts also when it fails. Nothing is kept of a loaded model, and no
context is asked for. -/
def loadModel (e : ScriptedEngine) (d : Descriptor) (config : ModelConfig) :
    ScriptedEngine × Except (Failure EngineError) LoadedModel :=
  let called := { e with loads := e.loads + 1 }
  match e.onLoad e.loads with
  | some cause => (called, .error (.error cause))
  | none => (called, .ok ⟨e.kind, d.version, none, config⟩)

/-- A loaded model has no slot and is counted. -/
theorem loadModel_ok {e e' : ScriptedEngine} {d : Descriptor} {config : ModelConfig}
    {model : LoadedModel} (loaded : e.loadModel d config = (e', .ok model)) :
    e' = { e with loads := e.loads + 1 } ∧ model = ⟨e.kind, d.version, none, config⟩ := by
  unfold loadModel at loaded
  split at loaded
  · exact nomatch (Prod.mk.inj loaded).2
  · obtain ⟨rfl, made⟩ := Prod.mk.inj loaded
    exact ⟨rfl, (Except.ok.inj made).symm⟩

/-- A run writes nothing, whether it succeeds or fails. -/
def runBatch (e : ScriptedEngine) (outputs : BatchOutputs) : BatchRun :=
  match e.onRun with
  | some cause => .fail outputs cause
  | none => .ok outputs

/-- Runs look at neither the model nor the inputs, and there are no slots. -/
instance : Engine ScriptedEngine where
  capabilities e := ⟨e.name, e.kind, true, true⟩
  hasContext e := some e.hasContext
  createContext e _ := e.createContext
  destroyContext e := { e with hasContext := false }
  loadModel := loadModel
  releaseModel e _ := e
  runBatch e _ _ outputs _ := e.runBatch outputs
  createSlot _ _ _ := none
  destroySlot _ _ := none
  slotVersion _ _ := none
  liveSlots _ := none

end ScriptedEngine

end BoardEval
