import BoardEval.Engine.Network

/-!
# The graphics engine

An accelerated engine that runs one network on one graphics adapter. Its context
is the device that was opened; which adapters there are is a fact about the
machine. There is no fallback: without an adapter there is no context.
-/

namespace BoardEval

/-- The state of the engine up to its device: an adapter that was chosen can always
be opened. -/
structure GpuEngine where
  network : Network
  /-- Number of adapters of the machine. -/
  adapters : Nat
  hasDevice : Bool

namespace GpuEngine

/-- An engine without device. -/
def new (network : Network) (adapters : Nat) : GpuEngine := ⟨network, adapters, false⟩

/-- Whether the adapter that a list of device indices asks for can be opened. The
first index counts; an empty list leaves the choice to the machine. -/
def select (adapters : Nat) : List Int → Except EngineError Unit
  | [] =>
    if adapters = 0 then .error (.deviceUnavailable "no GPU adapter available") else .ok ()
  | index :: _ =>
    if index < 0 then .error (.deviceUnavailable ("invalid device index " ++ toString index))
    else if adapters ≤ index.toNat then
      .error (.deviceUnavailable ("device index " ++ toString index ++ " but only "
        ++ toString adapters ++ " GPU adapter(s)"))
    else .ok ()

/-- Choose an adapter. A refused choice leaves the engine as it was. -/
def createContext (e : GpuEngine) (config : ContextConfig) : GpuEngine × Except EngineError Unit :=
  match select e.adapters config.devices with
  | .ok () => ({ e with hasDevice := true }, .ok ())
  | .error cause => (e, .error cause)

/-- Loading asks for nothing but a context; there are no slots. -/
def loadModel (e : GpuEngine) (d : Descriptor) (config : ModelConfig) :
    GpuEngine × Except (Failure EngineError) LoadedModel :=
  if e.hasDevice then (e, .ok ⟨.accelerated, e.network.version.getD d.version, none, config⟩)
  else (e, .error (.error .contextMissing))

/-- A loaded model has no slot and leaves no trace. -/
theorem loadModel_ok {e e' : GpuEngine} {d : Descriptor} {config : ModelConfig}
    {model : LoadedModel} (loaded : e.loadModel d config = (e', .ok model)) :
    e' = e ∧ model = ⟨.accelerated, e.network.version.getD d.version, none, config⟩ := by
  unfold loadModel at loaded
  split at loaded
  · obtain ⟨rfl, made⟩ := Prod.mk.inj loaded
    exact ⟨rfl, (Except.ok.inj made).symm⟩
  · exact nomatch (Prod.mk.inj loaded).2

/-- The capacity is checked before the device. -/
def runBatch (e : GpuEngine) (model : LoadedModel) (inputs : BatchInputs)
    (outputs : BatchOutputs) (n : Nat) : BatchRun :=
  if model.config.maxBatchSize < n then .fail outputs (overCapacity n model.config.maxBatchSize)
  else if !e.hasDevice then .fail outputs .contextMissing
  else e.network.run model.config.half inputs outputs n

/-- A batch runs the same network as on any other device; slot operations are
absent. -/
instance : Engine GpuEngine where
  capabilities e := ⟨"Burn/wgpu", .accelerated, true, e.hasDevice⟩
  hasContext e := some e.hasDevice
  createContext := createContext
  destroyContext e := { e with hasDevice := false }
  loadModel := loadModel
  releaseModel e _ := e
  runBatch := runBatch
  createSlot _ _ _ := none
  destroySlot _ _ := none
  slotVersion _ _ := none
  liveSlots _ := none

end GpuEngine

end BoardEval
