import BoardEval.Engine.Network
import BoardEval.Engine.Slots

/-!
# The processor engine

A secondary engine that compiles its network into a slot per model. The slot
counter is a 32-bit integer that wraps around. A model's slot knows the version
and the batch capacity that it was compiled with.
-/

namespace BoardEval

/-- What a slot holds. -/
structure CompiledModel where
  version : Int
  capacity : Nat
  deriving DecidableEq, Repr

/-- The state of the engine: whether a context holds the device, the models in their
slots, and the number that the next slot gets. -/
structure CpuEngine where
  network : Network
  hasDevice : Bool
  slots : SlotMap CompiledModel
  nextSlot : Int

namespace CpuEngine

/-- An engine without device and models. -/
def new (network : Network) : CpuEngine := ⟨network, false, .empty, 0⟩

/-- The next 32-bit integer, the least after the largest. -/
def slotAfter (slot : Int) : Int := if slot + 1 < slotLimit then slot + 1 else -slotLimit

/-- Enter a model under the next number. A number that is still in use is entered
again: the model that had it is lost. -/
def createSlot (e : CpuEngine) (d : Descriptor) (config : ModelConfig) : CpuEngine × Int :=
  ({ e with
      slots := e.slots.insert e.nextSlot ⟨e.network.version.getD d.version, config.maxBatchSize⟩
      nextSlot := slotAfter e.nextSlot },
    e.nextSlot)

/-- Take a model out of its slot; an empty slot is an error and changes nothing. -/
def destroySlot (e : CpuEngine) (slot : Int) : CpuEngine × Except EngineError Unit :=
  if e.slots.contains slot then ({ e with slots := e.slots.erase slot }, .ok ())
  else (e, .error (.slotNotFound slot))

/-- The model in a slot. -/
def compiled (e : CpuEngine) (slot : Int) : Except EngineError CompiledModel :=
  match e.slots.get? slot with
  | some model => .ok model
  | none => .error (.slotNotFound slot)

/-- Load a model into a new slot, provided that there is a context, and read back
what the slot holds. -/
def loadModel (e : CpuEngine) (d : Descriptor) (config : ModelConfig) :
    CpuEngine × Except (Failure EngineError) LoadedModel :=
  if !e.hasDevice then (e, .error (.error .contextMissing))
  else
    let (e, slot) := e.createSlot d config
    match e.compiled slot with
    | .ok model => (e, .ok ⟨.secondary, model.version, some slot, config⟩)
    | .error cause => (e, .error (.error cause))

/-- A model is loaded as it was asked for, with the version of the network. -/
theorem loadModel_model {e e' : CpuEngine} {d : Descriptor} {config : ModelConfig}
    {model : LoadedModel} (loaded : e.loadModel d config = (e', .ok model)) :
    model.kind = .secondary ∧ model.version = e.network.version.getD d.version ∧
      model.config = config := by
  unfold loadModel at loaded
  cases device : e.hasDevice with
  | false =>
    rw [device] at loaded
    exact nomatch (Prod.mk.inj loaded).2
  | true =>
    simp only [device, createSlot, compiled, SlotMap.get?_insert_self, Bool.not_true,
      Bool.false_eq_true, if_false] at loaded
    obtain rfl := Except.ok.inj (Prod.mk.inj loaded).2
    exact ⟨rfl, rfl, rfl⟩

/-- It has the next slot, with its version and capacity. -/
theorem loadModel_slotted {e e' : CpuEngine} {d : Descriptor} {config : ModelConfig}
    {model : LoadedModel} (loaded : e.loadModel d config = (e', .ok model)) :
    model.slot = some e.nextSlot ∧ e' = { e with
      slots := e.slots.insert e.nextSlot ⟨model.version, model.config.maxBatchSize⟩
      nextSlot := slotAfter e.nextSlot } := by
  unfold loadModel at loaded
  cases device : e.hasDevice with
  | false =>
    rw [device] at loaded
    exact nomatch (Prod.mk.inj loaded).2
  | true =>
    simp only [device, createSlot, compiled, SlotMap.get?_insert_self, Bool.not_true,
      Bool.false_eq_true, if_false] at loaded
    obtain ⟨rfl, made⟩ := Prod.mk.inj loaded
    obtain rfl := Except.ok.inj made
    exact ⟨rfl, rfl⟩

/-- Counting on always leads to another number, also at the end of the range, where
the count starts over from the other side. -/
theorem slotAfter_ne (slot : Int) : slotAfter slot ≠ slot := by
  unfold slotAfter slotLimit
  split <;> omega

/-- Destroy the slot of a model. Releasing cannot fail: a slot that is gone already
is passed over. -/
def releaseModel (e : CpuEngine) (model : LoadedModel) : CpuEngine :=
  match model.slot with
  | none => e
  | some slot => (e.destroySlot slot).1

/-- The slot and its capacity are checked before the device. -/
def runBatch (e : CpuEngine) (model : LoadedModel) (inputs : BatchInputs)
    (outputs : BatchOutputs) (n : Nat) : BatchRun :=
  match model.slot with
  | none => .fail outputs (.executeFailed "model has no slot")
  | some slot =>
    match e.compiled slot with
    | .error cause => .fail outputs cause
    | .ok entry =>
      if entry.capacity < n then
        .fail outputs (.shapeMismatch ("batch of " ++ toString n ++ " exceeds slot "
          ++ toString slot ++ " capacity " ++ toString entry.capacity))
      else if !e.hasDevice then .fail outputs .contextMissing
      else e.network.run model.config.half inputs outputs n

/-- The engine never says whether it has a context, and every slot operation is
there. -/
instance : Engine CpuEngine where
  capabilities _ := ⟨"Burn/NdArray", .secondary, true, false⟩
  hasContext _ := none
  createContext e _ := ({ e with hasDevice := true }, .ok ())
  destroyContext e := { e with hasDevice := false }
  loadModel := loadModel
  releaseModel := releaseModel
  runBatch := runBatch
  createSlot e d config :=
    let (e, slot) := e.createSlot d config
    some (e, .ok slot)
  destroySlot e slot := some (e.destroySlot slot)
  slotVersion e slot := some ((e.compiled slot).map (·.version))
  liveSlots e := some e.slots.size

end CpuEngine

end BoardEval
