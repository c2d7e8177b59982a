import BoardEval.Engine.Basic
import BoardEval.Engine.Slots

/-!
# The host engine

An engine that runs a function on the calling machine. It can take either
place. In the second one it gives every model a slot; the slot counter only
grows, and loading faults when it has no next number. The engine may declare a
version of its own, which its models then report instead of the descriptor's.
-/

namespace BoardEval

/-- The state of the engine. Its forward pass is any function of a batch; the kind
decides whether loaded models get slots. -/
structure HostEngine where
  name : String
  kind : EngineKind
  forward : Forward
  declaredVersion : Option Int
  halfPrecision : Bool
  context : Option ContextConfig
  /-- The version of the model in each slot. -/
  slots : SlotMap Int
  nextSlot : Int

namespace HostEngine

/-- An engine without context and models. -/
def new (kind : EngineKind) (forward : Forward) : HostEngine :=
  ⟨"Host", kind, forward, none, false, none, .empty, 0⟩

/-- The version that a model made from `d` reports. -/
def modelVersion (e : HostEngine) (d : Descriptor) : Int := e.declaredVersion.getD d.version

/-- Enter a model under the next number. The count of slots may not reach the limit:
the last number is never given out, and asking for it is a fault. -/
def createSlot (e : HostEngine) (d : Descriptor) : HostEngine × Except (Failure EngineError) Int :=
  if e.nextSlot + 1 < slotLimit then
    ({ e with slots := e.slots.insert e.nextSlot (e.modelVersion d), nextSlot := e.nextSlot + 1 },
      .ok e.nextSlot)
  else (e, .error (.fault .implicit))

/-- Take a model out of its slot; an empty slot is an error and changes nothing. -/
def destroySlot (e : HostEngine) (slot : Int) : HostEngine × Except EngineError Unit :=
  if e.slots.contains slot then ({ e with slots := e.slots.erase slot }, .ok ())
  else (e, .error (.slotNotFound slot))

/-- The version of the model in a slot. -/
def slotVersion (e : HostEngine) (slot : Int) : Except EngineError Int :=
  match e.slots.get? slot with
  | some version => .ok version
  | none => .error (.slotNotFound slot)

/-- Load a model, provided that there is a context: without a slot on an accelerated
engine, else into a new slot, whose version is read back. -/
def loadModel (e : HostEngine) (d : Descriptor) (config : ModelConfig) :
    HostEngine × Except (Failure EngineError) LoadedModel :=
  if e.context.isNone then (e, .error (.error .contextMissing))
  else
    match e.kind with
    | .accelerated => (e, .ok ⟨.accelerated, e.modelVersion d, none, config⟩)
    | .secondary =>
      match e.createSlot d with
      | (e, .error cause) => (e, .error cause)
      | (e, .ok slot) =>
        match e.slotVersion slot with
        | .error cause => (e, .error (.error cause))
        | .ok version => (e, .ok ⟨.secondary, version, some slot, config⟩)

/-- Loading fails and leaves no trace, or it succeeds with a context: in the first place
without a trace, and in the second place with the model's version in the next slot. Reading
that version back cannot fail. -/
theorem loadModel_cases (e : HostEngine) (d : Descriptor) (config : ModelConfig) :
    (∃ cause, e.loadModel d config = (e, .error cause)) ∨
      e.context.isSome = true ∧ ∃ e' model, e.loadModel d config = (e', .ok model) ∧
        (e.kind = .accelerated ∧ model.slot = none ∧ e' = e ∨
          e.kind = .secondary ∧ model.slot = some e.nextSlot ∧ e' = { e with
            slots := e.slots.insert e.nextSlot model.version
            nextSlot := e.nextSlot + 1 }) := by
  unfold loadModel
  cases context : e.context with
  | none => exact .inl ⟨_, rfl⟩
  | some _ =>
    cases placed : e.kind with
    | accelerated => exact .inr ⟨rfl, _, _, rfl, .inl ⟨rfl, rfl, rfl⟩⟩
    | secondary =>
      by_cases room : e.nextSlot + 1 < slotLimit
      · right
        simp only [createSlot, if_pos room, slotVersion, SlotMap.get?_insert_self, context, placed]
        exact ⟨rfl, _, _, rfl, .inr ⟨trivial, rfl, rfl⟩⟩
      · simp only [createSlot, if_neg room]
        exact .inl ⟨_, rfl⟩

section

variable {e e' : HostEngine} {d : Descriptor} {config : ModelConfig}

/-- A model that is not loaded leaves no trace. -/
theorem loadModel_failed {cause : Failure EngineError}
    (failed : e.loadModel d config = (e', .error cause)) : e' = e := by
  rcases e.loadModel_cases d config with ⟨_, same⟩ | ⟨_, _, _, loaded, _⟩
  · exact (Prod.mk.inj (failed.symm.trans same)).1
  · exact nomatch (Prod.mk.inj (failed.symm.trans loaded)).2

/-- A model is loaded as it was asked for, in the place of the engine and with its version. -/
theorem loadModel_model {model : LoadedModel} (loaded : e.loadModel d config = (e', .ok model)) :
    model.kind = e.kind ∧ model.version = e.modelVersion d ∧ model.config = config := by
  unfold loadModel at loaded
  cases context : e.context with
  | none =>
    rw [context] at loaded
    exact nomatch (Prod.mk.inj loaded).2
  | some _ =>
    cases placed : e.kind with
    | accelerated =>
      simp only [context, placed, Option.isNone_some, Bool.false_eq_true, if_false] at loaded
      obtain rfl := Except.ok.inj (Prod.mk.inj loaded).2
      exact ⟨rfl, rfl, rfl⟩
    | secondary =>
      by_cases room : e.nextSlot + 1 < slotLimit
      · simp only [context, placed, createSlot, if_pos room, slotVersion, SlotMap.get?_insert_self,
          Option.isNone_some, Bool.false_eq_true, if_false] at loaded
        obtain rfl := Except.ok.inj (Prod.mk.inj loaded).2
        exact ⟨rfl, rfl, rfl⟩
      · simp only [context, placed, createSlot, if_neg room, Option.isNone_some,
          Bool.false_eq_true, if_false] at loaded
        exact nomatch (Prod.mk.inj loaded).2

/-- A loaded model has no slot and left no trace, or it has the next slot, where its version
stands. -/
theorem loadModel_slotted {model : LoadedModel} (loaded : e.loadModel d config = (e', .ok model)) :
    e.kind = .accelerated ∧ model.slot = none ∧ e' = e ∨
      e.kind = .secondary ∧ model.slot = some e.nextSlot ∧ e' = { e with
        slots := e.slots.insert e.nextSlot model.version
        nextSlot := e.nextSlot + 1 } := by
  rcases e.loadModel_cases d config with ⟨_, failed⟩ | ⟨_, _, _, same, placed⟩
  · exact nomatch (Prod.mk.inj (loaded.symm.trans failed)).2
  · obtain ⟨rfl, made⟩ := Prod.mk.inj (loaded.symm.trans same)
    obtain rfl := Except.ok.inj made
    exact placed

/-- In the second place it has a slot. -/
theorem loadModel_second {model : LoadedModel} (second : e.kind = .secondary)
    (loaded : e.loadModel d config = (e', .ok model)) :
    model.slot = some e.nextSlot ∧ e' = { e with
      slots := e.slots.insert e.nextSlot model.version
      nextSlot := e.nextSlot + 1 } := by
  rcases loadModel_slotted loaded with ⟨first, _⟩ | ⟨_, placed⟩
  · exact nomatch second.symm.trans first
  · exact placed

end

/-- Destroy the slot of a model, if it has one. Releasing cannot fail: a slot that
is gone already is passed over. -/
def releaseModel (e : HostEngine) (model : LoadedModel) : HostEngine :=
  match model.slot with
  | none => e
  | some slot => (e.destroySlot slot).1

/-- A released model's slot is no longer in use. -/
theorem releaseModel_slot (e : HostEngine) {model : LoadedModel} {slot : Int}
    (here : model.slot = some slot) :
    e.releaseModel model = { e with slots := e.slots.erase slot } := by
  simp only [releaseModel, here, destroySlot]
  cases live : e.slots.contains slot with
  | true => rfl
  | false =>
    rw [← Bool.not_eq_true, SlotMap.contains_iff] at live
    rw [SlotMap.erase_unused live]
    rfl

/-- Context, slot and capacity are checked before the function is called. -/
def runBatch (e : HostEngine) (model : LoadedModel) (inputs : BatchInputs)
    (outputs : BatchOutputs) (n : Nat) : BatchRun :=
  if e.context.isNone then .fail outputs .contextMissing
  else
    match model.slot.filter fun slot => !e.slots.contains slot with
    | some slot => .fail outputs (.slotNotFound slot)
    | none =>
      if model.config.maxBatchSize < n then
        .fail outputs (overCapacity n model.config.maxBatchSize)
      else e.forward inputs outputs n

/-- Only the secondary place has slots. -/
def hasSlots (e : HostEngine) : Bool := e.kind == .secondary

/-- A second context replaces the settings of the first. Slot operations are absent
on an accelerated engine. -/
instance : Engine HostEngine where
  capabilities e := ⟨e.name, e.kind, e.halfPrecision, false⟩
  hasContext e := some e.context.isSome
  createContext e config := ({ e with context := some config }, .ok ())
  destroyContext e := { e with context := none }
  loadModel := loadModel
  releaseModel := releaseModel
  runBatch := runBatch
  createSlot e d _ := if e.hasSlots then some (e.createSlot d) else none
  destroySlot e slot := if e.hasSlots then some (e.destroySlot slot) else none
  slotVersion e slot := if e.hasSlots then some (e.slotVersion slot) else none
  liveSlots e := if e.hasSlots then some e.slots.size else none

end HostEngine

end BoardEval
