import BoardEval.Engine.Cpu
import BoardEval.Engine.Gpu
import BoardEval.Engine.Host
import BoardEval.Engine.Scripted

/-!
# Engines of any kind

The sum of all engines, for collections that hold different ones. Every
operation is that of the engine inside.
-/

namespace BoardEval

/-- An engine of one of the four kinds, with its state. -/
inductive AnyEngine where
  | host (engine : HostEngine)
  | cpu (engine : CpuEngine)
  | gpu (engine : GpuEngine)
  | scripted (engine : ScriptedEngine)

namespace AnyEngine

/-- Put the engine of a pair back into the sum. -/
def wrap {ε α : Type} (put : ε → AnyEngine) (step : ε × α) : AnyEngine × α := (put step.1, step.2)

/-- Every operation is that of the engine inside, put back under its own
constructor. -/
instance : Engine AnyEngine where
  capabilities
    | .host e => Engine.capabilities e
    | .cpu e => Engine.capabilities e
    | .gpu e => Engine.capabilities e
    | .scripted e => Engine.capabilities e
  hasContext
    | .host e => Engine.hasContext e
    | .cpu e => Engine.hasContext e
    | .gpu e => Engine.hasContext e
    | .scripted e => Engine.hasContext e
  createContext
    | .host e, config => wrap .host (Engine.createContext e config)
    | .cpu e, config => wrap .cpu (Engine.createContext e config)
    | .gpu e, config => wrap .gpu (Engine.createContext e config)
    | .scripted e, config => wrap .scripted (Engine.createContext e config)
  destroyContext
    | .host e => .host (Engine.destroyContext e)
    | .cpu e => .cpu (Engine.destroyContext e)
    | .gpu e => .gpu (Engine.destroyContext e)
    | .scripted e => .scripted (Engine.destroyContext e)
  loadModel
    | .host e, d, config => wrap .host (Engine.loadModel e d config)
    | .cpu e, d, config => wrap .cpu (Engine.loadModel e d config)
    | .gpu e, d, config => wrap .gpu (Engine.loadModel e d config)
    | .scripted e, d, config => wrap .scripted (Engine.loadModel e d config)
  releaseModel
    | .host e, model => .host (Engine.releaseModel e model)
    | .cpu e, model => .cpu (Engine.releaseModel e model)
    | .gpu e, model => .gpu (Engine.releaseModel e model)
    | .scripted e, model => .scripted (Engine.releaseModel e model)
  runBatch
    | .host e => Engine.runBatch e
    | .cpu e => Engine.runBatch e
    | .gpu e => Engine.runBatch e
    | .scripted e => Engine.runBatch e
  createSlot
    | .host e, d, config => (Engine.createSlot e d config).map (wrap .host)
    | .cpu e, d, config => (Engine.createSlot e d config).map (wrap .cpu)
    | .gpu e, d, config => (Engine.createSlot e d config).map (wrap .gpu)
    | .scripted e, d, config => (Engine.createSlot e d config).map (wrap .scripted)
  destroySlot
    | .host e, slot => (Engine.destroySlot e slot).map (wrap .host)
    | .cpu e, slot => (Engine.destroySlot e slot).map (wrap .cpu)
    | .gpu e, slot => (Engine.destroySlot e slot).map (wrap .gpu)
    | .scripted e, slot => (Engine.destroySlot e slot).map (wrap .scripted)
  slotVersion
    | .host e => Engine.slotVersion e
    | .cpu e => Engine.slotVersion e
    | .gpu e => Engine.slotVersion e
    | .scripted e => Engine.slotVersion e
  liveSlots
    | .host e => Engine.liveSlots e
    | .cpu e => Engine.liveSlots e
    | .gpu e => Engine.liveSlots e
    | .scripted e => Engine.liveSlots e

section

variable {engine' : AnyEngine} {d : Descriptor} {config : ModelConfig}
  {result : Except (Failure EngineError) LoadedModel}

/-- Loading on a host engine among others is loading on the host engine. -/
theorem loadModel_host {e : HostEngine}
    (called : Engine.loadModel (AnyEngine.host e) d config = (engine', result)) :
    ∃ e', engine' = .host e' ∧ e.loadModel d config = (e', result) := by
  obtain ⟨rfl, rfl⟩ := Prod.mk.inj called
  exact ⟨_, rfl, rfl⟩

/-- Loading on a processor engine among others is loading on the processor engine. -/
theorem loadModel_cpu {e : CpuEngine}
    (called : Engine.loadModel (AnyEngine.cpu e) d config = (engine', result)) :
    ∃ e', engine' = .cpu e' ∧ e.loadModel d config = (e', result) := by
  obtain ⟨rfl, rfl⟩ := Prod.mk.inj called
  exact ⟨_, rfl, rfl⟩

/-- Loading on a graphics engine among others is loading on the graphics engine. -/
theorem loadModel_gpu {e : GpuEngine}
    (called : Engine.loadModel (AnyEngine.gpu e) d config = (engine', result)) :
    ∃ e', engine' = .gpu e' ∧ e.loadModel d config = (e', result) := by
  obtain ⟨rfl, rfl⟩ := Prod.mk.inj called
  exact ⟨_, rfl, rfl⟩

/-- Loading on a scripted engine among others is loading on the scripted engine. -/
theorem loadModel_scripted {e : ScriptedEngine}
    (called : Engine.loadModel (AnyEngine.scripted e) d config = (engine', result)) :
    ∃ e', engine' = .scripted e' ∧ e.loadModel d config = (e', result) := by
  obtain ⟨rfl, rfl⟩ := Prod.mk.inj called
  exact ⟨_, rfl, rfl⟩

end

end AnyEngine

end BoardEval
