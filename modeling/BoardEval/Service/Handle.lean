import BoardEval.Service.Registry

/-!
# Handles

A handle is a model that a context's engine has loaded, picked by a routing
index. It holds its context, so the context outlives it; closing it releases the
model first and then the hold.
-/

namespace BoardEval

/-- A model that was loaded through a context. It holds the context and its slot
until it is closed. -/
structure Handle where
  /-- The context it holds. -/
  context : Nat
  /-- The engine that loaded the model. -/
  engine : Nat
  model : LoadedModel
  descriptor : Descriptor
  /-- The board that requests are about. -/
  board : Extent
  inputsChannelLast : Bool
  maxBatchSize : Nat
  deriving DecidableEq, Repr

namespace Handle

/-- How the model of a handle is to be run. Half precision needs both the
permission of the context and an engine that can do it; channel order inside the
engine follows the inputs unless the context says otherwise. -/
def modelConfig (config : ContextConfig) (capabilities : Capabilities) (maxBatchSize : Nat)
    (inputsChannelLast : Bool) (routingIndex : Int) (server : Nat) : ModelConfig where
  plane := .compiled
  maxBatchSize := maxBatchSize
  half := config.half.allows && capabilities.halfPrecision
  channelLast := match config.channelLast with
    | .on => true
    | .off => false
    | .auto => inputsChannelLast
  routingIndex := routingIndex
  server := server

variable {ε : Type} [Engine ε]

/-- Load a model through a context. -/
def openIn (r : Registry ε) (contextId : Nat) (d : Descriptor) (maxBatchSize : Nat)
    (inputsChannelLast : Bool) (routingIndex : Int) (server : Nat) :
    Registry ε × Except (Failure ServiceError) Handle :=
  match d.validate with
  | .error cause => (r, .error (.error (.setup cause)))
  | .ok () =>
    if maxBatchSize = 0 then (r, .error (.error (.invalidConfig .emptyBatch)))
    else
      let kind := EngineKind.ofRoutingIndex routingIndex
      match r.contexts[contextId]? with
      | none => (r, .error (.fault .implicit))
      | some shared =>
        match shared.context.engineOf? kind with
        | none => (r, .error (.error (.engineMissing kind)))
        | some engineId =>
          match r.engines[engineId]? with
          | none => (r, .error (.fault .implicit))
          | some engine =>
            let config := modelConfig shared.context.config (Engine.capabilities engine)
              maxBatchSize inputsChannelLast routingIndex server
            match Engine.loadModel engine d config with
            | (engine, .error cause) => (r.setEngine engineId engine, .error (cause.map .engine))
            | (engine, .ok model) =>
              ((r.setEngine engineId engine).hold contextId,
                .ok ⟨contextId, engineId, model, d, shared.context.config.extent,
                  inputsChannelLast, maxBatchSize⟩)

section

variable {r r' : Registry ε} {contextId : Nat} {d : Descriptor} {maxBatchSize : Nat}
  {inputsChannelLast : Bool} {routingIndex : Int} {server : Nat}

/-- A handle that could not be opened leaves the registry alone, unless it was the engine
that failed. -/
theorem openIn_failed {cause : Failure ServiceError}
    (failed : openIn r contextId d maxBatchSize inputsChannelLast routingIndex server =
      (r', .error cause)) :
    r' = r ∨ ∃ k engine engine' config cause', r.engines[k]? = some engine ∧
      Engine.loadModel engine d config = (engine', .error cause') ∧
        r' = r.setEngine k engine' := by
  unfold openIn at failed
  split at failed
  · exact .inl (Prod.mk.inj failed).1.symm
  split at failed
  · exact .inl (Prod.mk.inj failed).1.symm
  simp only at failed
  split at failed
  · exact .inl (Prod.mk.inj failed).1.symm
  split at failed
  · exact .inl (Prod.mk.inj failed).1.symm
  split at failed
  · exact .inl (Prod.mk.inj failed).1.symm
  rename_i engine listed
  split at failed
  · rename_i refused
    exact .inr ⟨_, engine, _, _, _, listed, refused, (Prod.mk.inj failed).1.symm⟩
  · exact nomatch (Prod.mk.inj failed).2

/-- Everything that a handle was opened with: a valid descriptor, room for a batch, the
engine that the context binds for the routing index, and the model that this engine loaded
under the settings of the context. -/
theorem openIn_settings {h : Handle}
    (opened : openIn r contextId d maxBatchSize inputsChannelLast routingIndex server =
      (r', .ok h)) :
    d.validate = .ok () ∧ maxBatchSize ≠ 0 ∧
      ∃ shared engine engine', r.contexts[contextId]? = some shared ∧
        shared.context.engineOf? (.ofRoutingIndex routingIndex) = some h.engine ∧
        r.engines[h.engine]? = some engine ∧
        Engine.loadModel engine d (modelConfig shared.context.config (Engine.capabilities engine)
          maxBatchSize inputsChannelLast routingIndex server) = (engine', .ok h.model) ∧
        r' = (r.setEngine h.engine engine').hold contextId ∧
        h = ⟨contextId, h.engine, h.model, d, shared.context.config.extent, inputsChannelLast,
          maxBatchSize⟩ := by
  unfold openIn at opened
  split at opened
  · exact nomatch (Prod.mk.inj opened).2
  rename_i valid
  split at opened
  · exact nomatch (Prod.mk.inj opened).2
  rename_i room
  simp only at opened
  split at opened
  · exact nomatch (Prod.mk.inj opened).2
  rename_i shared known
  split at opened
  · exact nomatch (Prod.mk.inj opened).2
  rename_i engineId bound
  split at opened
  · exact nomatch (Prod.mk.inj opened).2
  rename_i engine listed
  split at opened
  · exact nomatch (Prod.mk.inj opened).2
  rename_i loaded
  obtain ⟨registry, handle⟩ := Prod.mk.inj opened
  obtain rfl := Except.ok.inj handle
  exact ⟨valid, room, shared, engine, _, known, bound, listed, loaded, registry.symm, rfl⟩

/-- A handle that was opened holds its context, is about that context's board, and has a
model that an engine of the context has loaded. -/
theorem openIn_opened {h : Handle}
    (opened : openIn r contextId d maxBatchSize inputsChannelLast routingIndex server =
      (r', .ok h)) :
    ∃ shared engine engine' config, r.contexts[contextId]? = some shared ∧
      h.engine ∈ shared.context.engines ∧ r.engines[h.engine]? = some engine ∧
        Engine.loadModel engine d config = (engine', .ok h.model) ∧
          r' = (r.setEngine h.engine engine').hold contextId ∧ h.context = contextId ∧
            h.descriptor = d ∧ h.maxBatchSize = maxBatchSize ∧
              h.board = shared.context.config.extent := by
  obtain ⟨_, _, shared, engine, engine', known, bound, listed, loaded, registry, fields⟩ :=
    openIn_settings opened
  refine ⟨shared, engine, engine', _, known, Context.engineOf?_mem bound, listed, loaded, registry,
    ?_⟩
  rw [fields]
  exact ⟨rfl, rfl, rfl, rfl⟩

end

/-- Release the model and let go of the context. -/
def close (r : Registry ε) (h : Handle) : Registry ε :=
  let r := match r.engines[h.engine]? with
    | some engine => r.setEngine h.engine (Engine.releaseModel engine h.model)
    | none => r
  r.release h.context

/-- A pool that fits the handle. -/
def createPool (h : Handle) : Except (Failure ServiceError) Pool :=
  match Pool.create h.descriptor h.maxBatchSize h.board h.model.config.plane with
  | .ok pool => .ok pool
  | .error cause => .error (cause.map .setup)

end Handle

end BoardEval
