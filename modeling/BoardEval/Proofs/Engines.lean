import BoardEval.Engine.Any
import BoardEval.Proofs.Lifecycles
import BoardEval.Proofs.Sessions

/-!
# What engines and contexts never change

Whatever is done with contexts and handles, an engine keeps what it was made with: its
function or network, its kind, its name, its precision and its script. Only its context, its
slots and its counters change. A context keeps its configuration and its engines as long as
there are sessions.

`Keeps` says so of two states of a registry between which nothing was built, with one law for
each operation, and `Later` of any two states, one after the other: every run of a session
leads to a later registry.
-/

namespace BoardEval

namespace AnyEngine

/-- The engine as it was made: without context, without slots, every counter at its start. -/
def made : AnyEngine → AnyEngine
  | .host e => .host { e with context := none, slots := .empty, nextSlot := 0 }
  | .cpu e => .cpu (.new e.network)
  | .gpu e => .gpu (.new e.network e.adapters)
  | .scripted e => .scripted { e with hasContext := false, creations := 0, loads := 0 }

/-- An engine is made the same after a context was created or refused: the network,
the kind and what was declared do not change. -/
theorem made_createContext (engine : AnyEngine) (config : ContextConfig) :
    (Engine.createContext engine config).1.made = engine.made := by
  cases engine with
  | host e => rfl
  | cpu e => rfl
  | gpu e =>
    simp only [Engine.createContext, wrap, GpuEngine.createContext]
    split <;> rfl
  | scripted e =>
    simp only [Engine.createContext, wrap, ScriptedEngine.createContext]
    split <;> rfl

/-- An engine is made the same without its context. -/
theorem made_destroyContext (engine : AnyEngine) :
    (Engine.destroyContext engine).made = engine.made := by
  cases engine <;> rfl

/-- An engine is made the same after a model was loaded or refused: what changes is
slots and counts of calls. -/
theorem made_loadModel (engine : AnyEngine) (d : Descriptor) (config : ModelConfig) :
    (Engine.loadModel engine d config).1.made = engine.made := by
  cases engine with
  | host e =>
    rcases e.loadModel_cases d config with ⟨_, failed⟩ | ⟨_, _, _, loaded, ⟨_, _, rfl⟩ | ⟨_, _, rfl⟩⟩
    · simp only [Engine.loadModel, wrap, failed]
    · simp only [Engine.loadModel, wrap, loaded]
    · simp only [Engine.loadModel, wrap, loaded]
      rfl
  | cpu e =>
    simp only [Engine.loadModel, wrap, CpuEngine.loadModel]
    split
    · rfl
    · split <;> rfl
  | gpu e =>
    simp only [Engine.loadModel, wrap, GpuEngine.loadModel]
    split <;> rfl
  | scripted e =>
    simp only [Engine.loadModel, wrap, ScriptedEngine.loadModel]
    split <;> rfl

/-- An engine is made the same after a model was released. -/
theorem made_releaseModel (engine : AnyEngine) (model : LoadedModel) :
    (Engine.releaseModel engine model).made = engine.made := by
  cases engine with
  | host e =>
    simp only [Engine.releaseModel, HostEngine.releaseModel, HostEngine.destroySlot]
    split
    · rfl
    · split <;> rfl
  | cpu e =>
    simp only [Engine.releaseModel, CpuEngine.releaseModel, CpuEngine.destroySlot]
    split
    · rfl
    · split <;> rfl
  | gpu e => rfl
  | scripted e => rfl

/-- The version that a model reports. -/
def versionOf (d : Descriptor) : AnyEngine → Int
  | .host e => e.modelVersion d
  | .cpu e => e.network.version.getD d.version
  | .gpu e => e.network.version.getD d.version
  | .scripted _ => d.version

/-- The version that an engine gives its models is settled when it is made. -/
theorem versionOf_made (d : Descriptor) (engine : AnyEngine) :
    engine.made.versionOf d = engine.versionOf d := by
  cases engine <;> rfl

/-- Whether an engine can run in half precision is settled when it is made. -/
theorem halfPrecision_made (engine : AnyEngine) :
    (Engine.capabilities engine.made).halfPrecision =
      (Engine.capabilities engine).halfPrecision := by
  cases engine <;> rfl

/-- The kind of an engine is settled when it is made. -/
theorem kind_made (engine : AnyEngine) :
    (Engine.capabilities engine.made).kind = (Engine.capabilities engine).kind := by
  cases engine <;> rfl

/-- A loaded model is of the kind of its engine, has the settings that were asked for, and
reports the engine's version. -/
theorem loadModel_model {engine engine' : AnyEngine} {d : Descriptor} {config : ModelConfig}
    {model : LoadedModel} (loaded : Engine.loadModel engine d config = (engine', .ok model)) :
    model.kind = (Engine.capabilities engine).kind ∧ model.version = engine.versionOf d ∧
      model.config = config := by
  cases engine with
  | host e => exact e.loadModel_model (Prod.ext rfl (Prod.mk.inj loaded).2)
  | cpu e => exact e.loadModel_model (Prod.ext rfl (Prod.mk.inj loaded).2)
  | gpu e =>
    obtain ⟨_, rfl, made⟩ := loadModel_gpu loaded
    obtain ⟨_, rfl⟩ := GpuEngine.loadModel_ok made
    exact ⟨rfl, rfl, rfl⟩
  | scripted e =>
    obtain ⟨_, rfl, made⟩ := loadModel_scripted loaded
    obtain ⟨_, rfl⟩ := ScriptedEngine.loadModel_ok made
    exact ⟨rfl, rfl, rfl⟩

end AnyEngine

namespace Registry

/-- The engines of a registry as they were made. -/
def origins (r : Registry AnyEngine) : Array AnyEngine := r.engines.map AnyEngine.made

/-- Nothing was built: the contexts are the same up to who holds them, and so are the engines
up to what was done with them. -/
structure Keeps (r r' : Registry AnyEngine) : Prop where
  contexts : r.SameContexts r'
  origins : r'.origins = r.origins

/-- A later state of a registry. -/
structure Later (r r' : Registry AnyEngine) : Prop where
  contexts : ∀ (id : Nat) (c : Context), (r.contexts[id]?).map (·.context) = some c →
    (r'.contexts[id]?).map (·.context) = some c
  engines : ∀ k engine, r.engines[k]? = some engine → r'.Has k fun e => e.made = engine.made

variable {r r' r'' : Registry AnyEngine}

/-- Registries with the same origins have the same engines, as far as these never change. -/
theorem has_origin (same : r'.origins = r.origins) {k : Nat} {engine : AnyEngine}
    (listed : r.engines[k]? = some engine) : r'.Has k fun e => e.made = engine.made := by
  have alike : (r'.engines[k]?).map AnyEngine.made = (r.engines[k]?).map AnyEngine.made := by
    rw [← Array.getElem?_map, ← Array.getElem?_map]
    exact congrArg (·[k]?) same
  rw [listed] at alike
  exact Option.map_eq_some_iff.mp alike

/-- Doing nothing builds nothing. -/
theorem Keeps.refl (r : Registry AnyEngine) : r.Keeps r := ⟨fun _ => rfl, rfl⟩

/-- If neither of two steps builds anything, both together do not. -/
theorem Keeps.trans (first : r.Keeps r') (second : r'.Keeps r'') : r.Keeps r'' :=
  ⟨first.contexts.trans second.contexts, second.origins.trans first.origins⟩

/-- An engine may be replaced by one that was made the same. This is the only way in
which operations change engines. -/
theorem Keeps.setEngine {k : Nat} {engine engine' : AnyEngine}
    (listed : r.engines[k]? = some engine) (same : engine'.made = engine.made) :
    r.Keeps (r.setEngine k engine') where
  contexts := r.setEngine_contexts k engine'
  origins := by
    apply Array.ext_getElem?
    intro j
    rw [Registry.origins, Registry.origins, Array.getElem?_map, Array.getElem?_map]
    by_cases here : k = j
    · subst here
      rw [setEngine_self listed, listed, Option.map_some, Option.map_some, same]
    · rw [r.setEngine_other engine' here]

/-- Counting the holders of a context again changes nothing else. -/
theorem Keeps.recount (r : Registry AnyEngine) (id : Nat) (count : Nat → Nat) :
    r.Keeps { r with
      contexts := r.contexts.modify id fun s => { s with holders := count s.holders } } where
  contexts other := by
    rw [Array.getElem?_modify]
    split
    · rw [Option.map_map]
      rfl
    · rfl
  origins := rfl

/-- Holding a context once more builds nothing. -/
theorem Keeps.hold (r : Registry AnyEngine) (id : Nat) : r.Keeps (r.hold id) :=
  .recount r id (· + 1)

/-- Teardowns build nothing, whichever engines they are for. The induction is on the
list of engines, some of which may not exist. -/
theorem Keeps.destroyContexts (r : Registry AnyEngine) (ids : List Nat) :
    r.Keeps (r.destroyContexts ids) := by
  induction ids generalizing r with
  | nil => exact .refl r
  | cons id ids inductionHypothesis =>
    rw [destroyContexts_cons]
    refine Keeps.trans ?_ (inductionHypothesis _)
    split
    · rename_i engine listed
      exact .setEngine listed (AnyEngine.made_destroyContext engine)
    · exact .refl r

/-- Letting go of a context builds nothing, also when this tears down what it was
made of. -/
theorem Keeps.release (r : Registry AnyEngine) (id : Nat) : r.Keeps (r.release id) := by
  unfold Registry.release
  split
  · exact .refl r
  · simp only
    have counted := Keeps.recount r id (· - 1)
    split
    · exact counted.trans (.destroyContexts _ _)
    · exact counted

/-- The creation of contexts keeps a registry, even if it is undone half way. -/
theorem Keeps.createContexts (r : Registry AnyEngine) (config : ContextConfig)
    (created ids : List Nat) : r.Keeps (r.createContexts config created ids).1 := by
  induction ids generalizing r created with
  | nil => exact .refl r
  | cons id ids inductionHypothesis =>
    unfold Registry.createContexts
    split
    · exact inductionHypothesis r created
    rename_i engine listed
    have same := AnyEngine.made_createContext engine config
    split
    · rename_i called
      rw [called] at same
      exact (Keeps.setEngine listed same).trans (inductionHypothesis _ _)
    · rename_i called
      rw [called] at same
      exact (Keeps.setEngine listed same).trans (.destroyContexts _ _)

/-- Closing a handle gives its slot back and lets go of its context; nothing is
built. -/
theorem Keeps.close (r : Registry AnyEngine) (h : Handle) : r.Keeps (h.close r) := by
  rw [Handle.close_eq]
  refine Keeps.trans ?_ (Keeps.release _ _)
  unfold Handle.unloaded
  cases listed : r.engines[h.engine]? with
  | none => exact .refl r
  | some engine => exact .setEngine listed (AnyEngine.made_releaseModel engine h.model)

/-- Opening a handle keeps a registry, whether it succeeds or not. -/
theorem Keeps.openIn {contextId : Nat} {d : Descriptor} {maxBatchSize : Nat}
    {inputsChannelLast : Bool} {routingIndex : Int} {server : Nat}
    {result : Except (Failure ServiceError) Handle}
    (opened : Handle.openIn r contextId d maxBatchSize inputsChannelLast routingIndex server =
      (r', result)) : r.Keeps r' := by
  have kept {engine engine' : AnyEngine} {config : ModelConfig}
      {result : Except (Failure EngineError) LoadedModel}
      (called : Engine.loadModel engine d config = (engine', result)) :
      engine'.made = engine.made := by
    rw [← AnyEngine.made_loadModel engine d config, called]
  cases result with
  | error cause =>
    rcases Handle.openIn_failed opened with rfl | ⟨k, _, _, _, _, listed, failed, rfl⟩
    · exact .refl _
    · exact .setEngine listed (kept failed)
  | ok h =>
    obtain ⟨_, _, _, _, _, _, listed, loaded, rfl, _⟩ := Handle.openIn_opened opened
    exact (Keeps.setEngine listed (kept loaded)).trans (.hold _ _)

/-- A registry in which nothing was built is a later one. -/
theorem Keeps.later (keeps : r.Keeps r') : r.Later r' where
  contexts id _ known := (keeps.contexts id).trans known
  engines _ _ listed := has_origin keeps.origins listed

/-- A registry is a later state of itself. -/
theorem Later.refl (r : Registry AnyEngine) : r.Later r := (Keeps.refl r).later

/-- Later states of later states are later. Contexts may be added at each step, but
none is ever removed or replaced. -/
theorem Later.trans (first : r.Later r') (second : r'.Later r'') : r.Later r'' where
  contexts id c known := second.contexts id c (first.contexts id c known)
  engines k engine listed := by
    obtain ⟨e, there, same⟩ := first.engines k engine listed
    obtain ⟨e', here, same'⟩ := second.engines k e there
    exact ⟨e', here, same'.trans same⟩

/-- A context that is registered leaves the others where they are. -/
theorem Later.registered (r : Registry AnyEngine) (shared : SharedContext) :
    r.Later { r with contexts := r.contexts.push shared } where
  contexts id c known := by
    obtain ⟨old, here, _⟩ := Option.map_eq_some_iff.mp known
    have inside := (Array.getElem?_eq_some_iff.mp here).1
    rw [Array.getElem?_push_lt inside, ← Array.getElem?_eq_getElem inside]
    exact known
  engines _ engine listed := ⟨engine, listed, rfl⟩

/-- Opening a handle leads to a later registry. -/
theorem Later.openIn {contextId : Nat} {d : Descriptor} {maxBatchSize : Nat}
    {inputsChannelLast : Bool} {routingIndex : Int} {server : Nat}
    {result : Except (Failure ServiceError) Handle}
    (opened : Handle.openIn r contextId d maxBatchSize inputsChannelLast routingIndex server =
      (r', result)) : r.Later r' :=
  (Keeps.openIn opened).later

end Registry

namespace Session

variable {s s' : Session AnyEngine} {op : Operation}

/-- A change keeps the registry, or a context was built whose engines agreed. -/
theorem Change.keeps (change : s.Change op s') :
    s.registry.Keeps s'.registry ∨ ∃ c registry, op = .build c ∧ s.registry.Keeps registry ∧
      s'.registry = { registry with contexts := registry.contexts.push ⟨c, 1⟩ } := by
  have creating (c : Context) := Registry.Keeps.createContexts s.registry c.config [] c.engines
  cases change with
  | nothing => exact .inl (.refl _)
  | @refused c registry cause failed =>
    have kept := creating c
    rw [failed] at kept
    exact .inl kept
  | @built c registry created =>
    have kept := creating c
    rw [created] at kept
    exact .inr ⟨c, registry, rfl, kept, rfl⟩
  | shared used => exact .inl (.hold _ _)
  | dropped referred => exact .inl (.release _ _)
  | @unloaded _ k engine engine' d config cause listed failed =>
    refine .inl (.setEngine listed ?_)
    rw [← AnyEngine.made_loadModel engine d config, failed]
  | @loaded _ h engine engine' d config used bound listed loaded =>
    refine .inl (Registry.Keeps.trans (.setEngine listed ?_) (.hold _ _))
    rw [← AnyEngine.made_loadModel engine d config, loaded]
  | closed opened => exact .inl (.close _ _)

/-- Every change leads to a later registry. -/
theorem Change.later (change : s.Change op s') : s.registry.Later s'.registry := by
  rcases change.keeps with kept | ⟨_, registry, _, kept, grown⟩
  · exact kept.later
  · rw [grown]
    exact kept.later.trans (.registered registry _)

/-- So does every run of operations. -/
theorem after_later (s : Session AnyEngine) (ops : List Operation) :
    s.registry.Later (s.after ops).registry := by
  induction ops generalizing s with
  | nil => exact .refl _
  | cons op rest inductionHypothesis =>
    exact (s.perform_change op).later.trans (inductionHypothesis (s.perform op))

end Session

end BoardEval
