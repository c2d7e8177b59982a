import BoardEval.Proofs.Lifecycles

/-!
# Metered engines

An engine with a meter works as the engine inside and writes down what was done to its
context: every creation, successful or refused, and every teardown, in order. Any engine
can be metered, whatever its calls answer and however that depends on earlier calls. The
meter only listens: without the meters, a session of metered engines is the session of
the engines.

The number of outstanding creations is read off what was written. It is undefined if a
teardown was called when nothing was outstanding.
-/

namespace BoardEval

/-- What can happen to the context of an engine. -/
inductive ContextCall where
  | created
  | refused
  | destroyed
  deriving DecidableEq, Repr

namespace ContextCall

/-- A creation as it ended. -/
def ofResult : Except EngineError Unit → ContextCall
  | .ok () => created
  | .error _ => refused

/-- The creations outstanding after one call more. -/
def tally : Option Nat → ContextCall → Option Nat
  | some n, created => some (n + 1)
  | some n, refused => some n
  | some (n + 1), destroyed => some n
  | some 0, destroyed => none
  | none, _ => none

/-- The creations outstanding after some calls. -/
def outstanding (calls : List ContextCall) : Option Nat := calls.foldl tally (some 0)

/-- Calls are counted in order, so a log may be cut anywhere. -/
theorem outstanding_append (calls more : List ContextCall) :
    outstanding (calls ++ more) = more.foldl tally (outstanding calls) :=
  List.foldl_append

/-- A teardown too many is never made good by later calls. -/
theorem tally_none (calls : List ContextCall) : calls.foldl tally none = none := by
  induction calls with
  | nil => rfl
  | cons c calls inductionHypothesis => cases c <;> exact inductionHypothesis

/-- Creations are counted up. -/
theorem tally_created (n m : Nat) :
    (List.replicate m created).foldl tally (some n) = some (n + m) := by
  induction m generalizing n with
  | zero => rfl
  | succ m inductionHypothesis =>
    rw [List.replicate_succ, List.foldl_cons, tally, inductionHypothesis]
    congr 1
    omega

/-- Teardowns are counted down. -/
theorem tally_destroyed (n m : Nat) :
    (List.replicate m destroyed).foldl tally (some (n + m)) = some n := by
  induction m with
  | zero => rfl
  | succ m inductionHypothesis =>
    rw [List.replicate_succ, List.foldl_cons]
    exact inductionHypothesis

/-- What is outstanding is the difference of creations and teardowns. -/
theorem count_of_tally {calls : List ContextCall} {start n : Nat}
    (reached : calls.foldl tally (some start) = some n) :
    start + calls.count created = calls.count destroyed + n := by
  induction calls generalizing start with
  | nil =>
    obtain rfl := Option.some.inj reached
    simp
  | cons c calls inductionHypothesis =>
    rw [List.foldl_cons] at reached
    cases c with
    | created =>
      have rest := inductionHypothesis reached
      simp only [List.count_cons_self, List.count_cons_of_ne (show created ≠ destroyed by decide)]
      omega
    | refused =>
      have rest := inductionHypothesis reached
      simpa using rest
    | destroyed =>
      cases start with
      | zero => simp [tally, tally_none] at reached
      | succ start =>
        have rest := inductionHypothesis reached
        simp only [List.count_cons_self, List.count_cons_of_ne (show destroyed ≠ created by decide)]
        omega

/-- At no time were there more teardowns than creations. -/
theorem count_of_outstanding {calls : List ContextCall} {n : Nat}
    (reached : outstanding calls = some n) :
    calls.count created = calls.count destroyed + n ∧
      ∀ earlier, earlier <+: calls → earlier.count destroyed ≤ earlier.count created := by
  refine ⟨by simpa using count_of_tally reached, ?_⟩
  rintro earlier ⟨later, rfl⟩
  rw [outstanding_append] at reached
  cases between : outstanding earlier with
  | none => simp [between, tally_none] at reached
  | some m =>
    have counts := count_of_tally between
    omega

end ContextCall

/-- An engine and what happened to its context, in order. -/
structure Metered (ε : Type) where
  engine : ε
  calls : List ContextCall

namespace Metered

variable {ε : Type}

/-- An engine whose meter was just attached. -/
def fresh (e : ε) : Metered ε := ⟨e, []⟩

/-- The engine inside does everything; the meter writes down creations and teardowns of
contexts and nothing else. -/
instance [Engine ε] : Engine (Metered ε) where
  capabilities m := Engine.capabilities m.engine
  hasContext m := Engine.hasContext m.engine
  createContext m config :=
    let (e, result) := Engine.createContext m.engine config
    (⟨e, m.calls ++ [.ofResult result]⟩, result)
  destroyContext m := ⟨Engine.destroyContext m.engine, m.calls ++ [.destroyed]⟩
  loadModel m d config :=
    let (e, result) := Engine.loadModel m.engine d config
    ({ m with engine := e }, result)
  releaseModel m model := { m with engine := Engine.releaseModel m.engine model }
  runBatch m := Engine.runBatch m.engine
  createSlot m d config :=
    (Engine.createSlot m.engine d config).map fun (e, result) => ({ m with engine := e }, result)
  destroySlot m slot :=
    (Engine.destroySlot m.engine slot).map fun (e, result) => ({ m with engine := e }, result)
  slotVersion m slot := Engine.slotVersion m.engine slot
  liveSlots m := Engine.liveSlots m.engine

variable [Engine ε] (m : Metered ε)

/-- A creation is the engine's own, written down with how it ended. -/
theorem createContext_eq (config : ContextConfig) :
    Engine.createContext m config =
      (⟨(Engine.createContext m.engine config).1,
        m.calls ++ [.ofResult (Engine.createContext m.engine config).2]⟩,
        (Engine.createContext m.engine config).2) := rfl

/-- A creation is written down as it ended. -/
theorem createContext_calls {config : ContextConfig} {m m' : Metered ε}
    {result : Except EngineError Unit} (called : Engine.createContext m config = (m', result)) :
    m'.calls = m.calls ++ [.ofResult result] := by
  rw [createContext_eq] at called
  obtain ⟨rfl, rfl⟩ := Prod.mk.inj called
  rfl

/-- Loading is the engine's own and is not written down. -/
theorem loadModel_eq (d : Descriptor) (config : ModelConfig) :
    Engine.loadModel m d config =
      ({ m with engine := (Engine.loadModel m.engine d config).1 },
        (Engine.loadModel m.engine d config).2) := rfl

end Metered

/-! ## Without the meters -/

namespace Registry

variable {ε : Type}

/-- The registry of the engines inside. -/
def bare (r : Registry (Metered ε)) : Registry ε := ⟨r.engines.map (·.engine), r.contexts⟩

section

variable (r : Registry (Metered ε))

/-- Without meters there are the same engines under the same numbers. -/
theorem bare_engine (k : Nat) : r.bare.engines[k]? = (r.engines[k]?).map (·.engine) :=
  Array.getElem?_map

/-- Replacing an engine may be done before or after its meter is taken off. -/
theorem bare_setEngine (k : Nat) (m : Metered ε) :
    (r.setEngine k m).bare = r.bare.setEngine k m.engine := by
  simp only [bare, setEngine, Array.map_setIfInBounds]

/-- Holders are counted without a look at any engine. -/
theorem bare_hold (id : Nat) : (r.hold id).bare = r.bare.hold id := rfl

end

variable [Engine ε] (r : Registry (Metered ε))

/-- Teardowns are the same without meters. -/
theorem bare_destroyContexts (ids : List Nat) :
    (r.destroyContexts ids).bare = r.bare.destroyContexts ids := by
  induction ids generalizing r with
  | nil => rfl
  | cons id ids inductionHypothesis =>
    rw [destroyContexts_cons, destroyContexts_cons, inductionHypothesis, bare_engine]
    cases r.engines[id]? with
    | none => rfl
    | some m =>
      simp only [Option.map_some, bare_setEngine]
      rfl

/-- The check of kinds does not see meters. -/
theorem bare_checkKinds (c : Context) : r.bare.checkKinds c = r.checkKinds c := by
  have bound (id? : Option Nat) : (id?.bind fun id => r.bare.engines[id]?) =
      (id?.bind fun id => r.engines[id]?).map (·.engine) := by
    cases id? with
    | none => rfl
    | some id => exact r.bare_engine id
  unfold checkKinds
  congr 1
  funext ⟨kind, id?⟩
  simp only [bound]
  cases id?.bind fun id => r.engines[id]? with
  | none => rfl
  | some m => rfl

/-- Creations end alike without meters, failures and their undoing included. -/
theorem bare_createContexts (config : ContextConfig) (created ids : List Nat) :
    r.bare.createContexts config created ids =
      ((r.createContexts config created ids).1.bare, (r.createContexts config created ids).2) := by
  induction ids generalizing r created with
  | nil => rfl
  | cons id ids inductionHypothesis =>
    simp only [createContexts, bare_engine]
    cases r.engines[id]? with
    | none => exact inductionHypothesis r created
    | some m =>
      simp only [Option.map_some, m.createContext_eq]
      generalize Engine.createContext m.engine config = call
      obtain ⟨engine, result⟩ := call
      cases result with
      | ok u =>
        have set : (r.setEngine id ⟨engine, m.calls ++ [.ofResult (.ok u)]⟩).bare =
            r.bare.setEngine id engine := r.bare_setEngine id _
        simp only [← set]
        exact inductionHypothesis _ _
      | error cause => simp only [bare_destroyContexts, bare_setEngine]

/-- Building a context ends alike without meters. -/
theorem bare_build (c : Context) : r.bare.build c = ((r.build c).1.bare, (r.build c).2) := by
  unfold build
  cases c.config.validate with
  | error cause => rfl
  | ok u =>
    cases c.engines.isEmpty with
    | true => rfl
    | false =>
      simp only [bare_checkKinds, Bool.false_eq_true, if_false, bare_createContexts]
      cases r.checkKinds c with
      | error cause => rfl
      | ok u =>
        simp only
        generalize r.createContexts c.config [] c.engines = made
        obtain ⟨r', result⟩ := made
        cases result <;> rfl

/-- Letting go of a context ends alike without meters. -/
theorem bare_release (id : Nat) : (r.release id).bare = r.bare.release id := by
  unfold release
  simp only [show r.bare.contexts = r.contexts from rfl]
  cases r.contexts[id]? with
  | none => rfl
  | some shared =>
    simp only
    split
    · exact bare_destroyContexts _ _
    · rfl

end Registry

namespace Handle

variable {ε : Type} [Engine ε] (r : Registry (Metered ε))

/-- Opening a handle ends alike without meters, and gives the same handle. -/
theorem bare_openIn (id : Nat) (d : Descriptor) (maxBatchSize : Nat) (inputsChannelLast : Bool)
    (routingIndex : Int) (server : Nat) :
    openIn r.bare id d maxBatchSize inputsChannelLast routingIndex server =
      ((openIn r id d maxBatchSize inputsChannelLast routingIndex server).1.bare,
        (openIn r id d maxBatchSize inputsChannelLast routingIndex server).2) := by
  unfold openIn
  cases d.validate with
  | error cause => rfl
  | ok u =>
    simp only [show r.bare.contexts = r.contexts from rfl]
    split
    · rfl
    cases r.contexts[id]? with
    | none => rfl
    | some shared =>
      simp only
      cases shared.context.engineOf? (EngineKind.ofRoutingIndex routingIndex) with
      | none => rfl
      | some k =>
        simp only [r.bare_engine]
        cases r.engines[k]? with
        | none => rfl
        | some m =>
          simp only [Option.map_some, m.loadModel_eq,
            show Engine.capabilities m = Engine.capabilities m.engine from rfl]
          generalize Engine.loadModel m.engine d _ = loaded
          obtain ⟨engine, result⟩ := loaded
          cases result with
          | error cause => simp only [Registry.bare_setEngine]
          | ok model => simp only [Registry.bare_hold, Registry.bare_setEngine]

/-- Closing a handle ends alike without meters. -/
theorem bare_close (h : Handle) : (h.close r).bare = h.close r.bare := by
  rw [close_eq, close_eq, Registry.bare_release]
  congr 1
  unfold unloaded
  rw [r.bare_engine]
  cases r.engines[h.engine]? with
  | none => rfl
  | some m => exact r.bare_setEngine h.engine _

end Handle

namespace Session

variable {ε : Type}

/-- The session of the engines inside. -/
def bare (s : Session (Metered ε)) : Session ε := { s with registry := s.registry.bare }

variable [Engine ε] (s : Session (Metered ε))

/-- The meters change nothing about an operation. -/
theorem bare_perform (op : Operation) : (s.perform op).bare = s.bare.perform op := by
  cases op with
  | build c =>
    simp only [perform, buildContext, show s.bare.registry = s.registry.bare from rfl,
      s.registry.bare_build]
    generalize s.registry.build c = built
    obtain ⟨r, result⟩ := built
    cases result <;> rfl
  | clone number =>
    simp only [perform, cloneContext, show s.bare.reference? = s.reference? from rfl]
    cases s.reference? number <;> rfl
  | share number =>
    simp only [perform, shareContext, show s.bare.handle? = s.handle? from rfl]
    cases s.handle? number <;> rfl
  | drop number =>
    simp only [perform, dropContext, show s.bare.reference? = s.reference? from rfl]
    cases s.reference? number with
    | none => rfl
    | some id => simp only [bare, Registry.bare_release]
  | load number d maxBatchSize inputsChannelLast routingIndex server =>
    simp only [perform, openHandle, show s.bare.reference? = s.reference? from rfl]
    cases s.reference? number with
    | none => rfl
    | some id =>
      simp only [show s.bare.registry = s.registry.bare from rfl, Handle.bare_openIn]
      generalize Handle.openIn s.registry id d maxBatchSize inputsChannelLast routingIndex
        server = opened
      obtain ⟨r, result⟩ := opened
      cases result <;> rfl
  | close number =>
    simp only [perform, closeHandle, show s.bare.handle? = s.handle? from rfl]
    cases s.handle? number with
    | none => rfl
    | some h => simp only [bare, Handle.bare_close]

/-- A run of metered engines is the run of the engines. -/
theorem bare_after (engines : Array ε) (ops : List Operation) :
    ((start (engines.map .fresh)).after ops).bare = (start engines).after ops := by
  have begin : (start (engines.map .fresh)).bare = start engines := by
    simp [start, bare, Registry.bare, Metered.fresh, Function.comp_def]
  have run (s : Session (Metered ε)) : (s.after ops).bare = s.bare.after ops := by
    induction ops generalizing s with
    | nil => rfl
    | cons op ops inductionHypothesis =>
      exact (inductionHypothesis (s.perform op)).trans (congrArg (·.after ops) (s.bare_perform op))
  rw [run, begin]

end Session

end BoardEval
