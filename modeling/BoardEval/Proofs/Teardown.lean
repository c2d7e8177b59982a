import BoardEval.Proofs.Lifecycles

/-!
# Contexts torn down under a handle

A host engine has a context of its own or none, however many contexts are bound to it.
Building any of them creates it, and the end of any of them tears it down. So a handle can
lose its engine's context although it holds a context of that engine: when another context
of the engine comes to its end.

That is the only way. The context that a handle holds outlives it, refused builds of host
engines call no engine, and nothing else takes an engine's context away. Where no two
contexts in use share an engine, every open handle has its engine's context.
-/

namespace BoardEval

namespace HostEngine

variable (e : HostEngine) (d : Descriptor) (config : ModelConfig)

/-- Loading a model neither creates nor destroys the context, whether it succeeds or
not. -/
theorem loadModel_context : (e.loadModel d config).1.context = e.context := by
  rcases e.loadModel_cases d config with ⟨_, failed⟩ | ⟨_, _, _, loaded, first | second⟩
  · rw [failed]
  · rw [loaded, first.2.2]
  · rw [loaded, second.2.2]

/-- A model is loaded only by an engine with a context. -/
theorem loadModel_ready {model : LoadedModel} (loaded : (e.loadModel d config).2 = .ok model) :
    e.context.isSome = true := by
  rcases e.loadModel_cases d config with ⟨_, failed⟩ | ⟨ready, _⟩
  · rw [failed] at loaded
    exact nomatch loaded
  · exact ready

/-- Nor does releasing one. -/
theorem releaseModel_context (model : LoadedModel) : (e.releaseModel model).context = e.context := by
  unfold releaseModel destroySlot
  cases model.slot with
  | none => rfl
  | some slot =>
    by_cases known : e.slots.contains slot = true
    · simp only [if_pos known]
    · simp only [if_neg known]

/-- Without a context no batch is run. -/
theorem runBatch_bare (bare : e.context = none) (model : LoadedModel) (inputs : BatchInputs)
    (slots : BatchOutputs) (n : Nat) :
    e.runBatch model inputs slots n = .fail slots .contextMissing := by
  rw [runBatch, bare]
  rfl

/-- An engine with a context reports a missing one only if its own function does. -/
theorem runBatch_contextMissing {model : LoadedModel} (ready : e.context.isSome = true)
    (fails : Forward.Fails (e.runBatch model) .contextMissing) :
    e.forward.Fails .contextMissing := by
  rcases runBatch_fails fails with ⟨_, bare⟩ | ⟨_, other, _⟩ | ⟨_, other⟩ | own
  · rw [bare] at ready
    exact nomatch ready
  · exact nomatch other
  · exact nomatch other
  · exact own

end HostEngine

/-- A batch in order fails on an engine without a context. -/
theorem Handle.execute_bare {h : Handle} {engine : HostEngine} (bare : engine.context = none)
    {p : Pool} {requests : List Request} {outputs : List Evaluation}
    (loaded : (h.load p requests outputs).2 = .ok ()) :
    (h.execute engine p requests outputs).result = .error (.error (.engine .contextMissing)) := by
  have refused : (h.ran (h.forward engine) p requests outputs).result =
      .error (.error .contextMissing) :=
    congrArg BatchRun.result (engine.runBatch_bare bare h.model _ _ _)
  rw [execute, execute_failed loaded refused]
  rfl

namespace Registry

variable {r : Registry HostEngine}

/-- Engine `k` exists and has a context. -/
def Equipped (r : Registry HostEngine) (k : Nat) : Prop :=
  r.Has k fun engine => engine.context.isSome = true

/-- Loading a model, or failing to, takes no context away. -/
theorem Equipped.loading {j k : Nat} (ready : r.Equipped k) {engine engine' : HostEngine}
    {d : Descriptor} {config : ModelConfig} {result : Except (Failure EngineError) LoadedModel}
    (listed : r.engines[j]? = some engine)
    (called : Engine.loadModel engine d config = (engine', result)) :
    (r.setEngine j engine').Equipped k := by
  have context : engine'.context = engine.context :=
    congrArg (·.1.context) called ▸ engine.loadModel_context d config
  exact ready.replaced listed fun _ => (congrArg Option.isSome context).trans

/-- Host engines refuse no context. -/
theorem createContexts_host (config : ContextConfig) (created ids : List Nat) :
    (r.createContexts config created ids).2 = .ok () := by
  induction ids generalizing r created with
  | nil => rfl
  | cons id ids inductionHypothesis =>
    unfold createContexts
    cases r.engines[id]? with
    | none => exact inductionHypothesis _
    | some engine => exact inductionHypothesis _

/-- A teardown leaves no listed engine with a context. -/
theorem destroyContexts_unequipped {ids : List Nat} {k : Nat} (listed : k ∈ ids) :
    ¬(r.destroyContexts ids).Equipped k := by
  rintro ⟨engine, here, ready⟩
  have bare : (r.destroyContexts ids).engines[k]? = some engine → engine.context = none := by
    clear here
    induction ids generalizing r with
    | nil => exact nomatch listed
    | cons id ids inductionHypothesis =>
      intro here
      rw [destroyContexts_cons] at here
      by_cases later : k ∈ ids
      · exact inductionHypothesis later here
      · obtain rfl := (List.mem_cons.mp listed).resolve_right later
        rw [destroyContexts_other _ later] at here
        cases known : r.engines[k]? with
        | none =>
          rw [known] at here
          exact nomatch known.symm.trans here
        | some old =>
          rw [known] at here
          obtain rfl := Option.some.inj ((setEngine_self known _).symm.trans here)
          rfl
  rw [bare here] at ready
  exact nomatch ready

end Registry

namespace Session

variable {s s' : Session HostEngine} {op : Operation}

/-- A change takes an engine's context away only with the end of a context that was bound
to the engine. -/
theorem Change.equipped_or_torn (change : s.Change op s') {k : Nat}
    (ready : s.registry.Equipped k) :
    s'.registry.Equipped k ∨ ∃ id, 0 < s.registry.holders id ∧ s'.registry.holders id = 0 ∧
      k ∈ s.registry.enginesOf id := by
  cases change with
  | nothing => exact .inl ready
  | @refused c registry cause failed =>
    have created := s.registry.createContexts_host c.config [] c.engines
    rw [failed] at created
    exact nomatch created
  | @built c registry created =>
    have kept : (s.registry.createContexts c.config [] c.engines).1.Equipped k := by
      apply ready.createContexts
      · exact fun _ _ => rfl
      · intro cause failed
        rw [created] at failed
        exact nomatch failed
    rw [created] at kept
    exact .inl kept
  | shared used => exact .inl ready
  | @dropped number id referred =>
    rcases ready.release_or id with still | ⟨last, listed⟩
    · exact .inl still
    · refine .inr ⟨id, ?_, ?_, listed⟩
      · omega
      · rw [Registry.holders_release, if_pos rfl, last]
  | unloaded listed failed => exact .inl (ready.loading listed failed)
  | loaded used bound listed loaded => exact .inl (ready.loading listed loaded)
  | @closed number h opened =>
    have released : (h.unloaded s.registry).Equipped k :=
      Handle.unloaded_has ready fun _ engine =>
        (congrArg Option.isSome (engine.releaseModel_context h.model)).trans
    have contexts := h.unloaded_contexts s.registry
    rcases released.release_or h.context with still | ⟨last, listed⟩
    · exact .inl still
    · rw [Registry.holders_congr contexts] at last
      rw [Registry.enginesOf_congr contexts] at listed
      refine .inr ⟨h.context, ?_, ?_, listed⟩
      · omega
      · simp only [Handle.close_eq, Registry.holders_release, Registry.holders_congr contexts,
          if_pos, last]

/-- Every open handle's engine has its context, and no batch of a handle fails for want of
one unless the engine's own function says so. -/
structure Ready (s : Session HostEngine) : Prop where
  contexts : ∀ h ∈ s.live, s.registry.Equipped h.engine
  batches : ∀ number h, s.handle? number = some h → ∀ p requests outputs,
    (s.run number p requests outputs).result = .error (.error (.engine .contextMissing)) →
      s.registry.Has h.engine fun engine => engine.forward.Fails .contextMissing

/-- The operation ends a context on whose engine an open handle of another context runs. -/
def Strands (s : Session HostEngine) (op : Operation) : Prop :=
  ∃ id, ∃ h ∈ (s.perform op).live, h.context ≠ id ∧ h.engine ∈ s.registry.enginesOf id ∧
    0 < s.registry.holders id ∧ (s.perform op).registry.holders id = 0

/-- A context may be built in a session if no context in use has one of its engines. -/
def Exclusive (s : Session HostEngine) (c : Context) : Prop :=
  ∀ id, 0 < s.registry.holders id → ∀ k ∈ c.engines, k ∉ s.registry.enginesOf id

/-- No two contexts in use share an engine. -/
def Apart (s : Session HostEngine) : Prop :=
  ∀ id id' k, 0 < s.registry.holders id → 0 < s.registry.holders id' →
    k ∈ s.registry.enginesOf id → k ∈ s.registry.enginesOf id' → id = id'

/-- Where the engines have their contexts, batches find them. -/
theorem ready_of_contexts (contexts : ∀ h ∈ s.live, s.registry.Equipped h.engine) : s.Ready where
  contexts := contexts
  batches := by
    intro number h opened p requests outputs failed
    obtain ⟨engine, listed, fails⟩ := run_failure opened failed
    obtain ⟨same, here, ready⟩ := contexts h (mem_live.mpr ⟨number, opened⟩)
    obtain rfl := Option.some.inj (listed.symm.trans here)
    exact ⟨engine, listed, engine.runBatch_contextMissing ready fails⟩

/-- An operation that strands no handle keeps a session ready. -/
theorem Ready.perform (ready : s.Ready) (counted : s.Counted) (safe : ¬s.Strands op) :
    (s.perform op).Ready := by
  have change := s.perform_change op
  apply ready_of_contexts
  intro h opened
  rcases change.live opened with old | ⟨_, _, engine, engine', d, config, listed, loaded, after⟩
  · rcases change.equipped_or_torn (ready.contexts h old) with still | ⟨id, held, gone, listed⟩
    · exact still
    · -- The context that ended is another one, because the handle still holds its own.
      have own := (change.counted counted).held (opened_used opened)
      have other : h.context ≠ id := by
        rintro rfl
        omega
      exact absurd ⟨id, h, opened, other, listed, held, gone⟩ safe
  · have present := engine.loadModel_ready d config (congrArg Prod.snd loaded)
    have here : s.registry.Equipped h.engine := ⟨engine, listed, present⟩
    rw [after]
    exact here.loading listed loaded

/-- A stranded handle has no context for its engine. -/
theorem Strands.unready (counted : s.Counted) (strands : s.Strands op) :
    ¬(s.perform op).Ready := by
  obtain ⟨id, h, opened, _, listed, held, gone⟩ := strands
  intro ready
  obtain ⟨⟨r, torn⟩, _⟩ := (s.perform_change op).torn counted held gone
  obtain ⟨engine, here, present⟩ := ready.contexts h opened
  exact Registry.destroyContexts_unequipped listed ⟨engine, torn ▸ here, present⟩

/-- At first there are no contexts that could share an engine. -/
theorem start_apart (engines : Array HostEngine) : (start engines).Apart :=
  fun _ _ _ _ _ listed => nomatch listed

/-- A build of a context with engines of its own keeps contexts apart. -/
theorem Change.apart (change : s.Change op s') (counted : s.Counted) (apart : s.Apart)
    (exclusive : ∀ c, op = .build c → s.Exclusive c) : s'.Apart := by
  intro id id' k held held' listed listed'
  rcases change.held counted held with old | ⟨c, built, rfl, engines⟩
  · rw [change.enginesOf old] at listed
    rcases change.held counted held' with old' | ⟨c, built, rfl, engines⟩
    · rw [change.enginesOf old'] at listed'
      exact apart id id' k old old' listed listed'
    · exact absurd listed (exclusive c built id old k (engines ▸ listed'))
  · rcases change.held counted held' with old' | ⟨_, _, rfl, _⟩
    · rw [change.enginesOf old'] at listed'
      exact absurd listed' (exclusive c built id' old' k (engines ▸ listed))
    · rfl

/-- Handles cannot be stranded while contexts are apart. -/
theorem Apart.safe (apart : s.Apart) (counted : s.Counted) (bound : s.Bound) :
    ¬s.Strands op := by
  rintro ⟨id, h, opened, other, listed, held, gone⟩
  have old := ((s.perform_change op).torn counted held gone).2 h opened
  exact other (apart _ _ _ (counted.held (opened_used old)) held (bound h old) listed)

/-- A context of a host engine for boards of two rows and three columns. -/
def tinyContext : Context := ⟨{ ContextConfig.default with extent := ⟨3, 2⟩ }, some 0, none⟩

/-- The handle that is opened through a second such context. -/
def strandedHandle : Handle where
  context := 1
  engine := 0
  model := ⟨.accelerated, 14, none, ⟨.compiled, 1, false, false, 0, 0⟩⟩
  descriptor := Handle.tiny.descriptor
  board := ⟨3, 2⟩
  inputsChannelLast := false
  maxBatchSize := 1

/-- An engine whose function never fails. -/
def sharedEngine : HostEngine :=
  .new .accelerated (.ofRows strandedHandle.shape (.echo strandedHandle.shape))

/-- From any host engines and after any operations, the session is ready all along exactly
if no operation ends a context on whose engine an open handle of another context runs. It
is ready all along if every context is built with engines that no context in use has.

Proof: a session that strands a handle is not ready after that operation. In the other
direction readiness is an invariant, since only the end of a context takes the context
of an engine away. If every context is built with engines of its own, no operation
strands a handle, and this is kept along. -/
theorem ready_iff_no_strand (engines : Array HostEngine) (ops : List Operation) :
    let session (before : List Operation) := (start engines).after before
    ((∀ before, before <+: ops → (session before).Ready) ↔
      ∀ before op, before ++ [op] <+: ops → ¬(session before).Strands op) ∧
      ((∀ before c, before ++ [.build c] <+: ops → (session before).Exclusive c) →
        ∀ before, before <+: ops → (session before).Ready) := by
  intro session
  have next (before : List Operation) (op : Operation) :
      session (before ++ [op]) = (session before).perform op := after_append _ before op
  have counted (before : List Operation) (op : Operation) (initial : before ++ [op] <+: ops) :
      (session before).Counted :=
    after_keeps (start_counted engines)
      (fun before op _ counted => ((session before).perform_change op).counted counted)
      before ((List.prefix_append before [op]).trans initial)
  have fresh : (session []).Ready := ready_of_contexts fun _ opened => nomatch opened
  refine ⟨⟨?_, ?_⟩, ?_⟩
  · intro ready before op initial strands
    exact strands.unready (counted before op initial) (next before op ▸ ready _ initial)
  · intro safe
    apply after_keeps fresh
    intro before op initial ready
    exact ready.perform (counted before op initial) (safe before op initial)
  · intro exclusive
    -- Apart contexts and handles on their engines are kept along with readiness.
    suffices kept : ∀ before, before <+: ops →
        (session before).Bound ∧ (session before).Apart ∧ (session before).Ready from
      fun before initial => (kept before initial).2.2
    refine after_keeps (P := fun s => s.Bound ∧ s.Apart ∧ s.Ready)
      ⟨start_bound engines, start_apart engines, fresh⟩ ?_
    · rintro before op initial ⟨bound, apart, ready⟩
      have earlier := counted before op initial
      have change := (session before).perform_change op
      refine ⟨change.bound earlier bound, change.apart earlier apart ?_,
        ready.perform earlier (apart.safe earlier bound)⟩
      rintro c rfl
      exact exclusive before c initial

/-- Two contexts are built, each with an engine of its own, a handle is opened through the second,
and the first is dropped. -/
def apartOperations : List Operation :=
  [.build tinyContext, .build { tinyContext with accelerated := some 1 },
    .load 1 Handle.tiny.descriptor 1 false 0 0, .drop 0]

/-- The first context is torn down with its engine's, and the handle of the other is ready all
along. -/
theorem ready_with_own_engines :
    let session (before : List Operation) := (start #[sharedEngine, sharedEngine]).after before
    (∀ before c, before ++ [.build c] <+: apartOperations → (session before).Exclusive c) ∧
      (session apartOperations).handle? 0 = some { strandedHandle with engine := 1 } ∧
      (session apartOperations).registry.holders 0 = 0 ∧
      ¬(session apartOperations).registry.Equipped 0 ∧
      ∀ before, before <+: apartOperations → (session before).Ready := by
  intro session
  have exclusive : ∀ before c, before ++ [.build c] <+: apartOperations →
      (session before).Exclusive c := by
    intro before c initial
    rcases before with _ | ⟨first, _ | ⟨second, _ | ⟨third, _ | ⟨fourth, rest⟩⟩⟩⟩
    · exact fun _ held => absurd held (Nat.lt_irrefl 0)
    · obtain ⟨rfl, rfl⟩ : first = .build tinyContext ∧
          c = { tinyContext with accelerated := some 1 } := by
        simpa [apartOperations] using initial
      intro id held k own
      obtain rfl : k = 1 := List.mem_singleton.mp own
      cases id with
      | zero => exact fun other => absurd (List.mem_singleton.mp other) (by decide)
      | succ id => exact absurd held (Nat.lt_irrefl 0)
    -- No context is built later.
    all_goals simp [apartOperations] at initial
  have bare : ¬(session apartOperations).registry.Equipped 0 := by
    rintro ⟨engine, listed, present⟩
    have torn : (session apartOperations).registry.engines[0]? =
      some (Engine.destroyContext sharedEngine) := rfl
    obtain rfl := Option.some.inj (torn.symm.trans listed)
    exact nomatch present
  exact ⟨exclusive, rfl, rfl, bare, (ready_iff_no_strand _ apartOperations).2 exclusive⟩

/-- Two contexts are built with one engine, a handle is opened through the second, and the
first is dropped. -/
def strandedSession : Session HostEngine :=
  (start #[sharedEngine]).after
    [.build tinyContext, .build tinyContext, .load 1 Handle.tiny.descriptor 1 false 0 0, .drop 0]

/-- The tiny request is a batch for the stranded handle; nothing but the context is
missing. -/
theorem strandedHandle_admits : strandedHandle.Admits [.tiny .zero] := by
  refine ⟨by decide, by decide, ?_⟩
  intro q member
  obtain rfl := List.mem_singleton.mp member
  exact ⟨rfl, Tensor.size_zeros _, Tensor.size_zeros _⟩

/-- The handle is open and its context in use, and yet its batches fail for want of a
context. -/
theorem handle_stranded :
    let p := Pool.blank strandedHandle.shape "tiny" 1
    let requests := [Request.tiny .zero]
    strandedSession.handle? 0 = some strandedHandle ∧ strandedSession.registry.holders 1 = 2 ∧
      strandedHandle.Owns p ∧ strandedHandle.Admits requests ∧
      (strandedSession.run 0 p requests (requests.map .forRequest)).result =
        .error (.error (.engine .contextMissing)) ∧
      ¬sharedEngine.forward.Fails .contextMissing ∧ ¬strandedSession.Ready := by
  intro p requests
  have opened : strandedSession.handle? 0 = some strandedHandle := rfl
  have held : strandedSession.registry.holders 1 = 2 := rfl
  have listed : strandedSession.registry.engines[0]? =
    some (Engine.destroyContext sharedEngine) := rfl
  have owned : strandedHandle.Owns p := .created rfl
  have admits := strandedHandle_admits
  have loaded := Handle.load_ok owned.fitted admits (List.length_map _)
    (Handle.roomy_forRequests admits.takes)
  have sound : ¬sharedEngine.forward.Fails .contextMissing := by
    rintro ⟨_, _, _, failed⟩
    exact nomatch failed
  have failed : (strandedSession.run 0 p requests (requests.map .forRequest)).result =
      .error (.error (.engine .contextMissing)) := by
    rw [run_eq opened listed]
    exact Handle.execute_bare rfl loaded
  refine ⟨opened, held, owned, admits, failed, sound, ?_⟩
  intro ready
  obtain ⟨_, known, fails⟩ := ready.batches 0 strandedHandle opened p _ _ failed
  obtain rfl := Option.some.inj (known.symm.trans listed)
  exact sound fails

end Session

end BoardEval
