import BoardEval.Proofs.Engines
import BoardEval.Proofs.Networks
import BoardEval.Proofs.Reports

/-!
# The channel order of the inputs

Handles that were opened alike up to the channel order of their inputs are twins: they have one
engine, one board and one way of running the model, and only the slots of their models and the
order in which they read features differ. A request about a position is made in the order of
its handle, and packing it undoes that order again, so both handles show the engine the same
inputs. If the engine computes a function of the inputs, they end alike, with the same report
or the same error.
-/

namespace BoardEval

/-! ## Requests in either order -/

namespace Position

section

variable {p : Position} {d : Descriptor} {board : Extent} {last last' : Bool} {q q' : Request}

/-- The requests about one position in two channel orders differ in their features alone. -/
theorem Asks.reordered (asks : p.Asks d board last q) (asks' : p.Asks d board last' q') :
    q' = { q with spatial := q'.spatial } := by
  obtain ⟨spatial, globals, symmetry, optimism, wantsOwnership, extent⟩ := q'
  simp only [Request.mk.injEq, true_and]
  exact ⟨asks'.globals.trans asks.globals.symm, asks'.symmetry.trans asks.symmetry.symm,
    asks'.optimism.trans asks.optimism.symm, asks'.ownership.trans asks.ownership.symm,
    asks'.extent.trans asks.extent.symm⟩

/-- Packed into a row, they are equal. Each live place of the row holds the feature of the
position that belongs there, and the rest of the row is zero. -/
theorem Asks.packedRow_eq {s : PoolShape} (fit : s.Fit) (channels : s.spatial = d.spatial)
    (asks : p.Asks d s.board last q) (asks' : p.Asks d s.board last' q') :
    s.packedRow last q = s.packedRow last' q' := by
  have placed {last : Bool} {q : Request} (asks : p.Asks d s.board last q) {c y x : Nat}
      (live : s.layout.Live s.spatial c y x) :
      (s.packedRow last q).valueAt (s.layout.index c y x) =
        p.flat.valueAt ((Layout.channelFirst s.board).index c y x) := by
    obtain ⟨channel, row, column⟩ := live
    have packed := PoolShape.packedRow_feature fit last q channel row column
    rw [asks.symmetry, channels] at packed
    exact packed.trans (asks.features c (channels ▸ channel) y row x column)
  apply Tensor.ext_values
  · rw [PoolShape.size_packedRow, PoolShape.size_packedRow]
  intro i _
  by_cases live : ∃ c y x, s.layout.Live s.spatial c y x ∧ s.layout.index c y x = i
  case pos =>
    obtain ⟨c, y, x, live, rfl⟩ := live
    exact (placed asks live).trans (placed asks' live).symm
  case neg =>
    have outside {c y x : Nat} (inside : s.layout.Live s.spatial c y x) :
        s.layout.index c y x ≠ i := fun here => live ⟨c, y, x, inside, here⟩
    rw [PoolShape.packedRow_padding last q i outside, PoolShape.packedRow_padding last' q' i outside]

end

/-- A batch of one ends as the function says that the engine computes: decoded from the heads
that it answers to the inputs, or with its failure. -/
theorem executed_computed {h : Handle} {pool : Pool} {q : Request} (owned : h.Owns pool)
    (admitted : h.Admits [q]) {forward : Forward}
    {f : BatchInputs → Nat → Except (Failure EngineError) BatchOutputs}
    (computes : forward.Computes h.shape h.maxBatchSize f) :
    let inputs := (h.callOf pool [q] [.forRequest q]).inputs
    let run := h.executeBy forward pool [q] [.forRequest q]
    (∀ heads, f inputs 1 = .ok heads → ∃ out, run.result = .ok () ∧ run.outputs = [out] ∧
      h.shape.Decoded h.model.version q q.wantsOwnership (heads.row 0) out) ∧
    ∀ failure, f inputs 1 = .error failure → run.result = .error (failure.map .engine) := by
  have loaded := loaded_alone owned admitted
  obtain ⟨shaped, _⟩ := Handle.loaded_inputs owned.fitted loaded
  have slots := Handle.loaded_outputs owned.fitted loaded
  intro inputs run
  constructor
  · intro heads answered
    obtain ⟨full, ran⟩ := computes.answers _ _ _ heads admitted.positive admitted.limit shaped
      slots answered
    have outputs : h.ran forward pool [q] [.forRequest q] = .ok heads := ran
    obtain ⟨result, length, decoded⟩ := Handle.execute_ok owned.fitted loaded
      (Handle.roomy_forRequests admitted.takes) (by rw [outputs]; rfl) (by rw [outputs]; exact full)
    obtain ⟨out, here, values⟩ := decoded 0 q (.forRequest q) rfl rfl
    obtain ⟨first, single⟩ := List.length_eq_one_iff.mp length
    rw [single] at here
    obtain rfl := Option.some.inj here
    rw [outputs, Evaluation.forRequest_present] at values
    exact ⟨first, result, single, values⟩
  · intro failure refused
    have failed := computes.refuses _ _ _ failure admitted.positive admitted.limit shaped slots
      refused
    exact congrArg Execution.result (Handle.execute_failed loaded failed)

end Position

/-! ## Twins -/

/-- Handles that are alike up to the channel order of their inputs. -/
structure Handle.Twins (a b : Handle) : Prop where
  engine : b.engine = a.engine
  descriptor : b.descriptor = a.descriptor
  board : b.board = a.board
  limit : b.maxBatchSize = a.maxBatchSize
  plane : b.model.config.plane = a.model.config.plane
  version : b.model.version = a.model.version
  half : b.model.config.half = a.model.config.half
  room : a.model.config.maxBatchSize = a.maxBatchSize
  room' : b.model.config.maxBatchSize = b.maxBatchSize

namespace Handle.Twins

variable {a b : Handle} (twins : a.Twins b)
include twins

/-- Twins have pools of one shape: the order of channels is not part of a pool. -/
theorem shape : b.shape = a.shape := by
  rw [Handle.shape, twins.descriptor, twins.board, twins.plane, ← Handle.shape]

/-- Twins report alike on one evaluation. -/
theorem report_eq (out : Evaluation) : Position.report b out = Position.report a out := by
  unfold Position.report
  rw [twins.descriptor, twins.version]

section

variable {pool pool' : Pool} {p : Position} {q q' : Request}
  (owned : a.Owns pool) (owned' : b.Owns pool') (fits : p.Fits a.descriptor a.board)
  (asks : p.Asks a.descriptor a.board a.inputsChannelLast q)
  (asks' : p.Asks b.descriptor b.board b.inputsChannelLast q')
include owned owned' fits asks asks'

/-- Twins show the engine the same inputs. -/
theorem inputs_eq : (b.callOf pool' [q'] [.forRequest q']).inputs =
    (a.callOf pool [q] [.forRequest q]).inputs := by
  have fits' : p.Fits b.descriptor b.board := by
    rw [twins.descriptor, twins.board]
    exact fits
  have fit : a.shape.Fit := owned.fitted.shape ▸ owned.fitted.sound.fit
  obtain ⟨shaped, rows⟩ := Handle.loaded_inputs owned.fitted
    (Position.loaded_alone owned (asks.admitted owned fits))
  obtain ⟨shaped', rows'⟩ := Handle.loaded_inputs owned'.fitted
    (Position.loaded_alone owned' (asks'.admitted owned' fits'))
  rw [twins.shape] at shaped' rows'
  rw [twins.descriptor, twins.board] at asks'
  apply BatchInputs.ext_rows shaped' shaped
  intro i inside
  obtain rfl : i = 0 := Nat.lt_one_iff.mp inside
  obtain ⟨spatial, globals⟩ := rows 0 q rfl
  obtain ⟨spatial', globals'⟩ := rows' 0 q' rfl
  constructor
  · exact spatial'.trans ((Position.Asks.packedRow_eq fit rfl asks' asks).trans spatial.symm)
  · exact globals'.trans ((asks'.globals.trans asks.globals.symm).trans globals.symm)

variable {ε : Type} [Engine ε] {engine : ε}
  {g : BatchInputs → Nat → Except (Failure EngineError) BatchOutputs}
  (computes : (a.forward engine).Computes a.shape a.maxBatchSize g)
  (computes' : (b.forward engine).Computes a.shape a.maxBatchSize g)
include computes computes'

/-- So batches of one end alike, if the engine computes one function for both models. -/
theorem concluded_eq :
    Position.concluded b (b.execute engine pool' [q'] [.forRequest q']) =
      Position.concluded a (a.execute engine pool [q] [.forRequest q]) := by
  have admitted' : b.Admits [q'] := by
    apply asks'.admitted owned'
    rw [twins.descriptor, twins.board]
    exact fits
  have same : g (b.callOf pool' [q'] [.forRequest q']).inputs 1 =
      g (a.callOf pool [q] [.forRequest q]).inputs 1 :=
    congrArg (g · 1) (twins.inputs_eq owned owned' fits asks asks')
  obtain ⟨answers, refuses⟩ :=
    Position.executed_computed owned (asks.admitted owned fits) computes
  obtain ⟨answers', refuses'⟩ := Position.executed_computed owned' admitted'
    (twins.shape ▸ twins.limit ▸ computes')
  unfold Position.concluded Position.reportGuarded Handle.execute
  cases answered : g (a.callOf pool [q] [.forRequest q]).inputs 1 with
  | error failure =>
    rw [refuses failure answered, refuses' failure (same.trans answered)]
  | ok heads =>
    obtain ⟨out, result, outputs, decoded⟩ := answers heads answered
    obtain ⟨out', result', outputs', decoded'⟩ := answers' heads (same.trans answered)
    rw [twins.descriptor, twins.board] at asks'
    rw [twins.shape, twins.version, asks.reordered asks'] at decoded'
    obtain rfl : out' = out := decoded'.unique { decoded with }
    simp only [result, outputs, result', outputs', twins.report_eq]

end

/-- Twins evaluate a position alike on any pools of their own, guarded or not, if the engine
computes one function for both models. A position that does not fit is refused by either in
the same way; one that fits is shown to the engine by either in the same inputs.

Proof: whether the position fits does not depend on the order of channels. Where it
does, either handle packs the same feature into each place of its row, so the engine
is shown the same inputs and its function ends both batches alike. -/
theorem evaluate_eq {ε : Type} [Engine ε] {engine : ε} {pool pool' : Pool} (owned : a.Owns pool)
    (owned' : b.Owns pool') {g : BatchInputs → Nat → Except (Failure EngineError) BatchOutputs}
    (computes : (a.forward engine).Computes a.shape a.maxBatchSize g)
    (computes' : (b.forward engine).Computes a.shape a.maxBatchSize g) (p : Position) :
    let left := p.traced a (a.forward engine) pool
    let right := p.traced b (b.forward engine) pool'
    (p.evaluate b engine pool').2 = (p.evaluate a engine pool).2 ∧ right.1.2 = left.1.2 ∧
      right.2.map (·.inputs) = left.2.map (·.inputs) := by
  intro left right
  by_cases fits : p.Fits a.descriptor a.board
  case neg =>
    obtain ⟨flaw, _, refused⟩ := Position.unfit_refused fits
    obtain ⟨plain, guarded⟩ := refused a pool owned rfl rfl
    obtain ⟨plain', guarded'⟩ := refused b pool' owned' twins.descriptor twins.board
    have ended : left = _ := guarded (a.forward engine)
    have ended' : right = _ := guarded' (b.forward engine)
    rw [ended, ended', plain, plain']
    exact ⟨rfl, rfl, rfl⟩
  case pos =>
    have word := owned.served.allocated.sound.fit.denseWord
    rw [owned.fitted.shape] at word
    have fits' : p.Fits b.descriptor b.board := by
      rw [twins.descriptor, twins.board]
      exact fits
    obtain ⟨q, made, asks⟩ := fits.toRequest word a.inputsChannelLast
    obtain ⟨q', made', asks'⟩ := fits'.toRequest
      (by rw [twins.descriptor, twins.board]; exact word) b.inputsChannelLast
    have ended : left = _ := Position.traced_asked owned fits made asks (a.forward engine)
    have ended' : right = _ := Position.traced_asked owned' fits' made' asks' (b.forward engine)
    have plain := Position.traced_evaluation engine owned fits made asks
    have plain' := Position.traced_evaluation engine owned' fits' made' asks'
    have same : right.1.2 = left.1.2 := by
      rw [ended, ended']
      exact twins.concluded_eq owned owned' fits asks asks' computes computes'
    refine ⟨?_, same, ?_⟩
    · rw [← plain, ← plain']
      exact same
    · rw [ended, ended']
      exact congrArg (fun inputs => [inputs]) (twins.inputs_eq owned owned' fits asks asks')

end Handle.Twins

/-! ## Engines that compute a function -/

/-- A pass of an engine that may lack its context or device. -/
def Forward.onlyIf (ready : Bool) (run : Forward) : Forward :=
  if ready then run else fun _ slots _ => .fail slots .contextMissing

/-- A run that is refused without a context is still a function of the inputs: the
refusal does not depend on them. -/
theorem Forward.Computes.onlyIf {run : Forward} {s : PoolShape} {limit : Nat}
    {f : BatchInputs → Nat → Except (Failure EngineError) BatchOutputs}
    (computes : run.Computes s limit f) (ready : Bool) :
    ∃ g, (Forward.onlyIf ready run).Computes s limit g := by
  cases ready with
  | true => exact ⟨f, computes⟩
  | false => exact ⟨_, Forward.fail_computes .contextMissing s limit⟩

namespace AnyEngine

/-- What an engine answers to a batch depends on its inputs alone, if it gets that far. A
network is always such a function. -/
def Functional (s : PoolShape) (limit : Nat) : AnyEngine → Prop
  | .host e => ∃ f, e.forward.Computes s limit f
  | .scripted e => e.onRun.isSome = true
  | .cpu _ => True
  | .gpu _ => True

/-- The engine has not lost a model that it loaded: its slot is there, if it has one. -/
def Retains (model : LoadedModel) : AnyEngine → Prop
  | .host e => ∀ slot, model.slot = some slot → e.slots.contains slot = true
  | .cpu e => ∃ slot, model.slot = some slot ∧
    e.slots.get? slot = some ⟨model.version, model.config.maxBatchSize⟩
  | .gpu _ => True
  | .scripted _ => True

/-- What an engine does with the models that it retains and that are run in one precision, up
to the number of rows that they were loaded for. -/
def pass (half : Bool) : AnyEngine → Forward
  | .host e => .onlyIf e.context.isSome e.forward
  | .cpu e => .onlyIf e.hasDevice (e.network.run half)
  | .gpu e => .onlyIf e.hasDevice (e.network.run half)
  | .scripted e => fun _ slots _ => e.runBatch slots

/-- On an engine that keeps the model, a run within capacity is the pass of the
engine. -/
theorem runBatch_agrees {engine : AnyEngine} {model : LoadedModel}
    (retained : engine.Retains model) :
    Forward.Agrees (Engine.runBatch engine model) (engine.pass model.config.half)
      model.config.maxBatchSize := by
  cases engine with
  | host e =>
    cases context : e.context with
    | none =>
      intro inputs slots n _
      simp only [Engine.runBatch, HostEngine.runBatch, pass, Forward.onlyIf, context,
        Option.isNone_none, Option.isSome_none, if_true, Bool.false_eq_true, if_false]
    | some config =>
      have ready : e.context.isSome = true := by rw [context]; rfl
      rw [pass, ready]
      exact e.forward_agrees_found model ready retained
  | cpu e =>
    obtain ⟨slot, here, entry⟩ := retained
    intro inputs slots n bound
    simp only [Engine.runBatch, CpuEngine.runBatch, CpuEngine.compiled, here, entry, pass,
      Forward.onlyIf, if_neg (Nat.not_lt.mpr bound)]
    cases e.hasDevice <;> rfl
  | gpu e =>
    intro inputs slots n bound
    simp only [Engine.runBatch, GpuEngine.runBatch, pass, Forward.onlyIf,
      if_neg (Nat.not_lt.mpr bound)]
    cases e.hasDevice <;> rfl
  | scripted e =>
    intro inputs slots n _
    rfl

/-- What a functional engine does is a function of the inputs; without context or device that
is a failure. -/
theorem Functional.pass_computes {s : PoolShape} {limit : Nat} {engine : AnyEngine}
    (functional : engine.Functional s limit) (half : Bool) :
    ∃ g, (engine.pass half).Computes s limit g := by
  cases engine with
  | host e =>
    obtain ⟨f, computes⟩ := functional
    exact computes.onlyIf e.context.isSome
  | cpu e => exact (e.network.run_computes half s limit).onlyIf e.hasDevice
  | gpu e => exact (e.network.run_computes half s limit).onlyIf e.hasDevice
  | scripted e =>
    obtain ⟨cause, fails⟩ := Option.isSome_iff_exists.mp functional
    refine ⟨_, Forward.Agrees.computes ?_ (Forward.fail_computes cause s limit)⟩
    intro inputs slots n _
    simp only [pass, ScriptedEngine.runBatch, fails]

/-! ### Models that were just loaded -/

section

variable {engine engine' : AnyEngine} {d : Descriptor} {config : ModelConfig} {model : LoadedModel}

/-- An engine has a model that it just loaded. -/
theorem retains_loaded (loaded : Engine.loadModel engine d config = (engine', .ok model)) :
    engine'.Retains model := by
  cases engine with
  | host e =>
    obtain ⟨e', rfl, made⟩ := loadModel_host loaded
    intro slot here
    rcases HostEngine.loadModel_slotted made with ⟨_, bare, _⟩ | ⟨_, placed, rfl⟩
    · exact nomatch here.symm.trans bare
    · obtain rfl := Option.some.inj (here.symm.trans placed)
      rw [SlotMap.contains, SlotMap.get?_insert_self]
      rfl
  | cpu e =>
    obtain ⟨e', rfl, made⟩ := loadModel_cpu loaded
    obtain ⟨placed, rfl⟩ := CpuEngine.loadModel_slotted made
    exact ⟨_, placed, SlotMap.get?_insert_self _ _ _⟩
  | gpu e =>
    obtain ⟨rfl, _⟩ := Prod.mk.inj loaded
    trivial
  | scripted e =>
    obtain ⟨rfl, _⟩ := Prod.mk.inj loaded
    trivial

/-- It keeps a model when it loads one in another slot. -/
theorem Retains.loaded {other : LoadedModel} (retained : engine.Retains other)
    (loaded : Engine.loadModel engine d config = (engine', .ok model))
    (apart : ∀ slot, other.slot = some slot → model.slot ≠ some slot) :
    engine'.Retains other := by
  cases engine with
  | host e =>
    obtain ⟨e', rfl, made⟩ := loadModel_host loaded
    rcases HostEngine.loadModel_slotted made with ⟨_, _, rfl⟩ | ⟨_, placed, rfl⟩
    · exact retained
    · intro slot here
      have elsewhere : slot ≠ e.nextSlot := by
        rintro rfl
        exact apart _ here placed
      rw [SlotMap.contains, SlotMap.get?_insert_other elsewhere]
      exact retained slot here
  | cpu e =>
    obtain ⟨e', rfl, made⟩ := loadModel_cpu loaded
    obtain ⟨placed, rfl⟩ := CpuEngine.loadModel_slotted made
    obtain ⟨slot, here, entry⟩ := retained
    have elsewhere : slot ≠ e.nextSlot := by
      rintro rfl
      exact apart _ here placed
    exact ⟨slot, here, (SlotMap.get?_insert_other elsewhere).trans entry⟩
  | gpu e =>
    obtain ⟨rfl, _⟩ := Prod.mk.inj loaded
    trivial
  | scripted e =>
    obtain ⟨rfl, _⟩ := Prod.mk.inj loaded
    trivial

/-- In particular it keeps a model when it loads the next one, as slots are not given out twice
in a row.

Proof: slots are counted on, and counting on never stands still. Engines without slots
keep nothing that could be lost. -/
theorem retains_loaded_next {engine'' : AnyEngine} {d' : Descriptor} {config' : ModelConfig}
    {next : LoadedModel} (loaded : Engine.loadModel engine d config = (engine', .ok model))
    (loaded' : Engine.loadModel engine' d' config' = (engine'', .ok next)) :
    engine''.Retains model := by
  have retained := retains_loaded loaded
  cases engine with
  | host e =>
    apply retained.loaded loaded'
    intro slot here there
    obtain ⟨e', rfl, made⟩ := loadModel_host loaded
    obtain ⟨e'', rfl, made'⟩ := loadModel_host loaded'
    rcases HostEngine.loadModel_slotted made with ⟨_, bare, _⟩ | ⟨_, placed, rfl⟩
    · exact nomatch here.symm.trans bare
    rcases HostEngine.loadModel_slotted made' with ⟨_, bare, _⟩ | ⟨_, placed', _⟩
    · exact nomatch there.symm.trans bare
    have first : slot = e.nextSlot := Option.some.inj (here.symm.trans placed)
    have second : slot = e.nextSlot + 1 := Option.some.inj (there.symm.trans placed')
    omega
  | cpu e =>
    apply retained.loaded loaded'
    intro slot here there
    obtain ⟨e', rfl, made⟩ := loadModel_cpu loaded
    obtain ⟨e'', rfl, made'⟩ := loadModel_cpu loaded'
    obtain ⟨placed, rfl⟩ := CpuEngine.loadModel_slotted made
    obtain ⟨placed', _⟩ := CpuEngine.loadModel_slotted made'
    have first : slot = e.nextSlot := Option.some.inj (here.symm.trans placed)
    have second : slot = CpuEngine.slotAfter e.nextSlot :=
      Option.some.inj (there.symm.trans placed')
    exact CpuEngine.slotAfter_ne e.nextSlot (second.symm.trans first)
  | gpu e =>
    obtain ⟨rfl, _⟩ := Prod.mk.inj loaded
    obtain ⟨rfl, _⟩ := Prod.mk.inj loaded'
    trivial
  | scripted e =>
    obtain ⟨rfl, _⟩ := Prod.mk.inj loaded
    obtain ⟨rfl, _⟩ := Prod.mk.inj loaded'
    trivial

end

end AnyEngine

/-! ## Handles that were opened alike -/

section

variable {r r' r₁ r₂ : Registry AnyEngine} {id : Nat} {d : Descriptor} {maxBatchSize : Nat}
  {last last' : Bool} {routingIndex : Int} {server server' : Nat} {a b : Handle}
  (opened : Handle.openIn r id d maxBatchSize last routingIndex server = (r₁, .ok a))
  (opened' : Handle.openIn r' id d maxBatchSize last' routingIndex server' = (r₂, .ok b))
include opened opened'

/-- Handles that were opened in one context for one network, batch size and routing index are
twins, even if the second one was opened later. -/
theorem Handle.twins_opened (later : r.Later r') : a.Twins b := by
  obtain ⟨_, _, shared, engine, _, known, bound, listed, loaded, _, fields⟩ :=
    Handle.openIn_settings opened
  obtain ⟨_, _, shared', engine', _, known', bound', listed', loaded', _, fields'⟩ :=
    Handle.openIn_settings opened'
  have kept := later.contexts id shared.context (by rw [known]; rfl)
  rw [known'] at kept
  obtain alike : shared'.context = shared.context := Option.some.inj kept
  rw [alike] at bound' loaded'
  have number : b.engine = a.engine := Option.some.inj (bound'.symm.trans bound)
  obtain ⟨_, there, origin⟩ := later.engines a.engine engine listed
  rw [number] at listed'
  obtain rfl := Option.some.inj (listed'.symm.trans there)
  obtain ⟨_, version, config⟩ := AnyEngine.loadModel_model loaded
  obtain ⟨_, version', config'⟩ := AnyEngine.loadModel_model loaded'
  have precision : (Engine.capabilities engine').halfPrecision =
      (Engine.capabilities engine).halfPrecision := by
    rw [← AnyEngine.halfPrecision_made, origin, AnyEngine.halfPrecision_made]
  constructor
  case engine => exact number
  case descriptor => rw [fields, fields']
  case board => rw [fields, fields', alike]
  case limit => rw [fields, fields']
  case plane => rw [config, config', Handle.modelConfig, Handle.modelConfig]
  case version =>
    rw [version, version', ← AnyEngine.versionOf_made, origin, AnyEngine.versionOf_made]
  case half => rw [config, config', Handle.modelConfig, Handle.modelConfig, precision]
  case room => rw [config, fields, Handle.modelConfig]
  case room' => rw [config', fields', Handle.modelConfig]

/-- If they were opened one right after the other, the engine has both models. -/
theorem Handle.retains_opened (next : r' = r₁) {engine : AnyEngine}
    (listed : r₂.engines[a.engine]? = some engine) (same : b.engine = a.engine) :
    engine.Retains a.model ∧ engine.Retains b.model := by
  obtain ⟨_, _, _, _, first, _, _, there, loaded, rfl, _⟩ := Handle.openIn_settings opened
  obtain ⟨_, _, _, _, second, _, _, there', loaded', rfl, _⟩ := Handle.openIn_settings opened'
  rw [next, same] at there'
  obtain rfl := Option.some.inj (there'.symm.trans (Registry.setEngine_self there first))
  rw [same] at listed
  obtain rfl := Option.some.inj (listed.symm.trans (Registry.setEngine_self (next ▸ there') second))
  exact ⟨AnyEngine.retains_loaded_next loaded loaded', AnyEngine.retains_loaded loaded'⟩

end

namespace Session

/-- Let two handles be opened in one context, on the engine of one routing index, for one
network and batch size, and in any two channel orders, with any operations in between and after.
If the engine has not lost their models, which is sure if there were no such operations, and
computes a function of the inputs, then any position is evaluated alike by both handles on any
pools of their own: with the same report or the same error, guarded or not, and with the same
inputs shown to the same engine. -/
theorem channel_order_irrelevant (s : Session AnyEngine) {s₁ s₂ : Session AnyEngine}
    {reference reference' : Nat} {d : Descriptor} {maxBatchSize : Nat} {last last' : Bool}
    {routingIndex : Int} {server server' i j : Nat} (between later : List Operation)
    (opened : s.openHandle reference d maxBatchSize last routingIndex server = (s₁, .ok i))
    (opened' : (s₁.after between).openHandle reference' d maxBatchSize last' routingIndex server' =
      (s₂, .ok j))
    (same : (s₁.after between).reference? reference' = s.reference? reference)
    {a b : Handle} (here : s₁.handle? i = some a) (there : s₂.handle? j = some b)
    {engine : AnyEngine} (listed : (s₂.after later).registry.engines[a.engine]? = some engine)
    (kept : between = [] ∧ later = [] ∨ engine.Retains a.model ∧ engine.Retains b.model)
    (functional : engine.Functional a.shape maxBatchSize)
    {pool pool' : Pool} (owned : a.Owns pool) (owned' : b.Owns pool') (p : Position) :
    let left := p.traced a (a.forward engine) pool
    let right := p.traced b (b.forward engine) pool'
    b.engine = a.engine ∧ (p.evaluate b engine pool').2 = (p.evaluate a engine pool).2 ∧
      right.1.2 = left.1.2 ∧ right.2.map (·.inputs) = left.2.map (·.inputs) := by
  obtain ⟨id, _, known, first, made⟩ := openHandle_openIn opened
  obtain rfl := Option.some.inj (here.symm.trans first)
  obtain ⟨_, _, known', second, made'⟩ := openHandle_openIn opened'
  obtain rfl := Option.some.inj (there.symm.trans second)
  obtain rfl := Option.some.inj ((same.trans known).symm.trans known')
  have twins := Handle.twins_opened made made'
    ((Registry.Later.openIn made).trans (s₁.after_later between))
  have retained : engine.Retains a.model ∧ engine.Retains b.model := by
    rcases kept with ⟨rfl, rfl⟩ | retained
    · exact Handle.retains_opened made made' rfl listed twins.engine
    · exact retained
  have limit : a.maxBatchSize = maxBatchSize := by
    obtain ⟨_, _, _, _, _, _, _, _, _, _, fields⟩ := Handle.openIn_settings made
    rw [fields]
  rw [← limit] at functional
  obtain ⟨g, computes⟩ := functional.pass_computes a.model.config.half
  have agrees := AnyEngine.runBatch_agrees retained.1
  have agrees' := AnyEngine.runBatch_agrees retained.2
  rw [twins.room] at agrees
  rw [twins.room', twins.limit, twins.half] at agrees'
  exact ⟨twins.engine, twins.evaluate_eq owned owned' (agrees.computes computes)
    (agrees'.computes computes) p⟩

/-- The shape of pools for the small square board on planes of the largest size. -/
def squareShape : PoolShape := .ofDescriptor Handle.tinySquare.descriptor (.square 2) .compiled

/-- The pool of the square session is made as a blank one. -/
theorem squareShape_pool : Pool.create Handle.tinySquare.descriptor 2 (.square 2) .compiled =
    .ok (.blank squareShape "tiny" 2) := by
  have shape : PoolShape.create Handle.tinySquare.descriptor (.square 2) .compiled =
      .ok squareShape := rfl
  simp only [Pool.create, shape]
  rfl

/-- A session with an engine of that shape in the second place, and a context for it. -/
def square : Session AnyEngine :=
  (start #[.host (.new .secondary (.ofRows squareShape (.echo squareShape)))]).after
    [.build ⟨⟨.square 2, .auto, .auto, []⟩, none, some 0⟩]

/-- Two handles of that context have different slots and different channel orders. Both call
the engine for a board with stones in two corners, with the same inputs. -/
theorem channel_order_irrelevant_square :
    let d := Handle.tinySquare.descriptor
    let first := square.openHandle 0 d 2 false 100 0
    let second := first.1.openHandle 0 d 2 true 100 0
    let config : ModelConfig := ⟨.compiled, 2, false, false, 100, 0⟩
    let a : Handle := ⟨0, 0, ⟨.secondary, 14, some 0, config⟩, d, .square 2, false, 2⟩
    let b : Handle := ⟨0, 0, ⟨.secondary, 14, some 1, { config with channelLast := true }⟩, d,
      .square 2, true, 2⟩
    let plane : List Tensor := [#[⟨0x3f800000⟩, .zero], #[.zero, ⟨0x3f800000⟩]]
    let p : Position := ⟨2, 2, List.replicate 22 plane, .zeros 19⟩
    let pool := Pool.blank squareShape "tiny" 2
    first.2 = .ok 0 ∧ second.2 = .ok 1 ∧ first.1.handle? 0 = some a ∧ second.1.handle? 1 = some b ∧
      a.Owns pool ∧ b.Owns pool ∧ ∃ engine, second.1.registry.engines[0]? = some engine ∧
        engine.Functional squareShape 2 ∧
        (p.evaluate b engine pool).2 = (p.evaluate a engine pool).2 ∧
        ∃ call call', (p.traced a (a.forward engine) pool).2 = [call] ∧
          (p.traced b (b.forward engine) pool).2 = [call'] ∧ call'.inputs = call.inputs := by
  intro d first second config a b plane p pool
  have created (h : Handle) (made : Pool.create h.descriptor h.maxBatchSize h.board
      h.model.config.plane = .ok pool) : h.Owns pool :=
    .created (by rw [Handle.createPool, made])
  have owned : a.Owns pool := created a squareShape_pool
  have owned' : b.Owns pool := created b squareShape_pool
  have fits : p.Fits d (.square 2) := by decide
  obtain ⟨q, made, asks⟩ := fits.toRequest (by decide) false
  obtain ⟨engine, listed, functional⟩ : ∃ engine, second.1.registry.engines[0]? = some engine ∧
      engine.Functional squareShape 2 :=
    ⟨_, rfl, _, Forward.ofRows_computes (RowNet.echo_fills squareShape) 2⟩
  have opened : square.openHandle 0 d 2 false 100 0 = (first.1, .ok 0) := rfl
  have opened' : (first.1.after []).openHandle 0 d 2 true 100 0 = (second.1, .ok 1) := rfl
  have here : first.1.handle? 0 = some a := rfl
  have there : second.1.handle? 1 = some b := rfl
  obtain ⟨_, results, _, shown⟩ := channel_order_irrelevant square [] [] opened opened' rfl here
    there listed (.inl ⟨rfl, rfl⟩) functional owned owned' p
  have asked := Position.traced_asked owned fits made asks (a.forward engine)
  rw [asked, List.map_singleton] at shown
  obtain ⟨call', calls, inputs⟩ := List.map_eq_singleton_iff.mp shown
  exact ⟨rfl, rfl, rfl, rfl, owned, owned', engine, listed, functional, results, _, call',
    congrArg Prod.snd asked, calls, inputs⟩

end Session

end BoardEval
