import BoardEval.Proofs.Calls

/-!
# The contract of a batch

`Contract` lists what a batch promises: its size, the room of the pool, one evaluation per
request, a pool made for the handle's board, planes, network and channel counts, and in each
row the extents and lengths of request and evaluation. The name and five counts stand for all
widths of the pool.

A batch that breaks one of these promises, also in a late row after earlier rows were already
written, ends with a fault that names a promise; the engine was not called and no evaluation
has changed. A batch that keeps them calls the engine once, with the rows of its requests and
no others, and no step of its own ever breaks a promise. A failure of the engine is passed on
and leaves every evaluation as it was.
-/

namespace BoardEval

/-- One policy value per cell and one for the pass, and if there is a map of ownership, one
value per cell. -/
structure Evaluation.WellSized (out : Evaluation) : Prop where
  policy : out.policy.size = out.extent.cells + 1
  ownership : ∀ map, out.ownership = some map → map.size = out.extent.cells

/-- A new evaluation is well-sized, whatever its extent. -/
theorem Evaluation.blankChecked_wellSized (extent : Extent) (withOwnership : Bool)
    (out : Evaluation) (made : blankChecked extent withOwnership = .ok out) : out.WellSized := by
  simp only [blankChecked, bind_ok_iff, pure_ok_iff] at made
  obtain ⟨_, _, _, _, rfl⟩ := made
  refine ⟨Tensor.size_zeros _, ?_⟩
  intro map given
  cases withOwnership with
  | false => exact nomatch given
  | true =>
    obtain rfl := Option.some.inj given
    exact Tensor.size_zeros _

/-- A well-sized evaluation of the board of a shape has room for its rows. -/
theorem Evaluation.WellSized.roomy {out : Evaluation} (sized : out.WellSized) {s : PoolShape}
    (extent : out.extent = s.board) : out.Roomy s :=
  ⟨extent, extent ▸ sized.policy, extent ▸ sized.ownership⟩

/-! ## Faults that name a promise -/

/-- If the step faults, the fault names a promise. -/
def NamesPromise {α : Type} (step : Except Fault α) : Prop :=
  ∀ broken, step = .error broken → ∃ text, broken = .stated text

/-- A promise that is required aloud is named when it is broken. -/
theorem require_names (promise : Bool) (text : String) : NamesPromise (require promise text) := by
  intro broken failed
  cases promise with
  | false => exact ⟨text, (Except.error.inj failed).symm⟩
  | true => exact nomatch failed

/-- Steps that name what they break name it also one after the other. -/
theorem NamesPromise.bind {α β : Type} {first : Except Fault α} {next : α → Except Fault β}
    (firstNames : NamesPromise first) (nextNames : ∀ value, NamesPromise (next value)) :
    NamesPromise (first >>= next) := by
  cases first with
  | error cause =>
    rintro broken ⟨⟩
    exact firstNames cause rfl
  | ok value => exact nextNames value

namespace Handle

section

variable (h : Handle) (p : Pool)

/-- A pool that does not fit its handle is refused by name. -/
theorem checkPool_names : NamesPromise (h.checkPool p) :=
  (require_names _ _).bind fun _ => (require_names _ _).bind fun _ => require_names _ _

/-- A batch that is too large, or lacks outputs, is refused by name. -/
theorem checkBatch_names (requests outputs : Nat) :
    NamesPromise (h.checkBatch p requests outputs) :=
  (require_names _ _).bind fun _ => (require_names _ _).bind fun _ =>
    (require_names _ _).bind fun _ => checkPool_names h p

/-- A request with tensors of the wrong length, or an evaluation that does not suit
it, is refused by name. -/
theorem checkRow_names (r : Nat) (q : Request) (out : Evaluation) :
    NamesPromise (h.checkRow p r q out) :=
  (require_names _ _).bind fun _ => (require_names _ _).bind fun _ =>
    (require_names _ _).bind fun _ => require_names _ _

end

variable {h : Handle} {p : Pool}

/-- Writing rows faults only where a row is not in order: a row in order can always be
written. The induction is on the rows. -/
theorem loadRows_names (sound : p.Sound) (board : h.board = p.shape.board) (r : Nat)
    (pairs : List (Request × Evaluation)) (room : r + pairs.length ≤ p.capacity) :
    NamesPromise (h.loadRows r pairs p).2 := by
  induction pairs generalizing r p with
  | nil => exact nofun
  | cons pair rest inductionHypothesis =>
    obtain ⟨q, out⟩ := pair
    simp only [List.length_cons] at room
    simp only [loadRows]
    cases checked : h.checkRow p r q out with
    | error broken =>
      have names := checkRow_names h p r q out
      rwa [checked] at names
    | ok u =>
      obtain ⟨_, takes⟩ := checkRow_takes board checked
      have written := loadRow_ok (h := h) sound board (show r < p.capacity by omega) takes
      obtain ⟨sound', alike⟩ := loadRow_sound sound written
      simp only [written]
      exact inductionHypothesis sound' board (r + 1) (by rw [alike.capacity]; omega)

/-- A batch is refused only for a promise that the refusal names. -/
theorem load_names (sound : p.Sound) (requests : List Request) (outputs : List Evaluation) :
    NamesPromise (h.load p requests outputs).2 := by
  have names := checkBatch_names h p requests.length outputs.length
  unfold load
  cases checked : h.checkBatch p requests.length outputs.length with
  | error broken => rwa [checked] at names
  | ok u =>
    obtain ⟨board, room⟩ := checked_batch checked
    exact loadRows_names sound board 0 _ room

/-! ## The contract -/

/-- What a batch promises. -/
structure Contract (h : Handle) (p : Pool) (requests : List Request)
    (outputs : List Evaluation) : Prop where
  positive : 1 ≤ requests.length
  limit : requests.length ≤ h.maxBatchSize
  capacity : requests.length ≤ p.capacity
  count : outputs.length = requests.length
  board : p.shape.board = h.board
  plane : p.shape.plane = h.model.config.plane
  modelName : p.modelName = h.descriptor.name
  spatial : p.shape.spatial = h.descriptor.spatial
  globals : p.shape.globals = h.descriptor.globals
  policy : p.shape.policy = h.descriptor.policy
  ownership : p.shape.ownership = h.descriptor.ownership
  outputExtents : ∀ out ∈ outputs, out.extent = h.board
  requestExtents : ∀ q ∈ requests, q.extent = h.board
  spatialSizes : ∀ q ∈ requests, q.spatial.size = h.descriptor.spatial * h.board.cells
  globalSizes : ∀ q ∈ requests, q.globals.size = h.descriptor.globals

/-- A batch is loaded exactly if it keeps its contract.

Proof: the checks of pool and batch are conditions on the whole batch; those of the
rows are about pairs, and as many evaluations as requests leave none without a
partner. -/
theorem contract_iff_loaded (sound : p.Sound) (requests : List Request)
    (outputs : List Evaluation) :
    h.Contract p requests outputs ↔ (h.load p requests outputs).2 = .ok () := by
  rw [load_ok_iff sound, checkBatch_ok_iff, checkPool_ok_iff]
  constructor
  · intro contract
    refine ⟨⟨⟨contract.positive, contract.limit⟩, contract.capacity, contract.count,
      contract.board, contract.plane, contract.modelName, contract.spatial, contract.globals,
      contract.policy, contract.ownership⟩, ?_⟩
    intro pair member
    obtain ⟨request, output⟩ := List.of_mem_zip member
    refine ⟨contract.outputExtents _ output, ?_⟩
    constructor
    case extent => exact (contract.requestExtents _ request).trans contract.board.symm
    case spatial =>
      rw [contract.spatialSizes _ request, PoolShape.denseSpatial, contract.board,
        contract.spatial]
    case globals => rw [contract.globalSizes _ request, contract.globals]
  · rintro ⟨⟨⟨positive, limit⟩, capacity, count, board, plane, name, spatial, globals, policy,
      ownership⟩, rows⟩
    -- Every request and every evaluation has a partner, because there are as many of them.
    have ofRequest {q : Request} (listed : q ∈ requests) : p.shape.Takes q := by
      rw [← List.map_fst_zip (Nat.le_of_eq count.symm)] at listed
      obtain ⟨pair, member, rfl⟩ := List.mem_map.mp listed
      exact (rows pair member).2
    have ofOutput {out : Evaluation} (listed : out ∈ outputs) : out.extent = h.board := by
      rw [← List.map_snd_zip (Nat.le_of_eq count)] at listed
      obtain ⟨pair, member, rfl⟩ := List.mem_map.mp listed
      exact (rows pair member).1
    constructor
    case outputExtents => exact fun _ => ofOutput
    case requestExtents => exact fun _ listed => (ofRequest listed).extent.trans board
    case spatialSizes =>
      intro q listed
      rw [(ofRequest listed).spatial, PoolShape.denseSpatial, board, spatial]
    case globalSizes => exact fun _ listed => (ofRequest listed).globals.trans globals
    all_goals assumption

end Handle

/-- The engine is called with the rows of a batch and no others: as many rows as there are
requests, each showing its request, packed, and offering the slots of its row of the
pool. -/
structure Call.Shows (call : Call) (h : Handle) (p : Pool) (requests : List Request) : Prop where
  rows : call.rows = requests.length
  inputs : call.inputs.Shaped p.shape requests.length
  slots : call.slots.Shaped p.shape requests.length
  packed : ∀ i q, requests[i]? = some q →
    call.inputs.spatialRow i = p.shape.packedRow h.inputsChannelLast q ∧
      call.inputs.globalRow i = q.globals
  offered : ∀ i < requests.length, call.slots.row i = p.heads i

namespace Handle

variable {h : Handle} {p : Pool} {requests : List Request} {outputs : List Evaluation}

/-- The call of a loaded batch shows the batch. -/
theorem callOf_shows (sound : p.Sound) (loaded : (h.load p requests outputs).2 = .ok ()) :
    (h.callOf p requests outputs).Shows h p requests := by
  obtain ⟨_, _, room, _⟩ := loaded_room sound loaded
  obtain ⟨sound', alike⟩ := load_sound (h := h) sound requests outputs
  have bound := alike.capacity ▸ room
  constructor
  case rows => rfl
  case inputs => exact alike.shape ▸ Pool.inputs_shaped sound' bound
  case slots => exact alike.shape ▸ Pool.outputs_shaped sound' bound
  case packed =>
    intro i q listed
    obtain ⟨inside, _⟩ := List.getElem?_eq_some_iff.mp listed
    simp only [callOf, Pool.inputs_spatialRow sound' bound inside,
      Pool.inputs_globalRow sound' bound inside]
    exact load_rows sound loaded listed
  case offered =>
    intro i inside
    simp only [callOf, Pool.outputs_row sound' bound inside, load_heads]

/-- A loaded batch with well-sized evaluations is decoded in full if the engine succeeds. -/
theorem execute_complete (sound : p.Sound) (contract : h.Contract p requests outputs)
    (sized : ∀ out ∈ outputs, out.WellSized) (forward : Forward)
    (succeeded : (h.ran forward p requests outputs).result = .ok ()) :
    (h.executeBy forward p requests outputs).result = .ok () := by
  have loaded := (contract_iff_loaded sound requests outputs).mp contract
  obtain ⟨stored, alike⟩ := filled_sound (h := h) sound forward requests outputs
  obtain ⟨outs, decoded, _⟩ := decodeRows_ok h.model.version stored 0 (requests.zip outputs)
    (alike.capacity ▸ paired_room sound loaded)
    (by
      intro pair member
      have listed := (List.of_mem_zip member).2
      rw [alike.shape]
      exact (sized _ listed).roomy
        ((contract.outputExtents _ listed).trans contract.board.symm))
  rw [execute_ran loaded succeeded]
  simp only [decoded]
  rfl

/-- For every handle and engine, every pool that was created and used, all requests and all
well-sized evaluations: the batch with a guard on every step ends as the batch without guards.
If it breaks its contract it ends with a named promise, no call was made and no evaluation has
changed. If it keeps its contract it calls the engine once, with exactly its rows, and succeeds
if the engine does; a failure of the engine comes back as it is, and every evaluation is what
it was.

Proof: the contract says exactly when the rows can be written. If they cannot, a
promise was named before the engine was reached. If they can, the engine is called
once, and no guard behind the call fires whatever it leaves. -/
theorem execute_contract {ε : Type} [Engine ε] (h : Handle) (engine : ε) (p : Pool)
    (served : p.Served) (requests : List Request) (outputs : List Evaluation)
    (sized : ∀ out ∈ outputs, out.WellSized) :
    let run := h.traced (h.forward engine) p requests outputs
    run.1 = h.execute engine p requests outputs ∧
      (¬h.Contract p requests outputs → run.2 = [] ∧ run.1.outputs = outputs ∧
        ∃ text, run.1.result = .error (.fault (.stated text))) ∧
      (h.Contract p requests outputs → ∃ call, run.2 = [call] ∧ call.Shows h p requests ∧
        (((h.forward engine).answer call).result = .ok () → run.1.result = .ok ()) ∧
        ∀ failure, ((h.forward engine).answer call).result = .error failure →
          run.1.result = .error (failure.map .engine) ∧ run.1.outputs = outputs) := by
  have allocated := served.allocated
  have sound := allocated.sound
  intro run
  refine ⟨traced_execution allocated _, ?_, ?_⟩
  · intro broke
    cases loaded : (h.load p requests outputs).2 with
    | ok u => exact absurd ((contract_iff_loaded sound requests outputs).mpr loaded) broke
    | error broken =>
      obtain ⟨text, rfl⟩ := load_names sound requests outputs broken loaded
      simp only [run, traced_refused allocated _ loaded, execute_refused loaded]
      exact ⟨trivial, trivial, text, rfl⟩
  · intro contract
    have loaded := (contract_iff_loaded sound requests outputs).mp contract
    refine ⟨h.callOf p requests outputs, ?_, callOf_shows sound loaded, ?_, ?_⟩
    · simp only [run, traced_loaded allocated _ loaded]
    · intro succeeded
      simp only [run, traced_execution allocated]
      exact execute_complete sound contract sized _ succeeded
    · intro failure failed
      simp only [run, traced_execution allocated, execute_failed loaded failed]
      exact ⟨trivial, trivial⟩

/-- The tiny handle calls its engine once for two requests with an evaluation each, and not
at all where one of the evaluations is missing. -/
theorem execute_contract_tiny :
    let p := Pool.blank tiny.shape "tiny" 2
    let requests := [Request.tiny .zero, Request.tiny .one]
    let outputs := [Evaluation.blank ⟨3, 2⟩ true, Evaluation.blank ⟨3, 2⟩ false]
    p.Served ∧ (∀ out ∈ outputs, out.WellSized) ∧ tiny.Contract p requests outputs ∧
      (∃ call, (tiny.traced (tiny.forward tinyEngine) p requests outputs).2 = [call]) ∧
      (tiny.traced (tiny.forward tinyEngine) p requests outputs).1.result = .ok () ∧
      ¬tiny.Contract p requests [Evaluation.blank ⟨3, 2⟩ true] ∧
      (tiny.traced (tiny.forward tinyEngine) p requests [Evaluation.blank ⟨3, 2⟩ true]).2 = [] := by
  intro p requests outputs
  have served : p.Served := .created tiny.descriptor 2 tiny.board (.square 3) rfl
  have sized : ∀ out ∈ outputs, out.WellSized := by
    intro out listed
    simp only [outputs, List.mem_cons, List.not_mem_nil, or_false] at listed
    rcases listed with rfl | rfl
    · exact Evaluation.blankChecked_wellSized ⟨3, 2⟩ true _ rfl
    · exact Evaluation.blankChecked_wellSized ⟨3, 2⟩ false _ rfl
  have extents : ∀ out ∈ outputs, out.extent = tiny.shape.board := by
    intro out listed
    simp only [outputs, List.mem_cons, List.not_mem_nil, or_false] at listed
    rcases listed with rfl | rfl <;> rfl
  have contract : tiny.Contract p requests outputs :=
    (contract_iff_loaded tiny_owns.fitted.sound requests outputs).mpr
      (load_ok tiny_owns.fitted tiny_admits rfl fun out listed =>
        (sized out listed).roomy (extents out listed))
  have short : ¬tiny.Contract p requests [Evaluation.blank ⟨3, 2⟩ true] :=
    fun contract => absurd contract.count (by decide)
  obtain ⟨_, _, once⟩ := execute_contract tiny tinyEngine p served requests outputs sized
  obtain ⟨call, calls, shown, succeeds, _⟩ := once contract
  have answered : ((tiny.forward tinyEngine).answer call).result = .ok () := by
    rw [Forward.answer, tiny_agrees _ _ _ (Nat.le_of_eq shown.rows)]
    rfl
  obtain ⟨_, never, _⟩ :=
    execute_contract tiny tinyEngine p served requests [Evaluation.blank ⟨3, 2⟩ true]
      fun out listed => sized out (List.mem_of_mem_take (i := 1) listed)
  exact ⟨served, sized, contract, ⟨call, calls⟩, succeeds answered, short, (never short).1⟩

end Handle

end BoardEval
