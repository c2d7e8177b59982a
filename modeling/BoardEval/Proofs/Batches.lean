import BoardEval.Proofs.Decoding
import BoardEval.Proofs.Forwards
import BoardEval.Proofs.Packing

/-!
# Batches on the pools of a handle

A handle owns the pools that it creates, and owns them still after any batches
that were run on them: with any handle and any forward pass, of any requests, and
however they ended. Every pool it owns is sound and has the shape, capacity and
network of the handle.

A batch that keeps its contract shows the forward pass its requests, packed, and
decodes what comes back. A batch that breaks its contract calls no forward pass.
-/

namespace BoardEval

open Number (Double)

namespace Handle

section

variable {p p' : Pool} (version : Int)

/-- Decoding rows keeps a pool sound and its heads as they were, also where an
evaluation lacks room and the decoding stops. -/
theorem decodeRows_keeps (sound : p.Sound) (r : Nat) (pairs : List (Request × Evaluation))
    (room : r + pairs.length ≤ p.capacity) : p.Keeps (decodeRows version r pairs p).1 := by
  induction pairs generalizing r p with
  | nil => exact .refl sound
  | cons pair rest inductionHypothesis =>
    obtain ⟨q, out⟩ := pair
    simp only [List.length_cons] at room
    have keeps := Pool.decodeRow_keeps sound (show r < p.capacity by omega) q out version
    unfold decodeRows
    split
    · rename_i after _ _ decoded
      simpa only [decoded] using keeps
    · rename_i after _ decoded
      rw [decoded] at keeps
      exact keeps.trans (inductionHypothesis keeps.sound (r + 1)
        (by rw [keeps.alike.capacity]; omega))

/-- Every row has its evaluation afterwards, decoded or as it was. -/
theorem decodeRows_length (p : Pool) (r : Nat) (pairs : List (Request × Evaluation)) :
    (decodeRows version r pairs p).2.1.length = pairs.length := by
  induction pairs generalizing r p with
  | nil => rfl
  | cons pair rest inductionHypothesis =>
    obtain ⟨q, out⟩ := pair
    unfold decodeRows
    split
    · simp
    · simp [inductionHypothesis]

/-- What is decoded depends on the shape of the pool and on the rows of its heads. -/
theorem decodeRows_congr (sound : p.Sound) (sound' : p'.Sound) (alike : p.Alike p') (r : Nat)
    (pairs : List (Request × Evaluation)) (room : r + pairs.length ≤ p.capacity)
    (heads : ∀ i < r + pairs.length, p.heads i = p'.heads i) :
    (decodeRows version r pairs p).2 = (decodeRows version r pairs p').2 := by
  induction pairs generalizing r p p' with
  | nil => rfl
  | cons pair rest inductionHypothesis =>
    obtain ⟨q, out⟩ := pair
    simp only [List.length_cons] at room heads
    have bound : r < p.capacity := by omega
    have bound' : r < p'.capacity := alike.capacity ▸ bound
    have same := Pool.decodeRow_congr sound sound' alike bound (heads r (by omega)) q out version
    have keeps := Pool.decodeRow_keeps sound bound q out version
    have keeps' := Pool.decodeRow_keeps sound' bound' q out version
    simp only [decodeRows]
    generalize p.decodeRow r q out version = left at same keeps
    generalize p'.decodeRow r q out version = right at same keeps'
    obtain ⟨after, e, result⟩ := left
    obtain ⟨after', e', result'⟩ := right
    obtain ⟨rfl, rfl⟩ := Prod.mk.inj same
    cases result with
    | error broken => rfl
    | ok u =>
      have later := inductionHypothesis keeps.sound keeps'.sound
        (keeps.alike.trans (alike.trans keeps'.alike.symm)) (r + 1)
        (by rw [keeps.alike.capacity]; omega)
        (by
          intro i inside
          rw [keeps.heads, keeps'.heads]
          exact heads i (by omega))
      simp only [later]

/-- Rows with room for them are all decoded, each from its own row of the heads. -/
theorem decodeRows_ok (sound : p.Sound) (r : Nat) (pairs : List (Request × Evaluation))
    (room : r + pairs.length ≤ p.capacity)
    (roomy : ∀ pair ∈ pairs, pair.2.Roomy p.shape) :
    ∃ outs, (decodeRows version r pairs p).2 = (outs, .ok ()) ∧ outs.length = pairs.length ∧
      ∀ i pair, pairs[i]? = some pair → ∃ e, outs[i]? = some e ∧
        p.shape.Decoded version pair.1 pair.2.ownership.isSome (p.heads (r + i)) e := by
  induction pairs generalizing r p with
  | nil => exact ⟨[], rfl, rfl, by simp⟩
  | cons pair rest inductionHypothesis =>
    obtain ⟨q, out⟩ := pair
    simp only [List.length_cons] at room
    have bound : r < p.capacity := by omega
    have keeps := Pool.decodeRow_keeps sound bound q out version
    obtain ⟨e, first, decoded⟩ :=
      Pool.decodeRow_ok sound bound q (roomy (q, out) List.mem_cons_self) version
    simp only [decodeRows]
    generalize p.decodeRow r q out version = left at first keeps
    obtain ⟨after, e', result⟩ := left
    obtain ⟨rfl, rfl⟩ := Prod.mk.inj first
    obtain ⟨outs, later, length, rows⟩ := inductionHypothesis keeps.sound (r + 1)
      (by rw [keeps.alike.capacity]; omega)
      (fun pair member => keeps.alike.shape ▸ roomy pair (List.mem_cons_of_mem _ member))
    simp only [later]
    refine ⟨e' :: outs, rfl, by simp [length], ?_⟩
    intro i pair listed
    cases i with
    | zero =>
      obtain rfl : (q, out) = pair := by simpa using listed
      exact ⟨e', rfl, decoded⟩
    | succ i =>
      obtain ⟨e, here, values⟩ := rows i pair (by simpa using listed)
      rw [keeps.alike.shape, keeps.heads, Nat.add_right_comm] at values
      exact ⟨e, by simpa using here, values⟩

end

/-- The shape of the pools of a handle. -/
def shape (h : Handle) : PoolShape := .ofDescriptor h.descriptor h.board h.model.config.plane

/-- The pools of a handle: those it creates, and what batches make of them. -/
inductive Owns (h : Handle) : Pool → Prop where
  | created {p : Pool} (made : h.createPool = .ok p) : h.Owns p
  | used {p : Pool} (owned : h.Owns p) (user : Handle) (forward : Forward)
      (requests : List Request) (outputs : List Evaluation) :
      h.Owns (user.executeBy forward p requests outputs).pool

/-- A batch that keeps the contract of a handle. -/
structure Admits (h : Handle) (requests : List Request) : Prop where
  positive : 1 ≤ requests.length
  limit : requests.length ≤ h.maxBatchSize
  takes : ∀ q ∈ requests, h.shape.Takes q

/-- A sound pool that was made for a handle. -/
structure Fitted (h : Handle) (p : Pool) : Prop where
  sound : p.Sound
  shape : p.shape = h.shape
  capacity : p.capacity = h.maxBatchSize
  modelName : p.modelName = h.descriptor.name
  positive : 1 ≤ h.maxBatchSize

/-- The input slices that a batch shows the forward pass, if it comes to that. -/
def shown (h : Handle) (p : Pool) (requests : List Request) (outputs : List Evaluation) :
    Option BatchInputs :=
  match h.load p requests outputs with
  | (_, .error _) => none
  | (p, .ok ()) => some (p.inputs requests.length)

variable {h : Handle} {p : Pool}

/-- The run of a forward pass on the rows of a batch that was loaded. -/
def ran (h : Handle) (forward : Forward) (p : Pool) (requests : List Request)
    (outputs : List Evaluation) : BatchRun :=
  forward ((h.load p requests outputs).1.inputs requests.length)
    ((h.load p requests outputs).1.outputs requests.length) requests.length

/-- The pool after that run. -/
def filled (h : Handle) (forward : Forward) (p : Pool) (requests : List Request)
    (outputs : List Evaluation) : Pool :=
  (h.load p requests outputs).1.store requests.length (h.ran forward p requests outputs).outputs

section

variable {forward : Forward} {requests : List Request} {outputs : List Evaluation}

/-- A batch that is not loaded ends with the broken promise. -/
theorem execute_refused {broken : Fault}
    (refused : (h.load p requests outputs).2 = .error broken) :
    h.executeBy forward p requests outputs =
      ⟨(h.load p requests outputs).1, outputs, .error (.fault broken)⟩ := by
  unfold executeBy
  generalize h.load p requests outputs = loaded at refused ⊢
  obtain ⟨after, result⟩ := loaded
  obtain rfl : result = .error broken := refused
  rfl

/-- A batch whose run fails ends with that failure and decodes nothing. -/
theorem execute_failed {failure : Failure EngineError}
    (loaded : (h.load p requests outputs).2 = .ok ())
    (failed : (h.ran forward p requests outputs).result = .error failure) :
    h.executeBy forward p requests outputs =
      ⟨h.filled forward p requests outputs, outputs, .error (failure.map .engine)⟩ := by
  unfold ran at failed
  unfold executeBy filled ran
  generalize h.load p requests outputs = after at loaded failed ⊢
  obtain ⟨after, result⟩ := after
  obtain rfl : result = .ok () := loaded
  simp only at failed ⊢
  rw [failed]

/-- A batch whose run succeeds ends with the decoded rows. -/
theorem execute_ran (loaded : (h.load p requests outputs).2 = .ok ())
    (succeeded : (h.ran forward p requests outputs).result = .ok ()) :
    let decoded := decodeRows h.model.version 0 (requests.zip outputs)
      (h.filled forward p requests outputs)
    h.executeBy forward p requests outputs =
      ⟨decoded.1, decoded.2.1, decoded.2.2.mapError .fault⟩ := by
  unfold ran at succeeded
  unfold executeBy filled ran
  generalize h.load p requests outputs = after at loaded succeeded ⊢
  obtain ⟨after, result⟩ := after
  obtain rfl : result = .ok () := loaded
  simp only at succeeded ⊢
  rw [succeeded]

/-- However a batch ends, there is an evaluation for each of its requests. -/
theorem execute_length (sized : outputs.length = requests.length) :
    (h.executeBy forward p requests outputs).outputs.length = requests.length := by
  cases loaded : (h.load p requests outputs).2 with
  | error broken =>
    rw [execute_refused loaded]
    exact sized
  | ok u =>
    cases run : (h.ran forward p requests outputs).result with
    | error failure =>
      rw [execute_failed loaded run]
      exact sized
    | ok u =>
      rw [execute_ran loaded run, decodeRows_length, List.length_zip, sized, Nat.min_self]

/-- A loaded batch has a row of the pool for each of its requests. -/
theorem loaded_room (sound : p.Sound) (loaded : (h.load p requests outputs).2 = .ok ()) :
    1 ≤ requests.length ∧ requests.length ≤ h.maxBatchSize ∧ requests.length ≤ p.capacity ∧
      outputs.length = requests.length := by
  obtain ⟨⟨positive, limit⟩, room, count, _⟩ :=
    (checkBatch_ok_iff _ _ ()).mp ((load_ok_iff sound requests outputs).mp loaded).1
  exact ⟨positive, limit, room, count⟩

/-- Its pairs of a request and an evaluation have those rows too. -/
theorem paired_room (sound : p.Sound) (loaded : (h.load p requests outputs).2 = .ok ()) :
    0 + (requests.zip outputs).length ≤ p.capacity :=
  (checked_batch ((load_ok_iff sound requests outputs).mp loaded).1).2

end

/-- Whatever the engine leaves in the output rows, the pool that a batch was run on
is sound and of the same shape. -/
theorem filled_sound (sound : p.Sound) (forward : Forward) (requests : List Request)
    (outputs : List Evaluation) :
    (h.filled forward p requests outputs).Sound ∧
      (h.filled forward p requests outputs).Alike p := by
  obtain ⟨loadedSound, alike⟩ := load_sound (h := h) sound requests outputs
  exact ⟨Pool.store_sound loadedSound _ _, (Pool.store_alike _ _ _).trans alike⟩

/-- What a batch leaves behind is sound, however the batch ended. -/
theorem execute_sound (sound : p.Sound) (forward : Forward) (requests : List Request)
    (outputs : List Evaluation) :
    (h.executeBy forward p requests outputs).pool.Sound ∧
      (h.executeBy forward p requests outputs).pool.Alike p := by
  cases loaded : (h.load p requests outputs).2 with
  | error broken =>
    rw [execute_refused loaded]
    exact load_sound sound requests outputs
  | ok u =>
    obtain ⟨stored, alike⟩ := filled_sound (h := h) sound forward requests outputs
    cases run : (h.ran forward p requests outputs).result with
    | error failure =>
      rw [execute_failed loaded run]
      exact ⟨stored, alike⟩
    | ok u =>
      rw [execute_ran loaded run]
      have keeps := decodeRows_keeps h.model.version stored 0 (requests.zip outputs)
        (alike.capacity ▸ paired_room sound loaded)
      exact ⟨keeps.sound, keeps.alike.trans alike⟩

/-- A handle creates pools for its own descriptor, batches, board and planes. -/
theorem createPool_ok (made : h.createPool = .ok p) :
    Pool.create h.descriptor h.maxBatchSize h.board h.model.config.plane = .ok p := by
  unfold createPool at made
  split at made
  · rename_i pool created
    obtain rfl := Except.ok.inj made
    exact created
  · exact nomatch made

/-- A handle owns fitted pools only. The induction is on the history of the pool:
creation fits it to the handle, and no batch changes what it was made for. -/
theorem Owns.fitted (owned : h.Owns p) : h.Fitted p := by
  induction owned with
  | created made =>
    obtain ⟨sound, shape, capacity, name, positive⟩ :=
      Pool.create_sound _ _ _ _ _ (createPool_ok made)
    exact ⟨sound, shape, capacity, name, positive⟩
  | used _ user forward requests outputs fitted =>
    obtain ⟨sound, alike⟩ := execute_sound (h := user) fitted.sound forward requests outputs
    exact ⟨sound, alike.shape.trans fitted.shape, alike.capacity.trans fitted.capacity,
      alike.modelName.trans fitted.modelName, fitted.positive⟩

/-- Any two pools that fit a handle have the same shape and the same capacity,
whatever they hold. -/
theorem Fitted.alike {q : Pool} (left : h.Fitted p) (right : h.Fitted q) : p.Alike q :=
  ⟨left.capacity.trans right.capacity.symm, left.shape.trans right.shape.symm,
    left.modelName.trans right.modelName.symm⟩

/-- A batch that keeps its contract is loaded into any pool of the handle. -/
theorem load_ok (fitted : h.Fitted p) {requests : List Request} (admitted : h.Admits requests)
    {outputs : List Evaluation} (count : outputs.length = requests.length)
    (roomy : ∀ out ∈ outputs, out.Roomy h.shape) : (h.load p requests outputs).2 = .ok () := by
  have shape := fitted.shape
  rw [load_ok_iff fitted.sound, checkBatch_ok_iff, checkPool_ok_iff]
  refine ⟨⟨⟨admitted.positive, admitted.limit⟩, fitted.capacity ▸ admitted.limit, count, ?_⟩, ?_⟩
  · rw [shape]
    exact ⟨rfl, rfl, fitted.modelName, rfl, rfl, rfl, rfl⟩
  · intro pair member
    obtain ⟨request, output⟩ := List.of_mem_zip member
    rw [shape]
    exact ⟨(roomy _ output).extent, admitted.takes _ request⟩

/-- A loaded batch shows rows of the handle's shape, and they are its requests,
packed. -/
theorem loaded_inputs (fitted : h.Fitted p) {requests : List Request} {outputs : List Evaluation}
    (loaded : (h.load p requests outputs).2 = .ok ()) :
    let inputs := (h.load p requests outputs).1.inputs requests.length
    inputs.Shaped h.shape requests.length ∧ ∀ i q, requests[i]? = some q →
      inputs.spatialRow i = h.shape.packedRow h.inputsChannelLast q ∧
        inputs.globalRow i = q.globals := by
  obtain ⟨_, _, room, _⟩ := loaded_room fitted.sound loaded
  obtain ⟨sound, alike⟩ := load_sound (h := h) fitted.sound requests outputs
  have bound := alike.capacity ▸ room
  refine ⟨fitted.shape ▸ alike.shape ▸ Pool.inputs_shaped sound bound, ?_⟩
  intro i q listed
  obtain ⟨inside, _⟩ := List.getElem?_eq_some_iff.mp listed
  rw [Pool.inputs_spatialRow sound bound inside, Pool.inputs_globalRow sound bound inside,
    ← fitted.shape]
  exact load_rows fitted.sound loaded listed

/-- The slices that it offers for the heads have the handle's shape. -/
theorem loaded_outputs (fitted : h.Fitted p) {requests : List Request} {outputs : List Evaluation}
    (loaded : (h.load p requests outputs).2 = .ok ()) :
    ((h.load p requests outputs).1.outputs requests.length).Shaped h.shape requests.length := by
  obtain ⟨_, _, room, _⟩ := loaded_room fitted.sound loaded
  obtain ⟨sound, alike⟩ := load_sound (h := h) fitted.sound requests outputs
  exact fitted.shape ▸ alike.shape ▸ Pool.outputs_shaped sound (alike.capacity ▸ room)

/-- If the batch could be written to the pool, the engine is shown the rows that
were written. -/
theorem shown_of_loaded {requests : List Request} {outputs : List Evaluation}
    (loaded : (h.load p requests outputs).2 = .ok ()) :
    h.shown p requests outputs = some ((h.load p requests outputs).1.inputs requests.length) := by
  unfold shown
  generalize h.load p requests outputs = after at loaded ⊢
  obtain ⟨after, result⟩ := after
  obtain rfl : result = .ok () := loaded
  rfl

/-- If the batch broke a promise before the engine was reached, the engine is shown
nothing. -/
theorem shown_of_refused {requests : List Request} {outputs : List Evaluation} {broken : Fault}
    (refused : (h.load p requests outputs).2 = .error broken) :
    h.shown p requests outputs = none := by
  unfold shown
  generalize h.load p requests outputs = after at refused ⊢
  obtain ⟨after, result⟩ := after
  obtain rfl : result = .error broken := refused
  rfl

/-- Batches of the same requests show the same inputs on all pools of a handle,
whatever was run on them before. -/
theorem inputs_unique {q : Pool} (left : h.Fitted p) (right : h.Fitted q)
    {requests : List Request} {outputs : List Evaluation}
    (loaded : (h.load p requests outputs).2 = .ok ())
    (loaded' : (h.load q requests outputs).2 = .ok ()) :
    (h.load p requests outputs).1.inputs requests.length =
      (h.load q requests outputs).1.inputs requests.length := by
  obtain ⟨shaped, rows⟩ := loaded_inputs left loaded
  obtain ⟨shaped', rows'⟩ := loaded_inputs right loaded'
  apply BatchInputs.ext_rows shaped shaped'
  intro i inside
  have listed : requests[i]? = some requests[i] := List.getElem?_eq_getElem inside
  obtain ⟨spatial, globals⟩ := rows i _ listed
  obtain ⟨spatial', globals'⟩ := rows' i _ listed
  exact ⟨spatial.trans spatial'.symm, globals.trans globals'.symm⟩

/-- The room that is made for a batch. -/
theorem roomy_forRequests {requests : List Request} (takes : ∀ q ∈ requests, h.shape.Takes q) :
    ∀ out ∈ requests.map Evaluation.forRequest, out.Roomy h.shape := by
  intro out member
  obtain ⟨q, listed, rfl⟩ := List.mem_map.mp member
  exact Evaluation.forRequest_roomy h.shape q (takes q listed).extent

/-- The heads of the rows in use are those that the run answered. -/
theorem filled_heads (fitted : h.Fitted p) {forward : Forward} {requests : List Request}
    {outputs : List Evaluation} (loaded : (h.load p requests outputs).2 = .ok ())
    (shaped : (h.ran forward p requests outputs).outputs.Shaped h.shape requests.length) {i : Nat}
    (inside : i < requests.length) :
    (h.filled forward p requests outputs).heads i =
      (h.ran forward p requests outputs).outputs.row i := by
  obtain ⟨_, _, room, _⟩ := loaded_room fitted.sound loaded
  obtain ⟨sound, alike⟩ := load_sound (h := h) fitted.sound requests outputs
  exact Pool.store_heads sound (alike.capacity ▸ room) inside
    (by rw [alike.shape, fitted.shape]; exact shaped)

/-- A loaded batch whose run succeeds is decoded in full, each evaluation from its
own row of the heads that came back. -/
theorem execute_ok (fitted : h.Fitted p) {forward : Forward} {requests : List Request}
    {outputs : List Evaluation} (loaded : (h.load p requests outputs).2 = .ok ())
    (roomy : ∀ out ∈ outputs, out.Roomy h.shape)
    (succeeded : (h.ran forward p requests outputs).result = .ok ())
    (shaped : (h.ran forward p requests outputs).outputs.Shaped h.shape requests.length) :
    let run := h.executeBy forward p requests outputs
    run.result = .ok () ∧ run.outputs.length = requests.length ∧
      ∀ i q out, requests[i]? = some q → outputs[i]? = some out →
        ∃ e, run.outputs[i]? = some e ∧ h.shape.Decoded h.model.version q out.ownership.isSome
          ((h.ran forward p requests outputs).outputs.row i) e := by
  obtain ⟨_, _, _, count⟩ := loaded_room fitted.sound loaded
  obtain ⟨sound, alike⟩ := filled_sound (h := h) fitted.sound forward requests outputs
  have shape : (h.filled forward p requests outputs).shape = h.shape :=
    alike.shape.trans fitted.shape
  obtain ⟨outs, decoded, length, rows⟩ := decodeRows_ok h.model.version sound 0
    (requests.zip outputs) (alike.capacity ▸ paired_room fitted.sound loaded)
    (by
      intro pair member
      rw [shape]
      exact roomy _ (List.of_mem_zip member).2)
  rw [execute_ran loaded succeeded]
  simp only [decoded]
  refine ⟨rfl, by rw [length, List.length_zip, count, Nat.min_self], ?_⟩
  intro i q out listed given
  have paired : (requests.zip outputs)[i]? = some (q, out) :=
    List.getElem?_zip_eq_some.mpr ⟨listed, given⟩
  obtain ⟨e, here, values⟩ := rows i _ paired
  obtain ⟨inside, _⟩ := List.getElem?_eq_some_iff.mp listed
  rw [shape, Nat.zero_add, filled_heads fitted loaded shaped inside] at values
  exact ⟨e, here, values⟩

/-- A handle for batches of two on a board of two rows and three columns. -/
def tiny : Handle where
  context := 0
  engine := 0
  model := ⟨.accelerated, 14, none, ⟨.square 3, 2, false, false, 0, 0⟩⟩
  descriptor := ⟨"tiny", 14, 22, 19, 2, 3, 1⟩
  board := ⟨3, 2⟩
  inputsChannelLast := true
  maxBatchSize := 2

/-- A new pool of the tiny model is one of the handle's pools. -/
theorem tiny_owns : tiny.Owns (.blank tiny.shape "tiny" 2) := .created rfl

end Handle

/-- A request about the board of the tiny handle, turned and with ownership. -/
def Request.tiny (optimism : Double) : Request where
  spatial := .zeros 132
  globals := .zeros 19
  symmetry := ⟨true, false, true⟩
  optimism := optimism
  wantsOwnership := true
  extent := ⟨3, 2⟩

namespace Handle

/-- The tiny request has tensors of the right length, however optimistic it is. -/
theorem tiny_takes (optimism : Double) : tiny.shape.Takes (.tiny optimism) :=
  ⟨rfl, Tensor.size_zeros _, Tensor.size_zeros _⟩

/-- Two tiny requests make a batch. -/
theorem tiny_admits : tiny.Admits [.tiny .zero, .tiny .one] := by
  refine ⟨by decide, by decide, ?_⟩
  intro q listed
  simp only [List.mem_cons, List.not_mem_nil, or_false] at listed
  rcases listed with rfl | rfl <;> exact tiny_takes _

/-- An engine that runs the echo network for the tiny handle. -/
def tinyEngine : HostEngine := .running (.ofRows tiny.shape (.echo tiny.shape))

/-- The tiny engine runs the echo of the tiny shape for the tiny handle. -/
theorem tiny_agrees :
    (tiny.forward tinyEngine).Agrees (.ofRows tiny.shape (.echo tiny.shape)) tiny.maxBatchSize :=
  tinyEngine.forward_agrees tiny.model rfl rfl

end Handle

end BoardEval
