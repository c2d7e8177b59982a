import BoardEval.Proofs.GuardedDecoding

/-!
# Calls of the engine

A batch in which every step is guarded and the forward pass is an effect of its own, in any
monad. What a batch does with the pass cannot depend on what the pass is, so the trace of a
batch, its calls in order, is read off from a pass that records what it is called with.

On a pool that was created, and used for any batches since, a batch that is refused makes no
call and a batch that was loaded makes one, whatever the monad. In both cases the guarded
batch ends as the batch without guards does.
-/

namespace BoardEval

/-- What the forward pass of an engine is called with. -/
structure Call where
  inputs : BatchInputs
  slots : BatchOutputs
  rows : Nat

/-- What a forward pass answers to a call. -/
def Forward.answer (forward : Forward) (call : Call) : BatchRun :=
  forward call.inputs call.slots call.rows

/-- A forward pass that notes its calls in order. -/
def Forward.recorded (forward : Forward) (inputs : BatchInputs) (slots : BatchOutputs)
    (rows : Nat) : StateM (List Call) BatchRun := do
  let call : Call := ⟨inputs, slots, rows⟩
  modify (· ++ [call])
  return forward.answer call

namespace Handle

/-- Put back what the forward pass answered and decode it, every step guarded. -/
def finishGuarded (h : Handle) (requests : List Request) (outputs : List Evaluation) (p : Pool)
    (run : BatchRun) : Execution :=
  let p := p.store requests.length run.outputs
  match run.result with
  | .error failure => ⟨p, outputs, .error (failure.map .engine)⟩
  | .ok () =>
    let (p, outputs, decoded) :=
      decodeRowsGuarded h.model.version 0 (requests.zip outputs) p
    ⟨p, outputs, decoded.mapError .fault⟩

/-- Evaluate a batch by a forward pass with effects, every other step guarded. -/
def executeIn {m : Type → Type} [Monad m] (h : Handle)
    (forward : BatchInputs → BatchOutputs → Nat → m BatchRun) (p : Pool)
    (requests : List Request) (outputs : List Evaluation) : m Execution :=
  match h.loadGuarded p requests outputs with
  | (p, .error broken) => pure ⟨p, outputs, .error (.fault broken)⟩
  | (p, .ok ()) =>
    match p.batchGuarded requests.length with
    | .error broken => pure ⟨p, outputs, .error (.fault broken)⟩
    | .ok (inputs, slots) => do
      let run ← forward inputs slots requests.length
      return h.finishGuarded requests outputs p run

/-- What a batch that was loaded shows the forward pass: its rows in the pool. -/
def callOf (h : Handle) (p : Pool) (requests : List Request) (outputs : List Evaluation) : Call :=
  ⟨(h.load p requests outputs).1.inputs requests.length,
    (h.load p requests outputs).1.outputs requests.length, requests.length⟩

/-- A guarded batch and the calls that it made. -/
def traced (h : Handle) (forward : Forward) (p : Pool) (requests : List Request)
    (outputs : List Evaluation) : Execution × List Call :=
  (h.executeIn forward.recorded p requests outputs).run []

variable {h : Handle} {p : Pool} {requests : List Request} {outputs : List Evaluation}

section

variable {m : Type → Type} [Monad m] (allocated : p.Allocated)
  (forward : BatchInputs → BatchOutputs → Nat → m BatchRun)
include allocated

/-- A batch that is not loaded has no effect of the forward pass. -/
theorem executeIn_refused {broken : Fault}
    (refused : (h.load p requests outputs).2 = .error broken) :
    h.executeIn forward p requests outputs =
      pure ⟨(h.load p requests outputs).1, outputs, .error (.fault broken)⟩ := by
  unfold executeIn
  rw [loadGuarded_eq allocated]
  generalize h.load p requests outputs = loaded at refused ⊢
  obtain ⟨after, result⟩ := loaded
  obtain rfl : result = .error broken := refused
  rfl

/-- A batch that was loaded has the effect of the forward pass once, on its own rows, and
ends with what that pass answered. -/
theorem executeIn_loaded (loaded : (h.load p requests outputs).2 = .ok ()) :
    h.executeIn forward p requests outputs = (do
      let call := h.callOf p requests outputs
      let run ← forward call.inputs call.slots call.rows
      return h.finishGuarded requests outputs (h.load p requests outputs).1 run) := by
  obtain ⟨positive, _, room, _⟩ := loaded_room allocated.sound loaded
  obtain ⟨sound, alike⟩ := load_sound (h := h) allocated.sound requests outputs
  unfold executeIn callOf
  rw [loadGuarded_eq allocated]
  generalize h.load p requests outputs = after at loaded sound alike ⊢
  obtain ⟨after, result⟩ := after
  obtain rfl : result = .ok () := loaded
  have rows := (Pool.requireBatch_ok_iff _ _ ()).mpr ⟨positive, alike.capacity ▸ room⟩
  simp only [Pool.batchGuarded_eq (allocated.of_alike sound alike), Pool.batch, rows, ok_bind]
  rfl

end

section

variable (allocated : p.Allocated) (forward : Forward)
include allocated

/-- What the forward pass answered is decoded without a guard stopping it. -/
theorem finishGuarded_eq (loaded : (h.load p requests outputs).2 = .ok ()) :
    h.finishGuarded requests outputs (h.load p requests outputs).1
        (h.ran forward p requests outputs) =
      h.executeBy forward p requests outputs := by
  obtain ⟨sound, alike⟩ := filled_sound (h := h) allocated.sound forward requests outputs
  have decoded := decodeRowsGuarded_eq (allocated.of_alike sound alike) h.model.version 0
    (requests.zip outputs) (alike.capacity ▸ paired_room allocated.sound loaded)
  unfold filled at decoded
  unfold finishGuarded
  cases run : (h.ran forward p requests outputs).result with
  | error failure =>
    rw [execute_failed loaded run]
    rfl
  | ok u =>
    rw [execute_ran loaded run]
    simp only [decoded]
    rfl

/-- A batch that is not loaded calls no forward pass. -/
theorem traced_refused {broken : Fault}
    (refused : (h.load p requests outputs).2 = .error broken) :
    h.traced forward p requests outputs = (h.executeBy forward p requests outputs, []) := by
  rw [traced, executeIn_refused allocated _ refused, execute_refused refused]
  rfl

/-- A batch that was loaded calls the forward pass once, on its own rows. -/
theorem traced_loaded (loaded : (h.load p requests outputs).2 = .ok ()) :
    h.traced forward p requests outputs =
      (h.executeBy forward p requests outputs, [h.callOf p requests outputs]) := by
  rw [traced, executeIn_loaded allocated _ loaded, ← finishGuarded_eq allocated forward loaded]
  rfl

/-- However a batch ends, the guarded batch ends alike. -/
theorem traced_execution :
    (h.traced forward p requests outputs).1 = h.executeBy forward p requests outputs := by
  cases loaded : (h.load p requests outputs).2 with
  | error broken => rw [traced_refused allocated forward loaded]
  | ok u => rw [traced_loaded allocated forward loaded]

end

end Handle

namespace Pool

/-- The pools that can be met: one that was created, for any valid descriptor, capacity and
extents, and what batches of any handles made of it. -/
inductive Served : Pool → Prop where
  | created {p : Pool} (d : Descriptor) (capacity : Nat) (board plane : Extent)
      (made : create d capacity board plane = .ok p) : p.Served
  | used {p : Pool} (served : p.Served) (user : Handle) (forward : Forward)
      (requests : List Request) (outputs : List Evaluation) :
      (user.executeBy forward p requests outputs).pool.Served

/-- Each of them is allocated. The induction is on the history of the pool: a created pool
is, and no batch changes a size. -/
theorem Served.allocated {p : Pool} (served : p.Served) : p.Allocated := by
  induction served with
  | created d capacity board plane made =>
    exact ⟨(create_sound d capacity board plane _ made).1,
      create_inMemory d capacity board plane _ made⟩
  | used _ user forward requests outputs allocated =>
    obtain ⟨sound, alike⟩ :=
      Handle.execute_sound (h := user) allocated.sound forward requests outputs
    exact allocated.of_alike sound alike

end Pool

/-- The pools of a handle are pools that can be met. -/
theorem Handle.Owns.served {h : Handle} {p : Pool} (owned : h.Owns p) : p.Served := by
  induction owned with
  | created made => exact .created _ _ _ _ (createPool_ok made)
  | used _ user forward requests outputs served => exact .used served user forward requests outputs

end BoardEval
