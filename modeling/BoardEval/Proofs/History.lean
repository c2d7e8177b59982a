import BoardEval.Proofs.Batches

/-!
# Pools without memory

A pool is never cleared between batches, and yet nothing that an earlier batch
left in it can be observed. What the forward pass is shown is written in full or
was zero all along; the heads that are decoded were filled by the current run; and
the scratch plane is written before it is read. Contracts are checked against what
a pool was made for, which no batch changes.
-/

namespace BoardEval

namespace Handle

variable {h : Handle}

/-- A batch cannot tell two pools apart: it shows the forward pass the same inputs,
ends in the same way and returns the same evaluations. -/
structure Indistinct (h : Handle) (forward : Forward) (p q : Pool) (requests : List Request)
    (outputs : List Evaluation) : Prop where
  shown : h.shown p requests outputs = h.shown q requests outputs
  result : (h.executeBy forward p requests outputs).result =
    (h.executeBy forward q requests outputs).result
  outputs : (h.executeBy forward p requests outputs).outputs =
    (h.executeBy forward q requests outputs).outputs

/-- Batches whose runs answer the same heads are decoded alike: their rows in the two
pools are the rows of those heads.

Proof: decoding depends on the rows of the heads that the pool holds afterwards, and
in either pool these are the rows of the heads that the run answered. -/
theorem Fitted.same_decoding {p q : Pool} (left : h.Fitted p) (right : h.Fitted q)
    {forward : Forward} {requests : List Request} {outputs : List Evaluation}
    {heads : BatchOutputs} (loaded : (h.load p requests outputs).2 = .ok ())
    (loaded' : (h.load q requests outputs).2 = .ok ())
    (full : heads.Shaped h.shape requests.length)
    (answered : h.ran forward p requests outputs = .ok heads)
    (answered' : h.ran forward q requests outputs = .ok heads) :
    (h.executeBy forward p requests outputs).result =
        (h.executeBy forward q requests outputs).result ∧
      (h.executeBy forward p requests outputs).outputs =
        (h.executeBy forward q requests outputs).outputs := by
  have succeeded : (h.ran forward p requests outputs).result = .ok () := by rw [answered]; rfl
  have succeeded' : (h.ran forward q requests outputs).result = .ok () := by rw [answered']; rfl
  obtain ⟨sound, alike⟩ := filled_sound (h := h) left.sound forward requests outputs
  obtain ⟨sound', alike'⟩ := filled_sound (h := h) right.sound forward requests outputs
  have rows : ∀ i < 0 + (requests.zip outputs).length,
      (h.filled forward p requests outputs).heads i =
        (h.filled forward q requests outputs).heads i := by
    intro i inside
    have bound : i < requests.length := by
      rw [Nat.zero_add, List.length_zip] at inside
      omega
    rw [filled_heads left loaded (by rw [answered]; exact full) bound,
      filled_heads right loaded' (by rw [answered']; exact full) bound, answered, answered']
  have decoded := decodeRows_congr h.model.version sound sound'
    (alike.trans ((left.alike right).trans alike'.symm)) 0 (requests.zip outputs)
    (alike.capacity ▸ paired_room left.sound loaded) rows
  rw [execute_ran loaded succeeded, execute_ran loaded' succeeded', decoded]
  exact ⟨rfl, rfl⟩

/-- Two fitted pools are indistinct to a forward pass that computes a function. The
cases are those of a batch: it breaks its contract, its run fails, or it is decoded. -/
theorem Fitted.indistinct {p q : Pool} (left : h.Fitted p) (right : h.Fitted q)
    {forward : Forward} {f : BatchInputs → Nat → Except (Failure EngineError) BatchOutputs}
    (computes : forward.Computes h.shape h.maxBatchSize f) (requests : List Request)
    (outputs : List Evaluation) : h.Indistinct forward p q requests outputs := by
  have same := load_alike (h := h) left.sound right.sound (left.alike right) requests outputs
  cases loaded : (h.load p requests outputs).2 with
  | error broken =>
    have loaded' := same.symm.trans loaded
    constructor
    · rw [shown_of_refused loaded, shown_of_refused loaded']
    · rw [execute_refused loaded, execute_refused loaded']
    · rw [execute_refused loaded, execute_refused loaded']
  | ok u =>
    have loaded' := same.symm.trans loaded
    have inputs := inputs_unique left right loaded loaded'
    obtain ⟨positive, limit, _⟩ := loaded_room left.sound loaded
    obtain ⟨shaped, _⟩ := loaded_inputs left loaded
    have slots := loaded_outputs left loaded
    have slots' := loaded_outputs right loaded'
    have shown : h.shown p requests outputs = h.shown q requests outputs := by
      rw [shown_of_loaded loaded, shown_of_loaded loaded', inputs]
    cases answer : f ((h.load p requests outputs).1.inputs requests.length) requests.length with
    | error failure =>
      have failed : (h.ran forward p requests outputs).result = .error failure :=
        computes.refuses _ _ _ failure positive limit shaped slots answer
      have failed' : (h.ran forward q requests outputs).result = .error failure :=
        computes.refuses _ _ _ failure positive limit (inputs ▸ shaped) slots' (inputs ▸ answer)
      refine ⟨shown, ?_, ?_⟩
      · rw [execute_failed loaded failed, execute_failed loaded' failed']
      · rw [execute_failed loaded failed, execute_failed loaded' failed']
    | ok heads =>
      obtain ⟨full, answered⟩ : heads.Shaped h.shape requests.length ∧
          h.ran forward p requests outputs = .ok heads :=
        computes.answers _ _ _ heads positive limit shaped slots answer
      obtain ⟨_, answered'⟩ : heads.Shaped h.shape requests.length ∧
          h.ran forward q requests outputs = .ok heads :=
        computes.answers _ _ _ heads positive limit (inputs ▸ shaped) slots' (inputs ▸ answer)
      obtain ⟨result, evaluations⟩ := left.same_decoding right loaded loaded' full answered answered'
      exact ⟨shown, result, evaluations⟩

/-- A handle that owns a pool has one that was just created. -/
theorem Owns.fresh {p : Pool} (owned : h.Owns p) : ∃ fresh, h.createPool = .ok fresh := by
  induction owned with
  | created made => exact ⟨_, made⟩
  | used _ _ _ _ _ fresh => exact fresh

/-- Whatever batches were run on two pools of a handle before, and however they
ended, the next batch cannot tell the two apart, nor either of them from a pool that
was just created. -/
theorem execute_history_independent {ε : Type} [Engine ε] (h : Handle) (p q : Pool)
    (left : h.Owns p) (right : h.Owns q) (engine : ε)
    (f : BatchInputs → Nat → Except (Failure EngineError) BatchOutputs)
    (computes : (h.forward engine).Computes h.shape h.maxBatchSize f) (requests : List Request)
    (outputs : List Evaluation) :
    h.Indistinct (h.forward engine) p q requests outputs ∧
      ∃ fresh, h.createPool = .ok fresh ∧
        h.Indistinct (h.forward engine) p fresh requests outputs := by
  obtain ⟨fresh, made⟩ := left.fresh
  exact ⟨left.fitted.indistinct right.fitted computes requests outputs, fresh, made,
    left.fitted.indistinct (Owns.created made).fitted computes requests outputs⟩

/-- A pool of the tiny handle that served two requests and one that served none are
indistinct to a third request. -/
theorem execute_history_independent_tiny :
    let p := Pool.blank tiny.shape "tiny" 2
    let earlier := [Request.tiny .zero, Request.tiny .one]
    let used := (tiny.execute tinyEngine p earlier (earlier.map .forRequest)).pool
    let f inputs n := .ok ((RowNet.echo tiny.shape).answer tiny.shape inputs n)
    tiny.Owns p ∧ tiny.Owns used ∧
      (tiny.forward tinyEngine).Computes tiny.shape tiny.maxBatchSize f ∧
      tiny.Indistinct (tiny.forward tinyEngine) p used [.tiny .one] [.forRequest (.tiny .one)] := by
  intro p earlier used f
  have owned : tiny.Owns used := .used tiny_owns tiny (tiny.forward tinyEngine) earlier _
  have computes : (tiny.forward tinyEngine).Computes tiny.shape tiny.maxBatchSize f :=
    tiny_agrees.computes (Forward.ofRows_computes (RowNet.echo_fills _) _)
  exact ⟨tiny_owns, owned, computes,
    (execute_history_independent tiny p used tiny_owns owned tinyEngine f computes _ _).1⟩

end Handle

end BoardEval
