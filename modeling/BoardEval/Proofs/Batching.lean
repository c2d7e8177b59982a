import BoardEval.Proofs.Batches

/-!
# Batching and evaluation one by one

If a forward pass is row-wise, the evaluation of a request is fixed by the request,
the handle and the network that the pass applies to each row: it is the network's
answer to the packed request, decoded. A batch evaluates each of its requests to
that, so neither the other requests nor their order nor the size of the batch can be
observed in a row.
-/

namespace BoardEval

namespace Handle

/-- The evaluations of a batch for which room is made, or why there are none. -/
def evaluations (h : Handle) (forward : Forward) (p : Pool) (requests : List Request) :
    Except (Failure ServiceError) (List Evaluation) :=
  let run := h.executeBy forward p requests (requests.map .forRequest)
  run.result.map fun () => run.outputs

/-- The evaluation that a row-wise network gives to a request. -/
def Answer (h : Handle) (net : RowNet) (q : Request) (e : Evaluation) : Prop :=
  h.shape.Decoded h.model.version q q.wantsOwnership
    (net (h.shape.packedRow h.inputsChannelLast q) q.globals) e

/-- Evaluations that answer requests, row for row. -/
structure Answers (h : Handle) (net : RowNet) (requests : List Request)
    (outs : List Evaluation) : Prop where
  length : outs.length = requests.length
  rows : ∀ (i : Nat) q, requests[i]? = some q → ∃ e, outs[i]? = some e ∧ h.Answer net q e

variable {h : Handle} {net : RowNet}

/-- A run has evaluations exactly if it succeeds, and they are the outputs that it
leaves. -/
theorem evaluations_ok_iff {forward : Forward} {p : Pool} {requests : List Request}
    {outs : List Evaluation} :
    h.evaluations forward p requests = .ok outs ↔
      (h.executeBy forward p requests (requests.map .forRequest)).result = .ok () ∧
        (h.executeBy forward p requests (requests.map .forRequest)).outputs = outs := by
  unfold evaluations
  generalize h.executeBy forward p requests (requests.map .forRequest) = run
  obtain ⟨_, _, result⟩ := run
  cases result <;> simp [Except.map]

/-- Two answers to one request are the same, wherever in a batch they stand. -/
theorem Answers.same_row {requests requests' : List Request} {outs outs' : List Evaluation}
    (first : h.Answers net requests outs) (second : h.Answers net requests' outs') {i j : Nat}
    (same : requests[i]? = requests'[j]?) : outs[i]? = outs'[j]? := by
  cases listed : requests[i]? with
  | none =>
    have beyond : outs.length ≤ i := first.length ▸ List.getElem?_eq_none_iff.mp listed
    have beyond' : outs'.length ≤ j :=
      second.length ▸ List.getElem?_eq_none_iff.mp (same.symm.trans listed)
    rw [List.getElem?_eq_none beyond, List.getElem?_eq_none beyond']
  | some q =>
    obtain ⟨e, here, answer⟩ := first.rows i q listed
    obtain ⟨e', there, answer'⟩ := second.rows j q (same.symm.trans listed)
    rw [here, there, PoolShape.Decoded.unique answer answer']

/-- The answers to a list of requests are determined. -/
theorem Answers.unique {requests : List Request} {outs outs' : List Evaluation}
    (first : h.Answers net requests outs) (second : h.Answers net requests outs') :
    outs = outs' := by
  apply List.ext_getElem?
  intro i
  exact first.same_row second rfl

/-- Answers to two lists of requests are, one after the other, answers to both. -/
theorem Answers.append {front back : List Request} {left right : List Evaluation}
    (first : h.Answers net front left) (second : h.Answers net back right) :
    h.Answers net (front ++ back) (left ++ right) where
  length := by rw [List.length_append, List.length_append, first.length, second.length]
  rows i q listed := by
    by_cases earlier : i < front.length
    · rw [List.getElem?_append_left earlier] at listed
      rw [List.getElem?_append_left (first.length ▸ earlier)]
      exact first.rows i q listed
    · have later : front.length ≤ i := Nat.le_of_not_lt earlier
      rw [List.getElem?_append_right later] at listed
      rw [List.getElem?_append_right (first.length ▸ later), first.length]
      exact second.rows _ q listed

section

variable {p : Pool} (fitted : h.Fitted p) {forward : Forward}
  (rowWise : forward.RowWise h.shape h.maxBatchSize net) {requests : List Request}
  (admitted : h.Admits requests)
include fitted rowWise admitted

/-- A batch whose run succeeds is evaluated, to the answers of the network. -/
theorem evaluations_of_ran
    (succeeded : (h.ran forward p requests (requests.map .forRequest)).result = .ok ()) :
    ∃ outs, h.evaluations forward p requests = .ok outs ∧ h.Answers net requests outs := by
  have roomy := roomy_forRequests admitted.takes
  have loaded := load_ok fitted admitted (List.length_map _) roomy
  obtain ⟨shaped, packed⟩ := loaded_inputs fitted loaded
  have slots := loaded_outputs fitted loaded
  obtain ⟨full, answered⟩ := rowWise.rows _ _ _ admitted.positive admitted.limit shaped slots
    succeeded
  obtain ⟨result, length, decoded⟩ := execute_ok fitted loaded roomy succeeded full
  refine ⟨_, evaluations_ok_iff.mpr ⟨result, rfl⟩, length, ?_⟩
  intro i q listed
  obtain ⟨inside, _⟩ := List.getElem?_eq_some_iff.mp listed
  obtain ⟨e, here, values⟩ := decoded i q (.forRequest q) listed (by simp [listed])
  obtain ⟨spatial, globals⟩ := packed i q listed
  refine ⟨e, here, ?_⟩
  rw [Evaluation.forRequest_present, ran, answered i inside, spatial, globals] at values
  exact values

/-- Whatever a batch is evaluated to are the answers of the network. -/
theorem evaluations_answers {outs : List Evaluation}
    (done : h.evaluations forward p requests = .ok outs) : h.Answers net requests outs := by
  have loaded := load_ok fitted admitted (List.length_map _) (roomy_forRequests admitted.takes)
  cases run : (h.ran forward p requests (requests.map .forRequest)).result with
  | error failure =>
    rw [evaluations, execute_failed loaded run] at done
    exact nomatch done
  | ok u =>
    obtain ⟨outs', done', answers⟩ := evaluations_of_ran fitted rowWise admitted run
    obtain rfl := Except.ok.inj (done.symm.trans done')
    exact answers

/-- A pass that never fails evaluates every batch of the handle. -/
theorem evaluations_ok (succeeds : forward.Succeeds h.shape h.maxBatchSize) :
    ∃ outs, h.evaluations forward p requests = .ok outs ∧ h.Answers net requests outs := by
  have loaded := load_ok fitted admitted (List.length_map _) (roomy_forRequests admitted.takes)
  obtain ⟨shaped, _⟩ := loaded_inputs fitted loaded
  have slots := loaded_outputs fitted loaded
  exact evaluations_of_ran fitted rowWise admitted
    (succeeds _ _ _ admitted.positive admitted.limit shaped slots)

end

/-- Any request of a batch may be run by itself. -/
theorem admits_single {requests : List Request} (admitted : h.Admits requests) {i : Nat}
    {q : Request} (listed : requests[i]? = some q) : h.Admits [q] where
  positive := Nat.le_refl 1
  limit := Nat.le_trans admitted.positive admitted.limit
  takes := by
    intro other member
    obtain rfl : other = q := by simpa using member
    exact admitted.takes other (List.mem_of_getElem? listed)

/-- Requests picked from an admitted batch are admitted, if they are not too many. -/
theorem admits_picked {requests picked : List Request} (admitted : h.Admits requests)
    (positive : 1 ≤ picked.length) (limit : picked.length ≤ h.maxBatchSize)
    (known : ∀ q ∈ picked, q ∈ requests) : h.Admits picked :=
  ⟨positive, limit, fun q member => admitted.takes q (known q member)⟩

/-- An evaluation is what a handle computes for a request alone, with a row-wise
network: the network itself gives it, on any pool of the handle, and so does every
row-wise pass of the network that succeeds. -/
structure Alone (h : Handle) (net : RowNet) (q : Request) (e : Evaluation) : Prop where
  computed : ∀ p, h.Owns p → h.evaluations (.ofRows h.shape net) p [q] = .ok [e]
  only : ∀ (forward : Forward) p outs, forward.RowWise h.shape h.maxBatchSize net → h.Owns p →
    h.evaluations forward p [q] = .ok outs → outs = [e]

/-- The network's answer to a request is what a handle computes for it alone. -/
theorem Answer.alone {q : Request} {e : Evaluation} (answer : h.Answer net q e)
    (full : net.Fills h.shape) (admitted : h.Admits [q]) : h.Alone net q e := by
  have answers : h.Answers net [q] [e] := by
    refine ⟨rfl, ?_⟩
    intro i other listed
    cases i with
    | zero =>
      obtain rfl : q = other := by simpa using listed
      exact ⟨e, rfl, answer⟩
    | succ i => simp at listed
  constructor
  · intro p owned
    obtain ⟨outs, done, same⟩ := evaluations_ok owned.fitted (Forward.ofRows_rowWise full _)
      admitted (Forward.ofRows_succeeds _ _ _)
    rw [done, same.unique answers]
  · intro forward p outs rowWise owned done
    exact (evaluations_answers owned.fitted rowWise admitted done).unique answers

section

variable {forward : Forward} (rowWise : forward.RowWise h.shape h.maxBatchSize net)
  (succeeds : forward.Succeeds h.shape h.maxBatchSize) {p : Pool} (owned : h.Owns p)
  {requests : List Request} (admitted : h.Admits requests) {outs : List Evaluation}
  (answers : h.Answers net requests outs)
include rowWise succeeds owned admitted answers

/-- Each row is what its request is evaluated to alone. -/
theorem evaluations_alone {i : Nat} {q : Request} (listed : requests[i]? = some q) :
    ∃ e, outs[i]? = some e ∧ h.evaluations forward p [q] = .ok [e] := by
  obtain ⟨e, here, _⟩ := answers.rows i q listed
  obtain ⟨single, done, alone⟩ :=
    evaluations_ok owned.fitted rowWise (admits_single admitted listed) succeeds
  have row : outs[i]? = single[0]? := answers.same_row alone listed
  have only : single = [e] := by
    have length := alone.length
    match single with
    | [e'] =>
      rw [here] at row
      rw [Option.some.inj row]
  exact ⟨e, here, only ▸ done⟩

/-- Any choice of the requests, in any order, is evaluated to the same choice of the
rows. -/
theorem evaluations_picked {m : Nat} (pick : Fin m → Fin requests.length) (positive : 1 ≤ m)
    (limit : m ≤ h.maxBatchSize) :
    ∃ picked, h.evaluations forward p (List.ofFn fun k => requests.get (pick k)) = .ok picked ∧
      picked.length = m ∧ ∀ k, picked[k.val]? = outs[(pick k).val]? := by
  have length : (List.ofFn fun k => requests.get (pick k)).length = m := List.length_ofFn
  have chosen : h.Admits (List.ofFn fun k => requests.get (pick k)) :=
    admits_picked admitted (by rwa [length]) (by rwa [length]) (by
      intro q member
      obtain ⟨k, rfl⟩ := List.mem_ofFn.mp member
      exact List.get_mem _ _)
  obtain ⟨picked, done, same⟩ := evaluations_ok owned.fitted rowWise chosen succeeds
  refine ⟨picked, done, same.length.trans length, ?_⟩
  intro k
  apply same.same_row answers
  simp

/-- Replacing a request changes no other row. -/
theorem evaluations_changed (j : Nat) {q : Request} (takes : h.shape.Takes q) :
    ∃ changed, h.evaluations forward p (requests.set j q) = .ok changed ∧
      changed.length = outs.length ∧ ∀ i : Nat, i ≠ j → changed[i]? = outs[i]? := by
  have length : (requests.set j q).length = requests.length := List.length_set
  have replaced : h.Admits (requests.set j q) := by
    refine ⟨length ▸ admitted.positive, length ▸ admitted.limit, ?_⟩
    intro other member
    rcases List.mem_or_eq_of_mem_set member with old | rfl
    · exact admitted.takes other old
    · exact takes
  obtain ⟨changed, done, same⟩ := evaluations_ok owned.fitted rowWise replaced succeeds
  refine ⟨changed, done, by rw [same.length, answers.length, length], ?_⟩
  intro i other
  apply same.same_row answers
  exact List.getElem?_set_ne (Ne.symm other)

omit owned in
/-- The two parts of a batch that is cut are evaluated to the two parts of its rows, on
two pools or on one. -/
theorem evaluations_split {front back : List Request} (joined : front ++ back = requests)
    (frontPositive : 1 ≤ front.length) (backPositive : 1 ≤ back.length) {first second : Pool}
    (ownedFirst : h.Owns first) (ownedSecond : h.Owns second) :
    ∃ left right, h.evaluations forward first front = .ok left ∧
      h.evaluations forward second back = .ok right ∧ left ++ right = outs := by
  have limit := admitted.limit
  rw [← joined, List.length_append] at limit
  have frontAdmitted : h.Admits front := admits_picked admitted frontPositive (by omega)
    fun q member => joined ▸ List.mem_append_left back member
  have backAdmitted : h.Admits back := admits_picked admitted backPositive (by omega)
    fun q member => joined ▸ List.mem_append_right front member
  obtain ⟨left, doneLeft, answersLeft⟩ :=
    evaluations_ok ownedFirst.fitted rowWise frontAdmitted succeeds
  obtain ⟨right, doneRight, answersRight⟩ :=
    evaluations_ok ownedSecond.fitted rowWise backAdmitted succeeds
  have whole : h.Answers net requests (left ++ right) := joined ▸ answersLeft.append answersRight
  exact ⟨left, right, doneLeft, doneRight, whole.unique answers⟩

end

/-- A row-wise pass that never fails evaluates a batch to exactly what it evaluates
the requests to one by one, on whatever pools of the handle. Therefore any choice and
order of the requests gives the evaluations in the same choice and order; a batch may
be cut in two; and replacing one request changes no other row.

Proof: the answers to a batch are determined by its requests one by one, whatever pool
it was run on. Each part of the statement compares two such lists of answers. -/
theorem batch_eq_one_by_one {ε : Type} [Engine ε] (h : Handle) (engine : ε) (net : RowNet)
    (rowWise : (h.forward engine).RowWise h.shape h.maxBatchSize net)
    (succeeds : (h.forward engine).Succeeds h.shape h.maxBatchSize)
    (p : Pool) (owned : h.Owns p) (requests : List Request) (admitted : h.Admits requests) :
    let evaluations := h.evaluations (h.forward engine)
    ∃ outs, evaluations p requests = .ok outs ∧ outs.length = requests.length ∧
      (∀ (i : Nat) q, requests[i]? = some q → ∀ alone, h.Owns alone →
        ∃ e, outs[i]? = some e ∧ evaluations alone [q] = .ok [e]) ∧
      (∀ m (pick : Fin m → Fin requests.length), 1 ≤ m → m ≤ h.maxBatchSize →
        ∀ other, h.Owns other → ∃ picked,
          evaluations other (List.ofFn fun k => requests.get (pick k)) = .ok picked ∧
            picked.length = m ∧ ∀ k, picked[k.val]? = outs[(pick k).val]?) ∧
      (∀ front back, front ++ back = requests → 1 ≤ front.length → 1 ≤ back.length →
        ∀ first second, h.Owns first → h.Owns second → ∃ left right,
          evaluations first front = .ok left ∧ evaluations second back = .ok right ∧
            left ++ right = outs) ∧
      (∀ (j : Nat) q, h.shape.Takes q → ∀ other, h.Owns other → ∃ changed,
        evaluations other (requests.set j q) = .ok changed ∧ changed.length = outs.length ∧
          ∀ i : Nat, i ≠ j → changed[i]? = outs[i]?) := by
  intro evaluations
  obtain ⟨outs, done, answers⟩ := evaluations_ok owned.fitted rowWise admitted succeeds
  refine ⟨outs, done, answers.length, ?_, ?_, ?_, ?_⟩
  · intro i q listed alone ownedAlone
    exact evaluations_alone rowWise succeeds ownedAlone admitted answers listed
  · intro m pick positive limit other ownedOther
    exact evaluations_picked rowWise succeeds ownedOther admitted answers pick positive limit
  · intro front back joined frontPositive backPositive first second ownedFirst ownedSecond
    exact evaluations_split rowWise succeeds admitted answers joined frontPositive backPositive
      ownedFirst ownedSecond
  · intro j q takes other ownedOther
    exact evaluations_changed rowWise succeeds ownedOther admitted answers j takes

/-- The echo network evaluates two requests of the tiny handle as a batch. -/
theorem batch_eq_one_by_one_tiny :
    let p := Pool.blank tiny.shape "tiny" 2
    let requests := [Request.tiny .zero, Request.tiny .one]
    let net := RowNet.echo tiny.shape
    (tiny.forward tinyEngine).RowWise tiny.shape tiny.maxBatchSize net ∧
      (tiny.forward tinyEngine).Succeeds tiny.shape tiny.maxBatchSize ∧
      tiny.Owns p ∧ tiny.Admits requests ∧
      ∃ outs, tiny.evaluations (tiny.forward tinyEngine) p requests = .ok outs ∧
        outs.length = 2 := by
  intro p requests net
  have rowWise : (tiny.forward tinyEngine).RowWise tiny.shape tiny.maxBatchSize net :=
    tiny_agrees.rowWise (Forward.ofRows_rowWise (RowNet.echo_fills _) _)
  have succeeds : (tiny.forward tinyEngine).Succeeds tiny.shape tiny.maxBatchSize :=
    tiny_agrees.succeeds (Forward.ofRows_succeeds _ _ _)
  obtain ⟨outs, done, length, _⟩ := batch_eq_one_by_one tiny tinyEngine net rowWise succeeds p
    tiny_owns requests tiny_admits
  exact ⟨rowWise, succeeds, tiny_owns, tiny_admits, outs, done, length⟩

end Handle

end BoardEval
