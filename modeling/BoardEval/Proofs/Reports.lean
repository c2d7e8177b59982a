import BoardEval.Proofs.Equivariance
import BoardEval.Proofs.Positions

/-!
# Reports on positions

The evaluation of a position with a guard on every step and the forward pass as an effect of
its own, so that its calls can be read off. Besides the guards of the request and of the batch,
room for the answer has to fit in a machine word, and a plane is cut into rows of a positive
width only.

For any pool of a handle, used before in whatever way, and an engine that breaks no promise of
its own, the guarded evaluation never breaks one either and ends as the evaluation without
guards. It calls the engine once for a position that fits and not at all for another one, and
what it reports is the decoded evaluation in the rows of the board.
-/

namespace BoardEval

/-! ## Planes in rows -/

/-- Rows that read one after the other as a plane of a board: as many as the board has, each
of its width. -/
structure Extent.Arranges (e : Extent) (rows : List Tensor) (plane : Tensor) : Prop where
  count : rows.length = e.height
  widths : ∀ row ∈ rows, row.size = e.width
  joined : rows.flatMap (·.toList) = plane.toList

namespace Position

/-- The first rows of a plane side by side are its first values. The induction is on the
number of rows. -/
theorem rows_joined (plane : Tensor) (width n : Nat) :
    ((List.range n).map fun y => plane.extract (y * width) ((y + 1) * width)).flatMap (·.toList) =
      (plane.extract 0 (n * width)).toList := by
  induction n with
  | zero => simp
  | succ n inductionHypothesis =>
    have next : n * width ≤ (n + 1) * width := Nat.mul_le_mul_right width (Nat.le_succ n)
    rw [List.range_succ, List.map_append, List.flatMap_append, inductionHypothesis,
      List.map_singleton, List.flatMap_singleton, ← Array.toList_append,
      Array.extract_append_extract, Nat.min_eq_left (Nat.zero_le _), Nat.max_eq_right next]

/-- A plane of a board is cut into the rows of the board. -/
theorem toRows_arranges {e : Extent} (positive : 0 < e.width) {plane : Tensor}
    (size : plane.size = e.cells) : e.Arranges (toRows e plane) plane := by
  have count : (plane.size + e.width - 1) / e.width = e.height := by
    rw [size, Extent.cells, Nat.add_sub_assoc positive, Nat.mul_add_div positive,
      Nat.div_eq_of_lt (Nat.sub_one_lt_of_lt positive), Nat.add_zero]
  have all : e.height * e.width = plane.size := by rw [size, Extent.cells, Nat.mul_comm]
  unfold toRows
  rw [count]
  constructor
  case count => rw [List.length_map, List.length_range]
  case widths =>
    intro row listed
    obtain ⟨y, inside, rfl⟩ := List.mem_map.mp listed
    have bound := Tensor.row_bound e.width (List.mem_range.mp inside)
    exact Tensor.size_row plane e.width y (all ▸ bound)
  case joined => rw [rows_joined, all, Array.extract_size]

end Position

/-- What a report shows of an evaluation. -/
structure Report.Presents (r : Report) (h : Handle) (out : Evaluation) : Prop where
  policy : ∃ cells, out.cellPolicy = .ok cells ∧ out.extent.Arranges r.policy cells
  pass : ∃ pass, out.passPolicy = .ok pass ∧ r.passPolicy = #[pass]
  value : r.value = #[out.win, out.loss, out.noResult]
  ownership : ∃ map, out.ownership = some map ∧ out.extent.Arranges r.ownership map
  score : r.score = #[out.score.mean, out.score.meanSquare, out.score.lead,
    out.score.timeLeftVariance, out.score.winLossError, out.score.scoreError]
  version : r.modelVersion = h.model.version
  channels : (r.spatialChannels, r.globalChannels, r.policyChannels) =
    (h.descriptor.spatial, h.descriptor.globals, h.descriptor.policy)

namespace Position

/-- An evaluation with ownership of a board with columns is reported. -/
theorem report_ok (h : Handle) {out : Evaluation} (positive : 0 < out.extent.width)
    (sized : out.WellSized) (present : out.ownership.isSome = true) :
    ∃ r, report h out = .ok r ∧ r.Presents h out := by
  obtain ⟨map, given⟩ := Option.isSome_iff_exists.mp present
  have filled : out.policy.isEmpty = false := by
    rw [Array.isEmpty_eq_false_iff, ← Array.size_pos_iff, sized.policy]
    exact Nat.succ_pos _
  have cells : out.cellPolicy = .ok out.policy.pop := if_neg (Bool.not_eq_true _ ▸ filled)
  obtain ⟨pass, last⟩ : ∃ pass, out.passPolicy = .ok pass := by
    unfold Evaluation.passPolicy
    rw [Array.back?_eq_getElem?, sized.policy, Nat.add_sub_cancel,
      Array.getElem?_eq_getElem (by rw [sized.policy]; exact Nat.lt_succ_self _)]
    exact ⟨_, rfl⟩
  have size : out.policy.pop.size = out.extent.cells := by
    rw [Array.size_pop, sized.policy, Nat.add_sub_cancel]
  refine ⟨_, by simp only [report, cells, last, ok_bind]; rfl, ?_⟩
  constructor
  case policy => exact ⟨_, cells, toRows_arranges positive size⟩
  case pass => exact ⟨pass, last, rfl⟩
  case ownership =>
    refine ⟨map, given, ?_⟩
    simp only [given, Option.map_some, Option.getD_some]
    exact toRows_arranges positive (sized.ownership map given)
  all_goals rfl

/-! ## The guarded evaluation -/

/-- The report on an evaluation, every step guarded. -/
def reportGuarded (h : Handle) (out : Evaluation) : Except Fault Report := do
  requireImplicit (decide (0 < out.extent.width))
  report h out

/-- What a batch of one comes to. -/
def concluded (h : Handle) (run : Execution) : Except (Failure ReportError) Report :=
  match run.result, run.outputs with
  | .error failure, _ => .error (failure.map .service)
  | .ok (), out :: _ => (reportGuarded h out).mapError .fault
  | .ok (), [] => .error (.fault .implicit)

/-- Evaluate a position by a forward pass with effects, every other step guarded. -/
def evaluateIn {m : Type → Type} [Monad m] (p : Position) (h : Handle)
    (forward : BatchInputs → BatchOutputs → Nat → m BatchRun) (pool : Pool) :
    m (Pool × Except (Failure ReportError) Report) :=
  if p.extent ≠ h.board then
    pure (pool, .error (.error (.position (.boardDiffers p.extent h.board))))
  else
    match p.toRequestGuarded h.descriptor h.inputsChannelLast with
    | .error failure => pure (pool, .error failure)
    | .ok request =>
      match Evaluation.blankChecked request.extent request.wantsOwnership with
      | .error broken => pure (pool, .error (.fault broken))
      | .ok room => do
        let run ← h.executeIn forward pool [request] [room]
        return (run.pool, concluded h run)

/-- A guarded evaluation and the calls that it made. -/
def traced (p : Position) (h : Handle) (forward : Forward) (pool : Pool) :
    (Pool × Except (Failure ReportError) Report) × List Call :=
  (p.evaluateIn h forward.recorded pool).run []

end Position

/-- A handle that owns a pool has a valid descriptor. The induction is on the history of the
pool: it could be created. -/
theorem Handle.Owns.valid {h : Handle} {pool : Pool} (owned : h.Owns pool) :
    h.descriptor.validate = .ok () := by
  induction owned with
  | created made => exact (Pool.create_steps _ _ _ _ _ (Handle.createPool_ok made)).1
  | used _ _ _ _ _ valid => exact valid

/-- There is memory for the evaluation of a position that fits. -/
theorem Evaluation.blankChecked_ok {board : Extent} (playable : board.isPlayable = true)
    (withOwnership : Bool) : blankChecked board withOwnership = .ok (blank board withOwnership) := by
  obtain ⟨_, _, cells⟩ := Extent.playable_cells playable
  have count : board.cellsInWord = .ok board.cells := fitsWord_ok (by unfold wordLimit; omega)
  have room : requireImplicit (decide (4 * (board.cells + 1) ≤ allocationLimit)) = .ok () := by
    rw [requireImplicit_ok_iff, decide_eq_true_eq]
    unfold allocationLimit
    omega
  simp only [blankChecked, count, room, ok_bind]
  rfl

namespace Position

section

variable {h : Handle} {pool : Pool} {p : Position} {q : Request}

/-- A request about a position that fits is a batch of its own. -/
theorem Asks.admitted (owned : h.Owns pool) (fits : p.Fits h.descriptor h.board)
    (asks : p.Asks h.descriptor h.board h.inputsChannelLast q) : h.Admits [q] := by
  refine ⟨Nat.le_refl 1, owned.fitted.positive, ?_⟩
  rw [List.forall_mem_singleton]
  exact ⟨asks.extent, asks.size, asks.globals ▸ fits.globals⟩

variable (owned : h.Owns pool) (admitted : h.Admits [q])
include owned admitted

/-- A request about a position that fits can be written to the pool by itself. -/
theorem loaded_alone : (h.load pool [q] [.forRequest q]).2 = .ok () :=
  Handle.load_ok owned.fitted admitted rfl (Handle.roomy_forRequests admitted.takes)

/-- A batch of one that the engine answers ends with one evaluation, decoded from the heads
that the pool then has.

Proof: a run that succeeds is the decoding of the rows that were stored. With one pair
of request and evaluation the decoded list has one entry, and decoding keeps the heads
that it reads. -/
theorem executed_alone {forward : Forward}
    (answered : (forward.answer (h.callOf pool [q] [.forRequest q])).result = .ok ()) :
    let run := h.executeBy forward pool [q] [.forRequest q]
    ∃ out, run.result = .ok () ∧ run.outputs = [out] ∧ h.shape.Decoded h.model.version q
      q.wantsOwnership (run.pool.heads 0) out := by
  have loaded := loaded_alone owned admitted
  obtain ⟨sound, alike⟩ := Handle.filled_sound (h := h) owned.fitted.sound forward [q]
    [.forRequest q]
  have shape := alike.shape.trans owned.fitted.shape
  have room : 0 + [(q, Evaluation.forRequest q)].length ≤
      (h.filled forward pool [q] [.forRequest q]).capacity := by
    rw [alike.capacity, owned.fitted.capacity]
    exact owned.fitted.positive
  obtain ⟨outs, decoded, length, rows⟩ := Handle.decodeRows_ok h.model.version sound 0
    [(q, .forRequest q)] room (by
      rw [List.forall_mem_singleton, shape]
      exact Handle.roomy_forRequests admitted.takes _ (List.mem_singleton_self _))
  obtain ⟨out, here, values⟩ := rows 0 _ rfl
  have single : outs = [out] := by
    obtain ⟨first, rfl⟩ := List.length_eq_one_iff.mp length
    exact congrArg (fun e => [e]) (Option.some.inj here)
  have keeps := Handle.decodeRows_keeps h.model.version sound 0 [(q, .forRequest q)] room
  intro run
  have ended : run = _ := Handle.execute_ran loaded answered
  simp only [List.zip_cons_cons, List.zip_nil_left, decoded] at ended
  refine ⟨out, by rw [ended]; rfl, by rw [ended, single], ?_⟩
  rw [ended, keeps.heads, ← Evaluation.forRequest_present, ← shape]
  exact values

end

/-- A position that does not fit a network and a board is refused with a true complaint, the
same one by every handle for them; no call is made and the pool stays as it is. -/
theorem unfit_refused {p : Position} {d : Descriptor} {board : Extent} (unfit : ¬p.Fits d board) :
    ∃ flaw, PositionFlaw.Of p d board flaw ∧ ∀ (h : Handle) (pool : Pool), h.Owns pool →
      h.descriptor = d → h.board = board →
        (∀ {ε : Type} [Engine ε] (engine : ε),
          p.evaluate h engine pool = (pool, .error (.error (.position flaw)))) ∧
        ∀ forward : Forward,
          p.traced h forward pool = ((pool, .error (.error (.position flaw))), []) := by
  by_cases same : p.extent = board
  · rcases p.check_cases d with ⟨_, fits⟩ | ⟨flaw, told, flawed⟩
    · exact absurd (same ▸ fits) unfit
    refine ⟨flaw, same ▸ told, ?_⟩
    rintro h pool owned rfl rfl
    have refused := toRequest_refused flawed h.inputsChannelLast
    have guarded := toRequestGuarded_eq (p := p) (h.descriptor.spatial_channels owned.valid)
      h.inputsChannelLast
    constructor
    · intro ε _ engine
      simp only [evaluate, same, ne_eq, not_true_eq_false, if_false, refused]
    · intro forward
      simp only [traced, evaluateIn, same, ne_eq, not_true_eq_false, if_false, guarded, refused]
      rfl
  · refine ⟨.boardDiffers p.extent board, ⟨rfl, rfl, same⟩, ?_⟩
    rintro h pool _ rfl rfl
    refine ⟨fun _ => if_pos same, ?_⟩
    intro forward
    rw [traced, evaluateIn, if_pos same]
    rfl

section

variable {ε : Type} [Engine ε] {h : Handle} (engine : ε) {pool : Pool} {p : Position}
  (owned : h.Owns pool)
include owned

section

variable {q : Request} (fits : p.Fits h.descriptor h.board)
  (made : p.toRequest h.descriptor h.inputsChannelLast = .ok q)
  (asks : p.Asks h.descriptor h.board h.inputsChannelLast q)
include fits made asks

/-- The guarded evaluation of a position that fits calls the engine once, for the request
about the position. -/
theorem traced_asked (forward : Forward) :
    let run := h.executeBy forward pool [q] [.forRequest q]
    p.traced h forward pool =
      ((run.pool, concluded h run), [h.callOf pool [q] [.forRequest q]]) := by
  have guarded := toRequestGuarded_eq (p := p) (h.descriptor.spatial_channels owned.valid)
    h.inputsChannelLast
  have room : Evaluation.blankChecked q.extent q.wantsOwnership = .ok (.forRequest q) :=
    Evaluation.blankChecked_ok (asks.extent ▸ fits.board ▸ fits.playable) _
  have calls := Handle.traced_loaded owned.served.allocated forward
    (loaded_alone owned (asks.admitted owned fits))
  intro run
  have unfolded : p.traced h forward pool =
      (((h.traced forward pool [q] [.forRequest q]).1.pool,
        concluded h (h.traced forward pool [q] [.forRequest q]).1),
        (h.traced forward pool [q] [.forRequest q]).2) := by
    simp only [traced, evaluateIn, fits.board, ne_eq, not_true_eq_false, if_false, guarded, made,
      room]
    rfl
  rw [unfolded, calls]

/-- If the engine answers that call, the report presents its answer, decoded. -/
theorem evaluate_answered
    (answered : ((h.forward engine).answer (h.callOf pool [q] [.forRequest q])).result = .ok ()) :
    ∃ out r, h.shape.Decoded h.model.version q true ((p.evaluate h engine pool).1.heads 0) out ∧
      r.Presents h out ∧ (p.evaluate h engine pool).2 = .ok r ∧
      (p.traced h (h.forward engine) pool).1 = p.evaluate h engine pool := by
  obtain ⟨out, result, outputs, decoded⟩ :=
    executed_alone owned (asks.admitted owned fits) answered
  have positive : 0 < out.extent.width := by
    have square := fits.square
    have least := fits.least
    rw [decoded.extent]
    have same : p.width = h.shape.board.width := congrArg Extent.width fits.board
    omega
  have sized : out.WellSized :=
    ⟨by rw [decoded.policySize, decoded.extent], fun map given => by
      rw [(decoded.ownership map given).1, decoded.extent]⟩
  obtain ⟨r, reported, presents⟩ := report_ok h positive sized
    (decoded.present.trans asks.ownership)
  have ended : p.evaluate h engine pool =
      ((h.execute engine pool [q] [.forRequest q]).pool, .ok r) := by
    simp only [evaluate, fits.board, ne_eq, not_true_eq_false, if_false, made, Handle.execute,
      result, outputs, reported]
  refine ⟨out, r, ?_, presents, congrArg Prod.snd ended, ?_⟩
  · rw [ended, ← asks.ownership]
    exact decoded
  · rw [traced_asked owned fits made asks, ended]
    simp only [concluded, result, outputs, reportGuarded, positive, decide_true, requireImplicit,
      if_true, ok_bind, reported]
    rfl

/-- If the engine fails, the failure is passed on. -/
theorem evaluate_failed {failure : Failure EngineError}
    (failed : ((h.forward engine).answer (h.callOf pool [q] [.forRequest q])).result =
      .error failure) :
    (p.evaluate h engine pool).2 = .error ((failure.map .engine).map .service) ∧
      (p.traced h (h.forward engine) pool).1 = p.evaluate h engine pool := by
  have ended := Handle.execute_failed (loaded_alone owned (asks.admitted owned fits)) failed
  have plain : p.evaluate h engine pool =
      ((h.execute engine pool [q] [.forRequest q]).pool,
        .error ((failure.map .engine).map .service)) := by
    simp only [evaluate, fits.board, ne_eq, not_true_eq_false, if_false, made, Handle.execute,
      ended]
  refine ⟨congrArg Prod.snd plain, ?_⟩
  rw [traced_asked owned fits made asks, plain]
  simp only [concluded, Handle.execute, ended]

/-- Either way the guarded evaluation ends as the one without guards. -/
theorem traced_evaluation :
    (p.traced h (h.forward engine) pool).1 = p.evaluate h engine pool := by
  cases answer : ((h.forward engine).answer (h.callOf pool [q] [.forRequest q])).result with
  | ok u =>
    obtain ⟨_, _, _, _, _, same⟩ := evaluate_answered engine owned fits made asks answer
    exact same
  | error failure => exact (evaluate_failed engine owned fits made asks answer).2

end

end

/-- For every handle and engine, every pool of the handle, used before in whatever way, and
every position, however its lists are nested: the evaluation with a guard on every step ends as
the evaluation without guards. If the engine breaks no promise of its own, the evaluation
breaks none. It calls the engine exactly if the position fits the network and the board of the
handle; otherwise it leaves the pool alone and ends with a complaint that is true of the
position. For a position that fits the engine is called once, with the request about the
position; an error of the engine is passed on, and if there is none, the report presents the
evaluation that is decoded from the heads of the pool, in rows of the board.

Proof: a position that does not fit is refused before the pool is touched, so both
runs end at once with the same complaint. One that fits is made into a request that is
a batch of its own. The batch calls the engine once, and what follows is a case for
each way in which the call ends; only a fault of the engine could become one of the
evaluation. -/
theorem evaluate_exact {ε : Type} [Engine ε] (h : Handle) (engine : ε) (pool : Pool)
    (owned : h.Owns pool) (sane : (h.forward engine).Faultless h.shape h.maxBatchSize)
    (p : Position) :
    let run := p.traced h (h.forward engine) pool
    run.1 = p.evaluate h engine pool ∧
      (∀ broken, run.1.2 ≠ .error (.fault broken)) ∧
      (run.2 ≠ [] ↔ p.Fits h.descriptor h.board) ∧
      (¬p.Fits h.descriptor h.board → run.1.1 = pool ∧
        ∃ flaw, PositionFlaw.Of p h.descriptor h.board flaw ∧
          run.1.2 = .error (.error (.position flaw))) ∧
      (p.Fits h.descriptor h.board → ∃ q call, p.Asks h.descriptor h.board h.inputsChannelLast q ∧
        run.2 = [call] ∧ call.Shows h pool [q] ∧
        (∀ cause, ((h.forward engine).answer call).result = .error (.error cause) →
          run.1.2 = .error (.error (.service (.engine cause)))) ∧
        (((h.forward engine).answer call).result = .ok () → ∃ out r,
          h.shape.Decoded h.model.version q true (run.1.1.heads 0) out ∧
            r.Presents h out ∧ run.1.2 = .ok r)) := by
  intro run
  by_cases fits : p.Fits h.descriptor h.board
  case neg =>
    obtain ⟨flaw, told, refused⟩ := unfit_refused fits
    obtain ⟨plain, guarded⟩ := refused h pool owned rfl rfl
    have ended : run = _ := guarded (h.forward engine)
    rw [ended, plain engine]
    exact ⟨rfl, nofun, by simp [fits], fun _ => ⟨rfl, flaw, told, rfl⟩, fun other =>
      absurd other fits⟩
  case pos =>
    have word := owned.served.allocated.sound.fit.denseWord
    rw [owned.fitted.shape] at word
    obtain ⟨q, made, asks⟩ := fits.toRequest word h.inputsChannelLast
    have admitted := asks.admitted owned fits
    have loaded := loaded_alone owned admitted
    have calls : run.2 = [h.callOf pool [q] [.forRequest q]] :=
      congrArg Prod.snd (traced_asked owned fits made asks _)
    have shows := Handle.callOf_shows owned.fitted.sound loaded
    cases answer : ((h.forward engine).answer (h.callOf pool [q] [.forRequest q])).result with
    | ok u =>
      obtain ⟨out, r, decoded, presents, result, same⟩ :=
        evaluate_answered engine owned fits made asks answer
      have ended : run.1 = p.evaluate h engine pool := same
      rw [calls, ended, result]
      refine ⟨rfl, nofun, by simp [fits], fun unfit => absurd fits unfit, fun _ =>
        ⟨q, _, asks, rfl, shows, ?_, fun _ => ⟨out, r, decoded, presents, rfl⟩⟩⟩
      rw [answer]
      exact nofun
    | error failure =>
      obtain ⟨result, same⟩ := evaluate_failed engine owned fits made asks answer
      have ended : run.1 = p.evaluate h engine pool := same
      cases failure with
      | fault broken =>
        exact absurd answer (sane _ _ _ broken admitted.positive admitted.limit
          (Handle.loaded_inputs owned.fitted loaded).1 (Handle.loaded_outputs owned.fitted loaded))
      | error cause =>
        rw [calls, ended, result]
        refine ⟨rfl, nofun, by simp [fits], fun unfit => absurd fits unfit, fun _ =>
          ⟨q, _, asks, rfl, shows, ?_, ?_⟩⟩
        · rw [answer]
          rintro other ⟨⟩
          rfl
        · rw [answer]
          exact nofun

/-- Two channel-last rows of zeros in each of twenty-two planes fit the tiny square handle, and
its engine is called; with a row too many in one plane it is not. -/
theorem evaluate_exact_tiny :
    let h := Handle.tinySquare
    let net := RowNet.echo h.shape
    let engine := HostEngine.running (.ofRows h.shape net)
    let pool := Pool.blank h.shape "tiny" 2
    let plane := [Tensor.zeros 2, Tensor.zeros 2]
    let p : Position := ⟨2, 2, List.replicate 22 plane, .zeros 19⟩
    let ragged : Position := { p with spatial := List.replicate 21 plane ++ [.zeros 2 :: plane] }
    h.Owns pool ∧ (h.forward engine).Faultless h.shape h.maxBatchSize ∧
      p.Fits h.descriptor h.board ∧ (p.traced h (h.forward engine) pool).2 ≠ [] ∧
      (∃ r, (p.evaluate h engine pool).2 = .ok r) ∧
      ¬ragged.Fits h.descriptor h.board ∧ (ragged.traced h (h.forward engine) pool).2 = [] := by
  intro h net engine pool plane p ragged
  have agrees : (h.forward engine).Agrees (.ofRows h.shape net) h.maxBatchSize :=
    engine.forward_agrees h.model rfl rfl
  have succeeds := agrees.succeeds (Forward.ofRows_succeeds h.shape net _)
  have sane : (h.forward engine).Faultless h.shape h.maxBatchSize := by
    intro inputs slots n broken positive bound shaped offered failed
    exact nomatch failed.symm.trans (succeeds inputs slots n positive bound shaped offered)
  have fits : p.Fits h.descriptor h.board := by decide
  have unfit : ¬ragged.Fits h.descriptor h.board := by decide
  obtain ⟨same, _, called, _, asked⟩ :=
    evaluate_exact h engine pool Handle.tinySquare_owns sane p
  obtain ⟨_, _, uncalled, _⟩ := evaluate_exact h engine pool Handle.tinySquare_owns sane ragged
  obtain ⟨q, call, _, _, shows, _, answered⟩ := asked fits
  have answer : ((h.forward engine).answer call).result = .ok () := by
    rw [Forward.answer, agrees _ _ _ (shows.rows ▸ Nat.le_succ 1)]
    rfl
  obtain ⟨_, r, _, _, result⟩ := answered answer
  refine ⟨Handle.tinySquare_owns, sane, fits, called.mpr fits, ⟨r, same ▸ result⟩, unfit, ?_⟩
  exact Decidable.of_not_not fun some => unfit (uncalled.mp some)

end Position

end BoardEval
