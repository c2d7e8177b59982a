import BoardEval.Proofs.Batches

/-!
# What a batch computes

The end-to-end meaning of a batch, in terms of the flat tensors of requests and
heads alone. The forward pass is shown the features of every request in one fixed
layout, turned to canonical orientation, on planes that are zero elsewhere; each
request gets back the values at the canonical images of its cells.
-/

namespace BoardEval

open Number (Single)

namespace Handle

/-- Feature `c` of a request at row `y` and column `x`, in the channel order of the
handle. -/
def feature (h : Handle) (q : Request) (c y x : Nat) : Single :=
  if h.inputsChannelLast then
    q.spatial.valueAt ((y * h.board.width + x) * h.descriptor.spatial + c)
  else q.spatial.valueAt ((c * h.board.height + y) * h.board.width + x)

/-- Inputs that show a list of requests: one row each, the globals as they are, every
feature at the canonical image of its cell, and zeros outside the live window. -/
structure Shows (h : Handle) (requests : List Request) (inputs : BatchInputs) : Prop where
  shaped : inputs.Shaped h.shape requests.length
  globals : ∀ i q, requests[i]? = some q → inputs.globalRow i = q.globals
  features : ∀ i q, requests[i]? = some q →
    ∀ c < h.descriptor.spatial, ∀ y < h.board.height, ∀ x < h.board.width,
      let cell := q.symmetry.cell h.board y x
      let plane := h.model.config.plane
      (inputs.spatialRow i).valueAt ((c * plane.height + cell.1) * plane.width + cell.2) =
        h.feature q c y x
  padding : ∀ i q, requests[i]? = some q →
    ∀ c < h.descriptor.spatial, ∀ y < h.model.config.plane.height,
      ∀ x < h.model.config.plane.width, h.board.contains y x = false →
        let plane := h.model.config.plane
        (inputs.spatialRow i).valueAt ((c * plane.height + y) * plane.width + x) = .zero

variable {h : Handle}

/-- A feature is found in the request where the handle's order of channels puts
it. -/
theorem dense_feature (h : Handle) (q : Request) (c y x : Nat) :
    q.spatial.valueAt
        ((Layout.dense h.board h.descriptor.spatial h.inputsChannelLast).index c y x) =
      h.feature q c y x := by
  unfold feature Layout.dense
  split
  · rw [Layout.channelLast_index]
  · rw [Layout.channelFirst_index]

/-- Rows of packed requests show the requests. -/
theorem shows_packed (fit : h.shape.Fit) {requests : List Request} {inputs : BatchInputs}
    (shaped : inputs.Shaped h.shape requests.length)
    (rows : ∀ i q, requests[i]? = some q →
      inputs.spatialRow i = h.shape.packedRow h.inputsChannelLast q ∧
        inputs.globalRow i = q.globals) : h.Shows requests inputs where
  shaped := shaped
  globals i q listed := (rows i q listed).2
  features i q listed c channel y row x column := by
    intro cell plane
    have packed := PoolShape.packedRow_feature fit h.inputsChannelLast q channel row column
    rw [PoolShape.layout, Layout.padded_index, Layout.channelFirst_index] at packed
    rw [(rows i q listed).1]
    exact packed.trans (h.dense_feature q c y x)
  padding i q listed c channel y row x column outside := by
    intro plane
    have place := Layout.padded_index h.board plane c y x
    rw [Layout.channelFirst_index] at place
    rw [(rows i q listed).1, ← place]
    apply PoolShape.packedRow_padding
    intro c' y' x' live
    exact Layout.padding_apart fit.board row column outside live

/-- A batch of one to the limit of requests that fit the handle, on any of its pools.
The forward pass is applied to inputs that show the requests. If it answers them, the
batch succeeds and each evaluation is its row of the heads, decoded; if it refuses
them, the batch fails for that reason and decodes nothing.

Proof: a batch that fits can be written, and the rows that it wrote are packed
requests. The slots of the pool have the right sizes, so the function says how the run
ends, and decoding reads each row of what it left. -/
theorem execute_meaning {ε : Type} [Engine ε] (h : Handle) (p : Pool) (owned : h.Owns p)
    (requests : List Request) (admitted : h.Admits requests) :
    ∃ inputs, h.shown p requests (requests.map .forRequest) = some inputs ∧
      h.Shows requests inputs ∧
      ∀ (engine : ε) (f : BatchInputs → Nat → Except (Failure EngineError) BatchOutputs),
        (h.forward engine).Computes h.shape h.maxBatchSize f →
        let run := h.execute engine p requests (requests.map .forRequest)
        (∀ heads, f inputs requests.length = .ok heads →
          run.result = .ok () ∧ run.outputs.length = requests.length ∧
            ∀ i q, requests[i]? = some q → ∃ e, run.outputs[i]? = some e ∧
              h.shape.Decoded h.model.version q q.wantsOwnership (heads.row i) e) ∧
        ∀ failure, f inputs requests.length = .error failure →
          run.result = .error (failure.map .engine) ∧
            run.outputs = requests.map .forRequest := by
  have fitted := owned.fitted
  have roomy := roomy_forRequests admitted.takes
  have loaded := load_ok fitted admitted (List.length_map _) roomy
  obtain ⟨shaped, rows⟩ := loaded_inputs fitted loaded
  have slots := loaded_outputs fitted loaded
  have fit : h.shape.Fit := fitted.shape ▸ fitted.sound.fit
  refine ⟨_, shown_of_loaded loaded, shows_packed fit shaped rows, ?_⟩
  intro engine f computes run
  constructor
  · intro heads answered
    obtain ⟨full, ran⟩ := computes.answers _ _ _ heads admitted.positive admitted.limit shaped
      slots answered
    have outputs : h.ran (h.forward engine) p requests (requests.map .forRequest) =
      .ok heads := ran
    obtain ⟨result, length, decoded⟩ := execute_ok fitted loaded roomy (by rw [outputs]; rfl)
      (by rw [outputs]; exact full)
    refine ⟨result, length, ?_⟩
    intro i q listed
    obtain ⟨e, here, values⟩ := decoded i q (.forRequest q) listed (by simp [listed])
    rw [outputs, Evaluation.forRequest_present] at values
    exact ⟨e, here, values⟩
  · intro failure refused
    have failed := computes.refuses _ _ _ failure admitted.positive admitted.limit shaped slots
      refused
    have ended := execute_failed loaded failed
    exact ⟨congrArg Execution.result ended, congrArg Execution.outputs ended⟩

/-- The tiny handle serves two requests that differ in their optimism. -/
theorem execute_meaning_tiny :
    let p := Pool.blank tiny.shape "tiny" 2
    let requests := [Request.tiny .zero, Request.tiny .one]
    let f inputs n := .ok ((RowNet.echo tiny.shape).answer tiny.shape inputs n)
    tiny.Owns p ∧ tiny.Admits requests ∧
      (tiny.forward tinyEngine).Computes tiny.shape tiny.maxBatchSize f ∧
      (tiny.execute tinyEngine p requests (requests.map .forRequest)).result = .ok () := by
  intro p requests f
  have computes : (tiny.forward tinyEngine).Computes tiny.shape tiny.maxBatchSize f :=
    tiny_agrees.computes (Forward.ofRows_computes (RowNet.echo_fills _) _)
  obtain ⟨inputs, _, _, meaning⟩ :=
    @execute_meaning HostEngine _ tiny p tiny_owns requests tiny_admits
  exact ⟨tiny_owns, tiny_admits, computes, ((meaning tinyEngine f computes).1 _ rfl).1⟩

end Handle

end BoardEval
