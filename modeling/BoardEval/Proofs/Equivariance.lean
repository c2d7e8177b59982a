import BoardEval.Proofs.Batching
import BoardEval.Proofs.Turns

/-!
# Equivariant networks

A network is equivariant if turning the live window of its input planes turns the live
window of its policy and ownership planes likewise and changes nothing else. With such
a network the symmetry of a request cannot be observed: the window is turned on the way
in, the answer is turned with it, and decoding turns the answer back.

Both directions go through different layouts. Inputs are read channel-first or
channel-last; of a single policy plane the window itself is turned back, of two it is
their blend in a dense plane. Nothing is asked of padding, on either side.
-/

namespace BoardEval

namespace PoolShape

/-- `turned` is a row of input planes with its live window turned, every plane by the
same symmetry, and the rest as it is. -/
def TurnedRow (s : PoolShape) (g : Symmetry) (row turned : Tensor) : Prop :=
  Tensor.Carried s.board s.spatial s.layout.index (s.layout.imageIndex g s.board) row row turned

/-- The live window of one plane set is that of the other, turned. -/
def TurnedWindow (s : PoolShape) (channels : Nat) (g : Symmetry) (planes turned : Tensor) : Prop :=
  ∀ c < channels, ∀ y < s.board.height, ∀ x < s.board.width,
    turned.valueAt (s.layout.imageIndex g s.board c y x) = planes.valueAt (s.layout.index c y x)

end PoolShape

/-- The heads of a row, turned: every policy and ownership plane in its live window; pass,
value and score have no orientation. -/
structure HeadRow.Turned (s : PoolShape) (g : Symmetry) (heads turned : HeadRow) : Prop where
  policy : s.TurnedWindow s.policy g heads.policy turned.policy
  ownership : s.TurnedWindow s.ownership g heads.ownership turned.ownership
  pass : turned.pass = heads.pass
  value : turned.value = heads.value
  score : turned.score = heads.score

/-- Turned rows get turned heads, under every symmetry of the board. -/
def RowNet.Equivariant (net : RowNet) (s : PoolShape) : Prop :=
  ∀ (g : Symmetry) (row turned globals : Tensor), row.size = s.spatialWidth →
    s.TurnedRow g row turned → (net row globals).Turned s g (net turned globals)

/-- The same position, to be seen by the network under another symmetry. -/
def Request.under (q : Request) (g : Symmetry) : Request := { q with symmetry := g }

namespace PoolShape

variable {s : PoolShape}

/-- In planes at least as large as the board the layout of a pool tells all its
places apart. -/
theorem layout_stores (fit : s.Fit) (channels : Nat) : s.layout.Stores s.board channels :=
  .padded fit.board

/-- Turning a request changes none of its lengths. -/
theorem Takes.under {q : Request} (takes : s.Takes q) (g : Symmetry) : s.Takes (q.under g) :=
  ⟨takes.extent, takes.spatial, takes.globals⟩

/-- Packing under a symmetry turns the row that is packed upright. The padding is zero
either way. -/
theorem packedRow_turned (fit : s.Fit) (channelLast : Bool) (q : Request) (g : Symmetry) :
    s.TurnedRow g (s.packedRow channelLast (q.under .identity))
      (s.packedRow channelLast (q.under g)) := by
  have stores := layout_stores fit s.spatial
  have room := Layout.padded_required_le fit.board s.spatial
  constructor
  case size => rw [size_packedRow, size_packedRow]
  case inside =>
    intro c channel y row x column
    have place := s.layout.index_lt_required (stores.live channel row column)
    have image := s.layout.index_lt_required (stores.image_live g channel row column)
    rw [size_packedRow]
    exact ⟨Nat.lt_of_lt_of_le place room, Nat.lt_of_lt_of_le image room⟩
  case moved =>
    intro c channel y row x column
    have turned := packedRow_feature fit channelLast (q.under g) channel row column
    have upright := packedRow_feature fit channelLast (q.under .identity) channel row column
    exact turned.trans upright.symm
  case kept =>
    intro i elsewhere
    -- Every live place is the image of one, so the images leave out exactly the padding.
    have outside : ∀ {c y x}, s.layout.Live s.spatial c y x → s.layout.index c y x ≠ i := by
      intro c y x ⟨channel, row, column⟩
      obtain ⟨sourceRow, sourceColumn⟩ := g.source_inside s.board y x row column
      have image := elsewhere c channel _ sourceRow _ sourceColumn
      rwa [Layout.imageIndex, g.cell_source s.board y x row column] at image
    rw [packedRow_padding channelLast (q.under g) i outside,
      packedRow_padding channelLast (q.under .identity) i outside]

/-- The first plane starts at the first position. -/
theorem layout_base (s : PoolShape) (cell : Nat × Nat) :
    s.layout.index 0 cell.1 cell.2 = cell.1 * s.plane.width + cell.2 := by
  rw [layout, Layout.padded_index, Layout.channelFirst_index, Nat.zero_mul, Nat.zero_add]

/-- The second plane starts where the first one ends. -/
theorem layout_optimistic (s : PoolShape) (cell : Nat × Nat) :
    s.layout.index 1 cell.1 cell.2 = s.plane.cells + (cell.1 * s.plane.width + cell.2) := by
  rw [layout, Layout.padded_index, Layout.channelFirst_index, Nat.one_mul, Nat.add_mul,
    Nat.add_assoc, Extent.cells, Nat.mul_comm s.plane.height]

section

variable {g : Symmetry} {heads turned : HeadRow} (turns : heads.Turned s g turned)
include turns

/-- The policy of turned heads at the image of a cell is the policy at the cell, blended or
not. -/
theorem policyAt_turned (policy : s.policy = 1 ∨ s.policy = 2) (optimism : Number.Double)
    {y x : Nat} (row : y < s.board.height) (column : x < s.board.width) :
    s.policyAt optimism turned (g.cell s.board y x) = s.policyAt optimism heads (y, x) := by
  have base := turns.policy 0 (by omega) y row x column
  rw [Layout.imageIndex, layout_base, s.layout_base (y, x)] at base
  unfold policyAt
  by_cases single : s.policy = 1
  · rw [if_pos single, if_pos single]
    exact base
  · rw [if_neg single, if_neg single]
    have optimistic := turns.policy 1 (by omega) y row x column
    rw [Layout.imageIndex, layout_optimistic, s.layout_optimistic (y, x)] at optimistic
    rw [base, optimistic]

/-- Turned heads own a turned cell as upright heads own the cell. -/
theorem ownershipAt_turned (ownership : 1 ≤ s.ownership) {y x : Nat} (row : y < s.board.height)
    (column : x < s.board.width) :
    s.ownershipAt turned (g.cell s.board y x) = s.ownershipAt heads (y, x) := by
  have base := turns.ownership 0 ownership y row x column
  rwa [Layout.imageIndex, layout_base, s.layout_base (y, x)] at base

/-- Decoding turned heads under the symmetry gives what the upright heads give to the
upright request. -/
theorem Decoded.upright (fit : s.Fit) {version : Int} {q : Request} {withOwnership : Bool}
    {e : Evaluation} (decoded : s.Decoded version (q.under g) withOwnership turned e) :
    s.Decoded version (q.under .identity) withOwnership heads e where
  extent := decoded.extent
  policySize := decoded.policySize
  policy y row x column :=
    (decoded.policy y row x column).trans
      (policyAt_turned turns fit.policy q.optimism row column)
  pass := by
    have pass := decoded.pass
    rwa [passOf, turns.pass] at pass
  present := decoded.present
  ownership map given := by
    obtain ⟨size, values⟩ := decoded.ownership map given
    refine ⟨size, ?_⟩
    intro y row x column
    exact (values y row x column).trans (ownershipAt_turned turns fit.ownership row column)
  win := turns.value ▸ decoded.win
  loss := turns.value ▸ decoded.loss
  noResult := turns.value ▸ decoded.noResult
  score := turns.score ▸ decoded.score

end

end PoolShape

/-- The requests of a batch, each under a symmetry of its own. -/
def Request.turnedBy (requests : List Request) (turn : Nat → Symmetry) : List Request :=
  requests.mapIdx fun i q => q.under (turn i)

/-- Turning keeps the number of requests. -/
@[simp] theorem Request.length_turnedBy (requests : List Request) (turn : Nat → Symmetry) :
    (turnedBy requests turn).length = requests.length :=
  List.length_mapIdx

/-- Each request is turned by the symmetry of its own place. -/
theorem Request.turnedBy_row {requests : List Request} (turn : Nat → Symmetry) {i : Nat}
    {q : Request} (listed : requests[i]? = some q) :
    (turnedBy requests turn)[i]? = some (q.under (turn i)) := by
  rw [turnedBy, List.getElem?_mapIdx, listed]
  rfl

namespace Handle

variable {h : Handle} {net : RowNet}

/-- What an equivariant network answers to a request does not depend on the request's
symmetry. -/
theorem decoded_under (fit : h.shape.Fit) (equivariant : net.Equivariant h.shape) {q : Request}
    {g : Symmetry} {withOwnership : Bool} {e : Evaluation}
    (decoded : h.shape.Decoded h.model.version (q.under g) withOwnership
      (net (h.shape.packedRow h.inputsChannelLast (q.under g)) q.globals) e) :
    h.shape.Decoded h.model.version (q.under .identity) withOwnership
      (net (h.shape.packedRow h.inputsChannelLast (q.under .identity)) q.globals) e := by
  have turned := PoolShape.packedRow_turned fit h.inputsChannelLast q g
  exact decoded.upright (equivariant g _ _ q.globals (PoolShape.size_packedRow _ _) turned) fit

/-- Turned requests make a batch if the requests do. -/
theorem admits_turned {requests : List Request} (admitted : h.Admits requests)
    (turn : Nat → Symmetry) : h.Admits (Request.turnedBy requests turn) where
  positive := by rw [Request.length_turnedBy]; exact admitted.positive
  limit := by rw [Request.length_turnedBy]; exact admitted.limit
  takes := by
    intro q member
    obtain ⟨i, inside, rfl⟩ := List.mem_mapIdx.mp member
    exact (admitted.takes _ (List.getElem_mem inside)).under (turn i)

section

variable {forward : Forward} (rowWise : forward.RowWise h.shape h.maxBatchSize net)
  {p : Pool} (owned : h.Owns p) {requests : List Request} (admitted : h.Admits requests)
  {outputs : List Evaluation} (count : outputs.length = requests.length)
  (roomy : ∀ out ∈ outputs, out.Roomy h.shape)
include rowWise owned admitted count roomy

/-- A batch that succeeds evaluates each request to the network's answer, decoded into the
room that there is for it. -/
theorem execute_answers
    (succeeded : (h.executeBy forward p requests outputs).result = .ok ()) :
    (h.executeBy forward p requests outputs).outputs.length = requests.length ∧
      ∀ (i : Nat) q out, requests[i]? = some q → outputs[i]? = some out →
        ∃ e, (h.executeBy forward p requests outputs).outputs[i]? = some e ∧
          h.shape.Decoded h.model.version q out.ownership.isSome
            (net (h.shape.packedRow h.inputsChannelLast q) q.globals) e := by
  have loaded := load_ok owned.fitted admitted count roomy
  obtain ⟨shaped, packed⟩ := loaded_inputs owned.fitted loaded
  have slots := loaded_outputs owned.fitted loaded
  have ran : (h.ran forward p requests outputs).result = .ok () := by
    cases run : (h.ran forward p requests outputs).result with
    | ok u => rfl
    | error failure =>
      rw [execute_failed loaded run] at succeeded
      exact nomatch succeeded
  obtain ⟨full, answered⟩ := rowWise.rows _ _ _ admitted.positive admitted.limit shaped slots ran
  obtain ⟨_, length, decoded⟩ := execute_ok owned.fitted loaded roomy ran full
  refine ⟨length, ?_⟩
  intro i q out listed given
  obtain ⟨inside, _⟩ := List.getElem?_eq_some_iff.mp listed
  obtain ⟨e, here, values⟩ := decoded i q out listed given
  obtain ⟨spatial, globals⟩ := packed i q listed
  refine ⟨e, here, ?_⟩
  rw [Handle.ran, answered i inside, spatial, globals] at values
  exact values

/-- A pass that never fails lets every batch of the handle succeed. -/
theorem execute_succeeds (succeeds : forward.Succeeds h.shape h.maxBatchSize) :
    (h.executeBy forward p requests outputs).result = .ok () := by
  have loaded := load_ok owned.fitted admitted count roomy
  obtain ⟨shaped, _⟩ := loaded_inputs owned.fitted loaded
  have slots := loaded_outputs owned.fitted loaded
  have ran := succeeds _ _ _ admitted.positive admitted.limit shaped slots
  obtain ⟨full, _⟩ := rowWise.rows _ _ _ admitted.positive admitted.limit shaped slots ran
  exact (execute_ok owned.fitted loaded roomy ran full).1

end

/-- Symmetry cannot be observed through an equivariant network. A batch and the same batch
with each request under any symmetry are evaluated alike, in every field of every
evaluation, on whatever pools of the handle; and if the pass never fails, both succeed.

Proof: the rows of both runs are decoded from heads that the network made of one
packed row, upright and turned. Equivariance turns the heads along and decoding turns
them back, so both evaluations are the decoding of the upright request, of which there
is only one. -/
theorem symmetry_transparent {ε : Type} [Engine ε] (h : Handle) (engine : ε) (net : RowNet)
    (rowWise : (h.forward engine).RowWise h.shape h.maxBatchSize net)
    (equivariant : net.Equivariant h.shape) (p p' : Pool) (owned : h.Owns p) (owned' : h.Owns p')
    (requests : List Request) (admitted : h.Admits requests) (outputs : List Evaluation)
    (count : outputs.length = requests.length) (roomy : ∀ out ∈ outputs, out.Roomy h.shape)
    (turn : Nat → Symmetry) :
    let run := h.execute engine p requests outputs
    let turned := h.execute engine p' (Request.turnedBy requests turn) outputs
    (run.result = .ok () → turned.result = .ok () → turned.outputs = run.outputs) ∧
      ((h.forward engine).Succeeds h.shape h.maxBatchSize →
        run.result = .ok () ∧ turned.result = .ok ()) := by
  have admitted' := admits_turned admitted turn
  have count' : outputs.length = (Request.turnedBy requests turn).length := by
    rw [Request.length_turnedBy, count]
  have fit : h.shape.Fit := owned.fitted.shape ▸ owned.fitted.sound.fit
  intro run turned
  constructor
  · intro succeeded succeeded'
    obtain ⟨length, rows⟩ := execute_answers rowWise owned admitted count roomy succeeded
    obtain ⟨length', rows'⟩ := execute_answers rowWise owned' admitted' count' roomy succeeded'
    rw [Request.length_turnedBy] at length'
    apply List.ext_getElem?
    intro i
    by_cases inside : i < requests.length
    · have listed : requests[i]? = some requests[i] := List.getElem?_eq_getElem inside
      have given : outputs[i]? = some outputs[i] := List.getElem?_eq_getElem (count ▸ inside)
      obtain ⟨e, here, decoded⟩ := rows i _ _ listed given
      obtain ⟨e', here', decoded'⟩ := rows' i _ _ (Request.turnedBy_row turn listed) given
      -- Both answers are the answer to the upright request.
      have same : e' = e :=
        (decoded_under fit equivariant decoded').unique
          (decoded_under (g := requests[i].symmetry) fit equivariant decoded)
      exact here'.trans (same ▸ here.symm)
    · have beyond := Nat.le_of_not_lt inside
      exact (List.getElem?_eq_none (length' ▸ beyond)).trans
        (List.getElem?_eq_none (length ▸ beyond)).symm
  · intro succeeds
    exact ⟨execute_succeeds rowWise owned admitted count roomy succeeds,
      execute_succeeds rowWise owned' admitted' count' roomy succeeds⟩

end Handle

namespace RowNet

/-- A network that repeats the first input plane in every policy and ownership plane, and
the first globals in the value head. -/
def repeatPlane (s : PoolShape) : RowNet := fun spatial globals =>
  let repeated (width : Nat) : Tensor :=
    .ofFn fun i : Fin width => spatial.valueAt (i.val % s.plane.cells)
  { echo s spatial globals with
    policy := repeated s.policyWidth
    ownership := repeated s.ownershipWidth }

/-- The network that repeats a plane returns heads of the right widths. -/
theorem repeatPlane_fills (s : PoolShape) : (repeatPlane s).Fills s :=
  fun _ _ => ⟨Array.size_ofFn, Tensor.size_zeros _, rfl, Array.size_ofFn, Tensor.size_zeros _⟩

variable {s : PoolShape}

/-- Every repeated plane is the first one. -/
theorem value_repeated (fit : s.Fit) (spatial : Tensor) {channels width c y x : Nat}
    (full : channels * s.plane.cells ≤ width) (channel : c < channels)
    (row : y < s.board.height) (column : x < s.board.width) :
    Tensor.valueAt (.ofFn fun i : Fin width => spatial.valueAt (i.val % s.plane.cells))
        (s.layout.index c y x) = spatial.valueAt (s.layout.index 0 y x) := by
  obtain ⟨planeRow, planeColumn⟩ := Layout.plane_cell fit.board row column
  have inside : s.layout.index c y x < width :=
    Nat.lt_of_lt_of_le (Layout.channelFirst_lt s.plane channel planeRow planeColumn) full
  have first : s.layout.index 0 y x < s.plane.cells := by
    have bound := Layout.channelFirst_lt s.plane Nat.zero_lt_one planeRow planeColumn
    rwa [Nat.one_mul] at bound
  have place : s.layout.index c y x = s.layout.index 0 y x + s.plane.cells * c := by
    rw [PoolShape.layout, Layout.padded_index, Layout.padded_index, Layout.channelFirst_index,
      Layout.channelFirst_index, Nat.zero_mul, Nat.zero_add, Nat.add_mul, Nat.mul_assoc,
      Nat.mul_comm c, Nat.mul_comm s.plane.height, Extent.cells]
    omega
  have modulo : s.layout.index c y x % s.plane.cells = s.layout.index 0 y x := by
    rw [place, Nat.add_mul_mod_self_left, Nat.mod_eq_of_lt first]
  rw [Tensor.value_inside _ _ (by rwa [Array.size_ofFn]), Array.getElem_ofFn, modulo]

/-- Such a network is equivariant, provided that there is an input plane to repeat. -/
theorem repeatPlane_equivariant (fit : s.Fit) (planes : 1 ≤ s.spatial) :
    (repeatPlane s).Equivariant s := by
  intro g row turned globals _ carried
  have window {channels width : Nat} (full : channels * s.plane.cells ≤ width) :
      s.TurnedWindow channels g
        (.ofFn fun i : Fin width => row.valueAt (i.val % s.plane.cells))
        (.ofFn fun i : Fin width => turned.valueAt (i.val % s.plane.cells)) := by
    intro c channel y rows x columns
    obtain ⟨imageRow, imageColumn⟩ := g.cell_inside s.board y x rows columns
    rw [Layout.imageIndex, value_repeated fit turned full channel imageRow imageColumn,
      value_repeated fit row full channel rows columns]
    exact carried.moved 0 planes y rows x columns
  constructor
  case policy => exact window (Nat.le_of_eq (Nat.mul_comm _ _))
  case ownership => exact window (Nat.le_refl _)
  all_goals rfl

end RowNet

namespace Handle

/-- The tiny handle on a square board of four cells. -/
def tinySquare : Handle := { tiny with board := .square 2 }

/-- A new pool of the square tiny model is one of the handle's pools. -/
theorem tinySquare_owns : tinySquare.Owns (.blank tinySquare.shape "tiny" 2) := .created rfl

/-- A stone in one corner, upright, is evaluated as the same position turned by a quarter. -/
theorem symmetry_transparent_tiny :
    let net := RowNet.repeatPlane tinySquare.shape
    let engine := HostEngine.running (.ofRows tinySquare.shape net)
    let p := Pool.blank tinySquare.shape "tiny" 2
    let request : Request := { Request.tiny .one with
      spatial := (Tensor.zeros 88).setIfInBounds 0 ⟨0x3f800000⟩
      symmetry := .identity
      extent := .square 2 }
    let outputs := [Evaluation.forRequest request]
    let quarter : Nat → Symmetry := fun _ => ⟨true, false, true⟩
    (tinySquare.forward engine).RowWise tinySquare.shape tinySquare.maxBatchSize net ∧
      net.Equivariant tinySquare.shape ∧ tinySquare.Owns p ∧ tinySquare.Admits [request] ∧
      (∀ out ∈ outputs, out.Roomy tinySquare.shape) ∧
      (tinySquare.execute engine p [request] outputs).result = .ok () ∧
      (tinySquare.execute engine p (Request.turnedBy [request] quarter) outputs).outputs =
        (tinySquare.execute engine p [request] outputs).outputs := by
  intro net engine p request outputs quarter
  have agrees : (tinySquare.forward engine).Agrees (.ofRows tinySquare.shape net)
      tinySquare.maxBatchSize := engine.forward_agrees tinySquare.model rfl rfl
  have rowWise := agrees.rowWise (Forward.ofRows_rowWise (RowNet.repeatPlane_fills _) _)
  have fit : tinySquare.shape.Fit :=
    tinySquare_owns.fitted.shape ▸ tinySquare_owns.fitted.sound.fit
  have equivariant : net.Equivariant tinySquare.shape :=
    RowNet.repeatPlane_equivariant fit (by decide)
  have takes : ∀ q ∈ [request], tinySquare.shape.Takes q := by
    intro q member
    obtain rfl : q = request := by simpa using member
    exact ⟨rfl, by simp [request, PoolShape.denseSpatial, tinySquare, shape,
      PoolShape.ofDescriptor, tiny, Extent.square, Extent.cells], Tensor.size_zeros _⟩
  have admitted : tinySquare.Admits [request] := ⟨by decide, by decide, takes⟩
  have roomy := roomy_forRequests takes
  obtain ⟨same, succeed⟩ := symmetry_transparent tinySquare engine net rowWise equivariant p p
    tinySquare_owns tinySquare_owns [request] admitted outputs rfl roomy quarter
  obtain ⟨upright, turned⟩ := succeed (agrees.succeeds (Forward.ofRows_succeeds _ _ _))
  exact ⟨rowWise, equivariant, tinySquare_owns, admitted, roomy, upright, same upright turned⟩

end Handle

end BoardEval
