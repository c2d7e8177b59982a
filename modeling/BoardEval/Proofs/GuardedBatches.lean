import BoardEval.Proofs.Batches
import BoardEval.Proofs.Guards

/-!
# Guarded batches

Packing, handing out the rows of a batch and decoding, with a guard on every step: sums
and products of sizes, flips, reads, writes and slices, and the copy of the globals,
which needs two slices of one length. The promises that the plain definitions check stay
where they are.

On a sound pool whose tensors fit in memory, each of these is equal to the operation
without guards. For packing this holds because a row is written only after its own
promises were checked; for handing out rows and for decoding, because a batch that was
loaded has a row of the pool for each of its requests. Requests, evaluations and what an
engine left in its output rows are arbitrary.
-/

namespace BoardEval

open Number (Single Double)

/-- A playable board has rows, and few cells. -/
theorem Extent.playable_cells {e : Extent} (playable : e.isPlayable = true) :
    1 ≤ e.height ∧ 1 ≤ e.cells ∧ e.cells ≤ 361 := by
  simp only [isPlayable, sideAllowed, Bool.and_eq_true, decide_eq_true_eq] at playable
  obtain ⟨⟨narrow, wide⟩, low, high⟩ := playable
  have least : 2 * 2 ≤ e.width * e.height := Nat.mul_le_mul narrow low
  have most : e.width * e.height ≤ 19 * 19 := Nat.mul_le_mul wide high
  unfold shortestSide at low
  unfold cells
  omega

/-- An extent passes exactly if both lengths are in range. -/
theorem Extent.validate_ok_iff (e : Extent) (u : Unit) :
    e.validate = .ok u ↔ e.isPlayable = true := by
  unfold validate
  split <;> simp_all

namespace PoolShape

variable {s : PoolShape}

/-- The strides of the window in its planes fit in a machine word: a plane with rows is
at least as large as one of them. -/
theorem layout_inWord (fit : s.Fit) (rows : 1 ≤ s.board.height) :
    s.layout.inWord = .ok s.layout := by
  have fits := fit.board
  simp only [Extent.fitsWithin, Bool.and_eq_true, decide_eq_true_eq] at fits
  have width : s.plane.width ≤ s.plane.cells := Nat.le_mul_of_pos_right _ (by omega)
  have word := fit.planeWord
  exact if_pos ⟨word, Nat.lt_of_le_of_lt width word, one_lt_wordLimit⟩

/-- The strides of a dense plane fit as well. -/
theorem channelFirst_inWord (fit : s.Fit) (rows : 1 ≤ s.board.height) :
    (Layout.channelFirst s.board).inWord = .ok (.channelFirst s.board) := by
  have word := fit.cellsWord
  have width : s.board.width ≤ s.board.cells := Nat.le_mul_of_pos_right _ rows
  exact if_pos ⟨word, Nat.lt_of_le_of_lt width word, one_lt_wordLimit⟩

/-- So do those of a dense request tensor, in either channel order. -/
theorem dense_inWord (fit : s.Fit) (rows : 1 ≤ s.board.height) (cells : 1 ≤ s.board.cells)
    (last : Bool) : (Layout.dense s.board s.spatial last).inWord =
      .ok (.dense s.board s.spatial last) := by
  cases last with
  | false => exact channelFirst_inWord fit rows
  | true =>
    have word := fit.denseWord
    have width : s.board.width ≤ s.board.cells := Nat.le_mul_of_pos_right _ rows
    have channels : s.spatial ≤ s.denseSpatial := Nat.le_mul_of_pos_right _ cells
    have strides : s.board.width * s.spatial ≤ s.denseSpatial := by
      rw [denseSpatial, Nat.mul_comm]
      exact Nat.mul_le_mul_left _ width
    exact if_pos ⟨one_lt_wordLimit, Nat.lt_of_le_of_lt strides word,
      Nat.lt_of_le_of_lt channels word⟩

/-- The board is playable, and `rows` rows of every width have a number of values that
fits in a machine word. -/
structure InMemory (s : PoolShape) (rows : Nat) : Prop where
  board : s.board.isPlayable = true
  spatial : rows * s.spatialWidth < wordLimit
  globals : rows * s.globals < wordLimit
  policy : rows * s.policyWidth < wordLimit
  pass : rows * s.policy < wordLimit
  value : rows * valueSlots < wordLimit
  ownership : rows * s.ownershipWidth < wordLimit
  score : rows * scoreSlots < wordLimit
  blended : rows * s.board.cells < wordLimit

/-- The number of rows fits then, too. -/
theorem InMemory.rows {rows : Nat} (memory : s.InMemory rows) : rows < wordLimit :=
  Nat.lt_of_le_of_lt (Nat.le_mul_of_pos_right _ (by decide)) memory.value

/-- A product over planes and channels is below a bound on the product of all three
factors, and so is the first of its two products: there is a channel. -/
theorem planes_inWord (fit : s.Fit) {rows n : Nat} (memory : s.InMemory rows) (bound : n ≤ rows) :
    productInWord n s.plane.cells = .ok (n * s.plane.cells) ∧
      productInWord (n * s.plane.cells) s.policy = .ok (n * s.policyWidth) := by
  have channels : 1 ≤ s.policy := by
    rcases fit.policy with one | two <;> omega
  have all : n * s.policyWidth < wordLimit :=
    Nat.lt_of_le_of_lt (Nat.mul_le_mul_right _ bound) memory.policy
  have factors : n * s.plane.cells * s.policy = n * s.policyWidth := Nat.mul_assoc _ _ _
  have first : n * s.plane.cells ≤ n * s.policyWidth :=
    factors ▸ Nat.le_mul_of_pos_right _ channels
  refine ⟨productInWord_ok (Nat.lt_of_le_of_lt first all), ?_⟩
  rw [← factors] at all ⊢
  exact productInWord_ok all

end PoolShape

namespace Pool

/-- A pool that could be created lies in memory. -/
theorem create_inMemory (d : Descriptor) (capacity : Nat) (board plane : Extent) (p : Pool)
    (created : create d capacity board plane = .ok p) : p.shape.InMemory p.capacity := by
  obtain ⟨valid, playable, _, s, shape, bytes, rfl⟩ := create_steps d capacity board plane p created
  obtain ⟨rfl, _⟩ := PoolShape.create_fit d board plane s valid shape
  have word (n : Nat) (small : 4 * n ≤ allocationLimit) : n < wordLimit := by
    unfold allocationLimit at small
    unfold wordLimit
    omega
  constructor
  case board => exact (Extent.validate_ok_iff _ _).mp playable
  all_goals exact word _ (bytes _ (by simp [blank, PoolShape.ofDescriptor]))

/-- A sound pool that lies in memory. -/
structure Allocated (p : Pool) : Prop where
  sound : p.Sound
  memory : p.shape.InMemory p.capacity

/-- What a batch or a part of it makes of an allocated pool is allocated. -/
theorem Allocated.of_alike {p q : Pool} (allocated : p.Allocated) (sound : q.Sound)
    (alike : q.Alike p) : q.Allocated :=
  ⟨sound, by rw [alike.shape, alike.capacity]; exact allocated.memory⟩

/-- The rows of a batch, every step guarded. A policy row is a number of planes for each of
its channels, so its end is a product of three factors. -/
def batchGuarded (p : Pool) (n : Nat) : Except Fault (BatchInputs × BatchOutputs) := do
  requireBatch n p.capacity
  let spatial ← p.spatial.firstRowsGuarded n
  let globals ← p.globals.firstRowsGuarded n
  let stop ← productInWord (← productInWord n p.shape.plane.cells) p.shape.policy
  let policy ← p.policy.data.range 0 stop
  let pass ← p.pass.firstRowsGuarded n
  let value ← p.value.firstRowsGuarded n
  let ownership ← p.ownership.firstRowsGuarded n
  let score ← p.score.firstRowsGuarded n
  return (⟨spatial, globals, p.shape.spatial, p.shape.globals, p.shape.plane⟩,
    ⟨policy, pass, value, ownership, score, p.shape.policy, p.shape.ownership, p.shape.plane⟩)

variable {p : Pool}

/-- Handing out rows of an allocated pool needs no guard. -/
theorem batchGuarded_eq (allocated : p.Allocated) (n : Nat) : p.batchGuarded n = p.batch n := by
  obtain ⟨sound, memory⟩ := allocated
  unfold batchGuarded batch
  cases checked : requireBatch n p.capacity with
  | error broken => rfl
  | ok u =>
    have bound : n ≤ p.capacity := ((requireBatch_ok_iff _ _ _).mp checked).2
    obtain ⟨planes, stop⟩ := PoolShape.planes_inWord sound.fit memory bound
    have policy : p.policy.data.range 0 (n * p.shape.policyWidth) = .ok (p.policy.firstRows n) := by
      rw [Rows.firstRows, sound.policy.width]
      apply Tensor.range_ok (Nat.zero_le _)
      rw [sound.policy.size]
      exact Nat.mul_le_mul_right _ bound
    simp only [ok_bind, Rows.firstRowsGuarded_ok sound.spatial memory.spatial bound,
      Rows.firstRowsGuarded_ok sound.globals memory.globals bound, planes, stop, policy,
      Rows.firstRowsGuarded_ok sound.pass memory.pass bound,
      Rows.firstRowsGuarded_ok sound.value memory.value bound,
      Rows.firstRowsGuarded_ok sound.ownership memory.ownership bound,
      Rows.firstRowsGuarded_ok sound.score memory.score bound]
    rfl

end Pool

/-! ## Packing -/

namespace Handle

/-- The layouts of request tensors and of spatial rows. -/
def layoutsGuarded (h : Handle) (p : Pool) : Except Fault (Layout × Layout) := do
  let source ← (Layout.dense h.board p.shape.spatial h.inputsChannelLast).inWord
  let target ← p.shape.layout.inWord
  return (source, target)

/-- Write a request to a row, every step guarded. -/
def loadRowGuarded (layouts : Layout × Layout) (p : Pool) (r : Nat) (request : Request) :
    Except Fault Pool := do
  let globals ← p.globals.rowGuarded r
  requireImplicit (decide (request.globals.size = globals.size))
  let row ← p.spatial.rowGuarded r
  let row ← Tensor.copyToCanonicalGuarded request.spatial layouts.1 row layouts.2
    p.shape.spatial request.symmetry
  return p.setInputRow r row request.globals

/-- Check and write rows from row `r` on, every step guarded. -/
def loadRowsGuarded (h : Handle) (layouts : Layout × Layout) :
    Nat → List (Request × Evaluation) → Pool → Pool × Except Fault Unit
  | _, [], p => (p, .ok ())
  | r, (request, out) :: rest, p =>
    match h.checkRow p r request out with
    | .error broken => (p, .error broken)
    | .ok () =>
      match loadRowGuarded layouts p r request with
      | .error broken => (p, .error broken)
      | .ok p => h.loadRowsGuarded layouts (r + 1) rest p

/-- Check a batch and write its rows, every step guarded. -/
def loadGuarded (h : Handle) (p : Pool) (requests : List Request) (outputs : List Evaluation) :
    Pool × Except Fault Unit :=
  match h.checkBatch p requests.length outputs.length with
  | .error broken => (p, .error broken)
  | .ok () =>
    match h.layoutsGuarded p with
    | .error broken => (p, .error broken)
    | .ok layouts => h.loadRowsGuarded layouts 0 (requests.zip outputs) p

variable {h : Handle} {p : Pool}

/-- A request that the shape takes is written without a guard stopping it. -/
theorem loadRowGuarded_eq (allocated : p.Allocated) {r : Nat} (bound : r < p.capacity)
    {q : Request} (takes : p.shape.Takes q) :
    loadRowGuarded (.dense h.board p.shape.spatial h.inputsChannelLast, p.shape.layout) p r q =
      h.loadRow p r q := by
  obtain ⟨sound, memory⟩ := allocated
  have globals := Rows.rowGuarded_ok sound.globals memory.rows memory.globals bound
  have spatial := Rows.rowGuarded_ok sound.spatial memory.rows memory.spatial bound
  have size : requireImplicit (decide (q.globals.size = (p.globals.slice r).size)) = .ok () := by
    rw [requireImplicit_ok_iff, Rows.size_slice sound.globals bound, takes.globals]
    exact decide_eq_true rfl
  simp only [loadRowGuarded, loadRow, globals, spatial, size, Rows.row_ok sound.spatial bound,
    ok_bind, Tensor.copyToCanonicalGuarded_eq]

/-- Writing rows to an allocated pool needs no guard. The induction is on the rows: a row
is in order once it is checked, and writing it keeps the pool allocated. -/
theorem loadRowsGuarded_eq (allocated : p.Allocated) (board : h.board = p.shape.board) (r : Nat)
    (pairs : List (Request × Evaluation)) (room : r + pairs.length ≤ p.capacity) :
    h.loadRowsGuarded (.dense h.board p.shape.spatial h.inputsChannelLast, p.shape.layout) r pairs
      p = h.loadRows r pairs p := by
  induction pairs generalizing r p with
  | nil => rfl
  | cons pair rest inductionHypothesis =>
    obtain ⟨q, out⟩ := pair
    simp only [List.length_cons] at room
    have bound : r < p.capacity := by omega
    simp only [loadRowsGuarded, loadRows]
    cases checked : h.checkRow p r q out with
    | error broken => rfl
    | ok u =>
      obtain ⟨_, takes⟩ := checkRow_takes board checked
      simp only [loadRowGuarded_eq allocated bound takes]
      cases written : h.loadRow p r q with
      | error broken => rfl
      | ok p' =>
        obtain ⟨sound, alike⟩ := loadRow_sound allocated.sound written
        have later := inductionHypothesis (allocated.of_alike sound alike)
          (by rw [alike.shape]; exact board) (r + 1) (by rw [alike.capacity]; omega)
        rwa [alike.shape] at later

/-- Packing a batch into an allocated pool needs no guard. -/
theorem loadGuarded_eq (allocated : p.Allocated) (requests : List Request)
    (outputs : List Evaluation) :
    h.loadGuarded p requests outputs = h.load p requests outputs := by
  unfold loadGuarded load
  cases checked : h.checkBatch p requests.length outputs.length with
  | error broken => rfl
  | ok u =>
    obtain ⟨board, room⟩ := checked_batch checked
    obtain ⟨rows, cells, _⟩ := Extent.playable_cells allocated.memory.board
    have layouts : h.layoutsGuarded p =
        .ok (.dense h.board p.shape.spatial h.inputsChannelLast, p.shape.layout) := by
      simp only [layoutsGuarded, board,
        PoolShape.dense_inWord allocated.sound.fit rows cells h.inputsChannelLast,
        PoolShape.layout_inWord allocated.sound.fit rows, ok_bind]
      rfl
    simp only [layouts]
    exact loadRowsGuarded_eq allocated board 0 _ room

end Handle

end BoardEval
