import BoardEval.Decode
import BoardEval.Proofs.Pools

/-!
# What a decoded row is

`Decoded` says field by field what the evaluation of a request is, given one row
of every head: values of the live window at the images of the cells, the first
slots of the value head, and the score slots by the table of the version. These
clauses fix the evaluation completely.

Decoding a row of a sound pool into an evaluation with the right room always
succeeds and gives that evaluation. In every case, the result depends on the pool
through its shape and that row of its heads only: the plane in which a policy is
blended is written in full before it is read.
-/

namespace BoardEval

open Number (Single Double)

/-- The score statistics by version: the mean alone, then its second moment, then
the lead, then the three statistics that follow it. -/
def ScoreStatistics.table (version : Int) (slots : Tensor) : ScoreStatistics :=
  let slot := slots.valueAt
  if version < 4 then ⟨slot 0, (slot 0).mul (slot 0), slot 0, .zero, .zero, .zero⟩
  else if version < 8 then ⟨slot 0, slot 1, slot 0, .zero, .zero, .zero⟩
  else if version < 9 then ⟨slot 0, slot 1, slot 2, .zero, .zero, .zero⟩
  else ⟨slot 0, slot 1, slot 2, slot 3, slot 4, slot 5⟩

/-- Score slots are read by the table of the version. -/
theorem ScoreStatistics.ofSlots_ok (slots : Tensor) (version : Int) (enough : 6 ≤ slots.size) :
    ofSlots slots version = .ok (table version slots) := by
  have checked : require (decide (6 ≤ slots.size))
      ("score block needs at least 6 slots, got " ++ toString slots.size) = .ok () :=
    (require_ok_iff _ _ _).mpr (by simpa using enough)
  simp only [ofSlots, checked, ok_bind, pure, Except.pure, Except.ok.injEq, table]
  by_cases early : version < 4
  · rw [if_pos early, if_neg (by omega), if_neg (by omega), if_neg (by omega), if_neg (by omega),
      if_neg (by omega)]
  rw [if_neg early, if_pos (by omega)]
  by_cases middle : version < 8
  · rw [if_pos middle, if_neg (by omega), if_neg (by omega), if_neg (by omega), if_neg (by omega)]
  rw [if_neg middle, if_pos (by omega)]
  by_cases late : version < 9
  · rw [if_pos late, if_neg (by omega), if_neg (by omega), if_neg (by omega)]
  · rw [if_neg late, if_pos (by omega), if_pos (by omega), if_pos (by omega)]

namespace PoolShape

/-- The policy at a canonical cell: the base plane, or its blend with the
optimistic plane where there are two. -/
def policyAt (s : PoolShape) (optimism : Double) (heads : HeadRow) (cell : Nat × Nat) : Single :=
  let place := cell.1 * s.plane.width + cell.2
  if s.policy = 1 then heads.policy.valueAt place
  else blend (heads.policy.valueAt place) (heads.policy.valueAt (s.plane.cells + place)) optimism

/-- The policy of the pass, blended like that of a cell and not turned. -/
def passOf (s : PoolShape) (optimism : Double) (heads : HeadRow) : Single :=
  if s.policy = 1 then heads.pass.valueAt 0
  else blend (heads.pass.valueAt 0) (heads.pass.valueAt 1) optimism

/-- The ownership at a canonical cell, from the first ownership plane. -/
def ownershipAt (s : PoolShape) (heads : HeadRow) (cell : Nat × Nat) : Single :=
  heads.ownership.valueAt (cell.1 * s.plane.width + cell.2)

/-- The evaluation of a request, read off one row of every head. -/
structure Decoded (s : PoolShape) (version : Int) (q : Request) (withOwnership : Bool)
    (heads : HeadRow) (e : Evaluation) : Prop where
  extent : e.extent = s.board
  policySize : e.policy.size = s.board.cells + 1
  policy : ∀ y < s.board.height, ∀ x < s.board.width,
    e.policy.valueAt (y * s.board.width + x) =
      s.policyAt q.optimism heads (q.symmetry.cell s.board y x)
  pass : e.policy.valueAt s.board.cells = s.passOf q.optimism heads
  present : e.ownership.isSome = withOwnership
  ownership : ∀ map, e.ownership = some map → map.size = s.board.cells ∧
    ∀ y < s.board.height, ∀ x < s.board.width, map.valueAt (y * s.board.width + x) =
      s.ownershipAt heads (q.symmetry.cell s.board y x)
  win : e.win = heads.value.valueAt 0
  loss : e.loss = heads.value.valueAt 1
  noResult : e.noResult = heads.value.valueAt 2
  score : e.score = .table version heads.score

end PoolShape

/-- Every position of a dense plane is that of a cell. -/
theorem Extent.cell_of_place (e : Extent) {i : Nat} (inside : i < e.cells) :
    ∃ y < e.height, ∃ x < e.width, y * e.width + x = i := by
  have positive : 0 < e.width :=
    Nat.pos_of_ne_zero fun zero => by simp [Extent.cells, zero] at inside
  refine ⟨i / e.width, ?_, i % e.width, Nat.mod_lt _ positive, ?_⟩
  · rw [Nat.div_lt_iff_lt_mul positive, Nat.mul_comm]
    exact inside
  · rw [Nat.mul_comm]
    exact Nat.div_add_mod i e.width

/-- Two dense planes of a board are equal if they are at every cell. -/
theorem Tensor.ext_cells (left right : Tensor) (board : Extent) (leftSize : left.size = board.cells)
    (rightSize : right.size = board.cells)
    (same : ∀ y < board.height, ∀ x < board.width,
      left.valueAt (y * board.width + x) = right.valueAt (y * board.width + x)) : left = right := by
  apply ext_values left right (leftSize.trans rightSize.symm)
  intro i inside
  rw [leftSize] at inside
  obtain ⟨y, row, x, column, rfl⟩ := board.cell_of_place inside
  exact same y row x column

/-- The clauses of a decoded row fix the evaluation.

Proof: a policy slot is that of a cell or that of the pass, and a value of the
ownership map is that of a cell. Every other field is one number that a clause names. -/
theorem PoolShape.Decoded.unique {s : PoolShape} {version : Int} {q : Request}
    {withOwnership : Bool} {heads : HeadRow} {left right : Evaluation}
    (first : s.Decoded version q withOwnership heads left)
    (second : s.Decoded version q withOwnership heads right) : left = right := by
  have policySize := first.policySize.trans second.policySize.symm
  have policy : left.policy = right.policy := by
    apply Tensor.ext_values _ _ policySize
    intro i inside
    rw [first.policySize] at inside
    rcases Nat.lt_succ_iff_lt_or_eq.mp inside with cell | rfl
    · obtain ⟨y, row, x, column, rfl⟩ := Extent.cell_of_place s.board cell
      rw [first.policy y row x column, second.policy y row x column]
    · rw [first.pass, second.pass]
  have ownership : left.ownership = right.ownership := by
    have present := first.present.trans second.present.symm
    cases here : left.ownership with
    | none =>
      rw [here] at present
      cases there : right.ownership with
      | none => rfl
      | some map => simp [there] at present
    | some map =>
      rw [here] at present
      cases there : right.ownership with
      | none => simp [there] at present
      | some other =>
        obtain ⟨size, values⟩ := first.ownership map here
        obtain ⟨size', values'⟩ := second.ownership other there
        congr 1
        apply Tensor.ext_cells map other s.board size size'
        intro y row x column
        rw [values y row x column, values' y row x column]
  obtain ⟨_, _, _, _, _, _, _⟩ := left
  obtain ⟨_, _, _, _, _, _, _⟩ := right
  simp only [Evaluation.mk.injEq]
  exact ⟨first.extent.trans second.extent.symm, policy, first.win.trans second.win.symm,
    first.loss.trans second.loss.symm, first.noResult.trans second.noResult.symm, ownership,
    first.score.trans second.score.symm⟩

namespace PoolShape

variable {s : PoolShape}

/-- The policy planes of a row blended into one dense plane, in canonical
orientation. -/
def blendedPlane (s : PoolShape) (row : Tensor) (optimism : Double) : Tensor :=
  (Tensor.zeros s.board.cells).write (Pool.blendWrites s row optimism)

/-- What blending writes: at every cell of the board the blend of the two values
that the planes have there, and nothing outside of the board. -/
theorem mem_blendWrites (row : Tensor) (optimism : Double) (w : Nat × Single) :
    w ∈ Pool.blendWrites s row optimism ↔ ∃ y x, y < s.board.height ∧ x < s.board.width ∧
      w = ((Layout.channelFirst s.board).index 0 y x,
        blend (row.valueAt (s.layout.index 0 y x))
          (row.valueAt (s.plane.cells + s.layout.index 0 y x)) optimism) := by
  simp only [Pool.blendWrites, List.mem_map]
  constructor
  · rintro ⟨⟨y, x⟩, listed, rfl⟩
    obtain ⟨rows, columns⟩ := (s.board.mem_positions y x).mp listed
    exact ⟨y, x, rows, columns, rfl⟩
  · rintro ⟨y, x, rows, columns, rfl⟩
    exact ⟨(y, x), (s.board.mem_positions y x).mpr ⟨rows, columns⟩, rfl⟩

/-- Blending writes every value of its plane, so what the plane held before is
forgotten. -/
theorem write_blend (plane row : Tensor) (optimism : Double) (size : plane.size = s.board.cells) :
    plane.write (Pool.blendWrites s row optimism) = s.blendedPlane row optimism := by
  apply Tensor.write_congr
  · rw [size, Tensor.size_zeros]
  · intro i inside other
    rw [size] at inside
    obtain ⟨y, rows, x, columns, rfl⟩ := s.board.cell_of_place inside
    refine absurd ?_ (other _ ((mem_blendWrites row optimism _).mpr ⟨y, x, rows, columns, rfl⟩))
    simp [Layout.channelFirst_index]

/-- The blended plane covers the board, not the larger planes of the network. -/
@[simp] theorem size_blendedPlane (row : Tensor) (optimism : Double) :
    (s.blendedPlane row optimism).size = s.board.cells := by
  simp [blendedPlane]

/-- The blended plane holds at every cell the blend of the two planes there. -/
theorem value_blendedPlane (row : Tensor) (optimism : Double) {y x : Nat}
    (rows : y < s.board.height) (columns : x < s.board.width) :
    (s.blendedPlane row optimism).valueAt ((Layout.channelFirst s.board).index 0 y x) =
      blend (row.valueAt (s.layout.index 0 y x))
        (row.valueAt (s.plane.cells + s.layout.index 0 y x)) optimism := by
  apply Tensor.value_write
  · have bound := Layout.channelFirst_lt s.board Nat.zero_lt_one rows columns
    rw [Nat.one_mul] at bound
    rwa [Tensor.size_zeros]
  · exact ⟨_, (mem_blendWrites row optimism _).mpr ⟨y, x, rows, columns, rfl⟩, rfl⟩
  · intro w member place
    obtain ⟨y', x', rows', columns', rfl⟩ := (mem_blendWrites row optimism w).mp member
    obtain ⟨_, rfl, rfl⟩ :=
      Layout.channelFirst_injective s.board rows' columns' rows columns place
    rfl

/-- The canonical policy of a row and the layout it lies in: the base plane where it
is the only one, or the blended plane. -/
def canonicalPolicy (s : PoolShape) (optimism : Double) (heads : HeadRow) : Tensor × Layout :=
  if s.policy = 1 then (heads.policy, s.layout)
  else (s.blendedPlane heads.policy optimism, .channelFirst s.board)

/-- A plane of the window turned back to the orientation of a request. -/
def turnedBack (s : PoolShape) (q : Request) (plane : Tensor) (layout : Layout) (out : Tensor) :
    Tensor :=
  Tensor.move plane (Tensor.movesFromCanonical layout (.channelFirst s.board) 1 q.symmetry) out

/-- The policy slots of a decoded row. -/
def decodedPolicy (s : PoolShape) (q : Request) (heads : HeadRow) (slots : Tensor) : Tensor :=
  s.turnedBack q (s.canonicalPolicy q.optimism heads).1 (s.canonicalPolicy q.optimism heads).2
      (slots.extract 0 s.board.cells) ++
    (slots.extract s.board.cells slots.size).setIfInBounds 0 (s.passOf q.optimism heads)

/-- A dense plane of the board needs no more room than the cells of the board. -/
theorem dense_room (s : PoolShape) : (Layout.channelFirst s.board).required 1 ≤ s.board.cells := by
  have room := Layout.dense_required_le s.board 1 false
  rwa [Nat.one_mul] at room

/-- A plane of the shape holds the window. -/
theorem window_room (fit : s.Fit) : s.layout.required 1 ≤ s.plane.cells := by
  have room := Layout.padded_required_le fit.board 1
  rwa [Nat.one_mul] at room

/-- A turned plane has at every cell the value at the cell's canonical image. -/
theorem value_turnedBack (q : Request) (plane out : Tensor) {layout : Layout}
    (extent : layout.extent = s.board) (room : s.board.cells ≤ out.size) {y x : Nat}
    (rows : y < s.board.height) (columns : x < s.board.width) :
    (s.turnedBack q plane layout out).valueAt (y * s.board.width + x) =
      plane.valueAt (layout.index 0 (q.symmetry.cell s.board y x).1
        (q.symmetry.cell s.board y x).2) := by
  have value : (s.turnedBack q plane layout out).valueAt
      ((Layout.channelFirst s.board).index 0 y x) =
        plane.valueAt (layout.index 0 (q.symmetry.cell layout.extent y x).1
          (q.symmetry.cell layout.extent y x).2) :=
    Tensor.value_fromCanonical extent (Layout.channelFirst_separates s.board 1)
      (Nat.le_trans s.dense_room room) ⟨Nat.zero_lt_one, rows, columns⟩
  rwa [Layout.channelFirst_index, Nat.zero_mul, Nat.zero_add, extent] at value

/-- Turning a plane of the window back never breaks a promise if there is room for
every cell. -/
theorem turnBack_ok (fit : s.Fit) (q : Request) (plane out : Tensor) {layout : Layout}
    (known : layout = s.layout ∧ s.plane.cells ≤ plane.size ∨
      layout = .channelFirst s.board ∧ s.board.cells ≤ plane.size)
    (room : s.board.cells ≤ out.size) :
    Tensor.copyFromCanonical plane layout out (.channelFirst s.board) 1 q.symmetry =
      .ok (s.turnedBack q plane layout out) := by
  have dense := s.dense_room
  have window := window_room fit
  have word := fit.cellsWord
  have planeWord := fit.planeWord
  rcases known with ⟨rfl, size⟩ | ⟨rfl, size⟩
  · exact Tensor.copyFromCanonical_ok rfl (by omega) (by omega) (by omega) (by omega)
  · exact Tensor.copyFromCanonical_ok rfl (by omega) (by omega) (by omega) (by omega)

end PoolShape

namespace Pool

variable {p : Pool}

/-- Writing the blended row keeps a pool sound. -/
theorem setBlendedRow_sound (sound : p.Sound) (r : Nat) (plane : Tensor) :
    (p.setBlendedRow r plane).Sound :=
  { sound with blended := Rows.setRow_holds sound.blended r plane }

/-- One pool comes from another by work on its scratch plane alone. -/
structure Keeps (p p' : Pool) : Prop where
  sound : p'.Sound
  alike : p'.Alike p
  heads : ∀ i, p'.heads i = p.heads i

/-- A sound pool keeps itself. -/
theorem Keeps.refl (sound : p.Sound) : p.Keeps p := ⟨sound, .refl p, fun _ => rfl⟩

/-- What two steps keep one after the other, both keep. -/
theorem Keeps.trans {p' p'' : Pool} (first : p.Keeps p') (second : p'.Keeps p'') : p.Keeps p'' :=
  ⟨second.sound, second.alike.trans first.alike,
    fun i => (second.heads i).trans (first.heads i)⟩

/-- One slot for each cell and one for the pass can be cut apart. -/
theorem policySlots_ok {cells : Nat} {slots : Tensor} (room : slots.size = cells + 1) :
    requireImplicit (decide (cells ≤ slots.size)) = .ok () ∧
      requireImplicit (!(slots.extract cells slots.size).isEmpty) = .ok () := by
  simp [requireImplicit_ok_iff, room, Array.isEmpty_eq_false_iff, ← Array.size_eq_zero_iff]

section

variable (sound : p.Sound) {r : Nat} (bound : r < p.capacity)
include sound bound

/-- The heads of a row of a sound pool can be read. -/
theorem heads_ok : p.policy.row r = .ok (p.heads r).policy ∧ p.pass.row r = .ok (p.heads r).pass ∧
    p.value.row r = .ok (p.heads r).value ∧ p.ownership.row r = .ok (p.heads r).ownership ∧
    p.score.row r = .ok (p.heads r).score :=
  ⟨Rows.row_ok sound.policy bound, Rows.row_ok sound.pass bound, Rows.row_ok sound.value bound,
    Rows.row_ok sound.ownership bound, Rows.row_ok sound.score bound⟩

/-- They have the widths of the shape. -/
theorem size_heads : (p.heads r).policy.size = p.shape.policyWidth ∧
    (p.heads r).ownership.size = p.shape.ownershipWidth ∧
    (p.heads r).score.size = scoreSlots :=
  ⟨Rows.size_slice sound.policy bound, Rows.size_slice sound.ownership bound,
    Rows.size_slice sound.score bound⟩

/-- The policy is decoded whenever its slots are those of the board. -/
theorem decodePolicy_ok (q : Request) (out : Evaluation)
    (slots : out.policy.size = p.shape.board.cells + 1) :
    ∃ p', p.Keeps p' ∧ p.decodePolicy r q out =
      .ok (p', { out with policy := p.shape.decodedPolicy q (p.heads r) out.policy }) := by
  obtain ⟨policyRow, passRow, _⟩ := heads_ok sound bound
  obtain ⟨policySize, _⟩ := size_heads sound bound
  obtain ⟨cellsRoom, passRoom⟩ := policySlots_ok slots
  have room : p.shape.board.cells ≤ (out.policy.extract 0 p.shape.board.cells).size := by
    rw [Array.size_extract]
    omega
  simp only [decodePolicy, policyRow, passRow, cellsRoom, passRoom, ok_bind]
  by_cases single : p.shape.policy = 1
  · have planes : p.shape.plane.cells ≤ (p.heads r).policy.size :=
      Nat.le_of_eq (by rw [policySize, PoolShape.policyWidth, single, Nat.mul_one])
    have turned := PoolShape.turnBack_ok sound.fit q _ _ (.inl ⟨rfl, planes⟩) room
    refine ⟨p, .refl sound, ?_⟩
    simp only [single, if_true, turned, ok_bind, PoolShape.decodedPolicy,
      PoolShape.canonicalPolicy, PoolShape.passOf]
    rfl
  · have plane : p.blended.row r = .ok (p.blended.slice r) := Rows.row_ok sound.blended bound
    have blended := PoolShape.write_blend (s := p.shape) (p.blended.slice r) (p.heads r).policy
      q.optimism (Rows.size_slice sound.blended bound)
    have turned := PoolShape.turnBack_ok sound.fit q
      (p.shape.blendedPlane (p.heads r).policy q.optimism) _
      (.inr ⟨rfl, Nat.le_of_eq (PoolShape.size_blendedPlane _ _).symm⟩) room
    refine ⟨p.setBlendedRow r (p.shape.blendedPlane (p.heads r).policy q.optimism),
      ⟨setBlendedRow_sound sound r _, ⟨rfl, rfl, rfl⟩, fun _ => rfl⟩, ?_⟩
    simp only [single, if_false, blendRow, plane, ok_bind, blended, pure, Except.pure, turned,
      PoolShape.decodedPolicy, PoolShape.canonicalPolicy, PoolShape.passOf]

end

end Pool

namespace PoolShape

variable {s : PoolShape} {q : Request} {heads : HeadRow} {slots : Tensor}

/-- Where a cell of the first channel lies in padded planes. -/
theorem window_index (s : PoolShape) (y x : Nat) :
    s.layout.index 0 y x = y * s.plane.width + x := by
  rw [layout, Layout.padded_index, Layout.channelFirst_index, Nat.zero_mul, Nat.zero_add]

/-- The canonical policy stands in its plane cell by cell. -/
theorem value_canonicalPolicy (optimism : Double) {row column : Nat}
    (rows : row < s.board.height) (columns : column < s.board.width) :
    (s.canonicalPolicy optimism heads).1.valueAt
        ((s.canonicalPolicy optimism heads).2.index 0 row column) =
      s.policyAt optimism heads (row, column) := by
  unfold canonicalPolicy policyAt
  split
  · rw [window_index]
  · rw [value_blendedPlane _ _ rows columns, window_index]

/-- Without the place for the pass, policy slots cover the board. -/
theorem size_cellPart (room : slots.size = s.board.cells + 1) :
    (slots.extract 0 s.board.cells).size = s.board.cells := by
  rw [Array.size_extract]
  omega

/-- A decoded policy has one value for each cell and one for the pass. -/
theorem size_decodedPolicy (room : slots.size = s.board.cells + 1) :
    (s.decodedPolicy q heads slots).size = s.board.cells + 1 := by
  simp only [decodedPolicy, turnedBack, Array.size_append, Tensor.size_move, size_cellPart room,
    Array.size_setIfInBounds, Array.size_extract, room]
  omega

/-- The decoded policy of a cell is the canonical policy of its image. -/
theorem value_decodedPolicy (room : slots.size = s.board.cells + 1) {y x : Nat}
    (rows : y < s.board.height) (columns : x < s.board.width) :
    (s.decodedPolicy q heads slots).valueAt (y * s.board.width + x) =
      s.policyAt q.optimism heads (q.symmetry.cell s.board y x) := by
  obtain ⟨row, column⟩ := q.symmetry.cell_inside s.board y x rows columns
  have place : y * s.board.width + x < s.board.cells := by
    have last := Tensor.row_bound s.board.width rows
    rw [Nat.add_mul, Nat.one_mul, Nat.mul_comm s.board.height] at last
    unfold Extent.cells
    omega
  have extent : (s.canonicalPolicy q.optimism heads).2.extent = s.board := by
    unfold canonicalPolicy
    split <;> rfl
  rw [decodedPolicy, Tensor.value_append, turnedBack, Tensor.size_move, size_cellPart room,
    if_pos place, ← turnedBack, value_turnedBack q _ _ extent
      (Nat.le_of_eq (size_cellPart room).symm) rows columns,
    value_canonicalPolicy q.optimism row column]

/-- The slot after the cells is the pass. -/
theorem pass_decodedPolicy (room : slots.size = s.board.cells + 1) :
    (s.decodedPolicy q heads slots).valueAt s.board.cells = s.passOf q.optimism heads := by
  have passPart : (slots.extract s.board.cells slots.size).size = 1 := by
    rw [Array.size_extract]
    omega
  rw [decodedPolicy, Tensor.value_append, turnedBack, Tensor.size_move, size_cellPart room,
    if_neg (Nat.lt_irrefl _), Nat.sub_self, Tensor.value_set, if_pos ⟨rfl, by omega⟩]

end PoolShape

/-- An evaluation with room for a row of the shape. -/
structure Evaluation.Roomy (out : Evaluation) (s : PoolShape) : Prop where
  extent : out.extent = s.board
  policy : out.policy.size = s.board.cells + 1
  ownership : ∀ map, out.ownership = some map → map.size = s.board.cells

/-- Room made for a request is room for a row of its board. -/
theorem Evaluation.forRequest_roomy (s : PoolShape) (q : Request) (extent : q.extent = s.board) :
    (forRequest q).Roomy s := by
  refine ⟨extent, by simp [forRequest, blank, extent], ?_⟩
  intro map given
  cases wanted : q.wantsOwnership <;> simp [forRequest, blank, wanted, extent] at given
  rw [← given, Tensor.size_zeros]

/-- It has room for ownership exactly if the request asks for it. -/
theorem Evaluation.forRequest_present (q : Request) :
    (forRequest q).ownership.isSome = q.wantsOwnership := by
  cases wanted : q.wantsOwnership <;> simp [forRequest, blank, wanted]

namespace Pool

variable {p : Pool}

/-- The promises of a decoding are about the shape alone. -/
theorem checkRoom_ok_iff (out : Evaluation) (u : Unit) :
    p.checkRoom out = .ok u ↔
      out.extent = p.shape.board ∧ out.policy.size = p.shape.board.cells + 1 := by
  simp [checkRoom, bind_ok_iff]

/-- Decoding a row keeps a pool sound and its heads as they were. -/
theorem decodeRow_keeps (sound : p.Sound) {r : Nat} (bound : r < p.capacity) (q : Request)
    (out : Evaluation) (version : Int) : p.Keeps (p.decodeRow r q out version).1 := by
  unfold decodeRow
  cases checked : p.checkRoom out with
  | error broken => exact .refl sound
  | ok u =>
    obtain ⟨_, slots⟩ := (checkRoom_ok_iff out u).mp checked
    obtain ⟨p', keeps, decoded⟩ := decodePolicy_ok sound bound q out slots
    simpa only [decoded] using keeps

/-- What is decoded depends on the shape of the pool and on the row of its heads,
also where an evaluation lacks room and the decoding stops.

Proof: the policy is decoded first, in either pool from the same row of the same
heads, and leaves the heads as they are. The other parts read the heads that are left. -/
theorem decodeRow_congr {p' : Pool} (sound : p.Sound) (sound' : p'.Sound) (alike : p.Alike p')
    {r : Nat} (bound : r < p.capacity) (heads : p.heads r = p'.heads r) (q : Request)
    (out : Evaluation) (version : Int) :
    (p.decodeRow r q out version).2 = (p'.decodeRow r q out version).2 := by
  have bound' : r < p'.capacity := alike.capacity ▸ bound
  have sameRoom : p.checkRoom out = p'.checkRoom out := by simp only [checkRoom, alike.shape]
  unfold decodeRow
  rw [← sameRoom]
  cases checked : p.checkRoom out with
  | error broken => rfl
  | ok u =>
    obtain ⟨_, slots⟩ := (checkRoom_ok_iff out u).mp checked
    obtain ⟨after, keeps, decoded⟩ := decodePolicy_ok sound bound q out slots
    obtain ⟨after', keeps', decoded'⟩ :=
      decodePolicy_ok sound' bound' q out (by rwa [← alike.shape])
    have bounds : r < after.capacity := keeps.alike.capacity ▸ bound
    have bounds' : r < after'.capacity := keeps'.alike.capacity ▸ bound'
    have same : after.heads r = after'.heads r := by rw [keeps.heads, keeps'.heads, heads]
    have shape : after.shape = after'.shape := by
      rw [keeps.alike.shape, keeps'.alike.shape, alike.shape]
    obtain ⟨_, _, value, ownership, score⟩ := heads_ok keeps.sound bounds
    obtain ⟨_, _, value', ownership', score'⟩ := heads_ok keeps'.sound bounds'
    have values : after.decodeValue r = after'.decodeValue r := by
      funext e
      simp only [decodeValue, value, value', same]
    have ownerships : after.decodeOwnership r q.symmetry = after'.decodeOwnership r q.symmetry := by
      funext e
      simp only [decodeOwnership, ownership, ownership', same, shape]
    have scores : after.decodeScore r version = after'.decodeScore r version := by
      funext e
      simp only [decodeScore, score, score', same]
    simp only [decoded, decoded', alike.shape, heads, values, ownerships, scores]

/-- Win, loss and no result are the slots of the value head. -/
theorem decodeValue_ok (sound : p.Sound) {r : Nat} (bound : r < p.capacity) (out : Evaluation) :
    p.decodeValue r out = .ok { out with
      win := (p.heads r).value.valueAt 0, loss := (p.heads r).value.valueAt 1,
      noResult := (p.heads r).value.valueAt 2 } := by
  obtain ⟨_, _, value, _⟩ := heads_ok sound bound
  simp only [decodeValue, value, ok_bind]
  rfl

/-- The map of ownership, if there is one, is the first ownership plane turned
back. -/
theorem decodeOwnership_ok (sound : p.Sound) {r : Nat} (bound : r < p.capacity) (q : Request)
    (out : Evaluation) (room : ∀ map, out.ownership = some map → map.size = p.shape.board.cells) :
    p.decodeOwnership r q.symmetry out = .ok { out with
      ownership := out.ownership.map
        (p.shape.turnedBack q (p.heads r).ownership p.shape.layout) } := by
  obtain ⟨_, _, _, row, _⟩ := heads_ok sound bound
  obtain ⟨_, size, _⟩ := size_heads sound bound
  have planes : p.shape.plane.cells ≤ (p.heads r).ownership.size := by
    rw [size]
    exact Nat.le_mul_of_pos_left _ sound.fit.ownership
  obtain ⟨_, _, _, _, _, ownership, _⟩ := out
  cases ownership with
  | none => rfl
  | some map =>
    have turned := PoolShape.turnBack_ok sound.fit q _ map (.inl ⟨rfl, planes⟩)
      (Nat.le_of_eq (room map rfl).symm)
    simp only [decodeOwnership, row, ok_bind, turned, Option.map_some]
    rfl

/-- The score statistics are those of the table. -/
theorem decodeScore_ok (sound : p.Sound) {r : Nat} (bound : r < p.capacity) (version : Int)
    (out : Evaluation) :
    p.decodeScore r version out =
      .ok { out with score := .table version (p.heads r).score } := by
  obtain ⟨_, _, _, _, row⟩ := heads_ok sound bound
  obtain ⟨_, _, size⟩ := size_heads sound bound
  have statistics := ScoreStatistics.ofSlots_ok (p.heads r).score version (by rw [size]; decide)
  simp only [decodeScore, row, ok_bind, statistics]
  rfl

/-- A row is decoded in full if there is room for it. -/
theorem decodeRow_ok (sound : p.Sound) {r : Nat} (bound : r < p.capacity) (q : Request)
    {out : Evaluation} (roomy : out.Roomy p.shape) (version : Int) :
    ∃ e, (p.decodeRow r q out version).2 = (e, .ok ()) ∧
      p.shape.Decoded version q out.ownership.isSome (p.heads r) e := by
  have checked : p.checkRoom out = .ok () :=
    (checkRoom_ok_iff out ()).mpr ⟨roomy.extent, roomy.policy⟩
  obtain ⟨p', keeps, policy⟩ := decodePolicy_ok sound bound q out roomy.policy
  have bound' : r < p'.capacity := keeps.alike.capacity ▸ bound
  have ownership (e : Evaluation) (same : e.ownership = out.ownership) :=
    decodeOwnership_ok keeps.sound bound' q e
      (by rw [same, keeps.alike.shape]; exact roomy.ownership)
  simp only [decodeRow, checked, policy, writeParts, decodeValue_ok keeps.sound bound',
    ownership, decodeScore_ok keeps.sound bound', keeps.heads, keeps.alike.shape]
  refine ⟨_, rfl, ?_⟩
  constructor
  case extent => exact roomy.extent
  case policySize => exact PoolShape.size_decodedPolicy roomy.policy
  case policy =>
    intro y rows x columns
    exact PoolShape.value_decodedPolicy roomy.policy rows columns
  case pass => exact PoolShape.pass_decodedPolicy roomy.policy
  case present => exact Option.isSome_map
  case ownership =>
    intro map written
    obtain ⟨given, there, rfl⟩ := Option.map_eq_some_iff.mp written
    have size := roomy.ownership given there
    refine ⟨(Tensor.size_move _ _ _).trans size, ?_⟩
    intro y rows x columns
    rw [PoolShape.value_turnedBack q _ _ rfl (Nat.le_of_eq size.symm) rows columns,
      PoolShape.window_index]
    rfl
  all_goals rfl

end Pool

end BoardEval
