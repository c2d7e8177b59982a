import BoardEval.Proofs.GuardedBatches

/-!
# Guarded decoding

Decoding a row with a guard on every step: the bounds of the row in each head, the cut of
the policy slots into cells and pass and of a policy row into its planes, the reads and
writes of the blend, the slots of the value and score heads, and the copies that turn a
plane back.

On a row of an allocated pool the guards change nothing, for any evaluation: one that lacks
room is refused with the same promise, and one whose ownership map is too short stops at the
same copy.
-/

namespace BoardEval

open Number (Single Double)

/-- Read the score slots, every step guarded. -/
def ScoreStatistics.ofSlotsGuarded (slots : Tensor) (version : Int) :
    Except Fault ScoreStatistics := do
  require (decide (6 ≤ slots.size))
    ("score block needs at least 6 slots, got " ++ toString slots.size)
  let mean ← slots.read 0
  let meanSquare ← if 4 ≤ version then slots.read 1 else pure (mean.mul mean)
  let lead ← if 8 ≤ version then slots.read 2 else pure mean
  if 9 ≤ version then
    return ⟨mean, meanSquare, lead, ← slots.read 3, ← slots.read 4, ← slots.read 5⟩
  else
    return ⟨mean, meanSquare, lead, .zero, .zero, .zero⟩

/-- A block that holds the slots of the latest version holds those of every version. -/
theorem ScoreStatistics.ofSlotsGuarded_eq (slots : Tensor) (version : Int) :
    ofSlotsGuarded slots version = ofSlots slots version := by
  unfold ofSlotsGuarded ofSlots
  by_cases enough : 6 ≤ slots.size
  · have slot {k : Nat} (early : k < 6) : slots.read k = .ok (slots.valueAt k) :=
      Tensor.read_ok (Nat.lt_of_lt_of_le early enough)
    simp only [enough, decide_true, require, if_true, ok_bind, slot, Nat.reduceLT]
    by_cases second : 4 ≤ version <;> by_cases third : 8 ≤ version <;>
      by_cases others : 9 ≤ version <;> simp only [second, third, others, if_true, if_false] <;>
      rfl
  · simp only [enough, decide_false, require, Bool.false_eq_true, if_false, error_bind]

namespace Pool

/-- Blend the policy of every cell into a dense plane, every step guarded. -/
def blendGuarded (s : PoolShape) (base optimistic : Tensor) (optimism : Double) (plane : Tensor) :
    Except Fault Tensor :=
  s.board.positions.foldlM (fun out (cell : Nat × Nat) => do
    let source ← s.layout.indexGuarded (0, cell.1, cell.2)
    let value := blend (← base.read source) (← optimistic.read source) optimism
    out.put (← (Layout.channelFirst s.board).indexGuarded (0, cell.1, cell.2)) value) plane

/-- Write the policy of every cell and of the pass, every step guarded. -/
def decodePolicyGuarded (p : Pool) (r : Nat) (request : Request) (out : Evaluation) :
    Except Fault (Pool × Evaluation) := do
  let cells := p.shape.plane.cells
  let start ← productInWord (← productInWord r cells) p.shape.policy
  let stop ← sumInWord start (← productInWord cells p.shape.policy)
  let policy ← p.policy.data.range start stop
  let pass ← p.pass.rowGuarded r
  let padded ← p.shape.layout.inWord
  let dense ← (Layout.channelFirst p.shape.board).inWord
  let (cellPart, passPart) ← out.policy.cut p.shape.board.cells
  if p.shape.policy = 1 then
    let passPart ← passPart.put 0 (← pass.read 0)
    let turned ← Tensor.copyFromCanonicalGuarded policy padded cellPart dense 1 request.symmetry
    return (p, { out with policy := turned ++ passPart })
  else
    let (base, optimistic) ← policy.cut cells
    let plane ← blendGuarded p.shape base optimistic request.optimism (← p.blended.rowGuarded r)
    let blended := blend (← pass.read 0) (← pass.read 1) request.optimism
    let passPart ← passPart.put 0 blended
    let turned ← Tensor.copyFromCanonicalGuarded plane dense cellPart dense 1 request.symmetry
    return (p.setBlendedRow r plane, { out with policy := turned ++ passPart })

/-- Write win, loss and no result, every step guarded. -/
def decodeValueGuarded (p : Pool) (r : Nat) (out : Evaluation) : Except Fault Evaluation := do
  let row ← p.value.rowGuarded r
  return { out with win := ← row.read 0, loss := ← row.read 1, noResult := ← row.read 2 }

/-- Write the ownership of every cell, every step guarded. -/
def decodeOwnershipGuarded (p : Pool) (r : Nat) (s : Symmetry) (out : Evaluation) :
    Except Fault Evaluation :=
  match out.ownership with
  | none => .ok out
  | some map => do
    let dense ← (Layout.channelFirst p.shape.board).inWord
    let row ← p.ownership.rowGuarded r
    let padded ← p.shape.layout.inWord
    let turned ← Tensor.copyFromCanonicalGuarded row padded map dense 1 s
    return { out with ownership := some turned }

/-- Write the score statistics, every step guarded. A row has all the slots. -/
def decodeScoreGuarded (p : Pool) (r : Nat) (version : Int) (out : Evaluation) :
    Except Fault Evaluation := do
  let row ← p.score.rowGuarded r
  requireImplicit (decide (row.size = scoreSlots))
  return { out with score := ← ScoreStatistics.ofSlotsGuarded row version }

/-- The promises of a decoding, where the number of policy slots has to be one of a machine
word. -/
def checkRoomGuarded (p : Pool) (out : Evaluation) : Except Fault Unit := do
  let board := p.shape.board
  require (out.extent = board)
    ("output extent " ++ out.extent.text ++ " does not match buffer extent " ++ board.text)
  let slots ← sumInWord (← board.cellsInWord) 1
  require (out.policy.size == slots) "policy array must hold every cell plus the pass slot"

/-- Write every part of an evaluation, every step guarded. -/
def decodeRowGuarded (p : Pool) (r : Nat) (request : Request) (out : Evaluation) (version : Int) :
    Pool × Evaluation × Except Fault Unit :=
  match p.checkRoomGuarded out with
  | .error broken => (p, out, .error broken)
  | .ok () =>
    match p.decodePolicyGuarded r request out with
    | .error broken => (p, out, .error broken)
    | .ok (p, out) =>
      (p, writeParts out [p.decodeValueGuarded r, p.decodeOwnershipGuarded r request.symmetry,
        p.decodeScoreGuarded r version])

variable {p : Pool}

/-- The numbers of values that decoding asks for can be computed in a word, so
guarding them changes nothing. -/
theorem checkRoomGuarded_eq (allocated : p.Allocated) (out : Evaluation) :
    p.checkRoomGuarded out = p.checkRoom out := by
  obtain ⟨_, _, few⟩ := Extent.playable_cells allocated.memory.board
  have word : p.shape.board.cells + 1 < wordLimit := by
    unfold wordLimit
    omega
  have cells : p.shape.board.cellsInWord = .ok p.shape.board.cells :=
    fitsWord_ok (Nat.lt_of_succ_lt word)
  simp only [checkRoomGuarded, checkRoom, cells, sumInWord_ok word, ok_bind]

/-- Blending two planes of a fitting shape needs no guard. The planes are the two halves of
a policy row. -/
theorem blendGuarded_ok (fit : p.shape.Fit) (row : Tensor) (optimism : Double) (plane : Tensor)
    (full : row.size = 2 * p.shape.plane.cells) (size : plane.size = p.shape.board.cells) :
    blendGuarded p.shape (row.extract 0 p.shape.plane.cells)
        (row.extract p.shape.plane.cells row.size) optimism plane =
      .ok (plane.write (blendWrites p.shape row optimism)) := by
  have window := PoolShape.window_room fit
  have dense := p.shape.dense_room
  have baseSize : (row.extract 0 p.shape.plane.cells).size = p.shape.plane.cells := by
    rw [Array.size_extract]
    omega
  have optimisticSize :
      (row.extract p.shape.plane.cells row.size).size = p.shape.plane.cells := by
    rw [Array.size_extract]
    omega
  apply Tensor.foldlM_put
  rintro ⟨y, x⟩ listed out outSize
  obtain ⟨rows, columns⟩ := (p.shape.board.mem_positions y x).mp listed
  obtain ⟨source, inside⟩ := Tensor.indexGuarded_ok (l := p.shape.layout) (e := p.shape.board) rfl
    (Nat.lt_of_le_of_lt window fit.planeWord) (baseSize ▸ window) Nat.zero_lt_one rows columns
  obtain ⟨target, room⟩ := Tensor.indexGuarded_ok (l := .channelFirst p.shape.board)
    (e := p.shape.board) (t := out) rfl (Nat.lt_of_le_of_lt dense fit.cellsWord)
    (by rw [outSize, size]; exact dense) Nat.zero_lt_one rows columns
  have base := Tensor.read_ok inside
  have optimistic := Tensor.read_ok (optimisticSize.symm ▸ baseSize ▸ inside)
  rw [baseSize] at inside
  rw [Tensor.value_extract _ _ _ _ (by omega), Nat.zero_add] at base
  rw [Tensor.value_extract _ _ _ _ (by omega)] at optimistic
  simp only [source, target, base, optimistic, ok_bind]
  exact Tensor.put_ok room _

section

variable (allocated : p.Allocated) {r : Nat} (bound : r < p.capacity)
include allocated bound

/-- The bounds of a policy row, computed as products over planes and channels, are those of
the row. -/
theorem policyRange_ok :
    productInWord r p.shape.plane.cells = .ok (r * p.shape.plane.cells) ∧
    productInWord (r * p.shape.plane.cells) p.shape.policy = .ok (r * p.shape.policyWidth) ∧
    productInWord p.shape.plane.cells p.shape.policy = .ok p.shape.policyWidth ∧
    sumInWord (r * p.shape.policyWidth) p.shape.policyWidth = .ok ((r + 1) * p.shape.policyWidth) ∧
    p.policy.data.range (r * p.shape.policyWidth) ((r + 1) * p.shape.policyWidth) =
      .ok (p.heads r).policy := by
  obtain ⟨sound, memory⟩ := allocated
  obtain ⟨planes, start⟩ := PoolShape.planes_inWord sound.fit memory (Nat.le_of_lt bound)
  have last := Tensor.row_bound p.shape.policyWidth bound
  have all := memory.policy
  have next : (r + 1) * p.shape.policyWidth = r * p.shape.policyWidth + p.shape.policyWidth :=
    Nat.succ_mul _ _
  have width : productInWord p.shape.plane.cells p.shape.policy = .ok p.shape.policyWidth :=
    productInWord_ok (show p.shape.policyWidth < wordLimit by omega)
  refine ⟨planes, start, width, next ▸ sumInWord_ok (by omega), ?_⟩
  rw [Tensor.range_ok (by omega) (by rw [sound.policy.size]; exact last)]
  simp only [heads, Rows.slice, Tensor.rowAt, sound.policy.width]

/-- Decoding a policy for which there is room needs no guard. -/
theorem decodePolicyGuarded_eq (q : Request) (out : Evaluation)
    (slots : out.policy.size = p.shape.board.cells + 1) :
    p.decodePolicyGuarded r q out = p.decodePolicy r q out := by
  obtain ⟨planes, start, width, stop, policy⟩ := policyRange_ok allocated bound
  obtain ⟨sound, memory⟩ := allocated
  obtain ⟨policyRow, passRow, _⟩ := heads_ok sound bound
  obtain ⟨policySize, _⟩ := size_heads sound bound
  obtain ⟨rows, _, _⟩ := Extent.playable_cells memory.board
  have pass : p.pass.rowGuarded r = .ok (p.heads r).pass :=
    Rows.rowGuarded_ok sound.pass memory.rows memory.pass bound
  have passSize : (p.heads r).pass.size = p.shape.policy := Rows.size_slice sound.pass bound
  have cut := Tensor.cut_ok (show p.shape.board.cells ≤ out.policy.size by omega)
  have last : (out.policy.extract p.shape.board.cells out.policy.size).size = 1 := by
    rw [Array.size_extract]
    omega
  have put (value : Single) := Tensor.put_ok (show 0 < _ from last ▸ Nat.zero_lt_one) value
  obtain ⟨cellsRoom, passRoom⟩ := policySlots_ok slots
  simp only [decodePolicyGuarded, decodePolicy, planes, start, width, stop, policy, pass,
    PoolShape.layout_inWord sound.fit rows, PoolShape.channelFirst_inWord sound.fit rows, cut,
    policyRow, passRow, cellsRoom, passRoom, ok_bind, Tensor.copyFromCanonicalGuarded_eq]
  rcases sound.fit.policy with single | double
  · have slot : (p.heads r).pass.read 0 = .ok ((p.heads r).pass.valueAt 0) :=
      Tensor.read_ok (by rw [passSize]; omega)
    simp only [single, if_true, slot, put, ok_bind]
  · have full : (p.heads r).policy.size = 2 * p.shape.plane.cells := by
      rw [policySize, PoolShape.policyWidth, double, Nat.mul_comm]
    have slot {k : Nat} (early : k < 2) :
        (p.heads r).pass.read k = .ok ((p.heads r).pass.valueAt k) :=
      Tensor.read_ok (by rwa [passSize, double])
    have halves := Tensor.cut_ok (show p.shape.plane.cells ≤ (p.heads r).policy.size by omega)
    have scratch := Rows.rowGuarded_ok sound.blended memory.rows memory.blended bound
    have blended := blendGuarded_ok sound.fit _ q.optimism _ full
      (Rows.size_slice sound.blended bound)
    have blends : ¬p.shape.policy = 1 := by omega
    simp only [blends, if_false, halves, scratch, blended, slot Nat.zero_lt_two,
      slot Nat.one_lt_two, put, blendRow, Rows.row_ok sound.blended bound, ok_bind]
    rfl

/-- Decoding the other heads needs no guard. -/
theorem decodeValueGuarded_eq : p.decodeValueGuarded r = p.decodeValue r := by
  obtain ⟨sound, memory⟩ := allocated
  have row := Rows.rowGuarded_ok sound.value memory.rows memory.value bound
  have slot {k : Nat} (early : k < valueSlots) :
      (p.value.slice r).read k = .ok ((p.value.slice r).valueAt k) :=
    Tensor.read_ok (by rwa [Rows.size_slice sound.value bound])
  funext out
  simp only [decodeValueGuarded, decodeValue, row, Rows.row_ok sound.value bound, ok_bind,
    slot (show 0 < valueSlots by decide), slot (show 1 < valueSlots by decide),
    slot (show 2 < valueSlots by decide)]

/-- No guard fires while ownership is decoded, wanted or not. -/
theorem decodeOwnershipGuarded_eq (s : Symmetry) :
    p.decodeOwnershipGuarded r s = p.decodeOwnership r s := by
  obtain ⟨sound, memory⟩ := allocated
  obtain ⟨rows, _, _⟩ := Extent.playable_cells memory.board
  have row := Rows.rowGuarded_ok sound.ownership memory.rows memory.ownership bound
  funext ⟨_, _, _, _, _, ownership, _⟩
  cases ownership with
  | none => rfl
  | some map =>
    simp only [decodeOwnershipGuarded, decodeOwnership, row, Rows.row_ok sound.ownership bound,
      PoolShape.layout_inWord sound.fit rows, PoolShape.channelFirst_inWord sound.fit rows,
      ok_bind, Tensor.copyFromCanonicalGuarded_eq]

/-- No guard fires while scores are decoded, whichever table the version has. -/
theorem decodeScoreGuarded_eq (version : Int) :
    p.decodeScoreGuarded r version = p.decodeScore r version := by
  obtain ⟨sound, memory⟩ := allocated
  have row := Rows.rowGuarded_ok sound.score memory.rows memory.score bound
  have size : requireImplicit (decide ((p.score.slice r).size = scoreSlots)) = .ok () := by
    rw [requireImplicit_ok_iff, Rows.size_slice sound.score bound]
    rfl
  funext out
  simp only [decodeScoreGuarded, decodeScore, row, size, Rows.row_ok sound.score bound, ok_bind,
    ScoreStatistics.ofSlotsGuarded_eq]

/-- Decoding a row of an allocated pool needs no guard. -/
theorem decodeRowGuarded_eq (q : Request) (out : Evaluation) (version : Int) :
    p.decodeRowGuarded r q out version = p.decodeRow r q out version := by
  unfold decodeRowGuarded decodeRow
  rw [checkRoomGuarded_eq allocated]
  cases checked : p.checkRoom out with
  | error broken => rfl
  | ok u =>
    obtain ⟨_, slots⟩ := (checkRoom_ok_iff out u).mp checked
    obtain ⟨after, keeps, decoded⟩ := decodePolicy_ok allocated.sound bound q out slots
    have afterwards := allocated.of_alike keeps.sound keeps.alike
    have bound' : r < after.capacity := keeps.alike.capacity ▸ bound
    simp only [decodePolicyGuarded_eq allocated bound q out slots, decoded,
      decodeValueGuarded_eq afterwards bound', decodeOwnershipGuarded_eq afterwards bound',
      decodeScoreGuarded_eq afterwards bound']

end

end Pool

namespace Handle

/-- Decode rows from row `r` on, every step guarded. -/
def decodeRowsGuarded (version : Int) :
    Nat → List (Request × Evaluation) → Pool → Pool × List Evaluation × Except Fault Unit
  | _, [], p => (p, [], .ok ())
  | r, (request, out) :: rest, p =>
    match p.decodeRowGuarded r request out version with
    | (p, out, .error broken) => (p, out :: rest.map (·.2), .error broken)
    | (p, out, .ok ()) =>
      let (p, outs, result) := decodeRowsGuarded version (r + 1) rest p
      (p, out :: outs, result)

/-- Decoding rows of an allocated pool needs no guard. The induction is on the rows; decoding
one of them keeps the pool allocated. -/
theorem decodeRowsGuarded_eq {p : Pool} (allocated : p.Allocated) (version : Int) (r : Nat)
    (pairs : List (Request × Evaluation)) (room : r + pairs.length ≤ p.capacity) :
    decodeRowsGuarded version r pairs p = decodeRows version r pairs p := by
  induction pairs generalizing r p with
  | nil => rfl
  | cons pair rest inductionHypothesis =>
    obtain ⟨q, out⟩ := pair
    simp only [List.length_cons] at room
    have bound : r < p.capacity := by omega
    have keeps := Pool.decodeRow_keeps allocated.sound bound q out version
    simp only [decodeRowsGuarded, decodeRows, Pool.decodeRowGuarded_eq allocated bound]
    generalize p.decodeRow r q out version = decoded at keeps
    obtain ⟨after, e, result⟩ := decoded
    cases result with
    | error broken => rfl
    | ok u =>
      have later := inductionHypothesis (allocated.of_alike keeps.sound keeps.alike) (r + 1)
        (by rw [keeps.alike.capacity]; omega)
      simp only [later]

end Handle

end BoardEval
