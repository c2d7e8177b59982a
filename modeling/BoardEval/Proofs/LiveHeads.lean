import BoardEval.Proofs.Batches

/-!
# What of the heads is read

Decoding reads little of what a forward pass fills: the live window of each policy
plane, the live window of the first ownership plane where ownership is wanted, the
pass and value slots, and as many score slots as the version has. Two rows that agree
there are decoded to one evaluation. Therefore nothing that a pass writes elsewhere
reaches a caller: not in the padding of the planes, not in further ownership planes,
not in the other score slots.
-/

namespace BoardEval

/-- The number of score slots that a version has in use; they are the first ones. -/
def ScoreStatistics.liveSlots (version : Int) : Nat :=
  if version < 4 then 1 else if version < 8 then 2 else if version < 9 then 3 else 6

/-- The table of a version reads its live slots only. -/
theorem ScoreStatistics.table_congr (version : Int) (left right : Tensor)
    (agree : ∀ k < liveSlots version, left.valueAt k = right.valueAt k) :
    table version left = table version right := by
  unfold table
  unfold liveSlots at agree
  by_cases early : version < 4
  · simp only [if_pos early] at agree ⊢
    rw [agree 0 (by omega)]
  by_cases middle : version < 8
  · simp only [if_neg early, if_pos middle] at agree ⊢
    rw [agree 0 (by omega), agree 1 (by omega)]
  by_cases late : version < 9
  · simp only [if_neg early, if_neg middle, if_pos late] at agree ⊢
    rw [agree 0 (by omega), agree 1 (by omega), agree 2 (by omega)]
  · simp only [if_neg early, if_neg middle, if_neg late] at agree ⊢
    rw [agree 0 (by omega), agree 1 (by omega), agree 2 (by omega), agree 3 (by omega),
      agree 4 (by omega), agree 5 (by omega)]

/-- Two rows of the heads agree wherever they are live: in the window of every policy
plane, in the pass and value slots, in the score slots of the version, and, for an
evaluation with ownership, in the window of the first ownership plane. -/
structure HeadRow.LiveEq (s : PoolShape) (version : Int) (withOwnership : Bool)
    (left right : HeadRow) : Prop where
  policy : ∀ c < s.policy, ∀ y < s.board.height, ∀ x < s.board.width,
    let place := (c * s.plane.height + y) * s.plane.width + x
    left.policy.valueAt place = right.policy.valueAt place
  pass : ∀ c < s.policy, left.pass.valueAt c = right.pass.valueAt c
  value : ∀ k < valueSlots, left.value.valueAt k = right.value.valueAt k
  ownership : withOwnership = true → ∀ y < s.board.height, ∀ x < s.board.width,
    let place := y * s.plane.width + x
    left.ownership.valueAt place = right.ownership.valueAt place
  score : ∀ k < ScoreStatistics.liveSlots version, left.score.valueAt k = right.score.valueAt k

namespace PoolShape

variable {s : PoolShape} {version : Int} {withOwnership : Bool} {left right : HeadRow}
  (live : HeadRow.LiveEq s version withOwnership left right)
include live

/-- The policy at a cell of the board reads the window of the first plane, or of the
first two. -/
theorem policyAt_congr (policy : s.policy = 1 ∨ s.policy = 2) (optimism : Number.Double)
    {cell : Nat × Nat} (row : cell.1 < s.board.height) (column : cell.2 < s.board.width) :
    s.policyAt optimism left cell = s.policyAt optimism right cell := by
  have base : left.policy.valueAt (cell.1 * s.plane.width + cell.2) =
      right.policy.valueAt (cell.1 * s.plane.width + cell.2) := by
    have first := live.policy 0 (by omega) cell.1 row cell.2 column
    rwa [Nat.zero_mul, Nat.zero_add] at first
  simp only [policyAt]
  split
  · exact base
  · rename_i several
    have place : (1 * s.plane.height + cell.1) * s.plane.width + cell.2 =
        s.plane.cells + (cell.1 * s.plane.width + cell.2) := by
      rw [Nat.one_mul, Nat.add_mul, Nat.add_assoc, Extent.cells, Nat.mul_comm s.plane.height]
    have optimistic := live.policy 1 (by omega) cell.1 row cell.2 column
    rw [place] at optimistic
    rw [base, optimistic]

/-- The pass value is decoded from live slots only: a second policy channel is read
only where there is one. -/
theorem passOf_congr (policy : s.policy = 1 ∨ s.policy = 2) (optimism : Number.Double) :
    s.passOf optimism left = s.passOf optimism right := by
  have base := live.pass 0 (by omega)
  unfold passOf
  split
  · exact base
  · rename_i several
    rw [base, live.pass 1 (by omega)]

/-- Rows that agree where they are live have the same evaluations. The symmetry of the
request keeps every cell that is read on the board. -/
theorem Decoded.of_liveEq (policy : s.policy = 1 ∨ s.policy = 2) {q : Request} {e : Evaluation}
    (decoded : s.Decoded version q withOwnership right e) :
    s.Decoded version q withOwnership left e where
  extent := decoded.extent
  policySize := decoded.policySize
  policy y row x column := by
    obtain ⟨imageRow, imageColumn⟩ := q.symmetry.cell_inside s.board y x row column
    rw [policyAt_congr live policy q.optimism imageRow imageColumn]
    exact decoded.policy y row x column
  pass := by
    rw [passOf_congr live policy q.optimism]
    exact decoded.pass
  present := decoded.present
  ownership map given := by
    have wanted : withOwnership = true := by
      rw [← decoded.present, given]
      rfl
    obtain ⟨size, values⟩ := decoded.ownership map given
    refine ⟨size, ?_⟩
    intro y row x column
    obtain ⟨imageRow, imageColumn⟩ := q.symmetry.cell_inside s.board y x row column
    rw [values y row x column]
    exact (live.ownership wanted _ imageRow _ imageColumn).symm
  win := decoded.win.trans (live.value 0 (by decide)).symm
  loss := decoded.loss.trans (live.value 1 (by decide)).symm
  noResult := decoded.noResult.trans (live.value 2 (by decide)).symm
  score := decoded.score.trans (ScoreStatistics.table_congr version _ _ live.score).symm

end PoolShape

namespace Handle

variable {h : Handle}

/-- Two runs of a forward pass on one batch end alike and agree wherever the rows of
the batch are live. What is alive in a row depends on the evaluation that it goes to. -/
structure LiveAlike (h : Handle) (outputs : List Evaluation) (left right : BatchRun) : Prop where
  result : left.result = right.result
  leftShaped : left.outputs.Shaped h.shape outputs.length
  rightShaped : right.outputs.Shaped h.shape outputs.length
  rows : ∀ i out, outputs[i]? = some out →
    HeadRow.LiveEq h.shape h.model.version out.ownership.isSome
      (left.outputs.row i) (right.outputs.row i)

/-- Networks whose answers agree wherever an evaluation reads them are alike on every
batch. -/
theorem liveAlike_ofRows {outputs : List Evaluation} {net other : RowNet}
    (full : net.Fills h.shape) (otherFull : other.Fills h.shape)
    (agree : ∀ out ∈ outputs, ∀ spatial globals, HeadRow.LiveEq h.shape h.model.version
      out.ownership.isSome (net spatial globals) (other spatial globals))
    (inputs : BatchInputs) (slots slots' : BatchOutputs) :
    h.LiveAlike outputs (Forward.ofRows h.shape net inputs slots outputs.length)
      (Forward.ofRows h.shape other inputs slots' outputs.length) where
  result := rfl
  leftShaped := RowNet.answer_shaped full inputs _
  rightShaped := RowNet.answer_shaped otherFull inputs _
  rows i out given := by
    obtain ⟨inside, _⟩ := List.getElem?_eq_some_iff.mp given
    simp only [Forward.ofRows, BatchRun.ok, RowNet.answer_row full inputs inside,
      RowNet.answer_row otherFull inputs inside]
    exact agree out (List.mem_of_getElem? given) _ _

/-- Two engines whose runs on a batch of valid requests agree on everything that is
alive lead to the same evaluations and the same result, on whatever pools of the
handle, and whatever they write elsewhere.

Proof: both batches end alike. If they are decoded, the clauses of either decoding
mention live slots only, so each evaluation is also the decoding of the other heads,
of which there is one. -/
theorem dead_heads_unread {ε : Type} [Engine ε] (h : Handle) (first second : ε) (p q : Pool)
    (ownedFirst : h.Owns p) (ownedSecond : h.Owns q) (requests : List Request)
    (admitted : h.Admits requests) (outputs : List Evaluation)
    (count : outputs.length = requests.length) (roomy : ∀ out ∈ outputs, out.Roomy h.shape)
    (alike : h.LiveAlike outputs (h.ran (h.forward first) p requests outputs)
      (h.ran (h.forward second) q requests outputs)) :
    (h.execute first p requests outputs).outputs =
        (h.execute second q requests outputs).outputs ∧
      (h.execute first p requests outputs).result =
        (h.execute second q requests outputs).result := by
  have loaded := load_ok ownedFirst.fitted admitted count roomy
  have loaded' := load_ok ownedSecond.fitted admitted count roomy
  cases ended : (h.ran (h.forward first) p requests outputs).result with
  | error failure =>
    have ended' := alike.result.symm.trans ended
    simp only [execute, execute_failed loaded ended, execute_failed loaded' ended', and_self]
  | ok u =>
    have ended' := alike.result.symm.trans ended
    obtain ⟨result, length, rows⟩ := execute_ok ownedFirst.fitted loaded roomy ended
      (count ▸ alike.leftShaped)
    obtain ⟨result', length', rows'⟩ := execute_ok ownedSecond.fitted loaded' roomy ended'
      (count ▸ alike.rightShaped)
    have policy : h.shape.policy = 1 ∨ h.shape.policy = 2 :=
      ownedFirst.fitted.shape ▸ ownedFirst.fitted.sound.fit.policy
    refine ⟨?_, result.trans result'.symm⟩
    apply List.ext_getElem?
    intro i
    by_cases inside : i < requests.length
    · have listed : requests[i]? = some requests[i] := List.getElem?_eq_getElem inside
      obtain ⟨out, given⟩ : ∃ out, outputs[i]? = some out :=
        ⟨_, List.getElem?_eq_getElem (count ▸ inside)⟩
      obtain ⟨e, here, decoded⟩ := rows i _ _ listed given
      obtain ⟨e', here', decoded'⟩ := rows' i _ _ listed given
      have same := decoded.unique (decoded'.of_liveEq (alike.rows i _ given) policy)
      simp only [execute, here, here', same]
    · have beyond := Nat.le_of_not_lt inside
      simp only [execute, List.getElem?_eq_none (length ▸ beyond),
        List.getElem?_eq_none (length' ▸ beyond)]

/-- The echo network of the tiny handle with ones where nothing is alive: in the last
corner of each policy plane, in the score slots after the sixth, and, as long as no
ownership is wanted, in the whole ownership plane. -/
def tinyNoise : RowNet := fun spatial globals =>
  { RowNet.echo tiny.shape spatial globals with
    policy := ((Tensor.zeros 18).setIfInBounds 8 ⟨1⟩).setIfInBounds 17 ⟨1⟩
    ownership := Array.replicate 9 ⟨1⟩
    score := Tensor.zeros 6 ++ Array.replicate 4 ⟨1⟩ }

/-- The noisy network returns heads of the right widths. -/
theorem tinyNoise_fills : tinyNoise.Fills tiny.shape :=
  fun _ _ => ⟨rfl, Tensor.size_zeros _, rfl, rfl, rfl⟩

/-- The noisy network agrees with the echo wherever version 14 reads its heads
without ownership. -/
theorem tinyNoise_liveEq (spatial globals : Tensor) :
    HeadRow.LiveEq tiny.shape 14 false (RowNet.echo tiny.shape spatial globals)
      (tinyNoise spatial globals) where
  policy := by
    show ∀ c < 2, ∀ y < 2, ∀ x < 3, (Tensor.zeros 18).valueAt ((c * 3 + y) * 3 + x) =
      Tensor.valueAt (((Tensor.zeros 18).setIfInBounds 8 ⟨1⟩).setIfInBounds 17 ⟨1⟩)
        ((c * 3 + y) * 3 + x)
    decide
  pass _ _ := rfl
  value _ _ := rfl
  ownership := nofun
  score := by
    show ∀ k < 6, (Tensor.zeros 10).valueAt k =
      Tensor.valueAt (Tensor.zeros 6 ++ Array.replicate 4 ⟨1⟩) k
    decide

/-- The tiny handle, with evaluations that want no ownership, cannot tell the echo network
from the one with noise. -/
theorem dead_heads_unread_tiny :
    let p := Pool.blank tiny.shape "tiny" 2
    let requests := [Request.tiny .zero, Request.tiny .one]
    let outputs := [Evaluation.blank ⟨3, 2⟩ false, Evaluation.blank ⟨3, 2⟩ false]
    let noisy := HostEngine.running (.ofRows tiny.shape tinyNoise)
    tiny.Owns p ∧ tiny.Admits requests ∧ (∀ out ∈ outputs, out.Roomy tiny.shape) ∧
      tiny.LiveAlike outputs (tiny.ran (tiny.forward tinyEngine) p requests outputs)
        (tiny.ran (tiny.forward noisy) p requests outputs) ∧
      (tiny.execute tinyEngine p requests outputs).outputs =
        (tiny.execute noisy p requests outputs).outputs := by
  intro p requests outputs noisy
  have roomy : ∀ out ∈ outputs, out.Roomy tiny.shape := by
    intro out listed
    obtain rfl : out = Evaluation.blank ⟨3, 2⟩ false := by simpa [outputs] using listed
    exact ⟨rfl, Tensor.size_zeros _, nofun⟩
  have agrees : (tiny.forward noisy).Agrees (.ofRows tiny.shape tinyNoise) tiny.maxBatchSize :=
    noisy.forward_agrees tiny.model rfl rfl
  have alike : tiny.LiveAlike outputs (tiny.ran (tiny.forward tinyEngine) p requests outputs)
      (tiny.ran (tiny.forward noisy) p requests outputs) := by
    simp only [ran, tiny_agrees _ _ requests.length (Nat.le_refl 2),
      agrees _ _ requests.length (Nat.le_refl 2)]
    apply liveAlike_ofRows (RowNet.echo_fills _) tinyNoise_fills
    intro out listed spatial globals
    obtain rfl : out = Evaluation.blank ⟨3, 2⟩ false := by simpa [outputs] using listed
    exact tinyNoise_liveEq spatial globals
  exact ⟨tiny_owns, tiny_admits, roomy, alike,
    (dead_heads_unread tiny tinyEngine noisy p p tiny_owns tiny_owns requests tiny_admits outputs
      rfl roomy alike).1⟩

end Handle

end BoardEval
