import BoardEval.Engine.Network
import BoardEval.Proofs.Forwards

/-!
# Networks as forward passes

A network is run on flat rows and writes its heads one after the other, each only if it has as
many values as its output rows. Whether it succeeds, and what it answers, depends on the inputs
alone: the output rows matter by their sizes, which the shape of the pool fixes. So a network
computes a function of the inputs of a batch, in either precision.
-/

namespace BoardEval

namespace Network

/-! ## Sizes of heads -/

/-- A head that is read has as many values as were expected. -/
theorem headValues_size {rank : Nat} {name : String} {head : ShapedTensor rank} {half : Bool}
    {expected : Nat} {values : Tensor}
    (read : headValues name head half expected = .ok values) : values.size = expected := by
  simp only [headValues] at read
  split at read
  · rename_i size
    obtain rfl := Except.ok.inj read
    exact size
  · exact nomatch read

/-- A row of a merged score head has ten scores, four from one block and six from the other. -/
theorem mergedRow_size {main more : Tensor} {rows r : Nat}
    (mainSize : main.size = rows * mainScoreSlots) (moreSize : more.size = rows * moreScoreSlots)
    (inside : r < rows) : (mergedRow main more r).size = scoreSlots := by
  have mainRow := Tensor.row_bound mainScoreSlots inside
  have moreRow := Tensor.row_bound moreScoreSlots inside
  simp only [mainScoreSlots, moreScoreSlots] at mainSize moreSize mainRow moreRow
  simp only [mergedRow, Array.size_append, Array.size_extract, mainScoreSlots, moreScoreSlots,
    scoreSlots]
  omega

/-- A split score head whose blocks have a row for each row of the batch is merged row by
row. -/
theorem mergeScores_ok {main more : Tensor} {rows : Nat}
    (mainSize : main.size = rows * mainScoreSlots)
    (moreSize : more.size = rows * moreScoreSlots) :
    mergeScores main more rows (rows * scoreSlots) =
      .ok (Tensor.joined (mergedRow main more) rows) := by
  rw [mergeScores, if_pos ⟨mainSize, moreSize, rfl⟩, Tensor.foldl_append_eq_joined]

/-- A split score head is merged to ten scores per row. -/
theorem mergeScores_size {main more : Tensor} {rows expected : Nat} {values : Tensor}
    (merged : mergeScores main more rows expected = .ok values) : values.size = expected := by
  have sizes : main.size = rows * mainScoreSlots ∧ more.size = rows * moreScoreSlots ∧
      expected = rows * scoreSlots := by
    unfold mergeScores at merged
    split at merged
    · assumption
    · exact nomatch merged
  obtain ⟨mainSize, moreSize, rfl⟩ := sizes
  rw [mergeScores_ok mainSize moreSize] at merged
  obtain rfl := Except.ok.inj merged
  exact Tensor.size_joined rows fun r inside => mergedRow_size mainSize moreSize inside

/-- So has the score head, whole or merged. -/
theorem scoreValues_size {head : ScoreHead} {half : Bool} {rows expected : Nat} {values : Tensor}
    (read : scoreValues head half rows expected = .ok values) : values.size = expected := by
  cases head with
  | unified scores => exact headValues_size read
  | split main more => exact mergeScores_size read

/-! ## The function of the inputs -/

/-- The heads of `n` rows in the sizes of a shape, or the first error of reading one. -/
def flatHeads (heads : NetworkHeads) (half : Bool) (s : PoolShape) (n : Nat) :
    Except EngineError BatchOutputs := do
  let policy ← headValues "policy" heads.policy half (n * s.policyWidth)
  let pass ← headValues "policy_pass" heads.pass half (n * s.policy)
  let value ← headValues "value" heads.value half (n * valueSlots)
  let ownership ← headValues "ownership" heads.ownership half (n * s.ownershipWidth)
  let score ← scoreValues heads.score half n (n * scoreSlots)
  return ⟨policy, pass, value, ownership, score, s.policy, s.ownership, s.plane⟩

/-- What a network answers to the inputs of a batch. -/
def answer (net : Network) (half : Bool) (s : PoolShape) (inputs : BatchInputs) (n : Nat) :
    Except (Failure EngineError) BatchOutputs := do
  let heads ← net.heads half inputs n
  flatHeads heads half s n

variable {s : PoolShape} {n : Nat} {slots : BatchOutputs}

/-- Heads that can all be read fill the output rows of a batch. -/
theorem flatHeads_shaped {heads : NetworkHeads} {half : Bool} {out : BatchOutputs}
    (flat : flatHeads heads half s n = .ok out) : out.Shaped s n := by
  simp only [flatHeads, bind_ok_iff, pure_ok_iff] at flat
  obtain ⟨policy, first, pass, second, value, third, ownership, fourth, score, fifth, rfl⟩ := flat
  exact ⟨rfl, rfl, rfl, headValues_size first, headValues_size second, headValues_size third,
    headValues_size fourth, scoreValues_size fifth⟩

/-- A run ends as a reading does: with what was read, or with its error and the scores that
there were before. -/
structure Ends (scores : Tensor) (run : BatchRun) (read : Except EngineError BatchOutputs) :
    Prop where
  answers : ∀ out, read = .ok out → run = .ok out
  refuses : ∀ cause, read = .error cause → run.result = .error (.error cause)
  keeps : ∀ cause, read = .error cause → run.outputs.score = scores

/-- One head after the other: a head that cannot be read ends both. -/
theorem Ends.head {scores : Tensor} (kept : slots.score = scores)
    {values : Except EngineError Tensor} {set : Tensor → BatchOutputs}
    {next : BatchOutputs → BatchRun} {rest : Tensor → Except EngineError BatchOutputs}
    (later : ∀ head, values = .ok head → Ends scores (next (set head)) (rest head)) :
    Ends scores ((writeHead values set slots).andThen next) (values >>= rest) := by
  cases values with
  | error cause =>
    refine ⟨nofun, ?_, fun _ _ => kept⟩
    rintro other ⟨⟩
    rfl
  | ok head => exact later head rfl

/-- The last head ends the run, read or not. -/
theorem Ends.last {scores : Tensor} (kept : slots.score = scores)
    {values : Except EngineError Tensor} {set : Tensor → BatchOutputs} :
    Ends scores (writeHead values set slots) (values >>= fun head => pure (set head)) := by
  cases values with
  | error cause =>
    refine ⟨nofun, ?_, fun _ _ => kept⟩
    rintro other ⟨⟩
    rfl
  | ok head =>
    refine ⟨?_, nofun, nofun⟩
    rintro out ⟨⟩
    rfl

/-- Writing heads to output rows of a shape ends as reading them off does. Every head is
compared with the size of its own rows, which no earlier head has changed. -/
theorem writeHeads_ends (heads : NetworkHeads) (half : Bool) (shaped : slots.Shaped s n) :
    Ends slots.score (writeHeads heads half n slots) (flatHeads heads half s n) := by
  obtain ⟨policy, pass, value, ownership, score, policyChannels, ownershipChannels, plane⟩ := slots
  obtain ⟨rfl, rfl, rfl, policySize, passSize, valueSize, ownershipSize, scoreSize⟩ := shaped
  unfold flatHeads
  rw [← policySize, ← passSize, ← valueSize, ← ownershipSize, ← scoreSize]
  apply Ends.head
  case kept => rfl
  intro newPolicy _
  apply Ends.head
  case kept => rfl
  intro newPass _
  apply Ends.head
  case kept => rfl
  intro newValue _
  apply Ends.head
  case kept => rfl
  intro newOwnership _
  apply Ends.last
  rfl

/-- A network computes a function of the inputs of a batch. -/
theorem run_computes (net : Network) (half : Bool) (s : PoolShape) (limit : Nat) :
    Forward.Computes (net.run half) s limit (net.answer half s) where
  answers inputs slots n heads _ _ _ shaped answered := by
    simp only [answer, bind_ok_iff, lift_fault_ok_iff, lift_error_ok_iff] at answered
    obtain ⟨made, computed, flat⟩ := answered
    refine ⟨flatHeads_shaped flat, ?_⟩
    simp only [run, computed]
    exact (writeHeads_ends made half shaped).answers heads flat
  refuses inputs slots n failure _ _ _ shaped refused := by
    unfold answer at refused
    unfold run
    cases computed : net.heads half inputs n with
    | error broken =>
      rw [computed] at refused
      obtain rfl := Except.error.inj refused
      rfl
    | ok made =>
      rw [computed, lift_fault_ok, ok_bind] at refused
      cases flat : flatHeads made half s n with
      | ok out =>
        rw [flat] at refused
        cases refused
      | error cause =>
        rw [flat] at refused
        obtain rfl := Except.error.inj refused
        exact (writeHeads_ends made half shaped).refuses cause flat

end Network

end BoardEval
