import BoardEval.Engine.Cpu
import BoardEval.Probe
import BoardEval.Proofs.Networks
import BoardEval.Proofs.Slices

/-!
# Delivery of heads

A network writes its heads to the output rows one after the other and stops at the first one
that does not fit. A head fits if it has as many values as its output rows; a split score head
fits if its blocks have four and eight values per row. A run therefore either writes all heads,
or stops with an error before it wrote a score.

A split score head is merged in place, row by row, into what the score rows held before. Rows
of width four and eight go to rows of width ten, which drops the last two values of every row of
eight. The loop is given here with a guard on every step, and the induction that shows it equal
to the merged rows side by side goes over the rows: below the current row the merged rows are
in place, from there on the old values are.
-/

namespace BoardEval

/-! ## Merging in place -/

namespace Tensor

/-- Replace the values from `start` up to `stop` by as many others, every step guarded. -/
def fill (t : Tensor) (start stop : Nat) (values : Tensor) : Except Fault Tensor := do
  let slot ← t.range start stop
  requireImplicit (decide (slot.size = values.size))
  t.splice start values

/-- Filling from a seam on replaces what begins there. -/
theorem fill_seam {front rest values : Tensor} {start stop : Nat} (seam : front.size = start)
    (full : start + values.size = stop) (inside : values.size ≤ rest.size) :
    (front ++ rest).fill start stop values =
      .ok (front ++ values ++ rest.extract values.size rest.size) := by
  subst seam full
  have room : front.size + values.size ≤ (front ++ rest).size := by
    rw [Array.size_append]
    omega
  have slot := range_ok (Nat.le_add_right front.size values.size) room
  have size : requireImplicit (decide
      (((front ++ rest).extract front.size (front.size + values.size)).size = values.size)) =
        .ok () := by
    rw [requireImplicit_ok_iff, Array.size_extract]
    exact decide_eq_true (by omega)
  have behind : (front ++ rest).extract (front.size + values.size) (front ++ rest).size =
      rest.extract values.size rest.size := by
    rw [Array.extract_append, Array.extract_eq_empty_of_le (by omega), Array.empty_append,
      Array.size_append, Nat.add_sub_cancel_left, Nat.add_sub_cancel_left]
  simp only [fill, slot, size, ok_bind, splice, if_pos room, behind, Array.extract_append_left,
    Array.extract_size]

/-- A whole tensor is filled by its first values and then by the others. -/
theorem fill_whole {t first second : Tensor} (size : t.size = first.size + second.size) :
    (do let t ← t.fill 0 first.size first
        t.fill first.size t.size second) = .ok (first ++ second) := by
  -- Nothing stands in front of the first values.
  have front := @fill_seam #[] t first 0 first.size rfl (Nat.zero_add _) (by omega)
  rw [Array.empty_append, Array.empty_append] at front
  have rest : (t.extract first.size t.size).size = second.size := by
    rw [Array.size_extract]
    omega
  have back := fill_seam (Eq.refl first.size) rfl (Nat.le_of_eq rest.symm)
  have nothing : (t.extract first.size t.size).extract second.size
      (t.extract first.size t.size).size = #[] :=
    Array.extract_eq_empty_of_le (by rw [rest]; exact Nat.min_le_left _ _)
  rw [nothing, Array.append_empty] at back
  rw [front, ok_bind, Array.size_append, rest]
  exact back

end Tensor

namespace Network

/-- Fill a score row from both blocks, every step guarded. -/
def fillRow (main more row : Tensor) (r : Nat) : Except Fault Tensor := do
  let mainStart ← productInWord r mainScoreSlots
  let mainStop ← productInWord (← sumInWord r 1) mainScoreSlots
  let mainRow ← main.range mainStart mainStop
  let moreStart ← productInWord r moreScoreSlots
  let rest ← more.range moreStart more.size
  let moreRow ← rest.range 0 (scoreSlots - mainScoreSlots)
  let row ← row.fill 0 mainScoreSlots mainRow
  row.fill mainScoreSlots row.size moreRow

/-- Merge one row of a split score head into its place, every step guarded. The place is a
slice of the score rows. -/
def mergeRowInPlace (main more out : Tensor) (r : Nat) : Except Fault Tensor := do
  let start ← productInWord r scoreSlots
  let stop ← productInWord (← sumInWord r 1) scoreSlots
  let row ← out.range start stop
  out.fill start stop (← fillRow main more row r)

/-- Merge the rows below `rows` in their order. -/
def mergeRowsInPlace (main more out : Tensor) (rows : Nat) : Except Fault Tensor :=
  (List.range rows).foldlM (mergeRowInPlace main more) out

/-- Merge a split score head into score rows, every step guarded. -/
def mergeInPlace (main more out : Tensor) (rows : Nat) : Except (Failure EngineError) Tensor := do
  let mainLength ← productInWord rows mainScoreSlots
  let moreLength ← productInWord rows moreScoreSlots
  let length ← productInWord rows scoreSlots
  if main.size = mainLength ∧ more.size = moreLength ∧ out.size = length then
    mergeRowsInPlace main more out rows
  else throw (.error (.shapeMismatch ("score heads " ++ toString main.size ++ "+"
    ++ toString more.size ++ " do not fit " ++ toString rows ++ " rows")))

section

variable {main more : Tensor} {rows : Nat} (word : rows * scoreSlots < wordLimit)
include word

/-- The bounds of a row of a block that is at most as wide as the score rows. -/
theorem rowBounds_ok {r width : Nat} (inside : r < rows) (narrow : width ≤ scoreSlots) :
    productInWord r width = .ok (r * width) ∧ sumInWord r 1 = .ok (r + 1) ∧
      productInWord (r + 1) width = .ok ((r + 1) * width) := by
  have first : r * width ≤ rows * scoreSlots := Nat.mul_le_mul (Nat.le_of_lt inside) narrow
  have last : (r + 1) * width ≤ rows * scoreSlots := Nat.mul_le_mul inside narrow
  have rowsWord : rows ≤ rows * scoreSlots := Nat.le_mul_of_pos_right rows (by decide)
  exact ⟨productInWord_ok (by omega), sumInWord_ok (by omega), productInWord_ok (by omega)⟩

section

variable (mainSize : main.size = rows * mainScoreSlots)
  (moreSize : more.size = rows * moreScoreSlots)
include mainSize moreSize

/-- A score row is filled with the merged row, whatever it held. -/
theorem fillRow_ok {r : Nat} (inside : r < rows) {row : Tensor} (size : row.size = scoreSlots) :
    fillRow main more row r = .ok (mergedRow main more r) := by
  have mainNarrow : mainScoreSlots ≤ scoreSlots := by decide
  have moreNarrow : moreScoreSlots ≤ scoreSlots := by decide
  obtain ⟨mainStart, next, mainStop⟩ := rowBounds_ok word inside mainNarrow
  obtain ⟨moreStart, _⟩ := rowBounds_ok word inside moreNarrow
  have mainLast := Tensor.row_bound mainScoreSlots inside
  have moreLast := Tensor.row_bound moreScoreSlots inside
  rw [← mainSize] at mainLast
  rw [← moreSize, Nat.succ_mul] at moreLast
  have mainOrdered := Nat.mul_le_mul_right mainScoreSlots (Nat.le_succ r)
  have mainRow := Tensor.range_ok mainOrdered mainLast
  have moreFirst : r * moreScoreSlots ≤ more.size := by omega
  have moreRest := Tensor.range_ok moreFirst (Nat.le_refl _)
  -- The first six values of a row of eight, seen from the start of the row.
  have six : scoreSlots - mainScoreSlots ≤ moreScoreSlots := by decide
  have moreRow := Tensor.range_ok (t := more.extract (r * moreScoreSlots) more.size)
    (Nat.zero_le (scoreSlots - mainScoreSlots)) (by rw [Array.size_extract]; omega)
  rw [Array.extract_extract, Nat.add_zero, Nat.min_eq_left (by omega)] at moreRow
  have merged := mergedRow_size mainSize moreSize inside
  have mainRowSize : (main.extract (r * mainScoreSlots) ((r + 1) * mainScoreSlots)).size =
      mainScoreSlots := by
    rw [Array.size_extract, Nat.min_eq_left mainLast, Nat.succ_mul, Nat.add_sub_cancel_left]
  rw [mergedRow, Array.size_append] at merged
  have whole := Tensor.fill_whole (size.trans merged.symm)
  rw [mainRowSize] at whole
  simp only [fillRow, mainStart, next, mainStop, mainRow, moreStart, moreRest, moreRow, ok_bind]
  exact whole

/-- One step of the loop. The rows in front are in place already; the row at the seam is merged
into its place and nothing behind it changes. -/
theorem mergeRowInPlace_ok {r : Nat} (inside : r < rows) {front rest : Tensor}
    (seam : front.size = r * scoreSlots) (room : scoreSlots ≤ rest.size) :
    mergeRowInPlace main more (front ++ rest) r =
      .ok (front ++ mergedRow main more r ++ rest.extract scoreSlots rest.size) := by
  have merged := mergedRow_size mainSize moreSize inside
  obtain ⟨start, next, stop⟩ := rowBounds_ok word inside (Nat.le_refl _)
  have last : r * scoreSlots + scoreSlots = (r + 1) * scoreSlots := (Nat.succ_mul r _).symm
  have bound : (r + 1) * scoreSlots ≤ (front ++ rest).size := by
    rw [Array.size_append]
    omega
  have row := Tensor.range_ok (t := front ++ rest) (show r * scoreSlots ≤ _ by omega) bound
  have rowSize : ((front ++ rest).extract (r * scoreSlots) ((r + 1) * scoreSlots)).size =
      scoreSlots := by
    rw [Array.size_extract]
    omega
  have filled := fillRow_ok word mainSize moreSize inside rowSize
  simp only [mergeRowInPlace, start, next, stop, row, filled, ok_bind]
  rw [Tensor.fill_seam seam (merged.symm ▸ last) (merged.symm ▸ room), merged]

/-- The loop up to a row. The induction is on that row: below it the merged rows are in place,
from it on the old values are. -/
theorem mergeRowsInPlace_ok {out : Tensor} (size : out.size = rows * scoreSlots) {k : Nat}
    (bound : k ≤ rows) : mergeRowsInPlace main more out k =
      .ok (Tensor.joined (mergedRow main more) k ++ out.extract (k * scoreSlots) out.size) := by
  induction k with
  | zero =>
    rw [Nat.zero_mul, Array.extract_size]
    simp only [mergeRowsInPlace, List.range_zero, Tensor.joined, Array.empty_append]
    rfl
  | succ k inductionHypothesis =>
    have inside : k < rows := bound
    have before := inductionHypothesis (Nat.le_of_lt inside)
    have front : (Tensor.joined (mergedRow main more) k).size = k * scoreSlots :=
      Tensor.size_joined k fun r earlier =>
        mergedRow_size mainSize moreSize (Nat.lt_trans earlier inside)
    have last := Tensor.row_bound scoreSlots inside
    rw [← size, Nat.succ_mul] at last
    have behind : (out.extract (k * scoreSlots) out.size).extract scoreSlots
        (out.extract (k * scoreSlots) out.size).size =
          out.extract ((k + 1) * scoreSlots) out.size := by
      rw [Array.extract_extract, Array.size_extract, Nat.succ_mul]
      congr 1
      omega
    have room : scoreSlots ≤ (out.extract (k * scoreSlots) out.size).size := by
      rw [Array.size_extract]
      omega
    have step := mergeRowInPlace_ok word mainSize moreSize inside front room
    unfold mergeRowsInPlace at before ⊢
    rw [List.range_succ, List.foldlM_append, before, ok_bind]
    simp only [List.foldlM_cons, List.foldlM_nil, step, ok_bind, behind]
    rfl

end

/-- Merging in place is merging, whatever the score rows held. -/
theorem mergeInPlace_eq (out : Tensor) :
    mergeInPlace main more out rows = liftM (mergeScores main more rows out.size) := by
  have product (width : Nat) (narrow : width ≤ scoreSlots) :
      productInWord rows width = .ok (rows * width) :=
    productInWord_ok (Nat.lt_of_le_of_lt (Nat.mul_le_mul_left rows narrow) word)
  simp only [mergeInPlace, product mainScoreSlots (by decide), product moreScoreSlots (by decide),
    product scoreSlots (Nat.le_refl _), lift_fault_ok, ok_bind]
  split
  · rename_i sizes
    obtain ⟨mainSize, moreSize, size⟩ := sizes
    rw [mergeRowsInPlace_ok word mainSize moreSize size (Nat.le_refl rows), size,
      mergeScores_ok mainSize moreSize, ← size,
      Array.extract_eq_empty_of_le (Nat.min_le_left _ _), Array.append_empty]
    rfl
  · rename_i differs
    rw [mergeScores, if_neg differs]
    rfl

end

/-- Two rows: the last two values of each row of eight are not used. -/
example :
    mergeInPlace #[⟨0⟩, ⟨1⟩, ⟨2⟩, ⟨3⟩, ⟨10⟩, ⟨11⟩, ⟨12⟩, ⟨13⟩]
        #[⟨20⟩, ⟨21⟩, ⟨22⟩, ⟨23⟩, ⟨24⟩, ⟨25⟩, ⟨26⟩, ⟨27⟩,
          ⟨30⟩, ⟨31⟩, ⟨32⟩, ⟨33⟩, ⟨34⟩, ⟨35⟩, ⟨36⟩, ⟨37⟩] (.zeros 20) 2 =
      .ok #[⟨0⟩, ⟨1⟩, ⟨2⟩, ⟨3⟩, ⟨20⟩, ⟨21⟩, ⟨22⟩, ⟨23⟩, ⟨24⟩, ⟨25⟩,
        ⟨10⟩, ⟨11⟩, ⟨12⟩, ⟨13⟩, ⟨30⟩, ⟨31⟩, ⟨32⟩, ⟨33⟩, ⟨34⟩, ⟨35⟩] := by
  cbv

end Network

/-! ## Heads that fit -/

namespace ScoreHead

/-- The head has the values of ten scores in each of `n` rows. -/
def Fits (n : Nat) : ScoreHead → Prop
  | unified scores => scores.values.size = n * scoreSlots
  | split main more => main.values.size = n * Network.mainScoreSlots ∧
      more.values.size = n * Network.moreScoreSlots

/-- The scores of `n` rows, merged if the head is split. -/
def scores (half : Bool) (n : Nat) : ScoreHead → Tensor
  | unified scores => Network.rounded half scores.values
  | split main more => Tensor.joined (Network.mergedRow (Network.rounded half main.values)
      (Network.rounded half more.values)) n

end ScoreHead

/-- Every head has as many values as its output rows. -/
structure NetworkHeads.Fits (heads : NetworkHeads) (slots : BatchOutputs) (n : Nat) : Prop where
  policy : heads.policy.values.size = slots.policy.size
  pass : heads.pass.values.size = slots.pass.size
  value : heads.value.values.size = slots.value.size
  ownership : heads.ownership.values.size = slots.ownership.size
  score : heads.score.Fits n

namespace Network

/-- A reading gives a result if something fits, and is refused as a mismatch otherwise. -/
structure Reads {α : Type} (read : Except EngineError α) (fits : Prop) (result : α) : Prop where
  fitting : fits → read = .ok result
  refused : ¬fits → ∃ text, read = .error (.shapeMismatch text)

/-- What asks for nothing is always read. -/
theorem Reads.of_pure {α : Type} (result : α) : Reads (pure result) True result :=
  ⟨fun _ => rfl, fun absurdity => absurd trivial absurdity⟩

/-- Two readings in a row need both to fit. -/
theorem Reads.bind {α β : Type} {first : Except EngineError α} {fits more : Prop} {value : α}
    (reads : Reads first fits value) {rest : α → Except EngineError β} {result : β}
    (later : Reads (rest value) more result) : Reads (first >>= rest) (fits ∧ more) result where
  fitting both := by
    rw [reads.fitting both.1, ok_bind, later.fitting both.2]
  refused differs := by
    by_cases here : fits
    · rw [reads.fitting here, ok_bind]
      exact later.refused fun there => differs ⟨here, there⟩
    · obtain ⟨text, refused⟩ := reads.refused here
      exact ⟨text, by rw [refused, error_bind]⟩

/-- A head is read if it has as many values as its output rows, whatever its
shape. -/
theorem headValues_reads {rank : Nat} (name : String) (head : ShapedTensor rank) (half : Bool)
    (expected : Nat) : Reads (headValues name head half expected)
      (head.values.size = expected) (rounded half head.values) := by
  simp only [headValues, size_rounded]
  exact ⟨fun size => if_pos size, fun differs => ⟨_, if_neg differs⟩⟩

/-- The score head is read if it fits its rows, whole or in two blocks. -/
theorem scoreValues_reads (head : ScoreHead) (half : Bool) (n : Nat) :
    Reads (scoreValues head half n (n * scoreSlots)) (head.Fits n) (head.scores half n) := by
  cases head with
  | unified scores => exact headValues_reads "score_values" scores half _
  | split main more =>
    constructor
    case fitting =>
      rintro ⟨mainSize, moreSize⟩
      exact mergeScores_ok ((size_rounded half _).trans mainSize)
        ((size_rounded half _).trans moreSize)
    case refused =>
      intro differs
      refine ⟨_, if_neg ?_⟩
      rintro ⟨mainSize, moreSize, _⟩
      rw [size_rounded] at mainSize moreSize
      exact differs ⟨mainSize, moreSize⟩

/-- All heads are read if all fit the output rows of their shape, each as its own values. -/
theorem flatHeads_reads (heads : NetworkHeads) (half : Bool) {s : PoolShape} {n : Nat}
    {slots : BatchOutputs} (shaped : slots.Shaped s n) :
    Reads (flatHeads heads half s n) (heads.Fits slots n)
      ⟨rounded half heads.policy.values, rounded half heads.pass.values,
        rounded half heads.value.values, rounded half heads.ownership.values,
        heads.score.scores half n, s.policy, s.ownership, s.plane⟩ := by
  have each : heads.Fits slots n ↔
      heads.policy.values.size = n * s.policyWidth ∧ heads.pass.values.size = n * s.policy ∧
        heads.value.values.size = n * valueSlots ∧
          heads.ownership.values.size = n * s.ownershipWidth ∧ heads.score.Fits n ∧ True := by
    rw [← shaped.policy, ← shaped.pass, ← shaped.value, ← shaped.ownership]
    constructor
    · rintro ⟨policy, pass, value, ownership, score⟩
      exact ⟨policy, pass, value, ownership, score, trivial⟩
    · rintro ⟨policy, pass, value, ownership, score, _⟩
      exact ⟨policy, pass, value, ownership, score⟩
  rw [each]
  exact (headValues_reads _ _ half _).bind <| (headValues_reads _ _ half _).bind <|
    (headValues_reads _ _ half _).bind <| (headValues_reads _ _ half _).bind <|
      (scoreValues_reads _ half n).bind (.of_pure _)

/-- How a run over the heads of a network ends: all are written, or there was a mismatch and the
scores are as they were. -/
theorem writeHeads_cases (heads : NetworkHeads) (half : Bool) {s : PoolShape} {n : Nat}
    {slots : BatchOutputs} (shaped : slots.Shaped s n) :
    (heads.Fits slots n ∧ writeHeads heads half n slots =
      .ok ⟨rounded half heads.policy.values, rounded half heads.pass.values,
        rounded half heads.value.values, rounded half heads.ownership.values,
        heads.score.scores half n, s.policy, s.ownership, s.plane⟩) ∨
    (¬heads.Fits slots n ∧
      (∃ text, (writeHeads heads half n slots).result = .error (.error (.shapeMismatch text))) ∧
      (writeHeads heads half n slots).outputs.score = slots.score) := by
  have ends := writeHeads_ends heads half shaped
  have reads := flatHeads_reads heads half shaped
  by_cases fits : heads.Fits slots n
  · exact .inl ⟨fits, ends.answers _ (reads.fitting fits)⟩
  · obtain ⟨text, refused⟩ := reads.refused fits
    exact .inr ⟨fits, ⟨text, ends.refuses _ refused⟩, ends.keeps _ refused⟩

end Network

/-! ## Delivery -/

/-- What a score head leaves in score rows that held something before. A whole head is there
value by value. Of a split one, row `r` is row `r` of the block of four and the first six values
of row `r` of the block of eight, as merging in place puts them there. -/
def ScoreHead.Delivered (before after : Tensor) (n : Nat) : ScoreHead → Prop
  | unified scores => after = scores.values
  | split main more =>
    Network.mergeInPlace main.values more.values before n = .ok after ∧
      after.size = n * scoreSlots ∧ ∀ r < n, after.rowAt scoreSlots r =
        main.values.extract (4 * r) (4 * r + 4) ++ more.values.extract (8 * r) (8 * r + 6)

/-- Every output slice is its head in row-major order. -/
structure NetworkHeads.Delivered (heads : NetworkHeads) (before after : BatchOutputs) (n : Nat) :
    Prop where
  policy : after.policy = heads.policy.values
  pass : after.pass = heads.pass.values
  value : after.value = heads.value.values
  ownership : after.ownership = heads.ownership.values
  score : heads.score.Delivered before.score after.score n

/-- Scores that fit are delivered as what is read off them. -/
theorem ScoreHead.Fits.delivered {head : ScoreHead} {n : Nat} (fits : head.Fits n) {before : Tensor}
    (size : before.size = n * scoreSlots) (word : n * scoreSlots < wordLimit) :
    head.Delivered before (head.scores false n) n := by
  cases head with
  | unified scores => rfl
  | split main more =>
    obtain ⟨mainSize, moreSize⟩ := fits
    have each : ∀ r < n,
        (Network.mergedRow main.values more.values r).size = scoreSlots := fun r inside =>
      Network.mergedRow_size mainSize moreSize inside
    refine ⟨?_, Tensor.size_joined n each, ?_⟩
    · rw [Network.mergeInPlace_eq word, size, Network.mergeScores_ok mainSize moreSize]
      rfl
    · intro r inside
      have row := Tensor.rowAt_joined each inside
      have next : (r + 1) * Network.mainScoreSlots = r * Network.mainScoreSlots + 4 :=
        Nat.succ_mul r _
      simp only [ScoreHead.scores, Network.rounded_single]
      rw [row, Network.mergedRow, next, Nat.mul_comm 4 r, Nat.mul_comm 8 r]
      rfl

namespace CpuEngine

/-- A batch on a processor engine with a context, for a model in single precision whose slot has
room for it, and with slices of any pool in use. The network is shown the inputs of the batch.
Whatever heads it makes of them, the run succeeds exactly if they fit; then every output slice
is its head, and scores are aligned row by row; otherwise the run ends with a mismatch of shapes
and leaves the scores as they were.

Proof: slices of a pool in use have the sizes that heads are compared with. Heads that
fit are written in turn and the scores merged in place, row by row; the first one that
does not fit ends the run, and the scores come last. -/
theorem heads_delivered (e : CpuEngine) (model : LoadedModel) (slot : Int) (entry : CompiledModel)
    (p : Pool) (n : Nat) (inputs : BatchInputs) (slots : BatchOutputs)
    (ready : e.hasDevice = true) (slotted : model.slot = some slot)
    (found : e.slots.get? slot = some entry) (single : model.config.half = false)
    (used : p.InUse) (handed : p.batch n = .ok (inputs, slots)) (room : n ≤ entry.capacity) :
    ∃ spatial globals, Network.Shown p.shape n false inputs spatial globals ∧
      ∀ heads, e.network.forward spatial globals = .ok heads →
        let run := Engine.runBatch e model inputs slots n
        (run.result = .ok () ↔ heads.Fits slots n) ∧
        (run.result = .ok () → heads.Delivered slots run.outputs n) ∧
        (run.result ≠ .ok () →
          (∃ text, run.result = .error (.error (.shapeMismatch text))) ∧
            run.outputs.score = slots.score) := by
  have sized := used.sized
  obtain ⟨⟨_, bound⟩, rfl, rfl⟩ := Pool.batch_ok_iff.mp handed
  obtain ⟨inputsShaped, slotsShaped⟩ := sized.slices bound
  obtain ⟨spatial, globals, shown, passed⟩ :=
    Network.heads_shown e.network false inputsShaped
  refine ⟨spatial, globals, shown, ?_⟩
  intro heads made run
  have ran : run = Network.writeHeads heads false n (p.outputs n) := by
    simp only [run, Engine.runBatch, runBatch, slotted, compiled, found, Nat.not_lt.mpr room, ready,
      single, Network.run, passed, made, Bool.not_true, Bool.false_eq_true, if_false]
  rw [ran]
  rcases Network.writeHeads_cases heads false slotsShaped with
    ⟨fits, written⟩ | ⟨differs, ⟨text, refused⟩, kept⟩
  · have word : n * scoreSlots < wordLimit :=
      Nat.lt_of_le_of_lt (Nat.mul_le_mul_right _ bound) sized.memory.score
    rw [written]
    refine ⟨iff_of_true rfl fits, fun _ => ?_, fun failed => absurd rfl failed⟩
    exact ⟨rfl, rfl, rfl, rfl, fits.score.delivered slotsShaped.score word⟩
  · rw [refused]
    refine ⟨iff_of_false ?_ differs, ?_, fun _ => ⟨⟨text, rfl⟩, kept⟩⟩
    · rintro ⟨⟩
    · rintro ⟨⟩

/-- A network with a split score head, in the widths of the tiny handle. -/
def splitEcho : Network := EchoNetwork.network ⟨2, 1, 2, 3, .inr (.zeros 4, .zeros 8), none⟩

/-- A model of that network for two rows. -/
def splitModel : LoadedModel := ⟨.secondary, 14, some 0, ⟨.square 3, 2, false, false, 100, 0⟩⟩

/-- An engine with a context that holds the model. -/
def splitEngine : CpuEngine := ⟨splitEcho, true, .insert .empty 0 ⟨14, 2⟩, 1⟩

/-- The engine delivers two rows, whose scores are merged. -/
theorem heads_delivered_split :
    let p := Pool.blank Handle.tiny.shape "tiny" 2
    loadModel { CpuEngine.new splitEcho with hasDevice := true } Handle.tiny.descriptor
        splitModel.config = (splitEngine, .ok splitModel) ∧
      p.InUse ∧ p.batch 2 = .ok (p.inputs 2, p.outputs 2) ∧
      ∃ main more : ShapedTensor 2, main.shape = #v[2, 4] ∧ more.shape = #v[2, 8] ∧
        let run := Engine.runBatch splitEngine splitModel (p.inputs 2) (p.outputs 2) 2
        run.result = .ok () ∧
          (ScoreHead.split main more).Delivered (p.outputs 2).score run.outputs.score 2 := by
  intro p
  have used : p.InUse := .created Handle.tiny.descriptor 2 ⟨3, 2⟩ (.square 3) rfl
  have handed : p.batch 2 = .ok (p.inputs 2, p.outputs 2) := rfl
  refine ⟨rfl, used, handed, ?_⟩
  obtain ⟨⟨_, _, spatialSize⟩, ⟨_, _, globalSize⟩, ⟨rfl, _, rfl, _⟩, delivered⟩ :=
    heads_delivered splitEngine splitModel 0 ⟨14, 2⟩ p 2 (p.inputs 2) (p.outputs 2) rfl rfl rfl rfl
      used handed (Nat.le_refl 2)
  obtain ⟨succeeds, rows, _⟩ := delivered _ rfl
  have slots := (used.sized.slices (Nat.le_refl 2)).2
  have ok := succeeds.mpr
    { policy := (ShapedTensor.size_eq _).trans slots.policy.symm
      pass := (ShapedTensor.size_eq _).trans slots.pass.symm
      value := (ShapedTensor.size_eq _).trans slots.value.symm
      ownership := (ShapedTensor.size_eq _).trans slots.ownership.symm
      score := ⟨ShapedTensor.size_eq _, ShapedTensor.size_eq _⟩ }
  exact ⟨_, _, rfl, rfl, ok, (rows ok).score⟩

end CpuEngine

end BoardEval
