import BoardEval.Proofs.Slices
import Mathlib.Logic.ExistsUnique

/-!
# Rows of a pool

Seven tensors of a pool are handed out in rows: one row at a time, or the first rows of a
batch, to be read or to be written to. The bounds of such a slice are found anew each time,
from numbers that the shape keeps, from constants and from products made on the spot, and so
were the lengths when the tensors were allocated. Here every bound is computed step by step:
each product and each sum has to fit in a machine word, and the slice has to lie inside its
tensor.

On a pool in use no step stops, and all ways to find a row agree. The rows of a tensor are
apart and leave nothing of it over, a batch shows the first of them and nothing else, and what
is written through a slice changes that slice alone. The values that a pool holds do not
matter for this; it may have been written to in any way.
-/

namespace BoardEval

/-- The tensors that a network reads. -/
inductive InputPart where
  | spatial
  | globals
  deriving DecidableEq, Repr

/-- The tensors that a network fills. -/
inductive OutputPart where
  | policy
  | pass
  | value
  | ownership
  | score
  deriving DecidableEq, Repr

/-- All of them, in the order of a batch. -/
def OutputPart.all : List OutputPart := [.policy, .pass, .value, .ownership, .score]

/-- The tensors of a pool that are handed out in rows. -/
inductive Part where
  | input (part : InputPart)
  | output (part : OutputPart)
  deriving DecidableEq, Repr

/-- The positions from `start` up to `stop`. -/
structure Span where
  start : Nat
  stop : Nat
  deriving DecidableEq, Repr

namespace PoolShape

/-- Values per row of a tensor. -/
def width (s : PoolShape) : Part → Nat
  | .input .spatial => s.spatialWidth
  | .input .globals => s.globals
  | .output .policy => s.policyWidth
  | .output .pass => s.policy
  | .output .value => valueSlots
  | .output .ownership => s.ownershipWidth
  | .output .score => scoreSlots

/-- The width of a row when one row is asked for. That of a policy row is the product of its
planes and its channels, made on the spot; the others are kept. -/
def widthStepwise (s : PoolShape) : Part → Except Fault Nat
  | .output .policy => productInWord s.plane.cells s.policy
  | part => .ok (s.width part)

/-- The number of values of `n` rows when a batch is asked for. Policy rows are counted plane by
plane first. -/
def valuesStepwise (s : PoolShape) (n : Nat) : Part → Except Fault Nat
  | .output .policy => do productInWord (← productInWord n s.plane.cells) s.policy
  | part => productInWord n (s.width part)

variable {s : PoolShape} {rows : Nat}

/-- The rows of every tensor fit in memory. -/
theorem InMemory.part (memory : s.InMemory rows) (part : Part) :
    rows * s.width part < wordLimit := by
  cases part with
  | input part =>
    cases part with
    | spatial => exact memory.spatial
    | globals => exact memory.globals
  | output part =>
    cases part with
    | policy => exact memory.policy
    | pass => exact memory.pass
    | value => exact memory.value
    | ownership => exact memory.ownership
    | score => exact memory.score

/-- One policy row is not longer than all of them. -/
theorem widthStepwise_ok (memory : s.InMemory rows) (some : 0 < rows) (part : Part) :
    s.widthStepwise part = .ok (s.width part) := by
  have word : s.policyWidth < wordLimit :=
    Nat.lt_of_le_of_lt (Nat.le_mul_of_pos_left _ some) memory.policy
  cases part with
  | input part => rfl
  | output part =>
    cases part with
    | policy => exact productInWord_ok word
    | pass | value | ownership | score => rfl

/-- The number of values of some rows is computed without a guard firing, also
where policy rows are counted plane by plane: no product on the way exceeds the
last one. -/
theorem valuesStepwise_ok (fit : s.Fit) (memory : s.InMemory rows) {n : Nat} (bound : n ≤ rows)
    (part : Part) : s.valuesStepwise n part = .ok (n * s.width part) := by
  have word : n * s.width part < wordLimit :=
    Nat.lt_of_le_of_lt (Nat.mul_le_mul_right _ bound) (memory.part part)
  cases part with
  | input part => exact productInWord_ok word
  | output part =>
    cases part with
    | policy =>
      obtain ⟨planes, all⟩ := planes_inWord fit memory bound
      simp only [valuesStepwise, planes, ok_bind, all, width]
    | pass | value | ownership | score => exact productInWord_ok word

end PoolShape

/-- The slice of an input tensor that a batch shows. -/
def BatchInputs.slice (b : BatchInputs) : InputPart → Tensor
  | .spatial => b.spatial
  | .globals => b.globals

/-- The slice of an output tensor that a batch hands out. -/
def BatchOutputs.slice (b : BatchOutputs) : OutputPart → Tensor
  | .policy => b.policy
  | .pass => b.pass
  | .value => b.value
  | .ownership => b.ownership
  | .score => b.score

/-- Slices of a shape have as many rows of its widths. -/
theorem BatchOutputs.Shaped.slice {b : BatchOutputs} {s : PoolShape} {n : Nat}
    (shaped : b.Shaped s n) (part : OutputPart) :
    (b.slice part).size = n * s.width (.output part) := by
  cases part with
  | policy => exact shaped.policy
  | pass => exact shaped.pass
  | value => exact shaped.value
  | ownership => exact shaped.ownership
  | score => exact shaped.score

/-- The first rows of a tensor are those rows side by side. -/
theorem Rows.firstRows_eq_joined {t : Rows} {count width n : Nat} (held : t.Holds count width)
    (bound : n ≤ count) : t.firstRows n = Tensor.joined t.slice n := by
  have full : ∀ r < n, (t.slice r).size = width :=
    fun r inside => size_slice held (Nat.lt_of_lt_of_le inside bound)
  apply Tensor.ext_rows _ _ n width (size_firstRows held bound) (Tensor.size_joined n full)
  intro r inside
  rw [rowAt_firstRows held bound inside, Tensor.rowAt_joined full inside]

namespace Pool

/-- The tensor of a pool. -/
def part (p : Pool) : Part → Rows
  | .input .spatial => p.spatial
  | .input .globals => p.globals
  | .output .policy => p.policy
  | .output .pass => p.pass
  | .output .value => p.value
  | .output .ownership => p.ownership
  | .output .score => p.score

/-- Replace one tensor. -/
def setPart (p : Pool) (changed : Part) (t : Rows) : Pool :=
  { p with
    spatial := if changed = .input .spatial then t else p.spatial
    globals := if changed = .input .globals then t else p.globals
    policy := if changed = .output .policy then t else p.policy
    pass := if changed = .output .pass then t else p.pass
    value := if changed = .output .value then t else p.value
    ownership := if changed = .output .ownership then t else p.ownership
    score := if changed = .output .score then t else p.score }

/-- A span, if it lies inside a tensor of the pool. -/
def spanInside (p : Pool) (part : Part) (start stop : Nat) : Except Fault Span :=
  if start ≤ stop ∧ stop ≤ (p.part part).data.size then .ok ⟨start, stop⟩ else .error .implicit

/-- Where row `r` of a tensor lies. -/
def rowSpan (p : Pool) (part : Part) (r : Nat) : Except Fault Span := do
  let width ← p.shape.widthStepwise part
  let start ← productInWord r width
  let stop ← productInWord (← sumInWord r 1) width
  p.spanInside part start stop

/-- Where the first `n` rows of a tensor lie. -/
def firstSpan (p : Pool) (part : Part) (n : Nat) : Except Fault Span := do
  let stop ← p.shape.valuesStepwise n part
  p.spanInside part 0 stop

/-- The values in a span. -/
def valuesIn (p : Pool) (part : Part) (span : Span) : Tensor :=
  (p.part part).data.extract span.start span.stop

/-- Put values into a span, through a slice, which keeps its length. -/
def fill (p : Pool) (part : Part) (values : Tensor) (span : Span) : Except Fault Pool := do
  requireImplicit (decide (values.size = span.stop - span.start))
  return p.setPart part ((p.part part).overwrite span.start values)

/-- Row `r` of a tensor. -/
def rowStepwise (p : Pool) (part : Part) (r : Nat) : Except Fault Tensor := do
  return p.valuesIn part (← p.rowSpan part r)

/-- The first `n` rows of a tensor. -/
def firstStepwise (p : Pool) (part : Part) (n : Nat) : Except Fault Tensor := do
  return p.valuesIn part (← p.firstSpan part n)

/-- The rows of a batch. -/
def batchStepwise (p : Pool) (n : Nat) : Except Fault (BatchInputs × BatchOutputs) := do
  requireBatch n p.capacity
  let spatial ← p.firstStepwise (.input .spatial) n
  let globals ← p.firstStepwise (.input .globals) n
  let policy ← p.firstStepwise (.output .policy) n
  let pass ← p.firstStepwise (.output .pass) n
  let value ← p.firstStepwise (.output .value) n
  let ownership ← p.firstStepwise (.output .ownership) n
  let score ← p.firstStepwise (.output .score) n
  return (⟨spatial, globals, p.shape.spatial, p.shape.globals, p.shape.plane⟩,
    ⟨policy, pass, value, ownership, score, p.shape.policy, p.shape.ownership, p.shape.plane⟩)

/-- Write to row `r` of an input tensor. Whatever is done to the slice of the row, in the end it
holds some values. -/
def writeRow (p : Pool) (part : InputPart) (r : Nat) (values : Tensor) : Except Fault Pool := do
  p.fill (.input part) values (← p.rowSpan (.input part) r)

/-- Write to the first rows of one output tensor. -/
def writeFirst (p : Pool) (n : Nat) (part : OutputPart) (values : Tensor) : Except Fault Pool := do
  p.fill (.output part) values (← p.firstSpan (.output part) n)

/-- Write to some output slices of a batch, one after the other. -/
def writeSlices (p : Pool) (n : Nat) (out : BatchOutputs) (parts : List OutputPart) :
    Except Fault Pool :=
  parts.foldlM (fun p part => p.writeFirst n part (out.slice part)) p

/-- Write to the output slices of a batch. -/
def writeBatch (p : Pool) (n : Nat) (out : BatchOutputs) : Except Fault Pool := do
  requireBatch n p.capacity
  p.writeSlices n out OutputPart.all

variable {p : Pool}

/-- One tensor is replaced, the others are kept. -/
theorem part_setPart (p : Pool) (changed : Part) (t : Rows) (part : Part) :
    (p.setPart changed t).part part = if changed = part then t else p.part part := by
  cases part with
  | input part => cases part <;> rfl
  | output part => cases part <;> rfl

/-- A tensor that was replaced is the new one. -/
theorem part_setPart_self (p : Pool) (part : Part) (t : Rows) :
    (p.setPart part t).part part = t := by
  rw [part_setPart, if_pos rfl]

/-- Replacing one tensor leaves the others. -/
theorem part_setPart_other (p : Pool) {changed part : Part} (t : Rows) (apart : part ≠ changed) :
    (p.setPart changed t).part part = p.part part := by
  rw [part_setPart, if_neg apart.symm]

/-- Every tensor of a sized pool holds a row of its width for each request. -/
theorem Sized.part (sized : p.Sized) (part : Part) :
    (p.part part).Holds p.capacity (p.shape.width part) := by
  cases part with
  | input part =>
    cases part with
    | spatial => exact sized.spatial
    | globals => exact sized.globals
  | output part =>
    cases part with
    | policy => exact sized.policy
    | pass => exact sized.pass
    | value => exact sized.value
    | ownership => exact sized.ownership
    | score => exact sized.score

/-- A tensor may be replaced by any other that holds such rows. -/
theorem Sized.setPart (sized : p.Sized) (changed : Part) {t : Rows}
    (held : t.Holds p.capacity (p.shape.width changed)) : (p.setPart changed t).Sized := by
  have parts (part : Part) :
      ((p.setPart changed t).part part).Holds p.capacity (p.shape.width part) := by
    by_cases same : changed = part
    · subst same
      rw [part_setPart_self]
      exact held
    · rw [part_setPart_other p t (Ne.symm same)]
      exact sized.part part
  exact {
    fit := sized.fit
    memory := sized.memory
    spatial := parts (.input .spatial)
    globals := parts (.input .globals)
    policy := parts (.output .policy)
    pass := parts (.output .pass)
    value := parts (.output .value)
    ownership := parts (.output .ownership)
    score := parts (.output .score) }

/-! ## Finding rows -/

section

variable (sized : p.Sized) (part : Part)
include sized

/-- A row lies where its number times the width says. -/
theorem rowSpan_ok {r : Nat} (bound : r < p.capacity) :
    p.rowSpan part r = .ok ⟨r * p.shape.width part, (r + 1) * p.shape.width part⟩ := by
  have memory := sized.memory.part part
  have rows := sized.memory.rows
  have last := Tensor.row_bound (p.shape.width part) bound
  have first : r * p.shape.width part ≤ (r + 1) * p.shape.width part :=
    Nat.mul_le_mul_right _ (Nat.le_succ r)
  have width := PoolShape.widthStepwise_ok sized.memory (Nat.zero_lt_of_lt bound) part
  have next : sumInWord r 1 = .ok (r + 1) := sumInWord_ok (by omega)
  simp only [rowSpan, width, next, ok_bind,
    productInWord_ok (show r * p.shape.width part < wordLimit by omega),
    productInWord_ok (show (r + 1) * p.shape.width part < wordLimit by omega)]
  exact if_pos ⟨first, (sized.part part).size ▸ last⟩

/-- The first rows lie in front. -/
theorem firstSpan_ok {n : Nat} (bound : n ≤ p.capacity) :
    p.firstSpan part n = .ok ⟨0, n * p.shape.width part⟩ := by
  have last := Nat.mul_le_mul_right (p.shape.width part) bound
  simp only [firstSpan, PoolShape.valuesStepwise_ok sized.fit sized.memory bound part, ok_bind]
  exact if_pos ⟨Nat.zero_le _, (sized.part part).size ▸ last⟩

/-- The guarded access to a row gives the slice of that row. -/
theorem rowStepwise_ok {r : Nat} (bound : r < p.capacity) :
    p.rowStepwise part r = .ok ((p.part part).slice r) := by
  simp only [rowStepwise, rowSpan_ok sized part bound, ok_bind, valuesIn, Rows.slice,
    Tensor.rowAt, (sized.part part).width]
  rfl

/-- The guarded access to the first rows gives the slice of those rows. -/
theorem firstStepwise_ok {n : Nat} (bound : n ≤ p.capacity) :
    p.firstStepwise part n = .ok ((p.part part).firstRows n) := by
  simp only [firstStepwise, firstSpan_ok sized part bound, ok_bind, valuesIn, Rows.firstRows,
    (sized.part part).width]
  rfl

/-- A position belongs to row `r`. -/
def InRow (p : Pool) (part : Part) (r i : Nat) : Prop :=
  ∃ span, p.rowSpan part r = .ok span ∧ span.start ≤ i ∧ i < span.stop

/-- The positions of a row are those from its number times the width on, as many as
the width. -/
theorem inRow_iff {r i : Nat} (bound : r < p.capacity) :
    p.InRow part r i ↔
      r * p.shape.width part ≤ i ∧ i < (r + 1) * p.shape.width part := by
  simp only [InRow, rowSpan_ok sized part bound, Except.ok.injEq, exists_eq_left']

/-- A position inside a tensor belongs to exactly one row, and one outside to none. Division by
the width finds the row. -/
theorem inRow_unique (i : Nat) :
    i < (p.part part).data.size ↔ ∃! r, r < p.capacity ∧ p.InRow part r i := by
  rw [(sized.part part).size]
  constructor
  · intro inside
    -- Rows without values leave no position inside.
    have positive : 0 < p.shape.width part := Nat.pos_of_ne_zero fun zero => by
      simp [zero] at inside
    have row : i / p.shape.width part < p.capacity :=
      Nat.div_lt_of_lt_mul (by rwa [Nat.mul_comm])
    have split := Nat.div_add_mod' i (p.shape.width part)
    have place := Nat.mod_lt i positive
    refine ⟨i / p.shape.width part, ⟨row, ?_⟩, ?_⟩
    · rw [inRow_iff sized part row, Nat.add_mul, Nat.one_mul]
      omega
    · rintro r ⟨bound, member⟩
      rw [inRow_iff sized part bound, Nat.add_mul, Nat.one_mul] at member
      have digits := Tensor.row_digits r
        (show i - r * p.shape.width part < p.shape.width part by omega)
      rw [Nat.add_sub_cancel' member.1] at digits
      exact digits.1.symm
  · rintro ⟨r, ⟨bound, member⟩, _⟩
    rw [inRow_iff sized part bound] at member
    have last := Tensor.row_bound (p.shape.width part) bound
    omega

end

/-! ## Batches -/

/-- A batch is found without a guard stopping on the way. -/
theorem batchStepwise_eq (sized : p.Sized) (n : Nat) : p.batchStepwise n = p.batch n := by
  unfold batchStepwise batch
  cases checked : requireBatch n p.capacity with
  | error broken => rfl
  | ok u =>
    have bound : n ≤ p.capacity := ((requireBatch_ok_iff _ _ _).mp checked).2
    simp only [firstStepwise_ok sized _ bound, ok_bind]
    rfl

/-- The input slices of a batch are the first rows. -/
theorem inputs_slice (p : Pool) (n : Nat) (part : InputPart) :
    (p.inputs n).slice part = (p.part (.input part)).firstRows n := by
  cases part <;> rfl

/-- So are its output slices. -/
theorem outputs_slice (p : Pool) (n : Nat) (part : OutputPart) :
    (p.outputs n).slice part = (p.part (.output part)).firstRows n := by
  cases part <;> rfl

/-- A pool in use has the shape that a valid descriptor gives it. Writes do not change the
shape. -/
theorem InUse.described (used : p.InUse) :
    ∃ d board plane, d.validate = .ok () ∧ p.shape = .ofDescriptor d board plane := by
  induction used with
  | created d capacity board plane made =>
    obtain ⟨valid, _⟩ := create_steps d capacity board plane _ made
    obtain ⟨_, shape, _⟩ := create_sound d capacity board plane _ made
    exact ⟨d, board, plane, valid, shape⟩
  | shown _ _ _ _ described => exact described
  | answered _ _ _ described => exact described
  | blended _ _ _ described => exact described

/-- The batch can tell its number of rows by its global values, which every network has. -/
theorem InUse.batchSize (used : p.InUse) {n : Nat} (bound : n ≤ p.capacity) :
    (p.inputs n).batchSize = .ok n := by
  obtain ⟨d, board, plane, valid, shape⟩ := used.described
  have globals : 0 < p.shape.globals := by
    rw [shape]
    exact d.global_channels valid
  obtain ⟨⟨_, channels, _, _, size⟩, _⟩ := used.sized.slices bound
  rw [BatchInputs.batchSize, BatchInputs.rowCount, channels, if_pos globals, size,
    Nat.mul_div_cancel n globals]

/-! ## Writing through slices -/

/-- Values of the length of a span are put there. -/
theorem fill_ok (p : Pool) (part : Part) {values : Tensor} {span : Span}
    (full : values.size = span.stop - span.start) :
    p.fill part values span =
      .ok (p.setPart part ((p.part part).overwrite span.start values)) := by
  simp only [fill, full, decide_true]
  rfl

/-- Writing to a row replaces the row. -/
theorem writeRow_ok (sized : p.Sized) (part : InputPart) {r : Nat} (bound : r < p.capacity)
    {values : Tensor} (full : values.size = p.shape.width (.input part)) :
    p.writeRow part r values =
      .ok (p.setPart (.input part) ((p.part (.input part)).setRow r values)) := by
  have length : values.size =
      (r + 1) * p.shape.width (.input part) - r * p.shape.width (.input part) := by
    rw [full, Nat.add_mul, Nat.one_mul, Nat.add_sub_cancel_left]
  simp only [writeRow, rowSpan_ok sized (.input part) bound, ok_bind]
  rw [fill_ok p (.input part) length, Rows.setRow, (sized.part (.input part)).width]

/-- Writing to the first rows replaces them. -/
theorem writeFirst_ok (sized : p.Sized) {n : Nat} (bound : n ≤ p.capacity) (part : OutputPart)
    {values : Tensor} (full : values.size = n * p.shape.width (.output part)) :
    p.writeFirst n part values =
      .ok (p.setPart (.output part) ((p.part (.output part)).setFirstRows n values)) := by
  simp only [writeFirst, firstSpan_ok sized (.output part) bound, ok_bind]
  rw [fill_ok p (.output part) full, Rows.setFirstRows, (sized.part (.output part)).width, ← full,
    Array.extract_size]

/-- Pools that are made alike are equal if their tensors are. -/
theorem ext_parts {p q : Pool} (alike : p.Alike q) (parts : ∀ part, p.part part = q.part part)
    (blended : p.blended = q.blended) : p = q := by
  obtain ⟨capacity, shape, modelName⟩ := alike
  have spatial : p.spatial = q.spatial := parts (.input .spatial)
  have globals : p.globals = q.globals := parts (.input .globals)
  have policy : p.policy = q.policy := parts (.output .policy)
  have pass : p.pass = q.pass := parts (.output .pass)
  have value : p.value = q.value := parts (.output .value)
  have ownership : p.ownership = q.ownership := parts (.output .ownership)
  have score : p.score = q.score := parts (.output .score)
  cases p
  cases q
  simp_all only

/-- Writing to slices replaces the first rows of those tensors. The induction is on the slices
still to be written, in a pool of the same make and sizes; each is written to once, so that its
tensor is still the one of the pool at the start. -/
theorem writeSlices_ok (sized : p.Sized) {n : Nat} (bound : n ≤ p.capacity) {out : BatchOutputs}
    (shaped : out.Shaped p.shape n) {parts : List OutputPart} (once : parts.Nodup) :
    ∃ q, p.writeSlices n out parts = .ok q ∧ q.Alike p ∧ q.blended = p.blended ∧
      (∀ part, q.part (.input part) = p.part (.input part)) ∧
      ∀ part, q.part (.output part) =
        if part ∈ parts then (p.part (.output part)).setFirstRows n (out.slice part)
        else p.part (.output part) := by
  induction parts generalizing p with
  | nil => exact ⟨p, rfl, .refl p, rfl, fun _ => rfl, fun _ => rfl⟩
  | cons first rest inductionHypothesis =>
    obtain ⟨apart, once⟩ := List.nodup_cons.mp once
    have written := writeFirst_ok sized bound first (shaped.slice first)
    have held := Rows.setFirstRows_holds (sized.part (.output first)) n (out.slice first)
    obtain ⟨q, done, alike, blended, inputs, outputs⟩ :=
      inductionHypothesis (sized.setPart (.output first) held) bound shaped once
    refine ⟨q, ?_, alike.trans ⟨rfl, rfl, rfl⟩, blended, ?_, ?_⟩
    · rw [writeSlices, List.foldlM_cons, written, ok_bind]
      exact done
    · intro part
      have other : Part.input part ≠ .output first := nofun
      rw [inputs]
      exact part_setPart_other p _ other
    · intro part
      rw [outputs]
      by_cases here : part = first
      · subst here
        -- The slices still to be written are of other tensors.
        rw [if_neg apart, part_setPart_self, if_pos List.mem_cons_self]
      · have other : Part.output part ≠ .output first := fun same => here (Part.output.inj same)
        simp only [part_setPart_other p _ other, List.mem_cons, here, false_or]

/-- Storing replaces the first rows of each output tensor. -/
theorem part_store (p : Pool) (n : Nat) (out : BatchOutputs) (part : OutputPart) :
    (p.store n out).part (.output part) =
      (p.part (.output part)).setFirstRows n (out.slice part) := by
  cases part <;> rfl

/-- Writing to the slices of a batch stores them. -/
theorem writeBatch_ok (sized : p.Sized) {n : Nat} (some : 1 ≤ n) (bound : n ≤ p.capacity)
    {out : BatchOutputs} (shaped : out.Shaped p.shape n) :
    p.writeBatch n out = .ok (p.store n out) := by
  have admitted : requireBatch n p.capacity = .ok () :=
    (requireBatch_ok_iff _ _ _).mpr ⟨some, bound⟩
  obtain ⟨q, written, alike, blended, inputs, outputs⟩ :=
    writeSlices_ok sized bound shaped (show OutputPart.all.Nodup by decide)
  have stored : q = p.store n out := by
    have made : q.Alike (p.store n out) := alike.trans ⟨rfl, rfl, rfl⟩
    refine ext_parts made ?_ blended
    intro part
    cases part with
    | input part =>
      rw [inputs]
      cases part <;> rfl
    | output part =>
      have written : part ∈ OutputPart.all := by cases part <;> decide
      rw [outputs, if_pos written, part_store]
  rw [writeBatch, admitted, ok_bind, written, stored]

/-- A write leaves a pool in use behind, of the same make, and does not touch the blended
rows. -/
structure Rewritten (p q : Pool) : Prop where
  used : q.InUse
  alike : q.Alike p
  blended : q.blended = p.blended

/-- What a write to one input row does: the row holds what was written, every other row of its
tensor and every other tensor is as it was. -/
structure RowWritten (p q : Pool) (part : InputPart) (r : Nat) (values : Tensor) : Prop
    extends p.Rewritten q where
  rows : ∀ i < p.capacity, q.rowStepwise (.input part) i =
    if i = r then .ok values else p.rowStepwise (.input part) i
  others : ∀ other, other ≠ .input part → q.part other = p.part other

/-- What a write to the output slices of a batch does: the rows of the batch hold what was
written, the rows behind it and the input tensors are as they were. -/
structure BatchWritten (p q : Pool) (n : Nat) (out : BatchOutputs) : Prop
    extends p.Rewritten q where
  rows : ∀ part, ∀ i < p.capacity, q.rowStepwise (.output part) i =
    if i < n then .ok ((out.slice part).rowAt (p.shape.width (.output part)) i)
    else p.rowStepwise (.output part) i
  inputs : ∀ part, q.part (.input part) = p.part (.input part)

/-- Replacing one input row is what showing a request does, with the other row as it is. -/
theorem setPart_inUse (used : p.InUse) (part : InputPart) {r : Nat} (bound : r < p.capacity)
    (values : Tensor) :
    (p.setPart (.input part) ((p.part (.input part)).setRow r values)).InUse := by
  have sized := used.sized
  cases part with
  | spatial =>
    have shown := used.shown r values (p.globals.slice r)
    rwa [setInputRow, Rows.setRow_slice sized.globals bound] at shown
  | globals =>
    have shown := used.shown r (p.spatial.slice r) values
    rwa [setInputRow, Rows.setRow_slice sized.spatial bound] at shown

/-- Writing to a row changes the row and nothing else. -/
theorem writeRow_exact (used : p.InUse) (part : InputPart) {r : Nat} (bound : r < p.capacity)
    {values : Tensor} (full : values.size = p.shape.width (.input part)) :
    ∃ q, p.writeRow part r values = .ok q ∧ p.RowWritten q part r values := by
  have sized := used.sized
  have held := sized.part (.input part)
  have written := setPart_inUse used part bound values
  refine ⟨_, writeRow_ok sized part bound full, ⟨written, ⟨rfl, rfl, rfl⟩, rfl⟩, ?_, ?_⟩
  · intro i inside
    rw [rowStepwise_ok written.sized (.input part) inside, part_setPart_self]
    by_cases here : i = r
    · rw [if_pos here, here, Rows.slice_setRow held bound full]
    · rw [if_neg here, Rows.slice_setRow_other held inside (Nat.le_of_eq full) here,
        rowStepwise_ok sized (.input part) inside]
  · intro other apart
    exact part_setPart_other p _ apart

/-- Writing to the slices of a batch changes its rows and nothing else. -/
theorem writeBatch_exact (used : p.InUse) {n : Nat} (some : 1 ≤ n) (bound : n ≤ p.capacity)
    {out : BatchOutputs} (shaped : out.Shaped p.shape n) :
    ∃ q, p.writeBatch n out = .ok q ∧ p.BatchWritten q n out := by
  have sized := used.sized
  have written : (p.store n out).InUse := .answered used n out
  refine ⟨_, writeBatch_ok sized some bound shaped, ⟨written, ⟨rfl, rfl, rfl⟩, rfl⟩, ?_, ?_⟩
  · intro part i inside
    have held := sized.part (.output part)
    rw [rowStepwise_ok written.sized (.output part) inside, part_store]
    by_cases occupied : i < n
    · rw [if_pos occupied, Rows.slice_setFirstRows held bound occupied (shaped.slice part)]
    · rw [if_neg occupied, Rows.slice_setFirstRows_other held inside (Nat.le_of_not_lt occupied),
        rowStepwise_ok sized (.output part) inside]
  · intro part
    cases part <;> rfl

/-! ## The whole pool -/

/-- A pool is cut into rows, and its batches are the first of them. -/
structure Partitioned (p : Pool) : Prop where
  /-- Each row is found, has the width of its tensor, and is the row that decoding reads. -/
  rows : ∀ part, ∀ r < p.capacity,
    p.rowStepwise part r = .ok ((p.part part).slice r) ∧
      (p.part part).row r = .ok ((p.part part).slice r) ∧
      ((p.part part).slice r).size = p.shape.width part
  /-- Rows are apart, and there is nothing else in a tensor. -/
  apart : ∀ part i, i < (p.part part).data.size ↔ ∃! r, r < p.capacity ∧ p.InRow part r i
  /-- Values are as wide as the descriptor says. -/
  values : p.shape.value = p.shape.width (.output .value)
  /-- A batch of no rows or of too many is refused, as if nothing had been guarded. -/
  batch : ∀ n, p.batchStepwise n = p.batch n
  /-- Any other batch shows its first rows, and can tell how many they are. -/
  first : ∀ n, 1 ≤ n → n ≤ p.capacity → ∃ inputs outputs,
    p.batchStepwise n = .ok (inputs, outputs) ∧ inputs.batchSize = .ok n ∧
      (∀ part, inputs.slice part = Tensor.joined (p.part (.input part)).slice n) ∧
      ∀ part, outputs.slice part = Tensor.joined (p.part (.output part)).slice n

/-- In any use of a pool, rows partition each of its tensors. -/
theorem InUse.partitioned (used : p.InUse) : p.Partitioned := by
  have sized := used.sized
  constructor
  case rows =>
    intro part r bound
    exact ⟨rowStepwise_ok sized part bound, Rows.row_ok (sized.part part) bound,
      Rows.size_slice (sized.part part) bound⟩
  case apart => exact fun part i => inRow_unique sized part i
  case values =>
    obtain ⟨d, board, plane, valid, shape⟩ := used.described
    rw [shape]
    exact d.value_channels valid
  case batch => exact batchStepwise_eq sized
  case first =>
    intro n some bound
    refine ⟨p.inputs n, p.outputs n, ?_, used.batchSize bound, ?_, ?_⟩
    · rw [batchStepwise_eq sized]
      exact batch_ok_iff.mpr ⟨⟨some, bound⟩, rfl, rfl⟩
    · intro part
      rw [inputs_slice, Rows.firstRows_eq_joined (sized.part (.input part)) bound]
    · intro part
      rw [outputs_slice, Rows.firstRows_eq_joined (sized.part (.output part)) bound]

/-- The rows of each tensor of a pool in use can all be asked for, are apart and make up the
tensor; a batch shows exactly the first rows of each tensor. A write through the slice of an
input row changes that row alone, and a write through the output slices of a batch changes the
rows of the batch in the output tensors alone; the pool is in use again, so that all of this
holds after any number of writes. -/
theorem rows_partition (used : p.InUse) :
    p.Partitioned ∧
      (∀ part r values, r < p.capacity → values.size = p.shape.width (.input part) →
        ∃ q, p.writeRow part r values = .ok q ∧ p.RowWritten q part r values) ∧
      ∀ n out, 1 ≤ n → n ≤ p.capacity → out.Shaped p.shape n →
        ∃ q, p.writeBatch n out = .ok q ∧ p.BatchWritten q n out := by
  refine ⟨used.partitioned, ?_, ?_⟩
  · intro part r values bound full
    exact writeRow_exact used part bound full
  · intro n out some bound shaped
    exact writeBatch_exact used some bound shaped

/-- In the pool of the tiny handle, a value row is written through the slices of one request.
The value row of the second request is as it was. -/
theorem rows_partition_tiny :
    let p := blank Handle.tiny.shape "tiny" 2
    let out := { p.outputs 1 with value := #[⟨1⟩, ⟨2⟩, ⟨3⟩] }
    p.InUse ∧ p.Partitioned ∧ out.Shaped p.shape 1 ∧
      ∃ q, p.writeBatch 1 out = .ok q ∧ q.InUse ∧
        q.rowStepwise (.output .value) 0 = .ok #[⟨1⟩, ⟨2⟩, ⟨3⟩] ∧
        q.rowStepwise (.output .value) 1 = .ok #[⟨0⟩, ⟨0⟩, ⟨0⟩] := by
  intro p out
  have used : p.InUse := .created Handle.tiny.descriptor 2 ⟨3, 2⟩ (.square 3) rfl
  have shaped : out.Shaped p.shape 1 := { (used.sized.slices (by decide)).2 with value := rfl }
  obtain ⟨parted, _, batches⟩ := rows_partition used
  obtain ⟨q, stored, written⟩ := batches 1 out (by decide) (by decide) shaped
  refine ⟨used, parted, shaped, q, stored, written.used, ?_, ?_⟩
  · rw [written.rows .value 0 (by decide)]
    rfl
  · rw [written.rows .value 1 (by decide)]
    rfl

end Pool

end BoardEval
