import BoardEval.Pool
import BoardEval.Proofs.Copies
import BoardEval.Proofs.Rows

/-!
# Sound pools

A pool is sound when its tensors have the sizes that its shape asks for and the
spatial padding is zero. A pool is made sound, and what a batch does to it keeps
it sound: no update changes a size, and none writes outside the live window.

Soundness also carries the size facts of the shape, so that a copy within a row
of a sound pool never has to be checked again.
-/

namespace BoardEval

namespace Descriptor

/-- A descriptor without a flaw agrees with its table in every count. -/
theorem flaw_none_iff (d : Descriptor) (table : FeatureTable) :
    d.flaw? table = none ↔ d.spatial = table.spatial ∧ d.globals = table.globals ∧
      d.policy = policyChannelsOf d.version ∧ d.value = valueSlots ∧ 1 ≤ d.ownership := by
  unfold flaw?
  repeat' split
  all_goals simp_all [Nat.one_le_iff_ne_zero]

/-- A descriptor is valid exactly if its version is supported and it has no flaw. -/
theorem validate_ok_iff (d : Descriptor) (u : Unit) :
    d.validate = .ok u ↔
      ∃ table, FeatureTable.ofVersion? d.version = some table ∧ d.flaw? table = none := by
  unfold validate
  split
  · simp_all
  · split <;> simp_all

/-- A valid descriptor has one or two policy channels. -/
theorem policy_channels (d : Descriptor) (valid : d.validate = .ok ()) :
    d.policy = 1 ∨ d.policy = 2 := by
  obtain ⟨table, _, flawless⟩ := (d.validate_ok_iff ()).mp valid
  obtain ⟨_, _, policy, _⟩ := (d.flaw_none_iff table).mp flawless
  rw [policy, policyChannelsOf]
  split <;> simp

/-- A valid descriptor has few spatial channels. -/
theorem spatial_channels (d : Descriptor) (valid : d.validate = .ok ()) : d.spatial ≤ 22 := by
  obtain ⟨table, known, flawless⟩ := (d.validate_ok_iff ()).mp valid
  rw [((d.flaw_none_iff table).mp flawless).1]
  unfold FeatureTable.ofVersion? at known
  repeat' split at known
  all_goals cases known
  all_goals decide

/-- A valid descriptor has global values. -/
theorem global_channels (d : Descriptor) (valid : d.validate = .ok ()) : 1 ≤ d.globals := by
  obtain ⟨table, known, flawless⟩ := (d.validate_ok_iff ()).mp valid
  rw [((d.flaw_none_iff table).mp flawless).2.1]
  unfold FeatureTable.ofVersion? at known
  repeat' split at known
  all_goals cases known
  all_goals decide

/-- The values of a valid descriptor are win, loss and no result. -/
theorem value_channels (d : Descriptor) (valid : d.validate = .ok ()) : d.value = valueSlots := by
  obtain ⟨table, _, flawless⟩ := (d.validate_ok_iff ()).mp valid
  exact ((d.flaw_none_iff table).mp flawless).2.2.2.1

/-- A valid descriptor has an ownership channel. -/
theorem ownership_channels (d : Descriptor) (valid : d.validate = .ok ()) : 1 ≤ d.ownership := by
  obtain ⟨table, _, flawless⟩ := (d.validate_ok_iff ()).mp valid
  exact ((d.flaw_none_iff table).mp flawless).2.2.2.2

end Descriptor

namespace PoolShape

/-- The board lies in the planes, every width fits in a machine word, and there is
something to decode. -/
structure Fit (s : PoolShape) : Prop where
  board : s.board.fitsWithin s.plane = true
  cellsWord : s.board.cells < wordLimit
  planeWord : s.plane.cells < wordLimit
  denseWord : s.denseSpatial < wordLimit
  spatialWord : s.spatialWidth < wordLimit
  policy : s.policy = 1 ∨ s.policy = 2
  ownership : 1 ≤ s.ownership

/-- A shape that could be created has the extents and counts asked for, and fits. -/
theorem create_fit (d : Descriptor) (board plane : Extent) (s : PoolShape)
    (valid : d.validate = .ok ()) (created : create d board plane = .ok s) :
    s = ofDescriptor d board plane ∧ s.Fit := by
  simp only [create, bind_ok_iff, require_ok_iff, requireImplicit_ok_iff, pure_ok_iff,
    List.all_cons, Bool.and_eq_true, decide_eq_true_eq] at created
  obtain ⟨_, fits, _, ⟨cells, planeCells, dense, spatial, _⟩, rfl⟩ := created
  exact ⟨rfl, fits, Nat.lt_of_succ_lt cells, planeCells, dense, spatial, d.policy_channels valid,
    d.ownership_channels valid⟩

end PoolShape

/-- One request's share of every output tensor. -/
structure HeadRow where
  policy : Tensor
  pass : Tensor
  value : Tensor
  ownership : Tensor
  score : Tensor

namespace BatchInputs

/-- The inputs are `n` rows of the given shape. -/
structure Shaped (b : BatchInputs) (s : PoolShape) (n : Nat) : Prop where
  spatialChannels : b.spatialChannels = s.spatial
  globalChannels : b.globalChannels = s.globals
  plane : b.plane = s.plane
  spatial : b.spatial.size = n * s.spatialWidth
  globals : b.globals.size = n * s.globals

/-- Row `i` of the spatial input. -/
def spatialRow (b : BatchInputs) (i : Nat) : Tensor :=
  b.spatial.rowAt (b.spatialChannels * b.plane.cells) i

/-- Row `i` of the global input. -/
def globalRow (b : BatchInputs) (i : Nat) : Tensor := b.globals.rowAt b.globalChannels i

/-- Inputs of one shape are equal if their rows are. -/
theorem ext_rows {left right : BatchInputs} {s : PoolShape} {n : Nat} (shaped : left.Shaped s n)
    (shaped' : right.Shaped s n)
    (same : ∀ i < n, left.spatialRow i = right.spatialRow i ∧
      left.globalRow i = right.globalRow i) : left = right := by
  obtain ⟨spatial, globals, spatialChannels, globalChannels, plane⟩ := left
  obtain ⟨spatial', globals', spatialChannels', globalChannels', plane'⟩ := right
  obtain ⟨rfl, rfl, rfl, size, globalSize⟩ := shaped
  obtain ⟨rfl, rfl, rfl, size', globalSize'⟩ := shaped'
  obtain rfl := Tensor.ext_rows spatial spatial' n _ size size' fun i inside => (same i inside).1
  obtain rfl :=
    Tensor.ext_rows globals globals' n _ globalSize globalSize' fun i inside => (same i inside).2
  rfl

end BatchInputs

namespace BatchOutputs

/-- The outputs are `n` rows of the given shape. -/
structure Shaped (b : BatchOutputs) (s : PoolShape) (n : Nat) : Prop where
  policyChannels : b.policyChannels = s.policy
  ownershipChannels : b.ownershipChannels = s.ownership
  plane : b.plane = s.plane
  policy : b.policy.size = n * s.policyWidth
  pass : b.pass.size = n * s.policy
  value : b.value.size = n * valueSlots
  ownership : b.ownership.size = n * s.ownershipWidth
  score : b.score.size = n * scoreSlots

/-- Row `i` of every head. -/
def row (b : BatchOutputs) (i : Nat) : HeadRow where
  policy := b.policy.rowAt (b.plane.cells * b.policyChannels) i
  pass := b.pass.rowAt b.policyChannels i
  value := b.value.rowAt valueSlots i
  ownership := b.ownership.rowAt (b.ownershipChannels * b.plane.cells) i
  score := b.score.rowAt scoreSlots i

end BatchOutputs

namespace Pool

/-- Sizes as the shape asks for them, and zeros outside the live window. -/
structure Sound (p : Pool) : Prop where
  fit : p.shape.Fit
  spatial : p.spatial.Holds p.capacity p.shape.spatialWidth
  globals : p.globals.Holds p.capacity p.shape.globals
  policy : p.policy.Holds p.capacity p.shape.policyWidth
  pass : p.pass.Holds p.capacity p.shape.policy
  value : p.value.Holds p.capacity valueSlots
  ownership : p.ownership.Holds p.capacity p.shape.ownershipWidth
  score : p.score.Holds p.capacity scoreSlots
  blended : p.blended.Holds p.capacity p.shape.board.cells
  padding : ∀ r < p.capacity, ∀ i < p.shape.spatialWidth,
    (∀ {c y x}, p.shape.layout.Live p.shape.spatial c y x → p.shape.layout.index c y x ≠ i) →
    (p.spatial.slice r).valueAt i = .zero

/-- Row `r` of every head. -/
def heads (p : Pool) (r : Nat) : HeadRow where
  policy := p.policy.slice r
  pass := p.pass.slice r
  value := p.value.slice r
  ownership := p.ownership.slice r
  score := p.score.slice r

/-- Two pools made alike: one capacity, one shape and one network. -/
structure Alike (p q : Pool) : Prop where
  capacity : p.capacity = q.capacity
  shape : p.shape = q.shape
  modelName : p.modelName = q.modelName

/-- A pool is made like itself. -/
theorem Alike.refl (p : Pool) : p.Alike p := ⟨rfl, rfl, rfl⟩

/-- Which of two pools is looked at first does not matter. -/
theorem Alike.symm {p q : Pool} (alike : p.Alike q) : q.Alike p :=
  ⟨alike.capacity.symm, alike.shape.symm, alike.modelName.symm⟩

/-- Pools that are made like one pool are made alike. -/
theorem Alike.trans {p q r : Pool} (first : p.Alike q) (second : q.Alike r) : p.Alike r :=
  ⟨first.capacity.trans second.capacity, first.shape.trans second.shape,
    first.modelName.trans second.modelName⟩

/-- A pool of zeros of a fitting shape is sound. -/
theorem blank_sound (s : PoolShape) (name : String) (capacity : Nat) (fit : s.Fit) :
    (blank s name capacity).Sound where
  fit := fit
  spatial := Rows.zeros_holds _ _
  globals := Rows.zeros_holds _ _
  policy := Rows.zeros_holds _ _
  pass := Rows.zeros_holds _ _
  value := Rows.zeros_holds _ _
  ownership := Rows.zeros_holds _ _
  score := Rows.zeros_holds _ _
  blended := Rows.zeros_holds _ _
  padding := by
    intro r _ i inside _
    exact (Tensor.value_row _ _ _ _ inside).trans (Tensor.value_zeros _ _)

/-- What has to hold for a pool to be created, and the pool that it is then. -/
theorem create_steps (d : Descriptor) (capacity : Nat) (board plane : Extent) (p : Pool)
    (created : create d capacity board plane = .ok p) :
    d.validate = .ok () ∧ board.validate = .ok () ∧ capacity ≠ 0 ∧
      ∃ s, PoolShape.create d board plane = .ok s ∧
        (∀ width ∈ [s.spatialWidth, s.globals, s.policyWidth, s.policy, valueSlots,
          s.ownershipWidth, scoreSlots, board.cells], 4 * (capacity * width) ≤ allocationLimit) ∧
        p = blank s d.name capacity := by
  simp only [create, bind_ok_iff, lift_error_ok_iff] at created
  obtain ⟨_, valid, _, playable, created⟩ := created
  split at created
  · simp [bind_ok_iff] at created
  · rename_i rows
    split at created
    · simp [bind_ok_iff] at created
    · simp only [bind_ok_iff, lift_fault_ok_iff, pure_ok_iff, requireImplicit_ok_iff,
        List.all_eq_true, decide_eq_true_eq] at created
      obtain ⟨s, shape, _, bytes, rfl⟩ := created
      exact ⟨valid, playable, rows, s, shape, bytes, rfl⟩

/-- A created pool is a pool of zeros of the shape asked for, and is sound. It has at
least one row. -/
theorem create_sound (d : Descriptor) (capacity : Nat) (board plane : Extent) (p : Pool)
    (created : create d capacity board plane = .ok p) :
    p.Sound ∧ p.shape = .ofDescriptor d board plane ∧ p.capacity = capacity ∧
      p.modelName = d.name ∧ 1 ≤ capacity := by
  obtain ⟨valid, _, rows, s, shape, _, rfl⟩ := create_steps d capacity board plane p created
  obtain ⟨rfl, fit⟩ := PoolShape.create_fit d board plane s valid shape
  exact ⟨blank_sound _ _ _ fit, rfl, rfl, rfl, Nat.one_le_iff_ne_zero.mpr rows⟩

/-- A batch has the right number of rows if it has one and not too many. -/
theorem requireBatch_ok_iff (n limit : Nat) (u : Unit) :
    requireBatch n limit = .ok u ↔ 1 ≤ n ∧ n ≤ limit := by
  simp [requireBatch]

section

variable {p : Pool}

/-- The first rows of a sound pool are input rows of its shape. -/
theorem inputs_shaped (sound : p.Sound) {n : Nat} (bound : n ≤ p.capacity) :
    (p.inputs n).Shaped p.shape n :=
  ⟨rfl, rfl, rfl, Rows.size_firstRows sound.spatial bound,
    Rows.size_firstRows sound.globals bound⟩

/-- The first rows of a sound pool are output rows of its shape. -/
theorem outputs_shaped (sound : p.Sound) {n : Nat} (bound : n ≤ p.capacity) :
    (p.outputs n).Shaped p.shape n :=
  ⟨rfl, rfl, rfl, Rows.size_firstRows sound.policy bound, Rows.size_firstRows sound.pass bound,
    Rows.size_firstRows sound.value bound, Rows.size_firstRows sound.ownership bound,
    Rows.size_firstRows sound.score bound⟩

/-- The inputs show the spatial rows of the pool. -/
theorem inputs_spatialRow (sound : p.Sound) {n i : Nat} (bound : n ≤ p.capacity)
    (inside : i < n) : (p.inputs n).spatialRow i = p.spatial.slice i :=
  Rows.rowAt_firstRows sound.spatial bound inside

/-- The inputs show the global rows of the pool. -/
theorem inputs_globalRow (sound : p.Sound) {n i : Nat} (bound : n ≤ p.capacity)
    (inside : i < n) : (p.inputs n).globalRow i = p.globals.slice i :=
  Rows.rowAt_firstRows sound.globals bound inside

/-- The slots are the rows of the heads. -/
theorem outputs_row (sound : p.Sound) {n i : Nat} (bound : n ≤ p.capacity) (inside : i < n) :
    (p.outputs n).row i = p.heads i := by
  simp only [BatchOutputs.row, outputs, heads, HeadRow.mk.injEq]
  exact ⟨Rows.rowAt_firstRows sound.policy bound inside,
    Rows.rowAt_firstRows sound.pass bound inside, Rows.rowAt_firstRows sound.value bound inside,
    Rows.rowAt_firstRows sound.ownership bound inside,
    Rows.rowAt_firstRows sound.score bound inside⟩

/-- A full spatial row without padding keeps a pool sound. Only that row is
written, so every other one keeps its padding. -/
theorem setInputRow_sound (sound : p.Sound) (r : Nat) {spatial : Tensor} (globals : Tensor)
    (full : spatial.size = p.shape.spatialWidth)
    (clear : ∀ i < p.shape.spatialWidth,
      (∀ {c y x}, p.shape.layout.Live p.shape.spatial c y x → p.shape.layout.index c y x ≠ i) →
      r < p.capacity → spatial.valueAt i = .zero) :
    (p.setInputRow r spatial globals).Sound :=
  { sound with
    spatial := Rows.setRow_holds sound.spatial r spatial
    globals := Rows.setRow_holds sound.globals r globals
    padding := by
      intro other bound i place outside
      simp only [setInputRow]
      by_cases same : other = r
      · subst other
        rw [Rows.slice_setRow sound.spatial bound full]
        exact clear i place outside bound
      · rw [Rows.slice_setRow_other sound.spatial bound (Nat.le_of_eq full) same]
        exact sound.padding other bound i place outside }

/-- Writing an input row does not change how a pool is made. -/
theorem setInputRow_alike (p : Pool) (r : Nat) (spatial globals : Tensor) :
    (p.setInputRow r spatial globals).Alike p := ⟨rfl, rfl, rfl⟩

/-- Storing outputs keeps a pool sound, whatever they are. -/
theorem store_sound (sound : p.Sound) (n : Nat) (out : BatchOutputs) :
    (p.store n out).Sound :=
  { sound with
    policy := Rows.setFirstRows_holds sound.policy n out.policy
    pass := Rows.setFirstRows_holds sound.pass n out.pass
    value := Rows.setFirstRows_holds sound.value n out.value
    ownership := Rows.setFirstRows_holds sound.ownership n out.ownership
    score := Rows.setFirstRows_holds sound.score n out.score }

/-- Storing outputs does not change how a pool is made. -/
theorem store_alike (p : Pool) (n : Nat) (out : BatchOutputs) : (p.store n out).Alike p :=
  ⟨rfl, rfl, rfl⟩

/-- After storing, the heads of the occupied rows are those that were stored. -/
theorem store_heads (sound : p.Sound) {n i : Nat} (bound : n ≤ p.capacity) (inside : i < n)
    {out : BatchOutputs} (shaped : out.Shaped p.shape n) :
    (p.store n out).heads i = out.row i := by
  simp only [heads, store, BatchOutputs.row, shaped.policyChannels, shaped.ownershipChannels,
    shaped.plane, HeadRow.mk.injEq]
  exact ⟨Rows.slice_setFirstRows sound.policy bound inside shaped.policy,
    Rows.slice_setFirstRows sound.pass bound inside shaped.pass,
    Rows.slice_setFirstRows sound.value bound inside shaped.value,
    Rows.slice_setFirstRows sound.ownership bound inside shaped.ownership,
    Rows.slice_setFirstRows sound.score bound inside shaped.score⟩

end

end Pool

end BoardEval
