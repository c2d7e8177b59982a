import BoardEval.Proofs.Deliveries

/-!
# Shapes of heads

A head is flattened before it is checked, so what is checked is its number of values. The
number fixes the length of any one axis once the other axes are known: a head that has the
shape asked for along all axes but one has that shape, or is refused. The planes are those that
the pool was made for, of whatever extent, and precision does not matter.

The heads of a network differ in rank and in the shape asked for, so what is said of all heads
is said once, for a relation between a head and the shape asked for.
-/

namespace BoardEval

/-! ## Shapes and numbers of values -/

/-- Axes that are not empty have a value. -/
theorem volume_pos {axes : List Nat} (inhabited : ∀ length ∈ axes, 0 < length) :
    0 < volume axes := by
  induction axes with
  | nil => exact Nat.one_pos
  | cons length rest inductionHypothesis =>
    obtain ⟨first, others⟩ := List.forall_mem_cons.mp inhabited
    exact Nat.mul_pos first (inductionHypothesis others)

/-- The number of values fixes the length of one axis. The induction is on the axes: the first
one either agrees, or is the axis in question in front of axes that all agree. -/
theorem axes_eq_of_volume {axes wanted : List Nat} (rank : axes.length = wanted.length)
    (inhabited : ∀ length ∈ wanted, 0 < length) (count : volume axes = volume wanted) {k : Nat}
    (others : ∀ j, j ≠ k → axes[j]? = wanted[j]?) : axes = wanted := by
  induction axes generalizing wanted k with
  | nil => exact (List.eq_nil_of_length_eq_zero rank.symm).symm
  | cons length rest inductionHypothesis =>
    cases wanted with
    | nil => exact nomatch rank
    | cons wantedLength wantedRest =>
      obtain ⟨first, inner⟩ := List.forall_mem_cons.mp inhabited
      cases k with
      | zero =>
        obtain rfl : rest = wantedRest :=
          List.ext_getElem? fun j => others (j + 1) (Nat.succ_ne_zero j)
        rw [Nat.eq_of_mul_eq_mul_right (volume_pos inner) count]
      | succ k =>
        obtain rfl : length = wantedLength := Option.some.inj (others 0 nofun)
        have innerCount := Nat.eq_of_mul_eq_mul_left first count
        rw [inductionHypothesis (Nat.succ.inj rank) inner innerCount fun j apart =>
          others (j + 1) fun same => apart (Nat.succ.inj same)]

namespace ShapedTensor

variable {rank : Nat}

/-- The tensor has as many values as a shape asks for. -/
def Counts (t : ShapedTensor rank) (shape : Vector Nat rank) : Prop :=
  t.values.size = volume shape.toList

/-- The tensor has a shape, if it has it along all axes but one. -/
def Follows (t : ShapedTensor rank) (shape : Vector Nat rank) : Prop :=
  ∀ k : Nat, (∀ j : Nat, j ≠ k → t.shape.toList[j]? = shape.toList[j]?) → t.shape = shape

variable {t : ShapedTensor rank} {shape : Vector Nat rank}

/-- A tensor of the expected shape has the expected number of values. The converse
fails, which is what this module is about. -/
theorem counts_of_shape (same : t.shape = shape) : t.Counts shape := same ▸ t.size_eq

/-- A tensor with the number of values of a shape without empty axes follows that shape. -/
theorem Counts.follows (counts : t.Counts shape)
    (inhabited : ∀ length ∈ shape.toList, 0 < length) : t.Follows shape := by
  intro k others
  have count : volume t.shape.toList = volume shape.toList := t.size_eq.symm.trans counts
  have rank : t.shape.toList.length = shape.toList.length := by simp
  exact Vector.toList_inj.mp (axes_eq_of_volume rank inhabited count others)

end ShapedTensor

/-! ## All heads at once -/

/-- A relation between a tensor and a shape. -/
abbrev ShapeRelation := ∀ rank : Nat, ShapedTensor rank → Vector Nat rank → Prop

/-- A relation holds for every block of the score head and the shape asked for in `n` rows. -/
def ScoreHead.Each (relation : ShapeRelation) (n : Nat) : ScoreHead → Prop
  | unified scores => relation 2 scores #v[n, scoreSlots]
  | split main more =>
    relation 2 main #v[n, Network.mainScoreSlots] ∧ relation 2 more #v[n, Network.moreScoreSlots]

namespace NetworkHeads

/-- A relation holds for every head and the shape asked for in `n` rows of a pool. -/
structure Each (relation : ShapeRelation) (heads : NetworkHeads) (s : PoolShape) (n : Nat) :
    Prop where
  policy : relation 4 heads.policy #v[n, s.policy, s.plane.height, s.plane.width]
  pass : relation 2 heads.pass #v[n, s.policy]
  value : relation 2 heads.value #v[n, valueSlots]
  ownership : relation 4 heads.ownership #v[n, s.ownership, s.plane.height, s.plane.width]
  score : heads.score.Each relation n

/-- Every head has the number of values asked for. -/
abbrev Counted (heads : NetworkHeads) (s : PoolShape) (n : Nat) : Prop :=
  heads.Each (fun _ => ShapedTensor.Counts) s n

/-- Every head has the shape asked for. -/
abbrev Shaped (heads : NetworkHeads) (s : PoolShape) (n : Nat) : Prop :=
  heads.Each (fun _ t shape => t.shape = shape) s n

/-- Every head that has the shape asked for along all axes but one has that shape. -/
abbrev Followed (heads : NetworkHeads) (s : PoolShape) (n : Nat) : Prop :=
  heads.Each (fun _ => ShapedTensor.Follows) s n

variable {heads : NetworkHeads} {s : PoolShape} {n : Nat}

/-- One relation implies another for every head, if it does for shapes without empty axes and
there are rows, channels and planes. -/
theorem Each.imp {relation other : ShapeRelation} (each : heads.Each relation s n)
    (rows : 0 < n) (policy : 0 < s.policy) (ownership : 0 < s.ownership)
    (plane : 0 < s.plane.height ∧ 0 < s.plane.width)
    (implies : ∀ rank t shape, (∀ length ∈ shape.toList, 0 < length) →
      relation rank t shape → other rank t shape) : heads.Each other s n where
  policy := implies _ _ _ (by simp [rows, policy, plane]) each.policy
  pass := implies _ _ _ (by simp [rows, policy]) each.pass
  value := implies _ _ _ (by simp [rows, valueSlots]) each.value
  ownership := implies _ _ _ (by simp [rows, ownership, plane]) each.ownership
  score := by
    have scores := each.score
    cases head : heads.score with
    | unified whole =>
      rw [head] at scores
      exact implies _ _ _ (by simp [rows, scoreSlots]) scores
    | split main more =>
      rw [head] at scores
      exact ⟨implies _ _ _ (by simp [rows, Network.mainScoreSlots]) scores.1,
        implies _ _ _ (by simp [rows, Network.moreScoreSlots]) scores.2⟩

/-- Heads fit output rows of a shape exactly if they have the numbers of values asked for. -/
theorem fits_iff_counted {slots : BatchOutputs} (shaped : slots.Shaped s n) :
    heads.Fits slots n ↔ heads.Counted s n := by
  have planes (channels : Nat) : volume #v[n, channels, s.plane.height, s.plane.width].toList =
      n * (channels * s.plane.cells) := by
    simp [volume, Extent.cells, Nat.mul_comm s.plane.width]
  have table (width : Nat) : volume #v[n, width].toList = n * width := by simp [volume]
  have policyWidth : s.policyWidth = s.policy * s.plane.cells := Nat.mul_comm _ _
  have policy := shaped.policy.trans (policyWidth ▸ (planes s.policy).symm)
  have pass := shaped.pass.trans (table s.policy).symm
  have value := shaped.value.trans (table valueSlots).symm
  have ownership := shaped.ownership.trans (planes s.ownership).symm
  have score : heads.score.Fits n ↔ heads.score.Each (fun _ => ShapedTensor.Counts) n := by
    cases heads.score with
    | unified scores => simp only [ScoreHead.Fits, ScoreHead.Each, ShapedTensor.Counts, table]
    | split main more => simp only [ScoreHead.Fits, ScoreHead.Each, ShapedTensor.Counts, table]
  constructor
  · intro fits
    exact ⟨fits.policy.trans policy, fits.pass.trans pass, fits.value.trans value,
      fits.ownership.trans ownership, score.mp fits.score⟩
  · intro counted
    exact ⟨counted.policy.trans policy.symm, counted.pass.trans pass.symm,
      counted.value.trans value.symm, counted.ownership.trans ownership.symm,
      score.mpr counted.score⟩

end NetworkHeads

namespace Network

/-- Heads with the numbers of values asked for are accepted. -/
theorem run_counted {net : Network} {half : Bool} {s : PoolShape} {n : Nat} {inputs : BatchInputs}
    {slots : BatchOutputs} {heads : NetworkHeads} (shaped : slots.Shaped s n)
    (made : net.heads half inputs n = .ok heads) (counted : heads.Counted s n) :
    (net.run half inputs slots n).result = .ok () := by
  simp only [run, made]
  rcases writeHeads_cases heads half shaped with ⟨_, written⟩ | ⟨differs, _⟩
  · exact congrArg BatchRun.result written
  · exact absurd ((NetworkHeads.fits_iff_counted shaped).mpr counted) differs

/-- Heads of which one has another number of values are refused. -/
theorem run_miscounted {net : Network} {half : Bool} {s : PoolShape} {n : Nat}
    {inputs : BatchInputs} {slots : BatchOutputs} {heads : NetworkHeads}
    (shaped : slots.Shaped s n) (made : net.heads half inputs n = .ok heads)
    (miscounted : ¬heads.Counted s n) :
    ∃ text, (net.run half inputs slots n).result = .error (.error (.shapeMismatch text)) := by
  simp only [run, made]
  rcases writeHeads_cases heads half shaped with ⟨fits, _⟩ | ⟨_, refused, _⟩
  · exact absurd ((NetworkHeads.fits_iff_counted shaped).mp fits) miscounted
  · exact refused

/-- A network that is run over `n` rows of any pool in use, in either precision. If the run
succeeds, the network returned heads with the numbers of values asked for, of which each that
has the shape asked for along all axes but one has that shape. Heads of the shapes asked for are
accepted, and heads of which one has another number of values, or another shape along one axis
alone, are refused as a mismatch of shapes.

Proof: a run succeeds exactly if all counts are right. A head with the right count and
the right axes but one has the last one right as well, as all the others are positive. -/
theorem accepted_shapes (net : Network) (half : Bool) (p : Pool) (n : Nat) (inputs : BatchInputs)
    (slots : BatchOutputs) (used : p.InUse) (handed : p.batch n = .ok (inputs, slots)) :
    ∃ spatial globals, Shown p.shape n half inputs spatial globals ∧
      let run := net.run half inputs slots n
      (run.result = .ok () → ∃ heads, net.forward spatial globals = .ok heads ∧
        heads.Counted p.shape n ∧ heads.Followed p.shape n) ∧
      ∀ heads, net.forward spatial globals = .ok heads →
        (heads.Shaped p.shape n → run.result = .ok ()) ∧
        (¬(heads.Counted p.shape n ∧ heads.Followed p.shape n) →
          ∃ text, run.result = .error (.error (.shapeMismatch text))) := by
  have sized := used.sized
  obtain ⟨⟨positive, bound⟩, rfl, rfl⟩ := Pool.batch_ok_iff.mp handed
  obtain ⟨inputsShaped, slotsShaped⟩ := sized.slices bound
  obtain ⟨spatial, globals, shown, passed⟩ := heads_shown net half inputsShaped
  refine ⟨spatial, globals, shown, ?_⟩
  have channels : 0 < p.shape.policy := by
    rcases sized.fit.policy with one | two <;> omega
  have follows {heads : NetworkHeads} (counted : heads.Counted p.shape n) :
      heads.Counted p.shape n ∧ heads.Followed p.shape n :=
    ⟨counted, counted.imp positive channels sized.fit.ownership sized.plane
      fun _ _ _ inhabited counts => counts.follows inhabited⟩
  constructor
  · intro succeeded
    cases made : net.forward spatial globals with
    | error broken =>
      rw [run, passed, made] at succeeded
      cases succeeded
    | ok heads =>
      by_cases counted : heads.Counted p.shape n
      · exact ⟨heads, rfl, follows counted⟩
      · obtain ⟨text, refused⟩ := run_miscounted slotsShaped (passed.trans made) counted
        cases refused.symm.trans succeeded
  · intro heads made
    constructor
    · intro shaped
      apply run_counted slotsShaped (passed.trans made)
      exact shaped.imp positive channels sized.fit.ownership sized.plane
        fun _ _ _ _ same => ShapedTensor.counts_of_shape same
    · intro differs
      exact run_miscounted slotsShaped (passed.trans made) fun counted => differs (follows counted)

/-- A network that returns zeros for two rows of the tiny handle, over planes of some extent and
with a value head of some shape. -/
def zeros (plane : Extent) (value : Vector Nat 2) : Network where
  forward _ _ := .ok {
    policy := .ofFlat #v[2, 2, plane.height, plane.width] fun _ => .zero
    pass := .table 2 2 fun _ _ => .zero
    value := .ofFlat value fun _ => .zero
    ownership := .ofFlat #v[2, 1, plane.height, plane.width] fun _ => .zero
    score := .split (.table 2 4 fun _ _ => .zero) (.table 2 8 fun _ _ => .zero) }
  version := none

/-- The heads of the shapes asked for are accepted in the planes of the tiny handle. -/
theorem accepted_shapes_tiny :
    let p := Pool.blank Handle.tiny.shape "tiny" 2
    p.InUse ∧ p.batch 2 = .ok (p.inputs 2, p.outputs 2) ∧
      ((zeros (.square 3) #v[2, 3]).run true (p.inputs 2) (p.outputs 2) 2).result = .ok () := by
  intro p
  have used : p.InUse := .created Handle.tiny.descriptor 2 ⟨3, 2⟩ (.square 3) rfl
  have handed : p.batch 2 = .ok (p.inputs 2, p.outputs 2) := rfl
  obtain ⟨_, _, _, _, accepts⟩ := accepted_shapes (zeros (.square 3) #v[2, 3]) true p 2 (p.inputs 2)
    (p.outputs 2) used handed
  exact ⟨used, handed, (accepts _ rfl).1 ⟨rfl, rfl, rfl, rfl, rfl, rfl⟩⟩

/-- Neither planes of the compiled extent nor a row of the value head for each row of the batch
are needed: planes may be those of a smaller pool, and a value head may be turned. -/
theorem other_shapes_accepted :
    let small := Pool.blank Handle.tiny.shape "tiny" 2
    let full := Pool.blank (.ofDescriptor Handle.tiny.descriptor ⟨3, 2⟩ .compiled) "tiny" 2
    (small.InUse ∧ small.batch 2 = .ok (small.inputs 2, small.outputs 2) ∧
      ∃ heads, (zeros (.square 3) #v[2, 3]).heads false (small.inputs 2) 2 = .ok heads ∧
        ((zeros (.square 3) #v[2, 3]).run false (small.inputs 2) (small.outputs 2) 2).result =
          .ok () ∧ heads.policy.shape ≠ #v[2, 2, Extent.longestSide, Extent.longestSide]) ∧
    full.InUse ∧ full.batch 2 = .ok (full.inputs 2, full.outputs 2) ∧
      ∃ heads, (zeros .compiled #v[3, 2]).heads false (full.inputs 2) 2 = .ok heads ∧
        ((zeros .compiled #v[3, 2]).run false (full.inputs 2) (full.outputs 2) 2).result =
          .ok () ∧ heads.value.shape ≠ #v[2, valueSlots] := by
  intro small full
  have smallUsed : small.InUse := .created Handle.tiny.descriptor 2 ⟨3, 2⟩ (.square 3) rfl
  have fullUsed : full.InUse := .created Handle.tiny.descriptor 2 ⟨3, 2⟩ .compiled rfl
  obtain ⟨smallInputs, smallSlots⟩ := smallUsed.sized.slices (Nat.le_refl 2)
  obtain ⟨fullInputs, fullSlots⟩ := fullUsed.sized.slices (Nat.le_refl 2)
  obtain ⟨_, _, _, smallMade⟩ := heads_shown (zeros (.square 3) #v[2, 3]) false smallInputs
  obtain ⟨_, _, _, fullMade⟩ := heads_shown (zeros .compiled #v[3, 2]) false fullInputs
  refine ⟨⟨smallUsed, rfl, _, smallMade, run_counted smallSlots smallMade ?_, by decide⟩,
    fullUsed, rfl, _, fullMade, run_counted fullSlots fullMade ?_, by decide⟩
  · exact ⟨ShapedTensor.size_eq _, ShapedTensor.size_eq _, ShapedTensor.size_eq _,
      ShapedTensor.size_eq _, ShapedTensor.size_eq _, ShapedTensor.size_eq _⟩
  · exact ⟨ShapedTensor.size_eq _, ShapedTensor.size_eq _, ShapedTensor.size_eq _,
      ShapedTensor.size_eq _, ShapedTensor.size_eq _, ShapedTensor.size_eq _⟩

end Network

end BoardEval
