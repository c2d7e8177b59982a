import BoardEval.Proofs.Interpolation

/-!
# Optimism and decoded policies

A policy of two channels is decoded by blending slot by slot: every cell, turned to
the orientation of the request, and the pass, which is not turned. What holds of a
blend therefore holds of every slot. Where both channels hold numbers, a decoded
policy lies between them, and two channels that hold the same plane are decoded as
one channel is, up to the sign of a zero.

A greater optimism does not lead back, but for one place. The place can be lost: two
weights just below a quarter show it, where the exact blend has not yet passed the
middle between two numbers and the rounded one has.
-/

namespace BoardEval

open Number (Single Double)

namespace Number

/-- Finite numbers that are the same rational number are equal. -/
theorem Single.equals_of_rational {x y : Single} (finite : x.isFinite = true)
    (finite' : y.isFinite = true) (same : x.rational = y.rational) : x.equals y = true := by
  have flags := x.flags
  have flags' := y.flags
  have back := x.ofValue_value (fun broken => by simp [broken, finite] at flags)
  have back' := y.ofValue_value (fun broken => by simp [broken, finite'] at flags')
  unfold rational at same
  cases known : x.value with
  | nan => simp [known, finite] at flags
  | infinity => simp [known, finite] at flags
  | finite negative m e =>
  cases known' : y.value with
  | nan => simp [known', finite'] at flags'
  | infinity => simp [known', finite'] at flags'
  | finite sign n i =>
    rw [known] at flags back same
    rw [known'] at flags' back' same
    by_cases none : m = 0
    · have none' : n = 0 := Value.rational_eq_zero.mp (same ▸ Value.rational_eq_zero.mpr none)
      exact equals_zeros (flags.2.2.mpr none) (flags'.2.2.mpr none')
    · obtain ⟨rfl, magnitude⟩ := Value.rational_inj none same
      have pattern : x = y := by
        rw [← back, ← back', ofValue, ofValue, Format.encode, Format.encode,
          Format.roundMagnitude_congr magnitude]
      rw [← pattern]
      exact equals_self flags.1

/-- What lies between a number and itself is the number. -/
theorem Single.Between.equals {x a : Single} (between : x.Between a a)
    (finite : a.isFinite = true) : x.equals a = true := by
  have least := between.least
  have most := between.most
  rw [min_self] at least
  rw [max_self] at most
  exact equals_of_rational between.finite finite (le_antisymm most least)

/-- One and a half. With the number two places after it and two weights below a quarter it
shows that a blend may step back. -/
def Single.oneAndHalf : Single := ⟨0x3fc00000⟩

/-- The number two places after one and a half. -/
def Single.aboveOneAndHalf : Single := ⟨0x3fc00002⟩

/-- A weight six places before a quarter. -/
def Double.belowQuarter : Double := ⟨0x3fcffffffffffffa⟩

/-- The weight one place after that. -/
def Double.nextBelowQuarter : Double := ⟨0x3fcffffffffffffb⟩

/-- The lower weight, as a significand of 53 digits. -/
theorem Double.belowQuarter_value :
    belowQuarter.value = .finite false (2 ^ 53 - 6) (-55) := by decide

/-- The higher weight, as a significand of 53 digits. -/
theorem Double.nextBelowQuarter_value :
    nextBelowQuarter.value = .finite false (2 ^ 53 - 5) (-55) := by decide

/-- The lower number lies between zero and one. -/
theorem Double.belowQuarter_weight : belowQuarter.IsWeight :=
  .of_value belowQuarter_value (by norm_num)

/-- The higher number lies between zero and one. -/
theorem Double.nextBelowQuarter_weight : nextBelowQuarter.IsWeight :=
  .of_value nextBelowQuarter_value (by norm_num)

/-- The two weights are in this order. -/
theorem Double.belowQuarter_le : belowQuarter.rational ≤ nextBelowQuarter.rational := by
  rw [rational_eq belowQuarter_value, rational_eq nextBelowQuarter_value]
  norm_num

end Number

/-! ## Decoded policies -/

/-- A relation between both channels of a slot and the place of the slot in a decoded policy, for
every cell, turned by a symmetry, and for the pass. -/
structure PoolShape.EachSlot (s : PoolShape) (g : Symmetry) (heads : HeadRow)
    (R : Single → Single → Nat → Prop) : Prop where
  cells : ∀ y < s.board.height, ∀ x < s.board.width,
    R (s.channelAt heads (g.cell s.board y x) 0) (s.channelAt heads (g.cell s.board y x) 1)
      (y * s.board.width + x)
  pass : R (heads.pass.valueAt 0) (heads.pass.valueAt 1) s.board.cells

namespace PoolShape.EachSlot

variable {s : PoolShape} {g : Symmetry} {heads : HeadRow} {R T : Single → Single → Nat → Prop}

/-- What follows for one slot follows for each. -/
theorem imp (each : s.EachSlot g heads R) (step : ∀ {x y i}, R x y i → T x y i) :
    s.EachSlot g heads T where
  cells y rows x columns := step (each.cells y rows x columns)
  pass := step each.pass

/-- Two relations that hold of each slot hold of it together. -/
theorem and (each : s.EachSlot g heads R) (each' : s.EachSlot g heads T) :
    s.EachSlot g heads fun x y i => R x y i ∧ T x y i where
  cells y rows x columns := ⟨each.cells y rows x columns, each'.cells y rows x columns⟩
  pass := ⟨each.pass, each'.pass⟩

end PoolShape.EachSlot

namespace Pool

/-- A row of a sound pool with two policy channels can be decoded into an evaluation that has the
slots of the board. -/
structure Blends (p : Pool) (r : Nat) (out : Evaluation) : Prop where
  sound : p.Sound
  two : p.shape.policy = 2
  bound : r < p.capacity
  slots : out.policy.size = p.shape.board.cells + 1

/-- Every slot of a decoded policy is a blend. -/
theorem Blends.decodePolicy_ok {p : Pool} {r : Nat} {out : Evaluation} (blends : p.Blends r out)
    (q : Request) : ∃ p' e, p.decodePolicy r q out = .ok (p', e) ∧
      p.shape.EachSlot q.symmetry (p.heads r) fun base optimistic slot =>
        e.policy.valueAt slot = blend base optimistic q.optimism := by
  obtain ⟨p', _, decoded⟩ := Pool.decodePolicy_ok blends.sound blends.bound q out blends.slots
  have several : p.shape.policy ≠ 1 := by
    rw [blends.two]
    decide
  refine ⟨p', _, decoded, ?_, ?_⟩
  · intro y rows x columns
    simp only [PoolShape.value_decodedPolicy blends.slots rows columns, PoolShape.policyAt, several,
      PoolShape.channelAt, Nat.zero_mul, Nat.zero_add, Nat.one_mul, if_false]
  · simp only [PoolShape.pass_decodedPolicy blends.slots, PoolShape.passOf, several, if_false]

/-- Both channels of every slot hold numbers. -/
def FiniteChannels (p : Pool) (r : Nat) (g : Symmetry) : Prop :=
  p.shape.EachSlot g (p.heads r) fun base optimistic _ =>
    base.isFinite = true ∧ optimistic.isFinite = true

/-- A row of a pool with one policy channel holds the base plane of a row of another pool. -/
structure HoldsBase (p : Pool) (r : Nat) (other : Pool) (i : Nat) : Prop where
  sound : p.Sound
  one : p.shape.policy = 1
  bound : r < p.capacity
  board : p.shape.board = other.shape.board
  plane : ∀ y < p.shape.board.height, ∀ x < p.shape.board.width,
    p.shape.channelAt (p.heads r) (y, x) 0 = other.shape.channelAt (other.heads i) (y, x) 0
  pass : (p.heads r).pass.valueAt 0 = (other.heads i).pass.valueAt 0

/-- Without blending, every slot of a decoded policy is the base channel. -/
theorem HoldsBase.decodePolicy_ok {p other : Pool} {r i : Nat} (holds : p.HoldsBase r other i)
    (q : Request) {out : Evaluation} (slots : out.policy.size = other.shape.board.cells + 1) :
    ∃ p' e, p.decodePolicy r q out = .ok (p', e) ∧
      other.shape.EachSlot q.symmetry (other.heads i) fun base _ slot =>
        e.policy.valueAt slot = base := by
  rw [← holds.board] at slots
  obtain ⟨p', _, decoded⟩ := Pool.decodePolicy_ok holds.sound holds.bound q out slots
  refine ⟨p', _, decoded, ?_, ?_⟩
  · intro y rows x columns
    rw [← holds.board] at rows columns ⊢
    obtain ⟨imageRow, imageColumn⟩ := q.symmetry.cell_inside p.shape.board y x rows columns
    rw [PoolShape.value_decodedPolicy slots rows columns, PoolShape.policyAt, if_pos holds.one,
      ← holds.plane _ imageRow _ imageColumn, PoolShape.channelAt, Nat.zero_mul, Nat.zero_add]
  · rw [← holds.board, PoolShape.pass_decodedPolicy slots, PoolShape.passOf, if_pos holds.one,
      holds.pass]

/-- Other policy planes and pass slots of the same size keep a pool sound. -/
theorem Sound.replaced {p : Pool} (sound : p.Sound) {policy pass : Rows}
    (planes : policy.Holds p.capacity p.shape.policyWidth)
    (slots : pass.Holds p.capacity p.shape.policy) :
    ({ p with policy := policy, pass := pass } : Pool).Sound :=
  { sound with policy := planes, pass := slots }

/-- A pool of the tiny shape with the given number of policy channels. Its first row holds one
value in all of the base plane and one in all that follows it. -/
def tinyPlanes (channels : Nat) (base optimistic : Single) (pass : Tensor) : Pool :=
  let blank := Pool.blank { Handle.tiny.shape with policy := channels } "tiny" 2
  { blank with
    policy := (blank.policy.overwrite 0 (.replicate 9 base)).overwrite 9 (.replicate 9 optimistic)
    pass := blank.pass.overwrite 0 pass }

/-- The pool with constant planes is a sound pool. -/
theorem tinyPlanes_sound {channels : Nat} (some : channels = 1 ∨ channels = 2)
    (base optimistic : Single) (pass : Tensor) :
    (tinyPlanes channels base optimistic pass).Sound := by
  have fit : PoolShape.Fit { Handle.tiny.shape with policy := channels } := by
    rcases some with rfl | rfl <;> constructor <;> decide
  exact (blank_sound _ "tiny" 2 fit).replaced
    (Rows.overwrite_holds (Rows.overwrite_holds (Rows.zeros_holds _ _) _ _) _ _)
    (Rows.overwrite_holds (Rows.zeros_holds _ _) _ _)

/-- With two channels, the tiny request asks the pool for a blend of its first
row. -/
theorem tinyPlanes_blends (base optimistic : Single) (pass : Tensor) (optimism : Double) :
    (tinyPlanes 2 base optimistic pass).Blends 0 (.forRequest (.tiny optimism)) :=
  ⟨tinyPlanes_sound (.inr rfl) base optimistic pass, rfl, Nat.zero_lt_two, rfl⟩

/-- Blending never leaves the interval of its channels, whatever numbers they are, and neither does
a decoded policy at any cell or at the pass. If both channels hold the same plane, the plane is
decoded, up to the sign of a zero, and so it is from a pool with that plane alone.

Proof: what holds of a blend of two values holds of every slot of the policy, the pass
included. A value between a number and itself is that number. -/
theorem decodePolicy_between {optimism : Double} (weight : optimism.IsWeight) :
    (∀ base optimistic : Single, base.isFinite = true → optimistic.isFinite = true →
      (blend base optimistic optimism).Between base optimistic) ∧
    ∀ (p : Pool) (r : Nat) (out : Evaluation) (q : Request), p.Blends r out →
      p.FiniteChannels r q.symmetry →
      ∃ p' e, p.decodePolicy r { q with optimism := optimism } out = .ok (p', e) ∧
        (p.shape.EachSlot q.symmetry (p.heads r) fun base optimistic slot =>
          (e.policy.valueAt slot).Between base optimistic) ∧
        ((p.shape.EachSlot q.symmetry (p.heads r) fun base optimistic _ => base = optimistic) →
          (p.shape.EachSlot q.symmetry (p.heads r) fun base _ slot =>
            (e.policy.valueAt slot).equals base = true) ∧
          ∀ (single : Pool) (i : Nat), single.HoldsBase i p r →
            ∃ p'' e', single.decodePolicy i { q with optimism := optimism } out = .ok (p'', e') ∧
              p.shape.EachSlot q.symmetry (p.heads r) fun _ _ slot =>
                (e.policy.valueAt slot).equals (e'.policy.valueAt slot) = true) := by
  have blended (base optimistic : Single) (finite : base.isFinite = true)
      (finite' : optimistic.isFinite = true) := blend_between finite finite' weight
  refine ⟨blended, fun p r out q blends finite => ?_⟩
  obtain ⟨p', e, decoded, slots⟩ := blends.decodePolicy_ok { q with optimism := optimism }
  refine ⟨p', e, decoded, ?between, fun same => ?plane⟩
  case between =>
    apply (slots.and finite).imp
    rintro base optimistic slot ⟨value, proper⟩
    rw [value]
    exact blended base optimistic proper.1 proper.2
  case plane =>
    have kept : p.shape.EachSlot q.symmetry (p.heads r) fun base _ slot =>
        (e.policy.valueAt slot).equals base = true := by
      apply ((slots.and same).and finite).imp
      rintro base optimistic slot ⟨⟨value, rfl⟩, proper, _⟩
      rw [value]
      exact (blended base base proper proper).equals proper
    refine ⟨kept, fun single i holds => ?_⟩
    obtain ⟨p'', e', decoded', slots'⟩ :=
      holds.decodePolicy_ok { q with optimism := optimism } blends.slots
    refine ⟨p'', e', decoded', (kept.and slots').imp ?_⟩
    rintro base optimistic slot ⟨equal, value⟩
    rwa [value]

/-- Both channels hold a third at every cell and a tenth at the pass, and a pool with one channel
holds the same. At the largest and the least numbers a blend stays between its channels, too. -/
theorem decodePolicy_between_tiny :
    let third : Single := ⟨0x3eaaaaab⟩
    let tenth : Single := ⟨0x3dcccccd⟩
    let p := tinyPlanes 2 third third #[tenth, tenth]
    let single := tinyPlanes 1 third third #[tenth]
    let q := Request.tiny .belowQuarter
    Double.belowQuarter.IsWeight ∧ p.Blends 0 (.forRequest q) ∧ p.FiniteChannels 0 q.symmetry ∧
      single.HoldsBase 0 p 0 ∧
      (blend ⟨0x7f7fffff⟩ ⟨0x80000001⟩ .belowQuarter).Between ⟨0x7f7fffff⟩ ⟨0x80000001⟩ ∧
      ∃ p' e p'' e', p.decodePolicy 0 q (.forRequest q) = .ok (p', e) ∧
        single.decodePolicy 0 q (.forRequest q) = .ok (p'', e') ∧
        (e.policy.valueAt 3).equals third = true ∧ (e.policy.valueAt 6).equals tenth = true ∧
        (e.policy.valueAt 3).equals (e'.policy.valueAt 3) = true := by
  intro third tenth p single q
  have blends : p.Blends 0 (.forRequest q) := tinyPlanes_blends _ _ _ _
  have finite : p.FiniteChannels 0 q.symmetry := ⟨by decide +kernel, by decide +kernel⟩
  have holds : single.HoldsBase 0 p 0 :=
    ⟨tinyPlanes_sound (.inl rfl) _ _ _, rfl, Nat.zero_lt_two, rfl, by decide +kernel,
      by decide +kernel⟩
  obtain ⟨numbers, decodes⟩ := decodePolicy_between Double.belowQuarter_weight
  obtain ⟨p', e, decoded, _, plane⟩ := decodes p 0 (.forRequest q) q blends finite
  obtain ⟨kept, singly⟩ := plane ⟨by decide +kernel, by decide +kernel⟩
  obtain ⟨p'', e', decoded', agrees⟩ := singly single 0 holds
  have cell := kept.cells 1 (by decide) 0 (by decide)
  have pass := kept.pass
  have held : p.shape.channelAt (p.heads 0) (q.symmetry.cell p.shape.board 1 0) 0 = third := by
    decide +kernel
  have held' : (p.heads 0).pass.valueAt 0 = tenth := by decide +kernel
  rw [held] at cell
  rw [held'] at pass
  exact ⟨Double.belowQuarter_weight, blends, finite, holds, numbers _ _ (by decide) (by decide),
    p', e, p'', e', decoded, decoded', cell, pass, agrees.cells 1 (by decide) 0 (by decide)⟩

/-- A greater optimism leads every blend on towards its optimistic channel, but for one place, and
likewise every cell and the pass of a decoded policy. -/
theorem decodePolicy_advances {before after : Double} (weight : before.IsWeight)
    (weight' : after.IsWeight) (later : before.rational ≤ after.rational) :
    (∀ base optimistic : Single, base.isFinite = true → optimistic.isFinite = true →
      Advances base optimistic before after (blend base optimistic before)
        (blend base optimistic after)) ∧
    ∀ (p : Pool) (r : Nat) (out : Evaluation) (q : Request), p.Blends r out →
      p.FiniteChannels r q.symmetry →
      ∃ p' first p'' second,
        p.decodePolicy r { q with optimism := before } out = .ok (p', first) ∧
        p.decodePolicy r { q with optimism := after } out = .ok (p'', second) ∧
        p.shape.EachSlot q.symmetry (p.heads r) fun base optimistic slot =>
          Advances base optimistic before after (first.policy.valueAt slot)
            (second.policy.valueAt slot) := by
  have blended (base optimistic : Single) (finite : base.isFinite = true)
      (finite' : optimistic.isFinite = true) :=
    blend_advances finite finite' weight weight' later
  refine ⟨blended, fun p r out q blends finite => ?_⟩
  obtain ⟨p', first, decoded, slots⟩ := blends.decodePolicy_ok { q with optimism := before }
  obtain ⟨p'', second, decoded', slots'⟩ := blends.decodePolicy_ok { q with optimism := after }
  refine ⟨p', first, p'', second, decoded, decoded', ?_⟩
  apply ((slots.and slots').and finite).imp
  rintro base optimistic slot ⟨⟨value, value'⟩, proper, proper'⟩
  rw [value, value']
  exact blended base optimistic proper proper'

/-- The blends that step back are one place apart. At the pass, where the channels have different
signs, the policy falls from the base channel. -/
theorem decodePolicy_advances_tiny :
    let p := tinyPlanes 2 .oneAndHalf .aboveOneAndHalf #[.ofInt 1, .ofInt (-1)]
    let q := Request.tiny .belowQuarter
    let later := { q with optimism := .nextBelowQuarter }
    Double.belowQuarter.IsWeight ∧ Double.nextBelowQuarter.IsWeight ∧
      Double.belowQuarter.rational ≤ Double.nextBelowQuarter.rational ∧
      p.Blends 0 (.forRequest q) ∧ p.FiniteChannels 0 q.symmetry ∧
      ∃ p' first p'' second, p.decodePolicy 0 q (.forRequest q) = .ok (p', first) ∧
        p.decodePolicy 0 later (.forRequest q) = .ok (p'', second) ∧
        (first.policy.valueAt 3).AtMostNext (second.policy.valueAt 3) ∧
        (second.policy.valueAt 6).rational ≤ (first.policy.valueAt 6).rational := by
  intro p q later
  have blends : p.Blends 0 (.forRequest q) := tinyPlanes_blends _ _ _ _
  have finite : p.FiniteChannels 0 q.symmetry := ⟨by decide +kernel, by decide +kernel⟩
  obtain ⟨_, decodes⟩ := decodePolicy_advances Double.belowQuarter_weight
    Double.nextBelowQuarter_weight Double.belowQuarter_le
  obtain ⟨p', first, p'', second, decoded, decoded', advances⟩ :=
    decodes p 0 (.forRequest q) q blends finite
  have cell := advances.cells 1 (by decide) 0 (by decide)
  have pass := advances.pass
  have base : (p.shape.channelAt (p.heads 0) (q.symmetry.cell p.shape.board 1 0) 0).value =
      .finite false (3 * 2 ^ 22) (-23) := by decide +kernel
  have optimistic : (p.shape.channelAt (p.heads 0) (q.symmetry.cell p.shape.board 1 0) 1).value =
      .finite false (3 * 2 ^ 22 + 2) (-23) := by decide +kernel
  have base' : ((p.heads 0).pass.valueAt 0).value = .finite false (2 ^ 23) (-23) := by
    decide +kernel
  have optimistic' : ((p.heads 0).pass.valueAt 1).value = .finite true (2 ^ 23) (-23) := by
    decide +kernel
  refine ⟨Double.belowQuarter_weight, Double.nextBelowQuarter_weight, Double.belowQuarter_le,
    blends, finite, p', first, p'', second, decoded, decoded', cell.rising ?_,
    (pass.ordered (.inl ?_)).2 ?_⟩
  · rw [Single.rational_eq base, Single.rational_eq optimistic]
    norm_num
  · rw [Single.rational_eq base', Single.rational_eq optimistic']
    norm_num
  · rw [Single.rational_eq base', Single.rational_eq optimistic']
    norm_num

end Pool

/-- The one place is lost here: under the greater weight the blend is back at the base channel,
which the optimistic channel exceeds. -/
theorem blend_steps_back :
    Single.oneAndHalf.isFinite = true ∧ Single.aboveOneAndHalf.isFinite = true ∧
      Single.oneAndHalf.rational ≤ Single.aboveOneAndHalf.rational ∧
      Double.belowQuarter.IsWeight ∧ Double.nextBelowQuarter.IsWeight ∧
      Double.belowQuarter.rational ≤ Double.nextBelowQuarter.rational ∧
      (blend .oneAndHalf .aboveOneAndHalf .nextBelowQuarter).rational <
        (blend .oneAndHalf .aboveOneAndHalf .belowQuarter).rational := by
  have base : Single.oneAndHalf.value = .finite false (3 * 2 ^ 22) (-23) := by decide
  have optimistic : Single.aboveOneAndHalf.value = .finite false (3 * 2 ^ 22 + 2) (-23) := by decide
  have first : (blend .oneAndHalf .aboveOneAndHalf .belowQuarter).value =
      .finite false (3 * 2 ^ 22 + 1) (-23) := by decide
  have second : (blend .oneAndHalf .aboveOneAndHalf .nextBelowQuarter).value =
      .finite false (3 * 2 ^ 22) (-23) := by decide
  refine ⟨by decide, by decide, ?_, Double.belowQuarter_weight, Double.nextBelowQuarter_weight,
    Double.belowQuarter_le, ?_⟩
  · rw [Single.rational_eq base, Single.rational_eq optimistic]
    norm_num
  · rw [Single.rational_eq first, Single.rational_eq second]
    norm_num

end BoardEval
