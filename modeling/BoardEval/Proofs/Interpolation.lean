import BoardEval.Proofs.Blending
import BoardEval.Proofs.Nearest

/-!
# Between the ends of the blend

A blend is rounded four times in double precision, for the weight of the base channel,
for both terms and for their sum, and once more when it is narrowed. Its weights need
not add up to one.

If the channels are not of the same sign, each term stays on its own side of zero and
every rounding keeps order: the blend lies between its channels and follows the weight.
If they are of the same sign, the sum is off by a few last digits of double precision.
That is far less than half a last digit of single precision, so the narrowed sum is one
of the two numbers around the exact blend. It cannot leave the channels, but when the
weight grows across the middle between two numbers it may step back by one place.

Infinities and NaNs in a channel are not treated here.
-/

namespace BoardEval

namespace Number

/-- A format has the opposite of every number that it has. -/
theorem Format.Holds.neg {f : Format} {x : ℚ} (held : f.Holds x) : f.Holds (-x) := by
  obtain ⟨k, lower, upper, rfl⟩ := held
  exact ⟨-k, by omega, by omega, f.point_neg k⟩

/-- Single-precision numbers are less than the power of two after the largest. -/
theorem Format.single_infinity : Format.single.magnitude Format.single.infinityBits = 2 ^ 128 := by
  have grid := Format.single.magnitude_grid (m := 2 ^ 24) (n := 253) (Nat.le_refl _)
    (.inl (by decide))
  have bits : Format.single.infinityBits = 2 ^ 24 + 253 * 2 ^ Format.single.fractionBits := by
    decide
  have lowest : Format.single.minExponent = -149 := by decide
  rw [bits, grid, lowest]
  norm_num

namespace Double

/-- One is one, also as a rational number. -/
theorem rational_one : one.rational = 1 := by
  rw [rational_eq value_one]
  norm_num

/-- Zero is zero, also as a rational number. -/
theorem rational_zero : zero.rational = 0 := by
  have value : zero.value = .finite false 0 (-1074) := by decide
  rw [rational_eq value]
  norm_num

/-- Double precision has the number one. -/
theorem holds_one : Format.double.Holds 1 := rational_one ▸ holds (by rw [value_one]; rfl)

/-- Double precision has the number zero. -/
theorem holds_zero : Format.double.Holds 0 := rational_zero ▸ holds rfl

/-- A number that is out of reach of the sum of two single-precision numbers. -/
theorem holds_large : Format.double.Holds (2 ^ 129) := by
  have value : (⟨0x4800000000000000⟩ : Double).value = .finite false (2 ^ 52) 77 := by decide
  have number : (⟨0x4800000000000000⟩ : Double).rational = 2 ^ 129 := by
    rw [rational_eq value]
    norm_num
  exact number ▸ holds (by rw [value]; rfl)

/-- A number from zero to one. -/
structure IsWeight (o : Double) : Prop where
  finite : o.value.isFinite = true
  nonneg : 0 ≤ o.rational
  le_one : o.rational ≤ 1

/-- A positive significand at some place that comes to at most one is a weight. -/
theorem IsWeight.of_value {o : Double} {m : Nat} {e : ℤ} (known : o.value = .finite false m e)
    (le_one : (m * 2 ^ e : ℚ) ≤ 1) : o.IsWeight := by
  have number : o.rational = m * 2 ^ e := rational_eq known
  constructor
  case finite => rw [known]; rfl
  case nonneg => rw [number]; positivity
  case le_one => rwa [number]

section

variable {o : Double} (weight : o.IsWeight)
include weight

/-- What a weight leaves to one is computed with one rounding. -/
theorem IsWeight.complement_rounds :
    Format.double.Rounds (1 - o.rational) (one.sub o).value := by
  have rounds := sub_rounds (x := one) (by rw [value_one]; rfl) weight.finite
  rwa [rational_one] at rounds

/-- What a weight leaves to one is a weight. -/
theorem IsWeight.complement : (one.sub o).IsWeight := by
  obtain ⟨finite, nonneg, le_one⟩ := weight.complement_rounds.between holds_zero holds_one
    (by linarith [weight.le_one]) (by linarith [weight.nonneg])
  exact ⟨finite, nonneg, le_one⟩

/-- A weighted number lies between zero and the number. -/
theorem mul_weight {x : Double} (finite : x.value.isFinite = true) :
    (x.mul o).value.isFinite = true ∧ min 0 x.rational ≤ (x.mul o).rational ∧
      (x.mul o).rational ≤ max 0 x.rational := by
  have rounds := mul_rounds finite weight.finite
  obtain ⟨_, nonneg, le_one⟩ := weight
  rcases le_total 0 x.rational with positive | negative
  · rw [min_eq_left positive, max_eq_right positive]
    exact rounds.between holds_zero (holds finite) (mul_nonneg positive nonneg)
      (mul_le_of_le_one_right positive le_one)
  · rw [min_eq_right negative, max_eq_left negative]
    refine rounds.between (holds finite) holds_zero ?_
      (mul_nonpos_of_nonpos_of_nonneg negative nonneg)
    linarith [mul_le_mul_of_nonpos_left le_one negative]

end

end Double

end Number

open Number (Single Double Format)

/-- What the base value contributes to a blend, its weight and the product rounded once
each. -/
def keptPart (base : Single) (optimism : Double) : Double :=
  base.toDouble.mul (Double.one.sub optimism)

/-- What the optimistic value contributes, rounded once. -/
def gainedPart (optimistic : Single) (optimism : Double) : Double :=
  optimistic.toDouble.mul optimism

/-- The sum of both contributions before it is narrowed. -/
def blendSum (base optimistic : Single) (optimism : Double) : Double :=
  (keptPart base optimism).add (gainedPart optimistic optimism)

/-- The exact blend. -/
def interpolate (base optimistic optimism : ℚ) : ℚ :=
  base * (1 - optimism) + optimistic * optimism

section

variable {base optimistic : Single} {optimism : Double} (finite : base.isFinite = true)
  (finite' : optimistic.isFinite = true) (weight : optimism.IsWeight)

include finite weight in

/-- The contribution of the base value does not overflow and lies between zero and
that value: no rounding leaves an interval whose ends are numbers of the format. -/
theorem keptPart_between : (keptPart base optimism).value.isFinite = true ∧
    min 0 base.rational ≤ (keptPart base optimism).rational ∧
      (keptPart base optimism).rational ≤ max 0 base.rational := by
  obtain ⟨proper, same⟩ := Single.rational_toDouble finite
  exact same ▸ Double.mul_weight weight.complement proper

include finite' weight in

/-- Likewise the contribution of the optimistic value. -/
theorem gainedPart_between : (gainedPart optimistic optimism).value.isFinite = true ∧
    min 0 optimistic.rational ≤ (gainedPart optimistic optimism).rational ∧
      (gainedPart optimistic optimism).rational ≤ max 0 optimistic.rational := by
  obtain ⟨proper, same⟩ := Single.rational_toDouble finite'
  exact same ▸ Double.mul_weight weight proper

include finite finite' weight

/-- The sum of the contributions, each of them rounded already, is rounded once
more. -/
theorem blendSum_rounds : Format.double.Rounds
    ((keptPart base optimism).rational + (gainedPart optimistic optimism).rational)
      (blendSum base optimistic optimism).value :=
  Double.add_rounds (keptPart_between finite weight).1 (gainedPart_between finite' weight).1

/-- The sum does not overflow. -/
theorem blendSum_finite : (blendSum base optimistic optimism).value.isFinite = true := by
  obtain ⟨_, keptLow, keptHigh⟩ := keptPart_between finite weight
  obtain ⟨_, gainedLow, gainedHigh⟩ := gainedPart_between finite' weight
  have small := (Single.holds finite).below
  have small' := (Single.holds finite').below
  rw [Format.single_infinity] at small small'
  obtain ⟨low, high⟩ := abs_lt.mp small
  obtain ⟨low', high'⟩ := abs_lt.mp small'
  have least : (-2 ^ 128 : ℚ) ≤ min 0 base.rational := le_min (by norm_num) low.le
  have most : max 0 base.rational ≤ (2 ^ 128 : ℚ) := max_le (by norm_num) high.le
  have least' : (-2 ^ 128 : ℚ) ≤ min 0 optimistic.rational := le_min (by norm_num) low'.le
  have most' : max 0 optimistic.rational ≤ (2 ^ 128 : ℚ) := max_le (by norm_num) high'.le
  have double : (2 ^ 129 : ℚ) = 2 ^ 128 + 2 ^ 128 := by norm_num
  exact ((blendSum_rounds finite finite' weight).between Double.holds_large.neg Double.holds_large
    (by linarith) (by linarith)).1

/-- Narrowing the sum is the fifth and last rounding of a blend, counting the weight
of the base value, both products and the sum. -/
theorem blend_rounds : Format.single.Rounds (blendSum base optimistic optimism).rational
    (blend base optimistic optimism).value :=
  Double.toSingle_rounds (blendSum_finite finite finite' weight)

end

/-- How far a sum of two weighted numbers is off if every operation is off by a last digit of its
result at most. The weights need not add up to one.

Proof: the error is the sum of four, one for each rounding, with the error of the
weight scaled by its channel. Each is bounded by a part of what it rounds, and these
are bounded by the two shares in turn; the premise on the least step absorbs
underflow. -/
theorem blended_error {x y t w kept gained sum step : ℚ} (nonneg : 0 ≤ t) (le_one : t ≤ 1)
    (weight : 0 ≤ w) (least : 0 ≤ step)
    (weightError : 2 ^ 53 * |w - (1 - t)| ≤ |w| + step)
    (keptError : 2 ^ 53 * |kept - x * w| ≤ |kept| + step)
    (gainedError : 2 ^ 53 * |gained - y * t| ≤ |gained| + step)
    (sumError : 2 ^ 53 * |sum - (kept + gained)| ≤ |sum| + step)
    (tiny : (|x| + 4) * step ≤ |x| * (1 - t) + |y| * t) :
    2 ^ 49 * |sum - interpolate x y t| ≤ |x| * (1 - t) + |y| * t := by
  have share : |x * (1 - t)| = |x| * (1 - t) := by
    rw [abs_mul, abs_of_nonneg (sub_nonneg.mpr le_one)]
  have share' : |y * t| = |y| * t := by rw [abs_mul, abs_of_nonneg nonneg]
  have product : |x * w| = |x| * w := by rw [abs_mul, abs_of_nonneg weight]
  have first : 2 ^ 53 * |x * w - x * (1 - t)| ≤ |x| * w + |x| * step := by
    rw [abs_of_nonneg weight] at weightError
    have scaled := mul_le_mul_of_nonneg_left weightError (abs_nonneg x)
    rw [← mul_sub, abs_mul]
    linarith
  have sizeProduct := abs_sub_abs_le_abs_sub (x * w) (x * (1 - t))
  have sizeKept := abs_sub_abs_le_abs_sub kept (x * w)
  have sizeGained := abs_sub_abs_le_abs_sub gained (y * t)
  have sizeSum := abs_sub_abs_le_abs_sub sum (kept + gained)
  have sizeBoth := abs_add_le kept gained
  have parts : sum - interpolate x y t = (sum - (kept + gained)) + (kept - x * w) +
      (x * w - x * (1 - t)) + (gained - y * t) := by
    unfold interpolate
    ring
  have total : |sum - interpolate x y t| ≤ |sum - (kept + gained)| + |kept - x * w| +
      |x * w - x * (1 - t)| + |gained - y * t| := by
    rw [parts]
    exact (abs_add_le _ _).trans (add_le_add_left (abs_add_three _ _ _) _)
  have natural := mul_nonneg (abs_nonneg x) (sub_nonneg.mpr le_one)
  have natural' := mul_nonneg (abs_nonneg y) nonneg
  rw [share, product] at sizeProduct
  rw [product] at sizeKept
  rw [share'] at sizeGained
  linarith

/-- Channels of the same sign do not cancel. -/
theorem abs_interpolate {x y t : ℚ} (alike : 0 < x * y) (nonneg : 0 ≤ t) (le_one : t ≤ 1) :
    |interpolate x y t| = |x| * (1 - t) + |y| * t := by
  have rest : 0 ≤ 1 - t := sub_nonneg.mpr le_one
  unfold interpolate
  rcases pos_and_pos_or_neg_and_neg_of_mul_pos alike with
    ⟨positive, positive'⟩ | ⟨negative, negative'⟩
  · rw [abs_of_pos positive, abs_of_pos positive', abs_of_nonneg (by positivity)]
  · have kept := mul_nonpos_of_nonpos_of_nonneg negative.le rest
    have gained := mul_nonpos_of_nonpos_of_nonneg negative'.le nonneg
    rw [abs_of_neg negative, abs_of_neg negative', abs_of_nonpos (by linarith)]
    ring

/-- The exact blend lies between the channels. -/
theorem interpolate_between {x y t : ℚ} (nonneg : 0 ≤ t) (le_one : t ≤ 1) :
    min x y ≤ interpolate x y t ∧ interpolate x y t ≤ max x y := by
  have rest : 0 ≤ 1 - t := sub_nonneg.mpr le_one
  have least := mul_le_mul_of_nonneg_right (min_le_left x y) rest
  have least' := mul_le_mul_of_nonneg_right (min_le_right x y) nonneg
  have most := mul_le_mul_of_nonneg_right (le_max_left x y) rest
  have most' := mul_le_mul_of_nonneg_right (le_max_right x y) nonneg
  unfold interpolate
  constructor <;> linarith

/-- What single precision can show is far above the least step of double precision. -/
theorem least_step_tiny {x : ℚ} (small : x < 2 ^ 128) {total : ℚ}
    (large : 2 ^ Format.single.minExponent ≤ total) :
    (x + 4) * (2 ^ Format.double.fractionBits * 2 ^ Format.double.minExponent) ≤ total := by
  have lowest : Format.double.minExponent = -1074 := by decide
  have lowest' : Format.single.minExponent = -149 := by decide
  have step : (2 ^ Format.double.fractionBits * 2 ^ Format.double.minExponent : ℚ) =
      2 ^ (-1022 : ℤ) := by
    rw [lowest, ← zpow_natCast, ← zpow_add₀ (by norm_num)]
    rfl
  have room : x + 4 ≤ 2 ^ (129 : ℤ) := by
    have double : (2 ^ (129 : ℤ) : ℚ) = 2 ^ 128 + 2 ^ 128 := by norm_num
    linarith [show (4 : ℚ) ≤ 2 ^ 128 by norm_num]
  rw [lowest'] at large
  calc (x + 4) * (2 ^ Format.double.fractionBits * 2 ^ Format.double.minExponent)
      ≤ 2 ^ (129 : ℤ) * 2 ^ (-1022 : ℤ) := by
        rw [step]
        exact mul_le_mul_of_nonneg_right room (by positivity)
    _ = 2 ^ (129 + -1022 : ℤ) := (zpow_add₀ (by norm_num) _ _).symm
    _ ≤ 2 ^ (-149 : ℤ) := zpow_le_zpow_right₀ (by norm_num) (by norm_num)
    _ ≤ total := large

section

variable {base optimistic : Single} {optimism : Double} (finite : base.isFinite = true)
  (finite' : optimistic.isFinite = true) (weight : optimism.IsWeight)
include finite finite' weight

/-- Where both channels have the same sign, the sum is off by few of its last digits. -/
theorem blendSum_error (alike : 0 < base.rational * optimistic.rational) :
    2 ^ 49 * |(blendSum base optimistic optimism).rational -
        interpolate base.rational optimistic.rational optimism.rational| ≤
      |interpolate base.rational optimistic.rational optimism.rational| := by
  obtain ⟨wide, same⟩ := Single.rational_toDouble finite
  obtain ⟨wide', same'⟩ := Single.rational_toDouble finite'
  have rest := weight.complement
  have keptError := (Double.mul_rounds wide rest.finite).error (keptPart_between finite weight).1
  have gainedError := (Double.mul_rounds wide' weight.finite).error
    (gainedPart_between finite' weight).1
  have sumError := (blendSum_rounds finite finite' weight).error
    (blendSum_finite finite finite' weight)
  rw [same] at keptError
  rw [same'] at gainedError
  have small := (Single.holds finite).below
  rw [Format.single_infinity] at small
  have least := (Single.holds finite).least (left_ne_zero_of_mul alike.ne')
  have least' := (Single.holds finite').least (right_ne_zero_of_mul alike.ne')
  have share := mul_le_mul_of_nonneg_right least (sub_nonneg.mpr weight.le_one)
  have share' := mul_le_mul_of_nonneg_right least' weight.nonneg
  rw [abs_interpolate alike weight.nonneg weight.le_one]
  exact blended_error weight.nonneg weight.le_one rest.nonneg (by positivity)
    (weight.complement_rounds.error rest.finite) keptError gainedError sumError
    (least_step_tiny small (by linarith))

/-- A blend of channels of the same sign is one of the two numbers around the exact blend.

Proof: for channels of one sign the sum before narrowing passes a number beyond the
exact blend by a small part of its last digit at most. A rounding to nearest is not
carried past a number by so little. -/
theorem blend_faithful (alike : 0 < base.rational * optimistic.rational) :
    (blend base optimistic optimism).isFinite = true ∧
      ∀ z, Format.single.Holds z →
        (interpolate base.rational optimistic.rational optimism.rational ≤ z →
          (blend base optimistic optimism).rational ≤ z) ∧
        (z ≤ interpolate base.rational optimistic.rational optimism.rational →
          z ≤ (blend base optimistic optimism).rational) := by
  have error := blendSum_error finite finite' weight alike
  have rounds := blend_rounds finite finite' weight
  obtain ⟨least, most⟩ := interpolate_between (x := base.rational) (y := optimistic.rational)
    weight.nonneg weight.le_one
  generalize interpolate base.rational optimistic.rational optimism.rational = exact at *
  generalize (blendSum base optimistic optimism).rational = sum at *
  have digits : (2 ^ (Format.single.fractionBits + 3) : ℚ) = 2 ^ 26 := rfl
  have off := abs_nonneg (sum - exact)
  have nearAbove {z : ℚ} (less : exact ≤ z) :
      2 ^ (Format.single.fractionBits + 3) * (sum - z) ≤ |z| := by
    have size := abs_sub_abs_le_abs_sub exact z
    rw [abs_of_nonpos (by linarith : exact - z ≤ 0)] at size
    have side := le_abs_self (sum - exact)
    have natural := abs_nonneg z
    rw [digits]
    linarith
  have nearBelow {z : ℚ} (more : z ≤ exact) :
      2 ^ (Format.single.fractionBits + 3) * (z - sum) ≤ |z| := by
    have size := abs_sub_abs_le_abs_sub exact z
    rw [abs_of_nonneg (by linarith : 0 ≤ exact - z)] at size
    have side := neg_abs_le (sum - exact)
    have natural := abs_nonneg z
    rw [digits]
    linarith
  have heldLow : Format.single.Holds (min base.rational optimistic.rational) :=
    min_rec' _ (Single.holds finite) (Single.holds finite')
  have heldHigh : Format.single.Holds (max base.rational optimistic.rational) :=
    max_rec' _ (Single.holds finite) (Single.holds finite')
  have proper := rounds.finite_of_near heldLow heldHigh (nearBelow least) (nearAbove most)
  refine ⟨(Single.isFinite_value _).symm.trans proper, fun z held => ⟨?_, ?_⟩⟩
  · intro less
    exact rounds.le_of_near proper held (nearAbove less)
  · intro more
    exact rounds.ge_of_near proper held (nearBelow more)

end

/-! ## Between the channels -/

/-- Finite, and between two numbers in either order. -/
structure Number.Single.Between (x a b : Single) : Prop where
  finite : x.isFinite = true
  least : min a.rational b.rational ≤ x.rational
  most : x.rational ≤ max a.rational b.rational

section

variable {base optimistic : Single} {optimism : Double} (finite : base.isFinite = true)
  (finite' : optimistic.isFinite = true) (weight : optimism.IsWeight)
include finite finite' weight

/-- Channels of different signs: each term stays on its side of zero, and no rounding leaves
the interval of the channels. -/
theorem blend_between_opposite (opposite : base.rational * optimistic.rational ≤ 0) :
    (blend base optimistic optimism).Between base optimistic := by
  obtain ⟨_, keptLow, keptHigh⟩ := keptPart_between finite weight
  obtain ⟨_, gainedLow, gainedHigh⟩ := gainedPart_between finite' weight
  obtain ⟨wide, same⟩ := Single.rational_toDouble finite
  obtain ⟨wide', same'⟩ := Single.rational_toDouble finite'
  have held : Format.double.Holds base.rational := same ▸ Double.holds wide
  have held' : Format.double.Holds optimistic.rational := same' ▸ Double.holds wide'
  have sides : min 0 base.rational + min 0 optimistic.rational =
      min base.rational optimistic.rational ∧
      max 0 base.rational + max 0 optimistic.rational = max base.rational optimistic.rational := by
    rcases mul_nonpos_iff.mp opposite with ⟨positive, negative⟩ | ⟨negative, positive⟩
    · rw [min_eq_left positive, min_eq_right negative, max_eq_right positive,
        max_eq_left negative, min_eq_right (negative.trans positive),
        max_eq_left (negative.trans positive)]
      exact ⟨zero_add _, add_zero _⟩
    · rw [min_eq_right negative, min_eq_left positive, max_eq_left negative,
        max_eq_right positive, min_eq_left (negative.trans positive),
        max_eq_right (negative.trans positive)]
      exact ⟨add_zero _, zero_add _⟩
  obtain ⟨_, least, most⟩ := (blendSum_rounds finite finite' weight).between
    (min_rec' _ held held') (max_rec' _ held held') (by linarith) (by linarith)
  obtain ⟨proper, least, most⟩ := (blend_rounds finite finite' weight).between
    (min_rec' _ (Single.holds finite) (Single.holds finite'))
    (max_rec' _ (Single.holds finite) (Single.holds finite')) least most
  exact ⟨(Single.isFinite_value _).symm.trans proper, least, most⟩

/-- A blend is finite and lies between its channels. -/
theorem blend_between : (blend base optimistic optimism).Between base optimistic := by
  by_cases alike : 0 < base.rational * optimistic.rational
  · obtain ⟨proper, faithful⟩ := blend_faithful finite finite' weight alike
    obtain ⟨least, most⟩ := interpolate_between (x := base.rational) (y := optimistic.rational)
      weight.nonneg weight.le_one
    exact ⟨proper,
      (faithful _ (min_rec' _ (Single.holds finite) (Single.holds finite'))).2 least,
      (faithful _ (max_rec' _ (Single.holds finite) (Single.holds finite'))).1 most⟩
  · exact blend_between_opposite finite finite' weight (not_lt.mp alike)

end

/-! ## Greater weights -/

/-- Ordered, or one place apart: no number lies between `x` and a lesser `y`. -/
def Number.Single.AtMostNext (x y : Single) : Prop :=
  ∀ z : Single, z.isFinite = true → y.rational < z.rational → x.rational ≤ z.rational

/-- What is not greater is in particular at most the next number. -/
theorem Number.Single.AtMostNext.of_le {x y : Single} (ordered : x.rational ≤ y.rational) :
    x.AtMostNext y := fun _ _ less => ordered.trans less.le

section

variable {base optimistic : Single} {first second : Double} (finite : base.isFinite = true)
  (finite' : optimistic.isFinite = true) (weight : first.IsWeight) (weight' : second.IsWeight)
include finite finite' weight weight'

/-- Sums in order are narrowed in order. -/
theorem blend_le_of_sum
    (ordered : (blendSum base optimistic first).rational ≤
      (blendSum base optimistic second).rational) :
    (blend base optimistic first).rational ≤ (blend base optimistic second).rational := by
  have proper := (blend_between finite finite' weight).finite
  have proper' := (blend_between finite finite' weight').finite
  rw [← Single.isFinite_value] at proper proper'
  exact (blend_rounds finite finite' weight).mono (blend_rounds finite finite' weight') ordered
    proper proper'

/-- Where both terms are in order, so are the blends. -/
theorem blend_le_of_terms
    (kept : base.rational * (Double.one.sub first).rational ≤
      base.rational * (Double.one.sub second).rational)
    (gained : optimistic.rational * first.rational ≤ optimistic.rational * second.rational) :
    (blend base optimistic first).rational ≤ (blend base optimistic second).rational := by
  obtain ⟨wide, same⟩ := Single.rational_toDouble finite
  obtain ⟨wide', same'⟩ := Single.rational_toDouble finite'
  rw [← same] at kept
  rw [← same'] at gained
  have keptFinite := (keptPart_between finite weight).1
  have keptFinite' := (keptPart_between finite weight').1
  have gainedFinite := (gainedPart_between finite' weight).1
  have gainedFinite' := (gainedPart_between finite' weight').1
  have keptOrdered : (keptPart base first).rational ≤ (keptPart base second).rational :=
    (Double.mul_rounds wide weight.complement.finite).mono
      (Double.mul_rounds wide weight'.complement.finite) kept keptFinite keptFinite'
  have gainedOrdered : (gainedPart optimistic first).rational ≤
      (gainedPart optimistic second).rational :=
    (Double.mul_rounds wide' weight.finite).mono (Double.mul_rounds wide' weight'.finite) gained
      gainedFinite gainedFinite'
  apply blend_le_of_sum finite finite' weight weight'
  exact (blendSum_rounds finite finite' weight).mono (blendSum_rounds finite finite' weight')
    (add_le_add keptOrdered gainedOrdered) (blendSum_finite finite finite' weight)
    (blendSum_finite finite finite' weight')

/-- Channels of one sign whose exact blends are in order: the blends are at most one place
out of order. -/
theorem blend_atMostNext (alike : 0 < base.rational * optimistic.rational)
    (ordered : interpolate base.rational optimistic.rational first.rational ≤
      interpolate base.rational optimistic.rational second.rational) :
    (blend base optimistic first).AtMostNext (blend base optimistic second) := by
  intro z held less
  have faithful := (blend_faithful finite finite' weight alike).2 z.rational (Single.holds held)
  have faithful' := (blend_faithful finite finite' weight' alike).2 z.rational (Single.holds held)
  apply faithful.1
  by_contra beyond
  have reached := faithful'.2 (by linarith)
  linarith

/-- Channels of one sign whose exact blends are farther apart than the sums are off. -/
theorem blend_le_of_apart (alike : 0 < base.rational * optimistic.rational)
    (apart : max |base.rational| |optimistic.rational| ≤
      2 ^ 48 * (interpolate base.rational optimistic.rational second.rational -
        interpolate base.rational optimistic.rational first.rational)) :
    (blend base optimistic first).rational ≤ (blend base optimistic second).rational := by
  have error := blendSum_error finite finite' weight alike
  have error' := blendSum_error finite finite' weight' alike
  have size {t : ℚ} (nonneg : 0 ≤ t) (le_one : t ≤ 1) :
      |interpolate base.rational optimistic.rational t| ≤
        max |base.rational| |optimistic.rational| := by
    rw [abs_interpolate alike nonneg le_one]
    exact (interpolate_between nonneg le_one).2
  have small := size weight.nonneg weight.le_one
  have small' := size weight'.nonneg weight'.le_one
  have side := le_abs_self ((blendSum base optimistic first).rational -
    interpolate base.rational optimistic.rational first.rational)
  have side' := neg_abs_le ((blendSum base optimistic second).rational -
    interpolate base.rational optimistic.rational second.rational)
  apply blend_le_of_sum finite finite' weight weight'
  linarith

end

/-- Two blends of the same channels, the second one under a greater weight. Both are numbers.
The second one is not farther from the optimistic channel than the first, or it is one place
farther. It is not farther at all if the channels are not of the same sign, or if the exact
blends are apart by a few last digits of double precision. -/
structure Advances (base optimistic : Single) (before after : Double) (first second : Single) :
    Prop where
  finite : first.isFinite = true ∧ second.isFinite = true
  rising : base.rational ≤ optimistic.rational → first.AtMostNext second
  falling : optimistic.rational ≤ base.rational → second.AtMostNext first
  ordered : (base.rational * optimistic.rational ≤ 0 ∨ max |base.rational| |optimistic.rational| ≤
      2 ^ 48 * (|optimistic.rational - base.rational| * (after.rational - before.rational))) →
    (base.rational ≤ optimistic.rational → first.rational ≤ second.rational) ∧
      (optimistic.rational ≤ base.rational → second.rational ≤ first.rational)

section

variable {base optimistic : Single} {before after : Double} (finite : base.isFinite = true)
  (finite' : optimistic.isFinite = true) (weight : before.IsWeight) (weight' : after.IsWeight)
  (later : before.rational ≤ after.rational)
include finite finite' weight weight' later

/-- Channels of different signs: under a greater weight both terms move towards the optimistic
channel. -/
theorem blend_follows_opposite (opposite : base.rational * optimistic.rational ≤ 0) :
    (base.rational ≤ optimistic.rational →
      (blend base optimistic before).rational ≤ (blend base optimistic after).rational) ∧
    (optimistic.rational ≤ base.rational →
      (blend base optimistic after).rational ≤ (blend base optimistic before).rational) := by
  have rest : (Double.one.sub after).rational ≤ (Double.one.sub before).rational :=
    weight'.complement_rounds.mono weight.complement_rounds (by linarith)
      weight'.complement.finite weight.complement.finite
  have sides := mul_nonpos_iff.mp opposite
  refine ⟨fun upward => ?_, fun downward => ?_⟩
  · have negative : base.rational ≤ 0 := by rcases sides with ⟨_, _⟩ | ⟨_, _⟩ <;> linarith
    have positive : 0 ≤ optimistic.rational := by rcases sides with ⟨_, _⟩ | ⟨_, _⟩ <;> linarith
    exact blend_le_of_terms finite finite' weight weight'
      (mul_le_mul_of_nonpos_left rest negative) (mul_le_mul_of_nonneg_left later positive)
  · have positive : 0 ≤ base.rational := by rcases sides with ⟨_, _⟩ | ⟨_, _⟩ <;> linarith
    have negative : optimistic.rational ≤ 0 := by rcases sides with ⟨_, _⟩ | ⟨_, _⟩ <;> linarith
    exact blend_le_of_terms finite finite' weight' weight
      (mul_le_mul_of_nonneg_left rest positive) (mul_le_mul_of_nonpos_left later negative)

/-- A greater weight leads on, but for one place.

Proof: if the channels have one sign, both blends are faithful roundings of exact
blends in the right order, which can be one place apart the wrong way at most. If they
differ in sign, every operation is monotone by itself. -/
theorem blend_advances : Advances base optimistic before after (blend base optimistic before)
    (blend base optimistic after) := by
  have advance : interpolate base.rational optimistic.rational after.rational -
      interpolate base.rational optimistic.rational before.rational =
        (optimistic.rational - base.rational) * (after.rational - before.rational) := by
    unfold interpolate
    ring
  have step : 0 ≤ after.rational - before.rational := sub_nonneg.mpr later
  constructor
  case finite =>
    exact ⟨(blend_between finite finite' weight).finite,
      (blend_between finite finite' weight').finite⟩
  case rising =>
    intro upward
    by_cases alike : 0 < base.rational * optimistic.rational
    · have gain := mul_nonneg (sub_nonneg.mpr upward) step
      exact blend_atMostNext finite finite' weight weight' alike (by linarith)
    · exact .of_le ((blend_follows_opposite finite finite' weight weight' later
        (not_lt.mp alike)).1 upward)
  case falling =>
    intro downward
    by_cases alike : 0 < base.rational * optimistic.rational
    · have loss := mul_nonneg (sub_nonneg.mpr downward) step
      exact blend_atMostNext finite finite' weight' weight alike (by linarith)
    · exact .of_le ((blend_follows_opposite finite finite' weight weight' later
        (not_lt.mp alike)).2 downward)
  case ordered =>
    intro clear
    by_cases alike : 0 < base.rational * optimistic.rational
    · have apart := clear.resolve_left (not_le.mpr alike)
      refine ⟨fun upward => ?_, fun downward => ?_⟩
      · rw [abs_of_nonneg (sub_nonneg.mpr upward)] at apart
        exact blend_le_of_apart finite finite' weight weight' alike (by linarith)
      · rw [abs_of_nonpos (sub_nonpos.mpr downward)] at apart
        exact blend_le_of_apart finite finite' weight' weight alike (by linarith)
    · exact blend_follows_opposite finite finite' weight weight' later (not_lt.mp alike)

end

end BoardEval
