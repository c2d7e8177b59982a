import BoardEval.Proofs.Batches
import BoardEval.Proofs.Rounding

/-!
# The ends of the blend

At the ends of its range, optimism takes one channel whole and weights the other
by zero. The weighted channel then adds a zero to the sum, which changes nothing,
exactly if it is finite: an infinity weighted by zero is a NaN, and so is the sum.
A masked cell of one channel, which holds an infinity, therefore spoils the cell of
the other channel even where its weight is zero.

What a blend gives between the ends is not treated here.
-/

namespace BoardEval

namespace Number

/-- Numeric equality: a NaN is equal to nothing, and the two zeros are equal. -/
def Single.equals (x y : Single) : Bool :=
  !x.isNaN && !y.isNaN && (x == y || x.isZero && y.isZero)

namespace Value

/-- The order of summands does not matter, not even for the sign of a zero. -/
theorem add_comm (v w : Value) : v.add w = w.add v := by
  cases v with
  | nan => cases w <;> rfl
  | infinity a =>
    cases w with
    | nan => rfl
    | infinity b => cases a <;> cases b <;> rfl
    | finite => rfl
  | finite a m i =>
    cases w with
    | nan => rfl
    | infinity => rfl
    | finite b n j =>
      simp only [add, Int.min_comm j i, Int.add_comm (signed b n * _), Bool.and_comm b a]

/-- A zero at a lower place changes nothing about a number but the way it is
written, apart from the sign of a zero. -/
theorem add_zero (negative sign : Bool) (m : Nat) {i j : Int} (lower : j ≤ i) :
    (finite negative m i).add (.finite sign 0 j) =
      if m = 0 then .finite (negative && sign) 0 j
      else .finite negative (m * 2 ^ (i - j).toNat) j := by
  have power : 0 < 2 ^ (i - j).toNat := Nat.two_pow_pos _
  have none : signed sign 0 = 0 := by cases sign <;> rfl
  have scaled : signed negative m * ((2 ^ (i - j).toNat : Nat) : Int) =
      signed negative (m * 2 ^ (i - j).toNat) := by
    cases negative with
    | false => exact (Int.natCast_mul m _).symm
    | true => exact (Int.neg_mul _ _).trans (congrArg Neg.neg (Int.natCast_mul m _).symm)
  simp only [add, Int.min_eq_right lower, none, Int.zero_mul, Int.add_zero, Nat.pow_eq, scaled]
  by_cases zero : m = 0
  · simp [zero, signed]
  have positive : 0 < m * 2 ^ (i - j).toNat := Nat.mul_pos (Nat.pos_of_ne_zero zero) power
  rw [if_neg zero]
  generalize m * 2 ^ (i - j).toNat = n at *
  have nonzero : signed negative n ≠ 0 := by
    cases negative <;> simp only [signed, Bool.false_eq_true, if_false, if_true] <;> omega
  have sign : decide (signed negative n < 0) = negative := by
    cases negative with
    | false => exact decide_eq_false (Int.not_lt.mpr (Int.natCast_nonneg n))
    | true => exact decide_eq_true (Int.neg_neg_of_pos (Int.natCast_pos.mpr positive))
  have size : (signed negative n).natAbs = n := by cases negative <;> simp [signed]
  rw [if_neg nonzero, sign, size]

end Value

namespace Double

variable {x y z : Double}

/-- The number one, as a significand of 53 digits. -/
theorem value_one : one.value = .finite false (2 ^ 52) (-52) := by decide

/-- The order of summands does not matter. -/
theorem add_comm (x y : Double) : x.add y = y.add x := by rw [add, add, Value.add_comm]

/-- A sum with a NaN is one. -/
theorem add_nan (broken : y.value = .nan) : (x.add y).value = .nan := by
  have sum : x.value.add .nan = .nan := by cases x.value <;> rfl
  rw [add, broken, sum, value_ofValue, Format.decode_encode_nan (by decide)]

/-- Rounding a zero gives one of the two zeros. -/
theorem ofValue_zero (negative : Bool) (e : Int) :
    (ofValue (.finite negative 0 e)).isZero = true := by
  have none : Format.double.roundMagnitude 0 e = 0 := if_pos rfl
  rw [ofValue, Format.encode, none]
  cases negative <;> decide

/-- Multiplying by one gives the number back, its bits included. Only the bits of
what is no number are not kept. -/
theorem mul_one (number : x.value ≠ .nan) : x.mul one = x := by
  rw [mul, value_one]
  have back := x.ofValue_value number
  cases known : x.value with
  | nan => contradiction
  | infinity negative =>
    rw [known] at back
    have whole : (Value.infinity negative).mul (.finite false (2 ^ 52) (-52)) =
        .infinity negative := by cases negative <;> rfl
    rw [whole, back]
  | finite negative m e =>
    rw [known] at back
    have exponent : e + -52 + (52 : Nat) = e := by omega
    rw [Value.mul, Bool.bne_false, ofValue, Format.encode_scale, exponent, ← ofValue, back]

/-- A finite number weighted by zero is zero. -/
theorem mul_zero {negative : Bool} {m : Nat} {e : Int} (finite : x.value = .finite negative m e)
    (zero : z.isZero = true) : (x.mul z).isZero = true := by
  obtain ⟨sign, value⟩ := z.isZero_iff.mp zero
  rw [mul, finite, value, Value.mul, Nat.mul_zero]
  exact ofValue_zero _ _

/-- Nothing else weighted by zero is a number. -/
theorem mul_zero_nan (special : ∀ negative m e, x.value ≠ .finite negative m e)
    (zero : z.isZero = true) : (x.mul z).value = .nan := by
  obtain ⟨sign, value⟩ := z.isZero_iff.mp zero
  have product : x.value.mul z.value = .nan := by
    rw [value]
    cases known : x.value with
    | nan => rfl
    | infinity => rfl
    | finite negative m e => exact absurd known (special negative m e)
  rw [mul, product, value_ofValue, Format.decode_encode_nan (by decide)]

/-- A zero of either sign changes no number but a zero. -/
theorem add_zero (number : x.value ≠ .nan) (other : x.isZero = false) (zero : z.isZero = true) :
    x.add z = x := by
  obtain ⟨sign, value⟩ := z.isZero_iff.mp zero
  have back := x.ofValue_value number
  have magnitude := Format.decode_magnitude x.pattern
  rw [← Double.value] at magnitude
  rw [add, value]
  cases known : x.value with
  | nan => contradiction
  | infinity negative =>
    rw [known] at back
    exact back
  | finite negative m e =>
    rw [known] at back magnitude
    obtain ⟨_, fits⟩ := magnitude
    have positive : m ≠ 0 := by
      rintro rfl
      have ground := fits.normal.resolve_left (by decide)
      have zero : x.isZero = true := x.isZero_iff.mpr ⟨negative, by rw [known, ground]⟩
      exact absurd zero (by simp [other])
    have exponent : Format.double.minExponent + (e - Format.double.minExponent).toNat = e := by
      have lowest := fits.lowest
      omega
    rw [Value.add_zero negative sign m fits.lowest, if_neg positive, ofValue, Format.encode_scale,
      exponent, ← ofValue, back]

/-- The sum of two zeros is a zero. -/
theorem zero_add_zero (first : x.isZero = true) (second : z.isZero = true) :
    (x.add z).isZero = true := by
  obtain ⟨negative, value⟩ := x.isZero_iff.mp first
  obtain ⟨sign, value'⟩ := z.isZero_iff.mp second
  rw [add, value, value', Value.add_zero _ _ _ (Int.le_refl _), if_pos rfl]
  exact ofValue_zero _ _

/-- One less a zero is one. -/
theorem one_sub (zero : z.isZero = true) : one.sub z = one := by
  obtain ⟨sign, value⟩ := z.isZero_iff.mp zero
  have lower : Format.double.minExponent ≤ -52 := by decide
  have exponent : Format.double.minExponent + (-52 - Format.double.minExponent).toNat = -52 := by
    decide
  rw [sub, value_one, value, Value.neg, Value.add_zero _ _ _ lower, if_neg (by decide), ofValue,
    Format.encode_scale, exponent, ← ofValue, ← value_one, ofValue_value _ (by decide)]

/-- A zero of either sign narrows to a zero. -/
theorem toSingle_zero (zero : z.isZero = true) : z.toSingle.isZero = true := by
  obtain ⟨sign, value⟩ := z.isZero_iff.mp zero
  have none : Format.single.roundMagnitude 0 Format.double.minExponent = 0 := if_pos rfl
  rw [toSingle, value, Single.ofValue, Format.encode, none]
  cases sign <;> decide

/-- What is no number narrows to what is no number. -/
theorem toSingle_nan (broken : x.value = .nan) : x.toSingle.isNaN = true := by
  rw [toSingle, broken]
  decide

end Double

namespace Single

/-- A value taken whole beside another one weighted by zero. It is kept exactly if
the other one is finite; otherwise nothing is left of it. -/
structure Kept (chosen other result : Single) : Prop where
  exact : chosen.isNaN = false → other.isFinite = true → result.equals chosen = true
  lost : other.isFinite = false → result.isNaN = true

/-- A number equals itself, in particular an infinity. -/
theorem equals_self {x : Single} (number : x.isNaN = false) : x.equals x = true := by
  simp [equals, number]

/-- What is no number equals nothing. -/
theorem equals_nan {x y : Single} (broken : x.isNaN = true) : x.equals y = false := by
  simp [equals, broken]

/-- The two zeros are equal, although their bits differ. -/
theorem equals_zeros {x y : Single} (first : x.isZero = true) (second : y.isZero = true) :
    x.equals y = true := by
  have number (z : Single) (zero : z.isZero = true) : z.isNaN = false := by
    have flags := z.flags
    cases known : z.value <;> simp_all
  simp [equals, number x first, number y second, first, second]

/-- Widening makes no zero of another number. -/
theorem isZero_of_toDouble {x : Single} (zero : x.toDouble.isZero = true) : x.isZero = true := by
  obtain ⟨sign, value⟩ := x.toDouble.isZero_iff.mp zero
  have widened := x.value_toDouble
  have flags := x.flags
  cases known : x.value with
  | nan => simp [known, value] at widened
  | infinity => simp [known, value] at widened
  | finite negative m e =>
    rw [known] at widened flags
    obtain ⟨j, widened⟩ := widened
    have product : m * 2 ^ j = 0 := by
      rw [value] at widened
      exact (Value.finite.inj widened).2.1.symm
    have power := Nat.two_pow_pos j
    exact flags.2.2.mpr ((Nat.mul_eq_zero.mp product).resolve_right (Nat.ne_of_gt power))

/-- Widening makes no NaN of a number. -/
theorem toDouble_number {x : Single} (number : x.isNaN = false) : x.toDouble.value ≠ .nan := by
  have widened := x.value_toDouble
  have flags := x.flags
  cases known : x.value with
  | nan => simp [known, number] at flags
  | infinity => simp_all
  | finite negative m e =>
    rw [known] at widened
    obtain ⟨j, widened⟩ := widened
    simp [widened]

/-- The sum of a value taken whole and one weighted by zero, narrowed.

Proof: a finite value weighted by zero is a zero, and a zero changes no other number
when it is added; two zeros add up to a zero. Anything else weighted by zero is a NaN
and makes the sum one. -/
theorem Kept.ofSum {chosen other : Single} {whole z : Double} (zero : z.isZero = true)
    (exact : chosen.isNaN = false → whole = chosen.toDouble) :
    Kept chosen other (whole.add (other.toDouble.mul z)).toSingle := by
  have widened := other.value_toDouble
  have flags := other.flags
  constructor
  case exact =>
    intro number finite
    have proper : chosen.value ≠ .nan := by simp [value_eq_nan_iff, number]
    have vanishes : (other.toDouble.mul z).isZero = true := by
      cases known : other.value with
      | nan => simp [known, finite] at flags
      | infinity => simp [known, finite] at flags
      | finite negative m e =>
        rw [known] at widened
        obtain ⟨j, widened⟩ := widened
        exact Double.mul_zero widened zero
    rw [exact number]
    cases kind : chosen.toDouble.isZero with
    | true =>
      have sum := Double.toSingle_zero (Double.zero_add_zero kind vanishes)
      exact equals_zeros sum (isZero_of_toDouble kind)
    | false =>
      rw [Double.add_zero (toDouble_number number) kind vanishes,
        chosen.toSingle_toDouble proper]
      exact equals_self number
  case lost =>
    intro special
    have broken : (other.toDouble.mul z).value = .nan := by
      apply Double.mul_zero_nan _ zero
      intro negative m e finite
      cases known : other.value with
      | nan => simp [known, finite] at widened
      | infinity => simp [known, finite] at widened
      | finite => simp [known, special] at flags
    exact Double.toSingle_nan (Double.add_nan broken)

end Single

/-- An end of the range of optimism, with the channel that it takes whole. -/
inductive Endpoint : Double → Nat → Prop
  | base {optimism : Double} (none : optimism.isZero = true) : Endpoint optimism 0
  | optimistic : Endpoint .one 1

end Number

open Number (Single Double Endpoint)

/-- A blend at an end of its range keeps the channel of that end. -/
theorem blend_kept {optimism : Double} {channel : Nat} (endpoint : Endpoint optimism channel)
    (value : Nat → Single) :
    Single.Kept (value channel) (value (1 - channel)) (blend (value 0) (value 1) optimism) := by
  cases endpoint with
  | base none =>
    rw [blend, Double.one_sub none]
    exact Single.Kept.ofSum none fun number => Double.mul_one (Single.toDouble_number number)
  | optimistic =>
    have none : (Double.one.sub .one).isZero = true := by decide
    rw [blend, Double.add_comm]
    exact Single.Kept.ofSum none fun number => Double.mul_one (Single.toDouble_number number)

/-- The policy of one channel at a canonical cell. -/
def PoolShape.channelAt (s : PoolShape) (heads : HeadRow) (cell : Nat × Nat) (channel : Nat) :
    Single :=
  heads.policy.valueAt (channel * s.plane.cells + (cell.1 * s.plane.width + cell.2))

namespace Pool

/-- At an end of the range of optimism, a row of a pool with two policy channels is
decoded, and every cell and the pass keep the value of the channel of that end as far
as the other channel lets them. The values of both channels are arbitrary. -/
theorem decodePolicy_endpoint {p : Pool} (sound : p.Sound) (two : p.shape.policy = 2) {r : Nat}
    (bound : r < p.capacity) (q : Request) (out : Evaluation)
    (slots : out.policy.size = p.shape.board.cells + 1) {channel : Nat}
    (endpoint : Endpoint q.optimism channel) :
    ∃ p' e, p.decodePolicy r q out = .ok (p', e) ∧
      (∀ y < p.shape.board.height, ∀ x < p.shape.board.width,
        let value := p.shape.channelAt (p.heads r) (q.symmetry.cell p.shape.board y x)
        Single.Kept (value channel) (value (1 - channel))
          (e.policy.valueAt (y * p.shape.board.width + x))) ∧
      Single.Kept ((p.heads r).pass.valueAt channel) ((p.heads r).pass.valueAt (1 - channel))
        (e.policy.valueAt p.shape.board.cells) := by
  obtain ⟨p', _, decoded⟩ := decodePolicy_ok sound bound q out slots
  have several : p.shape.policy ≠ 1 := by omega
  refine ⟨p', _, decoded, ?_, ?_⟩
  · intro y rows x columns
    have kept := blend_kept endpoint
      (p.shape.channelAt (p.heads r) (q.symmetry.cell p.shape.board y x))
    simp only [PoolShape.channelAt, Nat.zero_mul, Nat.zero_add, Nat.one_mul] at kept
    simp only [PoolShape.value_decodedPolicy slots rows columns, PoolShape.policyAt, several,
      if_false]
    exact kept
  · simp only [PoolShape.pass_decodedPolicy slots, PoolShape.passOf, several, if_false]
    exact blend_kept endpoint (p.heads r).pass.valueAt

/-- A pool of the tiny shape whose first row holds a one in the base plane and an
infinity at the same cell of the optimistic plane, as a mask would put it there. -/
def tinyMasked : Pool :=
  let blank := Pool.blank Handle.tiny.shape "tiny" 2
  { blank with policy := (blank.policy.overwrite 0 #[.ofInt 1]).overwrite 9 #[⟨0x7f800000⟩] }

/-- The pool with the masked cell is a sound pool. -/
theorem tinyMasked_sound : tinyMasked.Sound :=
  { Handle.tiny_owns.fitted.sound with
    policy := Rows.overwrite_holds (Rows.overwrite_holds (Rows.zeros_holds _ _) _ _) _ _ }

/-- With full optimism the masked cell keeps its infinity: the base channel is finite. -/
theorem decodePolicy_endpoint_masked :
    tinyMasked.Sound ∧ tinyMasked.shape.policy = 2 ∧ Endpoint .one 1 ∧
      ∃ p' e, tinyMasked.decodePolicy 0 (.tiny .one) (.forRequest (.tiny .one)) = .ok (p', e) ∧
        (e.policy.valueAt 3).equals ⟨0x7f800000⟩ = true := by
  obtain ⟨p', e, decoded, cells, _⟩ := decodePolicy_endpoint tinyMasked_sound rfl (r := 0)
    (by decide) (.tiny .one) (.forRequest (.tiny .one)) (by decide) .optimistic
  have kept := cells 1 (by decide) 0 (by decide)
  exact ⟨tinyMasked_sound, rfl, .optimistic, p', e, decoded, kept.exact (by decide) (by decide)⟩

/-- Without optimism the cell under the mask is lost. No value of either channel is a NaN,
and the base channel holds a one at the cell, but a NaN is decoded. -/
theorem masked_cell_lost :
    Endpoint .zero 0 ∧ (∀ i < 18, ((tinyMasked.heads 0).policy.valueAt i).isNaN = false) ∧
      (tinyMasked.shape.channelAt (tinyMasked.heads 0)
        ((Request.tiny .zero).symmetry.cell tinyMasked.shape.board 1 0) 0) = .ofInt 1 ∧
      ∃ p' e, tinyMasked.decodePolicy 0 (.tiny .zero) (.forRequest (.tiny .zero)) = .ok (p', e) ∧
        (e.policy.valueAt 3).isNaN = true ∧ (e.policy.valueAt 3).equals (.ofInt 1) = false := by
  obtain ⟨p', _, decoded⟩ := decodePolicy_ok tinyMasked_sound (r := 0) (by decide) (.tiny .zero)
    (.forRequest (.tiny .zero)) (by decide)
  refine ⟨.base rfl, by decide, by decide, p', _, decoded, ?_⟩
  have value := @PoolShape.value_decodedPolicy tinyMasked.shape (.tiny .zero) (tinyMasked.heads 0)
    (Evaluation.forRequest (.tiny .zero)).policy (by decide) 1 0 (by decide) (by decide)
  have place : 1 * tinyMasked.shape.board.width + 0 = 3 := rfl
  have kept : Single.Kept _ _ (blend _ _ .zero) := blend_kept (.base rfl)
    (tinyMasked.shape.channelAt (tinyMasked.heads 0) (0, 0))
  have lost := kept.lost (by decide)
  rw [place] at value
  simp only [value]
  exact ⟨lost, Single.equals_nan lost⟩

end Pool

end BoardEval
