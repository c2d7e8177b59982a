import BoardEval.Proofs.Rounding
import Mathlib.Algebra.Order.Field.Power
import Mathlib.Data.Int.ConditionallyCompleteOrder
import Mathlib.Tactic.Linarith
import Mathlib.Tactic.NormNum
import Mathlib.Tactic.Positivity
import Mathlib.Tactic.Ring

/-!
# Rounding to nearest

The numbers of a format, the two zeros taken as one, stand in a row: number `k`
has the pattern `|k|` and the sign of `k`. A rational number is rounded to a `k`
such that no middle between two neighbours lies between them, and a middle is
rounded to the even one of its neighbours. Order and errors need only the
former: whichever way a tie goes, the rounding of one number is always the same.

From this: rounding keeps order; what lies between two numbers, or exceeds one by
a small part of its last digit, is not rounded beyond it; and a rounding is off
by half a last digit, or half the least step. Sums, differences and products of
finite doubles, and their narrowing, are roundings of the exact results. What
becomes of infinities and NaNs is not treated here.
-/

namespace BoardEval.Number

/-- A rounded quotient is the quotient or the next number, whichever is not farther away. -/
theorem roundShift_cases (n k : Nat) :
    roundShift n k = n / 2 ^ k ∧ 2 * (n % 2 ^ k) ≤ 2 ^ k ∨
      roundShift n k = n / 2 ^ k + 1 ∧ 2 ^ k ≤ 2 * (n % 2 ^ k) := by
  simp only [roundShift, Nat.pow_eq]
  split
  · rename_i more
    exact .inr ⟨rfl, Nat.le_of_lt more⟩
  split
  · rename_i tie
    rcases Nat.mod_two_eq_zero_or_one (n / 2 ^ k) with even | odd
    · exact .inl ⟨by rw [even, Nat.add_zero], Nat.le_of_eq tie⟩
    · exact .inr ⟨by rw [odd], Nat.le_of_eq tie.symm⟩
  · exact .inl ⟨rfl, by omega⟩

/-- Halfway between two quotients the even one is taken. -/
theorem roundShift_tie {n k : Nat} (tie : 2 * (n % 2 ^ k) = 2 ^ k) : roundShift n k % 2 = 0 := by
  simp only [roundShift, Nat.pow_eq, tie, Nat.lt_irrefl, if_false, if_true]
  omega

namespace Format

variable (f : Format)

/-- The magnitude that a pattern without sign stands for. The pattern of infinity is read as
the power of two that would come next. -/
def magnitude (bits : Nat) : ℚ :=
  ((if bits < 2 ^ f.fractionBits then bits
    else 2 ^ f.fractionBits + bits % 2 ^ f.fractionBits : Nat) : ℚ) *
      2 ^ (f.minExponent + ((bits / 2 ^ f.fractionBits - 1 : Nat) : ℤ))

/-- The pattern of a significand at a place of the grid. The significand may be one more than
the format keeps, which is the first one at the next place. -/
theorem magnitude_grid {m n : Nat} (short : m ≤ 2 ^ (f.fractionBits + 1))
    (normal : 2 ^ f.fractionBits ≤ m ∨ n = 0) :
    f.magnitude (m + n * 2 ^ f.fractionBits) = m * 2 ^ (f.minExponent + (n : ℤ)) := by
  have power := Nat.two_pow_pos f.fractionBits
  have next : 2 ^ (f.fractionBits + 1) = 2 ^ f.fractionBits + 2 ^ f.fractionBits := by
    rw [Nat.pow_succ, Nat.mul_two]
  by_cases low : m < 2 ^ f.fractionBits
  · obtain rfl : n = 0 := normal.resolve_left (Nat.not_le.mpr low)
    simp only [magnitude, Nat.zero_mul, Nat.add_zero, if_pos low, Nat.div_eq_of_lt low]
  have high : ¬m + n * 2 ^ f.fractionBits < 2 ^ f.fractionBits := by omega
  rw [magnitude, if_neg high, Nat.add_mul_mod_self_right, Nat.add_mul_div_right _ _ power]
  by_cases last : m = 2 ^ (f.fractionBits + 1)
  · -- The significand has one digit too many, all of them zero but the first.
    have twice : m = 2 ^ f.fractionBits * 2 := by omega
    have place : f.minExponent + ((2 + n - 1 : Nat) : ℤ) = f.minExponent + (n : ℤ) + 1 := by omega
    rw [twice, Nat.mul_mod_right, Nat.mul_div_cancel_left 2 power, place,
      zpow_add_one₀ (by norm_num)]
    push_cast
    ring
  · have digit : m / 2 ^ f.fractionBits = 1 := by
      rw [Nat.div_eq_iff power]
      omega
    have rest : 2 ^ f.fractionBits + m % 2 ^ f.fractionBits = m := by
      rw [Nat.mod_eq_sub_mod (by omega), Nat.mod_eq_of_lt (by omega)]
      omega
    rw [digit, rest, Nat.add_sub_cancel_left]

/-- Every pattern is that of a significand at a place, and the next pattern is that of the next
significand at the same place. -/
theorem exists_place (bits : Nat) : ∃ (m : Nat) (place : ℤ), f.minExponent ≤ place ∧
    m < 2 ^ (f.fractionBits + 1) ∧ (2 ^ f.fractionBits ≤ m ∨ place = f.minExponent) ∧
      f.magnitude bits = m * 2 ^ place ∧ f.magnitude (bits + 1) = (m + 1) * 2 ^ place := by
  have power := Nat.two_pow_pos f.fractionBits
  have next : 2 ^ (f.fractionBits + 1) = 2 ^ f.fractionBits + 2 ^ f.fractionBits := by
    rw [Nat.pow_succ, Nat.mul_two]
  obtain ⟨m, n, short, normal, rfl⟩ : ∃ m n, m < 2 ^ (f.fractionBits + 1) ∧
      (2 ^ f.fractionBits ≤ m ∨ n = 0) ∧ bits = m + n * 2 ^ f.fractionBits := by
    by_cases low : bits < 2 ^ f.fractionBits
    · exact ⟨bits, 0, by omega, .inr rfl, by omega⟩
    · refine ⟨2 ^ f.fractionBits + bits % 2 ^ f.fractionBits, bits / 2 ^ f.fractionBits - 1, ?_,
        .inl (Nat.le_add_right _ _), ?_⟩
      · have part := Nat.mod_lt bits power
        omega
      · have whole := Nat.div_add_mod' bits (2 ^ f.fractionBits)
        have some : 0 < bits / 2 ^ f.fractionBits := Nat.div_pos (Nat.not_lt.mp low) power
        have carry : bits / 2 ^ f.fractionBits * 2 ^ f.fractionBits =
            (bits / 2 ^ f.fractionBits - 1) * 2 ^ f.fractionBits + 2 ^ f.fractionBits := by
          rw [← Nat.succ_mul, Nat.succ_eq_add_one, Nat.sub_add_cancel some]
        omega
  have later : 2 ^ f.fractionBits ≤ m + 1 ∨ n = 0 := normal.imp_left Nat.le_succ_of_le
  have following := f.magnitude_grid (m := m + 1) (n := n) short later
  rw [Nat.add_right_comm, Nat.cast_succ] at following
  refine ⟨m, f.minExponent + n, by omega, short, normal.imp_right (by omega),
    f.magnitude_grid (Nat.le_of_lt short) normal, following⟩

/-- Patterns without sign are in the order of their magnitudes, which is what makes
the next pattern the next number. -/
theorem magnitude_strictMono : StrictMono f.magnitude := by
  apply strictMono_nat_of_lt_succ
  intro bits
  obtain ⟨m, place, _, _, _, here, next⟩ := f.exists_place bits
  have unit : (0 : ℚ) < 2 ^ place := by positivity
  rw [here, next]
  linarith

/-- The pattern of zeros stands for zero. -/
theorem magnitude_zero : f.magnitude 0 = 0 := by
  have power := Nat.two_pow_pos f.fractionBits
  simp [magnitude, power]

/-- Magnitudes are not negative. -/
theorem magnitude_nonneg (bits : Nat) : 0 ≤ f.magnitude bits := by
  rw [← f.magnitude_zero]
  exact f.magnitude_strictMono.monotone (Nat.zero_le bits)

/-- A magnitude in steps of the grid at a place: the steps below it, and whether it was rounded
down or up to a number of steps that is not farther away. A tie goes to an even number.

Proof: a place at or below the exponent leaves no remainder, so the value is a number
of the grid and no tie. Above it the division of the significand gives quotient and
remainder, and twice the remainder against the divisor tells which way the quotient
goes. -/
theorem rounded_steps (m : Nat) (e place : ℤ) :
    ∃ q n : Nat, (if place ≤ e then m * 2 ^ (e - place).toNat
        else roundShift m (place - e).toNat) = n ∧
      (q * 2 ^ place : ℚ) ≤ m * 2 ^ e ∧ (m * 2 ^ e : ℚ) < (q + 1) * 2 ^ place ∧
      (n = q ∧ 2 * (m * 2 ^ e : ℚ) ≤ (2 * q + 1) * 2 ^ place ∨
        n = q + 1 ∧ (2 * q + 1) * 2 ^ place ≤ 2 * (m * 2 ^ e : ℚ)) ∧
      (2 * (m * 2 ^ e : ℚ) = (2 * q + 1) * 2 ^ place → n % 2 = 0) := by
  by_cases fine : place ≤ e
  · obtain ⟨k, shift⟩ : ∃ k : Nat, e = place + k := ⟨(e - place).toNat, by omega⟩
    have exact : (m * 2 ^ e : ℚ) = (m * 2 ^ k : Nat) * 2 ^ place := by
      rw [shift, zpow_add₀ (by norm_num), zpow_natCast]
      push_cast
      ring
    have unit : (0 : ℚ) < 2 ^ place := by positivity
    have shifted : (e - place).toNat = k := by omega
    refine ⟨m * 2 ^ k, _, by rw [if_pos fine, shifted], exact.ge, ?_, .inl ⟨rfl, ?_⟩, ?_⟩
    · rw [exact]
      linarith
    · rw [exact]
      linarith
    · -- A number of the grid is no tie.
      intro tie
      rw [exact] at tie
      linarith
  · obtain ⟨k, shift⟩ : ∃ k : Nat, place = e + k := ⟨(place - e).toNat, by omega⟩
    have power : (0 : ℚ) < 2 ^ e := by positivity
    have scaled : (2 ^ place : ℚ) = (2 ^ k : Nat) * 2 ^ e := by
      rw [shift, zpow_add₀ (by norm_num), zpow_natCast]
      push_cast
      ring
    have whole : (m : ℚ) = (m / 2 ^ k : Nat) * (2 ^ k : Nat) + (m % 2 ^ k : Nat) := by
      exact_mod_cast (Nat.div_add_mod' m (2 ^ k)).symm
    have value : (m * 2 ^ e : ℚ) = (m / 2 ^ k : Nat) * 2 ^ place + (m % 2 ^ k : Nat) * 2 ^ e := by
      rw [scaled, whole]
      ring
    have rest : (0 : ℚ) ≤ (m % 2 ^ k : Nat) * 2 ^ e := by positivity
    have part : ((m % 2 ^ k : Nat) * 2 ^ e : ℚ) < 2 ^ place := by
      rw [scaled]
      exact mul_lt_mul_of_pos_right
        (by exact_mod_cast Nat.mod_lt m (Nat.two_pow_pos k)) power
    have shifted : (place - e).toNat = k := by omega
    refine ⟨m / 2 ^ k, _, by rw [if_neg fine, shifted], by linarith, by linarith, ?_, ?_⟩
    · rcases roundShift_cases m k with ⟨rounded, less⟩ | ⟨rounded, more⟩
      · have half : 2 * ((m % 2 ^ k : Nat) * 2 ^ e : ℚ) ≤ 2 ^ place := by
          rw [scaled, ← mul_assoc]
          exact mul_le_mul_of_nonneg_right (by exact_mod_cast less) power.le
        exact .inl ⟨rounded, by linarith⟩
      · have half : (2 ^ place : ℚ) ≤ 2 * ((m % 2 ^ k : Nat) * 2 ^ e) := by
          rw [scaled, ← mul_assoc]
          exact mul_le_mul_of_nonneg_right (by exact_mod_cast more) power.le
        exact .inr ⟨rounded, by linarith⟩
    · intro tie
      have half : (2 * (m % 2 ^ k : Nat) : ℚ) * 2 ^ e = (2 ^ k : Nat) * 2 ^ e := by
        rw [← scaled]
        linarith
      have middle : 2 * (m % 2 ^ k) = 2 ^ k := by
        exact_mod_cast mul_right_cancel₀ power.ne' half
      exact roundShift_tie middle

/-- A magnitude lies between two neighbouring patterns, and is rounded to one that is not farther
away than the other, to the even one on a tie. Beyond the last number the neighbours lie beyond
infinity, whose pattern is even.

Proof: the place is chosen so that the quotient has just the digits that the format
keeps, or that it is the lowest place there is. Therefore quotient and successor are
neighbouring patterns, and the steps of the grid are steps of the format. A pattern is
even with its quotient, as a binade has an even number of patterns. -/
theorem roundMagnitude_between (m : Nat) (e : ℤ) :
    ∃ low : Nat, f.magnitude low ≤ m * 2 ^ e ∧ (m * 2 ^ e : ℚ) ≤ f.magnitude (low + 1) ∧
      (f.roundMagnitude m e = min f.infinityBits low ∧
          2 * (m * 2 ^ e : ℚ) ≤ f.magnitude low + f.magnitude (low + 1) ∨
        f.roundMagnitude m e = min f.infinityBits (low + 1) ∧
          f.magnitude low + f.magnitude (low + 1) ≤ 2 * (m * 2 ^ e : ℚ)) ∧
      (0 < f.fractionBits → 2 * (m * 2 ^ e : ℚ) = f.magnitude low + f.magnitude (low + 1) →
        f.roundMagnitude m e % 2 = 0) := by
  by_cases none : m = 0
  · subst none
    have first := f.magnitude_nonneg (0 + 1)
    refine ⟨0, ?_, ?_, .inl ⟨?_, ?_⟩, ?_⟩
    · simp [f.magnitude_zero]
    · simpa using first
    · simp [roundMagnitude]
    · simpa [f.magnitude_zero] using first
    · simp [roundMagnitude]
  have long : (2 ^ m.log2 : ℚ) ≤ m := by exact_mod_cast Nat.log2_self_le none
  have short : (m : ℚ) < 2 ^ (m.log2 + 1) := by exact_mod_cast Nat.lt_log2_self
  obtain ⟨place, known⟩ : ∃ place, max f.minExponent (e + m.log2 - f.fractionBits) = place :=
    ⟨_, rfl⟩
  obtain ⟨n, steps⟩ : ∃ n : Nat, place = f.minExponent + n :=
    ⟨(place - f.minExponent).toNat, by omega⟩
  have unit : (0 : ℚ) < 2 ^ place := by positivity
  have power : (0 : ℚ) < 2 ^ e := by positivity
  obtain ⟨q, digit, taken, least, most, rounded, even⟩ := rounded_steps m e place
  -- The digits that the place leaves are those that the format keeps.
  have digits : q < 2 ^ (f.fractionBits + 1) := by
    have bound : (q * 2 ^ place : ℚ) < 2 ^ (f.fractionBits + 1) * 2 ^ place :=
      calc (q * 2 ^ place : ℚ) ≤ m * 2 ^ e := least
        _ < 2 ^ (m.log2 + 1) * 2 ^ e := mul_lt_mul_of_pos_right short power
        _ = 2 ^ ((m.log2 + 1 : Nat) + e) := by rw [zpow_add₀ (by norm_num), zpow_natCast]
        _ ≤ 2 ^ ((f.fractionBits + 1 : Nat) + place) :=
            zpow_le_zpow_right₀ (by norm_num) (by push_cast; omega)
        _ = 2 ^ (f.fractionBits + 1) * 2 ^ place := by
            rw [zpow_add₀ (by norm_num), zpow_natCast]
    exact_mod_cast lt_of_mul_lt_mul_right bound unit.le
  have all : 2 ^ f.fractionBits ≤ q ∨ n = 0 := by
    by_cases ground : n = 0
    · exact .inr ground
    have bound : (2 ^ f.fractionBits * 2 ^ place : ℚ) < (q + 1) * 2 ^ place :=
      calc (2 ^ f.fractionBits * 2 ^ place : ℚ) = 2 ^ ((f.fractionBits : Nat) + place) := by
            rw [zpow_add₀ (by norm_num), zpow_natCast]
        _ = 2 ^ ((m.log2 : Nat) + e) := by congr 1; omega
        _ = 2 ^ m.log2 * 2 ^ e := by rw [zpow_add₀ (by norm_num), zpow_natCast]
        _ ≤ m * 2 ^ e := mul_le_mul_of_nonneg_right long power.le
        _ < (q + 1) * 2 ^ place := most
    have less : 2 ^ f.fractionBits < q + 1 := by
      exact_mod_cast lt_of_mul_lt_mul_right bound unit.le
    exact .inl (Nat.le_of_lt_succ less)
  have here := f.magnitude_grid (Nat.le_of_lt digits) all
  have next := f.magnitude_grid (m := q + 1) (n := n) digits (all.imp_left Nat.le_succ_of_le)
  rw [Nat.add_right_comm, Nat.cast_succ] at next
  rw [← steps] at here next
  have count : (place - f.minExponent).toNat = n := by omega
  simp only [roundMagnitude, if_neg none, Nat.pow_eq, known, count, taken]
  refine ⟨q + n * 2 ^ f.fractionBits, here.trans_le least, most.le.trans next.ge, ?_, ?_⟩
  · rw [here, next]
    rcases rounded with ⟨down, near⟩ | ⟨up, near⟩
    · exact .inl ⟨by rw [down], by linarith⟩
    · exact .inr ⟨by rw [up, Nat.add_right_comm], by linarith⟩
  · intro fraction tie
    rw [here, next] at tie
    have last := even (by linarith)
    obtain ⟨half, twice⟩ : 2 ∣ 2 ^ f.fractionBits := dvd_pow_self 2 (Nat.ne_of_gt fraction)
    have infinity : f.infinityBits = 2 * (f.topField * half) := by
      rw [infinityBits, Nat.pow_eq, twice, Nat.mul_left_comm]
    have binades : n * 2 ^ f.fractionBits = 2 * (n * half) := by rw [twice, Nat.mul_left_comm]
    rw [infinity, binades]
    omega

/-! ## Numbers in order -/

/-- The numbers of a format in order, the two zeros taken as one: number `k` has the pattern
`|k|` and the sign of `k`. -/
def point (k : ℤ) : ℚ := k.sign * f.magnitude k.natAbs

/-- Numbers from zero on are the magnitudes of their patterns. -/
@[simp] theorem point_natCast (n : Nat) : f.point n = f.magnitude n := by
  rcases Nat.eq_zero_or_pos n with rfl | positive
  · simp [point, f.magnitude_zero]
  · rw [point, Int.natAbs_natCast, Int.sign_eq_one_of_pos (by omega), Int.cast_one, one_mul]

/-- Opposite numbers have opposite indices. -/
@[simp] theorem point_neg (k : ℤ) : f.point (-k) = -f.point k := by
  simp [point, Int.sign_neg, Int.natAbs_neg]

/-- The middle between two neighbours, mirrored at zero. -/
theorem point_middle_neg (j : ℤ) :
    f.point (-(j + 1)) + f.point (-(j + 1) + 1) = -(f.point j + f.point (j + 1)) := by
  have next : -(j + 1) + 1 = -j := by omega
  rw [next, point_neg, point_neg]
  ring

/-- The index of a number is its place in the order, across zero as well. -/
theorem point_strictMono : StrictMono f.point := by
  apply strictMono_int_of_lt_succ
  intro k
  have step (n : Nat) : f.magnitude n < f.magnitude (n + 1) :=
    f.magnitude_strictMono (Nat.lt_succ_self n)
  cases k with
  | ofNat n =>
    have next : Int.ofNat n + 1 = ((n + 1 : Nat) : ℤ) := rfl
    rw [next, Int.ofNat_eq_natCast, point_natCast, point_natCast]
    exact step n
  | negSucc n =>
    have here : Int.negSucc n = -((n + 1 : Nat) : ℤ) := rfl
    have next : Int.negSucc n + 1 = -(n : ℤ) := by omega
    rw [next, here, point_neg, point_neg, point_natCast, point_natCast]
    exact neg_lt_neg (step n)

/-- The step from a number to the next is no less than the last digit of either of them, and no
more than that unless it is the least step. -/
structure Spaced (low high : ℚ) : Prop where
  coarseLow : |low| ≤ 2 ^ (f.fractionBits + 1) * (high - low)
  coarseHigh : |high| ≤ 2 ^ (f.fractionBits + 1) * (high - low)
  fineLow : 2 ^ f.fractionBits * (high - low) ≤ |low| + 2 ^ f.fractionBits * 2 ^ f.minExponent
  fineHigh : 2 ^ f.fractionBits * (high - low) ≤ |high| + 2 ^ f.fractionBits * 2 ^ f.minExponent

variable {f}

/-- Steps below zero mirror the steps above. -/
theorem Spaced.neg {low high : ℚ} (spaced : f.Spaced low high) : f.Spaced (-high) (-low) := by
  have step : -low - -high = high - low := by ring
  constructor <;> rw [abs_neg, step]
  · exact spaced.coarseHigh
  · exact spaced.coarseLow
  · exact spaced.fineHigh
  · exact spaced.fineLow

variable (f)

/-- The step after a magnitude is the last digit of its place. -/
theorem magnitude_spaced (n : Nat) : f.Spaced (f.magnitude n) (f.magnitude (n + 1)) := by
  obtain ⟨m, place, lowest, short, normal, here, next⟩ := f.exists_place n
  have unit : (0 : ℚ) < 2 ^ place := by positivity
  have digits : (m : ℚ) + 1 ≤ 2 ^ (f.fractionBits + 1) := by exact_mod_cast short
  have step : f.magnitude (n + 1) - f.magnitude n = 2 ^ place := by
    rw [here, next]
    ring
  have coarse : f.magnitude (n + 1) ≤ 2 ^ (f.fractionBits + 1) * 2 ^ place := by
    rw [next]
    exact mul_le_mul_of_nonneg_right digits unit.le
  have fine : 2 ^ f.fractionBits * 2 ^ place ≤
      f.magnitude n + 2 ^ f.fractionBits * 2 ^ f.minExponent := by
    rw [here]
    have digit : (0 : ℚ) < 2 ^ f.fractionBits * 2 ^ f.minExponent := by positivity
    rcases normal with normal | ground
    · have all : (2 ^ f.fractionBits : ℚ) ≤ m := by exact_mod_cast normal
      have scaled := mul_le_mul_of_nonneg_right all unit.le
      linarith
    · have natural : (0 : ℚ) ≤ m * 2 ^ place := by positivity
      rw [← ground]
      linarith
  have first := f.magnitude_nonneg n
  have second := f.magnitude_nonneg (n + 1)
  constructor <;> rw [step, abs_of_nonneg (by assumption)] <;> linarith

/-- Every step between neighbours is spaced so; the one from minus one to zero
mirrors the one from zero to one. -/
theorem point_spaced (k : ℤ) : f.Spaced (f.point k) (f.point (k + 1)) := by
  cases k with
  | ofNat n =>
    have next : Int.ofNat n + 1 = ((n + 1 : Nat) : ℤ) := rfl
    rw [next, Int.ofNat_eq_natCast, point_natCast, point_natCast]
    exact f.magnitude_spaced n
  | negSucc n =>
    have here : Int.negSucc n = -((n + 1 : Nat) : ℤ) := rfl
    have next : Int.negSucc n + 1 = -(n : ℤ) := by omega
    rw [next, here, point_neg, point_neg, point_natCast, point_natCast]
    exact (f.magnitude_spaced n).neg

/-! ## Nearest numbers -/

/-- Number `k` is nearest to `x`: the middle between any two neighbours below it is not above
`x`, and the middle between any two from it on is not below. Beyond infinity there are no
neighbours. -/
structure Nearest (x : ℚ) (k : ℤ) : Prop where
  lower : -(f.infinityBits : ℤ) ≤ k
  upper : k ≤ f.infinityBits
  above : ∀ j, -(f.infinityBits : ℤ) ≤ j → j < k → f.point j + f.point (j + 1) ≤ 2 * x
  below : ∀ j, k ≤ j → j < f.infinityBits → 2 * x ≤ f.point j + f.point (j + 1)

variable {f}

/-- Rounding to nearest is symmetric about zero, since ties are not spoken of. -/
theorem Nearest.neg {x : ℚ} {k : ℤ} (nearest : f.Nearest x k) : f.Nearest (-x) (-k) := by
  have lower := nearest.lower
  have upper := nearest.upper
  refine ⟨by omega, by omega, ?_, ?_⟩
  · intro j inside less
    have below := nearest.below (-(j + 1)) (by omega) (by omega)
    rw [point_middle_neg] at below
    linarith
  · intro j more inside
    have above := nearest.above (-(j + 1)) (by omega) (by omega)
    rw [point_middle_neg] at above
    linarith

/-- Rounding a magnitude gives the nearest number. -/
theorem nearest_roundMagnitude (m : Nat) (e : ℤ) :
    f.Nearest (m * 2 ^ e) (f.roundMagnitude m e) := by
  have order := f.point_strictMono.monotone
  obtain ⟨low, least, most, rounded, _⟩ := f.roundMagnitude_between m e
  rw [← point_natCast] at least
  rw [← point_natCast, Nat.cast_succ] at most
  rw [← point_natCast, ← point_natCast, Nat.cast_succ] at rounded
  rcases rounded with ⟨down, near⟩ | ⟨up, near⟩
  · rw [down]
    refine ⟨by omega, by omega, ?_, ?_⟩
    · intro j _ less
      have first := order (show j ≤ low by omega)
      have second := order (show j + 1 ≤ low by omega)
      linarith
    · intro j more inside
      have first := order (show (low : ℤ) ≤ j by omega)
      have second := order (show (low : ℤ) + 1 ≤ j + 1 by omega)
      linarith
  · rw [up]
    refine ⟨by omega, by omega, ?_, ?_⟩
    · intro j _ less
      have first := order (show j ≤ low by omega)
      have second := order (show j + 1 ≤ low + 1 by omega)
      linarith
    · intro j more inside
      have first := order (show (low : ℤ) + 1 ≤ j by omega)
      have second := order (show (low : ℤ) + 1 ≤ j + 1 by omega)
      linarith

section

variable {x : ℚ} {k : ℤ} (nearest : f.Nearest x k)
include nearest

/-- What lies below the middle to the next number is not rounded beyond a number. -/
theorem Nearest.le_of_lt_middle {l : ℤ} (inside : -(f.infinityBits : ℤ) ≤ l)
    (less : 2 * x < f.point l + f.point (l + 1)) : k ≤ l := by
  by_contra beyond
  have above := nearest.above l inside (by omega)
  linarith

/-- What exceeds a number by a small part of its last digit is not rounded beyond it. -/
theorem Nearest.le_of_near {l : ℤ} (inside : -(f.infinityBits : ℤ) ≤ l)
    (near : 2 ^ (f.fractionBits + 3) * (x - f.point l) ≤ |f.point l|) : k ≤ l := by
  apply nearest.le_of_lt_middle inside
  have step := f.point_strictMono (show l < l + 1 by omega)
  have coarse := (f.point_spaced l).coarseLow
  have power : (0 : ℚ) < 2 ^ (f.fractionBits + 1) := by positivity
  have more : (2 ^ (f.fractionBits + 3) : ℚ) = 2 ^ (f.fractionBits + 1) * 4 := by
    rw [pow_add, pow_add]
    norm_num [mul_assoc]
  rw [more, mul_assoc] at near
  have close := le_of_mul_le_mul_left (near.trans coarse) power
  linarith

/-- Likewise downwards, by symmetry: a number just above `x` is not rounded past. -/
theorem Nearest.ge_of_near {l : ℤ} (inside : l ≤ f.infinityBits)
    (near : 2 ^ (f.fractionBits + 3) * (f.point l - x) ≤ |f.point l|) : l ≤ k := by
  have mirrored := nearest.neg.le_of_near (l := -l) (by omega) (by
    rw [point_neg, abs_neg]
    linarith)
  omega

/-- A finite nearest number is off by half a last digit, or by half the least step. -/
theorem Nearest.error (inside : -(f.infinityBits : ℤ) < k ∧ k < f.infinityBits) :
    2 ^ (f.fractionBits + 1) * |f.point k - x| ≤
      |f.point k| + 2 ^ f.fractionBits * 2 ^ f.minExponent := by
  have above := nearest.above (k - 1) (by omega) (by omega)
  have below := nearest.below k (le_refl k) inside.2
  have before := (f.point_spaced (k - 1)).fineHigh
  have after := (f.point_spaced k).fineLow
  rw [sub_add_cancel] at above before
  have power : (0 : ℚ) < 2 ^ f.fractionBits := by positivity
  rw [pow_succ, mul_assoc]
  rcases abs_cases (f.point k - x) with ⟨size, _⟩ | ⟨size, _⟩
  · have half : 2 * |f.point k - x| ≤ f.point k - f.point (k - 1) := by linarith
    have scaled := mul_le_mul_of_nonneg_left half power.le
    linarith
  · have half : 2 * |f.point k - x| ≤ f.point (k + 1) - f.point k := by linarith
    have scaled := mul_le_mul_of_nonneg_left half power.le
    linarith

end

/-- Of two numbers apart, the greater is not rounded to less. -/
theorem Nearest.le_of_lt {x y : ℚ} {k l : ℤ} (first : f.Nearest x k) (second : f.Nearest y l)
    (less : x < y) : k ≤ l := by
  by_contra beyond
  have upper := first.upper
  have above := first.above l second.lower (by omega)
  have below := second.below l (le_refl l) (by omega)
  linarith

end Format

/-! ## Values as rational numbers -/

namespace Value

/-- Neither an infinity nor a NaN. -/
def isFinite : Value → Bool
  | finite .. => true
  | _ => false

/-- The rational number that a finite value is. -/
def rational : Value → ℚ
  | finite negative m e => signed negative m * 2 ^ e
  | _ => 0

/-- A signed significand as a rational number. -/
theorem signed_cast (negative : Bool) (m : Nat) :
    (signed negative m : ℚ) = if negative then -(m : ℚ) else m := by
  cases negative <;> simp [signed]

/-- Only a zero significand is the number zero. -/
theorem rational_eq_zero {negative : Bool} {m : Nat} {e : ℤ} :
    (finite negative m e).rational = 0 ↔ m = 0 := by
  have power : (2 ^ e : ℚ) ≠ 0 := by positivity
  rw [rational, signed_cast]
  cases negative <;> simp [power]

/-- Zeros below the last digit change no number. -/
theorem rational_scale (negative : Bool) (m j : Nat) (e : ℤ) :
    (finite negative (m * 2 ^ j) (e - j)).rational = (finite negative m e).rational := by
  have power : (2 ^ e : ℚ) = 2 ^ j * 2 ^ (e - j) := by
    rw [← zpow_natCast, ← zpow_add₀ (by norm_num)]
    congr 1
    omega
  rw [rational, rational, signed_cast, signed_cast, power]
  cases negative <;> simp <;> ring

/-- The sign and the magnitude of a number that is not zero. -/
theorem rational_inj {negative sign : Bool} {m n : Nat} {e i : ℤ} (some : m ≠ 0)
    (same : (finite negative m e).rational = (finite sign n i).rational) :
    negative = sign ∧ (m * 2 ^ e : ℚ) = n * 2 ^ i := by
  have positive : (0 : ℚ) < m * 2 ^ e := by positivity
  have natural : (0 : ℚ) ≤ n * 2 ^ i := by positivity
  simp only [rational, signed_cast] at same
  cases negative <;> cases sign <;>
    simp only [Bool.false_eq_true, if_false, if_true, neg_mul, neg_inj] at same
  case false.false => exact ⟨rfl, same⟩
  case true.true => exact ⟨rfl, same⟩
  all_goals linarith

end Value

namespace Format

variable {f : Format}

/-- The value is what a rational number of finitely many binary digits is rounded to. -/
def Rounds (f : Format) (x : ℚ) (v : Value) : Prop :=
  ∃ negative m e, x = (Value.finite negative m e).rational ∧
    v = f.decode (f.encode (.finite negative m e))

/-- The numbers of a format. -/
def Holds (f : Format) (x : ℚ) : Prop :=
  ∃ k : ℤ, -(f.infinityBits : ℤ) < k ∧ k < f.infinityBits ∧ f.point k = x

/-- A significand that fits at its place is not rounded, and stands there for
itself. -/
theorem Fits.magnitude {m : Nat} {place : ℤ} (fits : f.Fits m place) :
    f.magnitude (f.gridBits m place) = m * 2 ^ place := by
  have lowest := fits.lowest
  have steps : f.minExponent + ((place - f.minExponent).toNat : ℤ) = place := by omega
  rw [gridBits, f.magnitude_grid (Nat.le_of_lt fits.short) (fits.normal.imp_right (by omega)),
    steps]

/-- The value of a pattern is the number of that pattern. -/
theorem Fits.point {m : Nat} {place : ℤ} (fits : f.Fits m place) (negative : Bool) :
    f.point (Value.signed negative (f.gridBits m place)) =
      (Value.finite negative m place).rational := by
  have size := fits.magnitude
  rw [Value.rational, Value.signed_cast]
  cases negative
  · simpa [Value.signed] using size
  · simp [Value.signed, size]

/-- What a finite pattern stands for is a number of the format. -/
theorem decode_holds {bits : Nat} (pattern : bits < 2 * f.signWeight)
    (finite : (f.decode bits).isFinite = true) : f.Holds (f.decode bits).rational := by
  have magnitude := decode_magnitude pattern
  cases known : f.decode bits with
  | nan => simp [known, Value.isFinite] at finite
  | infinity => simp [known, Value.isFinite] at finite
  | finite negative m place =>
    rw [known] at magnitude
    obtain ⟨_, fits⟩ := magnitude
    have below := fits.finite
    refine ⟨Value.signed negative (f.gridBits m place), ?_, ?_, fits.point negative⟩
    all_goals
      cases negative <;> simp only [Value.signed, Bool.false_eq_true, if_false, if_true] <;> omega

/-- A rounded magnitude below infinity is read back as a number. -/
theorem decode_encode_finite {m : Nat} {e : ℤ} (below : f.roundMagnitude m e < f.infinityBits)
    (negative : Bool) : ∃ n place, f.Fits n place ∧ f.gridBits n place = f.roundMagnitude m e ∧
      f.decode (f.encode (.finite negative m e)) = .finite negative n place := by
  have pattern : f.encode (.finite negative m e) < 2 * f.signWeight := encode_lt _
  have whole := f.infinityBits_add
  have low := f.encode_mod negative m e
  have magnitude := decode_magnitude pattern
  cases known : f.decode (f.encode (.finite negative m e)) with
  | nan =>
    rw [known] at magnitude
    simp only at magnitude
    omega
  | infinity =>
    rw [known] at magnitude
    simp only at magnitude
    omega
  | finite sign n place =>
    obtain ⟨fits, whole⟩ := decode_fits pattern known
    have finite := fits.finite
    rw [known] at magnitude
    have same : sign = negative := by
      cases sign <;> cases negative <;>
        simp only [encode, Bool.false_eq_true, if_false, if_true] at whole <;>
        first | rfl | omega
    exact ⟨n, place, fits, by omega, by rw [same]⟩

/-- A magnitude that is rounded beyond the last number is read back as an infinity. -/
theorem decode_encode_beyond {m : Nat} {e : ℤ} (top : f.roundMagnitude m e = f.infinityBits)
    (negative : Bool) : f.decode (f.encode (.finite negative m e)) = .infinity negative := by
  have same : f.encode (.finite negative m e) = f.encode (.infinity negative) := by
    simp only [encode, top]
  rw [same]
  exact decode_encode_infinity negative

/-- A value that a number is rounded to is the nearest number, or an infinity if that lies beyond
the last one.

Proof: rounding of magnitudes is mirrored for the other sign. Below infinity the
pattern is that of a significand that fits at its place and is read back unchanged. -/
theorem decode_encode_nearest (negative : Bool) (m : Nat) (e : ℤ) :
    let k := Value.signed negative (f.roundMagnitude m e)
    let v := f.decode (f.encode (.finite negative m e))
    f.Nearest (Value.finite negative m e).rational k ∧
      (v.isFinite = true ↔ -(f.infinityBits : ℤ) < k ∧ k < f.infinityBits) ∧
        (v.isFinite = true → v.rational = f.point k) := by
  intro k v
  have bound := f.roundMagnitude_le m e
  have nearest : f.Nearest (Value.finite negative m e).rational k := by
    have size := f.nearest_roundMagnitude m e
    rw [Value.rational, Value.signed_cast]
    cases negative
    · exact size
    · have mirrored := size.neg
      rwa [← neg_mul] at mirrored
  refine ⟨nearest, ?_⟩
  have inside : (-(f.infinityBits : ℤ) < k ∧ k < f.infinityBits) ↔
      f.roundMagnitude m e < f.infinityBits := by
    simp only [k]
    cases negative <;> simp only [Value.signed, Bool.false_eq_true, if_false, if_true] <;> omega
  by_cases below : f.roundMagnitude m e < f.infinityBits
  · obtain ⟨n, place, fits, grid, known⟩ := decode_encode_finite below negative
    have read : v = .finite negative n place := known
    refine ⟨⟨fun _ => inside.mpr below, fun _ => by rw [read]; rfl⟩, fun _ => ?_⟩
    simp only [read, k, ← grid]
    exact (fits.point negative).symm
  · have top : f.roundMagnitude m e = f.infinityBits := by omega
    have read : v = .infinity negative := decode_encode_beyond top negative
    have special : v.isFinite = false := by rw [read]; rfl
    simp [special, inside, below]

/-- A magnitude halfway between two numbers is rounded to the even one. The two numbers are the
neighbours that it was rounded between, since there are no others on both sides of it. -/
theorem roundMagnitude_tie (fraction : 0 < f.fractionBits) {m : Nat} {e j : ℤ}
    (tie : 2 * (m * 2 ^ e : ℚ) = f.point j + f.point (j + 1)) : f.roundMagnitude m e % 2 = 0 := by
  have order := f.point_strictMono
  have step := order (show j < j + 1 by omega)
  obtain ⟨low, least, most, _, even⟩ := f.roundMagnitude_between m e
  rw [← point_natCast] at least
  rw [← point_natCast, Nat.cast_succ] at most
  have after : (low : ℤ) < j + 1 := order.lt_iff_lt.mp (by linarith)
  have before : j < low + 1 := order.lt_iff_lt.mp (by linarith)
  obtain rfl : j = low := by omega
  apply even fraction
  rw [tie, ← point_natCast, ← point_natCast, Nat.cast_succ]

/-- So a number of either sign is. -/
theorem signed_roundMagnitude_tie (fraction : 0 < f.fractionBits) {negative : Bool} {m : Nat}
    {e j : ℤ} (tie : 2 * (Value.finite negative m e).rational = f.point j + f.point (j + 1)) :
    Value.signed negative (f.roundMagnitude m e) % 2 = 0 := by
  rw [Value.rational, Value.signed_cast] at tie
  cases negative with
  | false =>
    have even := roundMagnitude_tie fraction tie
    simp only [Value.signed, Bool.false_eq_true, if_false]
    omega
  | true =>
    have mirrored : 2 * (m * 2 ^ e : ℚ) = f.point (-(j + 1)) + f.point (-(j + 1) + 1) := by
      rw [point_middle_neg]
      simp only [if_true] at tie
      linarith
    have even := roundMagnitude_tie fraction mirrored
    simp only [Value.signed, if_true]
    omega

/-- The rounding of a magnitude depends on the magnitude alone. -/
theorem roundMagnitude_congr {m n : Nat} {e i : ℤ} (same : (m * 2 ^ e : ℚ) = n * 2 ^ i) :
    f.roundMagnitude m e = f.roundMagnitude n i := by
  wlog ordered : e ≤ i generalizing m n e i
  · exact (this same.symm (by omega)).symm
  obtain ⟨k, shift⟩ : ∃ k : Nat, i = e + k := ⟨(i - e).toNat, by omega⟩
  have power : (2 ^ e : ℚ) ≠ 0 := by positivity
  rw [shift, zpow_add₀ (by norm_num), zpow_natCast] at same
  have scaled : (m : ℚ) = n * 2 ^ k := by
    apply mul_right_cancel₀ power
    rw [same]
    ring
  have digits : m = n * 2 ^ k := by exact_mod_cast scaled
  rw [digits, roundMagnitude_scale, shift]

/-- The number that a rational number is rounded to does not depend on how it is written. -/
theorem signed_roundMagnitude_congr {negative sign : Bool} {m n : Nat} {e i : ℤ}
    (same : (Value.finite negative m e).rational = (Value.finite sign n i).rational) :
    Value.signed negative (f.roundMagnitude m e) = Value.signed sign (f.roundMagnitude n i) := by
  by_cases none : m = 0
  · -- Zero may be written with either sign.
    have none' : n = 0 := Value.rational_eq_zero.mp (same ▸ Value.rational_eq_zero.mpr none)
    simp [roundMagnitude, none, none', Value.signed]
  · obtain ⟨rfl, magnitude⟩ := Value.rational_inj none same
    rw [roundMagnitude_congr magnitude]

/-- Rounding keeps order. -/
theorem Rounds.mono {x y : ℚ} {v w : Value} (first : f.Rounds x v) (second : f.Rounds y w)
    (ordered : x ≤ y) (finite : v.isFinite = true) (finite' : w.isFinite = true) :
    v.rational ≤ w.rational := by
  obtain ⟨negative, m, e, rfl, rfl⟩ := first
  obtain ⟨sign, n, i, rfl, rfl⟩ := second
  obtain ⟨nearest, _, value⟩ := f.decode_encode_nearest negative m e
  obtain ⟨nearest', _, value'⟩ := f.decode_encode_nearest sign n i
  rw [value finite, value' finite']
  apply f.point_strictMono.monotone
  rcases ordered.lt_or_eq with less | same
  · exact nearest.le_of_lt nearest' less
  · exact (signed_roundMagnitude_congr same).le

section

variable {x z : ℚ} {v : Value} (rounds : f.Rounds x v)
include rounds

/-- A number that is exceeded by a small part of its last digit at most is not rounded beyond. -/
theorem Rounds.le_of_near (finite : v.isFinite = true) (held : f.Holds z)
    (near : 2 ^ (f.fractionBits + 3) * (x - z) ≤ |z|) : v.rational ≤ z := by
  obtain ⟨negative, m, e, rfl, rfl⟩ := rounds
  obtain ⟨l, lower, upper, rfl⟩ := held
  obtain ⟨nearest, _, value⟩ := f.decode_encode_nearest negative m e
  rw [value finite]
  exact f.point_strictMono.monotone (nearest.le_of_near (by omega) near)

/-- A number of the format that exceeds `x` by a small part of its last digit is not
rounded below. -/
theorem Rounds.ge_of_near (finite : v.isFinite = true) (held : f.Holds z)
    (near : 2 ^ (f.fractionBits + 3) * (z - x) ≤ |z|) : z ≤ v.rational := by
  obtain ⟨negative, m, e, rfl, rfl⟩ := rounds
  obtain ⟨l, lower, upper, rfl⟩ := held
  obtain ⟨nearest, _, value⟩ := f.decode_encode_nearest negative m e
  rw [value finite]
  exact f.point_strictMono.monotone (nearest.ge_of_near (by omega) near)

/-- What lies between two numbers, or a small part of a last digit beyond, is rounded to a
number. -/
theorem Rounds.finite_of_near {low high : ℚ} (heldLow : f.Holds low) (heldHigh : f.Holds high)
    (nearLow : 2 ^ (f.fractionBits + 3) * (low - x) ≤ |low|)
    (nearHigh : 2 ^ (f.fractionBits + 3) * (x - high) ≤ |high|) : v.isFinite = true := by
  obtain ⟨negative, m, e, rfl, rfl⟩ := rounds
  obtain ⟨i, lowerLow, upperLow, rfl⟩ := heldLow
  obtain ⟨j, lowerHigh, upperHigh, rfl⟩ := heldHigh
  obtain ⟨nearest, inside, _⟩ := f.decode_encode_nearest negative m e
  have most := nearest.le_of_near (l := j) (by omega) nearHigh
  have least := nearest.ge_of_near (l := i) (by omega) nearLow
  exact inside.mpr ⟨by omega, by omega⟩

/-- Rounding does not leave an interval between two numbers. -/
theorem Rounds.between {low high : ℚ} (heldLow : f.Holds low) (heldHigh : f.Holds high)
    (least : low ≤ x) (most : x ≤ high) :
    v.isFinite = true ∧ low ≤ v.rational ∧ v.rational ≤ high := by
  have power : (0 : ℚ) < 2 ^ (f.fractionBits + 3) := by positivity
  have nearLow : 2 ^ (f.fractionBits + 3) * (low - x) ≤ |low| :=
    (mul_nonpos_of_nonneg_of_nonpos power.le (by linarith)).trans (abs_nonneg low)
  have nearHigh : 2 ^ (f.fractionBits + 3) * (x - high) ≤ |high| :=
    (mul_nonpos_of_nonneg_of_nonpos power.le (by linarith)).trans (abs_nonneg high)
  have finite := rounds.finite_of_near heldLow heldHigh nearLow nearHigh
  exact ⟨finite, rounds.ge_of_near finite heldLow nearLow,
    rounds.le_of_near finite heldHigh nearHigh⟩

/-- A rounding is off by half a last digit, or by half the least step. -/
theorem Rounds.error (finite : v.isFinite = true) :
    2 ^ (f.fractionBits + 1) * |v.rational - x| ≤
      |v.rational| + 2 ^ f.fractionBits * 2 ^ f.minExponent := by
  obtain ⟨negative, m, e, rfl, rfl⟩ := rounds
  obtain ⟨nearest, inside, value⟩ := f.decode_encode_nearest negative m e
  rw [value finite]
  exact nearest.error (inside.mp finite)

end

/-- A number of a format lies below its infinity. -/
theorem Holds.below {x : ℚ} (held : f.Holds x) : |x| < f.magnitude f.infinityBits := by
  obtain ⟨k, lower, upper, rfl⟩ := held
  have above := f.point_strictMono upper
  have below := f.point_strictMono lower
  rw [point_natCast] at above
  rw [point_neg, point_natCast] at below
  exact abs_lt.mpr ⟨below, above⟩

/-- A number that is not zero is no less than the least step. -/
theorem Holds.least {x : ℚ} (held : f.Holds x) (some : x ≠ 0) : 2 ^ f.minExponent ≤ |x| := by
  obtain ⟨k, _, _, rfl⟩ := held
  have first : f.magnitude 1 = 2 ^ f.minExponent := by
    have grid := f.magnitude_grid (m := 1) (n := 0) Nat.one_le_two_pow (.inr rfl)
    simpa using grid
  have zero : f.point 0 = 0 := by simp [point]
  have order := f.point_strictMono.monotone
  rcases lt_trichotomy k 0 with negative | rfl | positive
  · have below := order (show k ≤ -(1 : Nat) by omega)
    rw [point_neg, point_natCast, first] at below
    rw [abs_of_nonpos (by linarith [order negative.le])]
    linarith
  · exact absurd zero some
  · have above := order (show ((1 : Nat) : ℤ) ≤ k by omega)
    rw [point_natCast, first] at above
    exact above.trans (le_abs_self _)

end Format

/-! ## Exact arithmetic -/

namespace Value

variable {v w : Value}

/-- The opposite value is the opposite number. -/
theorem rational_neg (finite : v.isFinite = true) :
    v.neg.isFinite = true ∧ v.neg.rational = -v.rational := by
  cases v with
  | nan => cases finite
  | infinity => cases finite
  | finite negative m e =>
    refine ⟨rfl, ?_⟩
    rw [neg, rational, rational, signed_cast, signed_cast]
    cases negative <;> simp

/-- Before rounding, a product of values is the product of the numbers. -/
theorem rational_mul (finite : v.isFinite = true) (finite' : w.isFinite = true) :
    (v.mul w).isFinite = true ∧ (v.mul w).rational = v.rational * w.rational := by
  cases v with
  | nan => cases finite
  | infinity => cases finite
  | finite negative m e =>
    cases w with
    | nan => cases finite'
    | infinity => cases finite'
    | finite sign n i =>
      refine ⟨rfl, ?_⟩
      have power : (2 ^ (e + i) : ℚ) = 2 ^ e * 2 ^ i := zpow_add₀ (by norm_num) e i
      rw [mul, rational, rational, rational, signed_cast, signed_cast, signed_cast, power]
      cases negative <;> cases sign <;> simp <;> ring

/-- Before rounding, a sum of values is the sum of the numbers.

Proof: both significands are scaled to the lower exponent, where the sum is one of
integers. A sum of zero has a sign of its own but no other value. -/
theorem rational_add (finite : v.isFinite = true) (finite' : w.isFinite = true) :
    (v.add w).isFinite = true ∧ (v.add w).rational = v.rational + w.rational := by
  cases v with
  | nan => cases finite
  | infinity => cases finite
  | finite negative m e =>
    cases w with
    | nan => cases finite'
    | infinity => cases finite'
    | finite sign n i =>
      have scaled {d : ℤ} (lower : min e i ≤ d) (k : ℤ) :
          (k : ℚ) * 2 ^ d = (k * (2 ^ (d - min e i).toNat : Nat) : ℤ) * 2 ^ min e i := by
        obtain ⟨j, shift⟩ : ∃ j : Nat, d = min e i + j := ⟨(d - min e i).toNat, by omega⟩
        have steps : (d - min e i).toNat = j := by omega
        have power : (2 ^ d : ℚ) = 2 ^ min e i * 2 ^ j := by
          rw [← zpow_natCast, ← zpow_add₀ (by norm_num), ← shift]
        rw [steps, power]
        push_cast
        ring
      have sum : (Value.finite negative m e).rational + (Value.finite sign n i).rational =
          ((signed negative m * (2 ^ (e - min e i).toNat : Nat) +
            signed sign n * (2 ^ (i - min e i).toNat : Nat) : ℤ) : ℚ) * 2 ^ min e i := by
        rw [rational, rational, scaled (min_le_left e i), scaled (min_le_right e i)]
        push_cast
        ring
      rw [sum]
      simp only [add, Nat.pow_eq]
      generalize signed negative m * (2 ^ (e - min e i).toNat : Nat) +
        signed sign n * (2 ^ (i - min e i).toNat : Nat) = k
      by_cases none : k = 0
      · rw [if_pos none, none]
        refine ⟨rfl, ?_⟩
        rw [rational, signed_cast]
        simp
      · rw [if_neg none]
        exact ⟨rfl, by rw [rational, signed_natAbs]⟩

end Value

/-! ## The two formats -/

namespace Single

/-- The rational number that a finite single-precision number is. -/
def rational (x : Single) : ℚ := x.value.rational

/-- A finite number from its sign, significand and place. -/
theorem rational_eq {x : Single} {negative : Bool} {m : Nat} {e : ℤ}
    (known : x.value = .finite negative m e) :
    x.rational = (if negative then -(m : ℚ) else m) * 2 ^ e := by
  rw [rational, known, Value.rational, Value.signed_cast]

/-- The test of the bits and the case of the value agree on what is finite. -/
theorem isFinite_value (x : Single) : x.value.isFinite = x.isFinite := by
  have flags := x.flags
  cases known : x.value with
  | nan => simp [Value.isFinite, (known ▸ flags).2.1]
  | infinity => simp [Value.isFinite, (known ▸ flags).2.1]
  | finite => simp [Value.isFinite, (known ▸ flags).2.1]

/-- Finite numbers are numbers of the format. -/
theorem holds {x : Single} (finite : x.isFinite = true) : Format.single.Holds x.rational :=
  Format.decode_holds x.pattern (x.isFinite_value.trans finite)

end Single

namespace Double

/-- The rational number that a finite double-precision number is. -/
def rational (x : Double) : ℚ := x.value.rational

/-- A finite number from its sign, significand and place. -/
theorem rational_eq {x : Double} {negative : Bool} {m : Nat} {e : ℤ}
    (known : x.value = .finite negative m e) :
    x.rational = (if negative then -(m : ℚ) else m) * 2 ^ e := by
  rw [rational, known, Value.rational, Value.signed_cast]

/-- Finite numbers are numbers of the format. -/
theorem holds {x : Double} (finite : x.value.isFinite = true) : Format.double.Holds x.rational :=
  Format.decode_holds x.pattern finite

/-- Making a number of a finite value rounds that value. -/
theorem rounds_ofValue {v : Value} (finite : v.isFinite = true) :
    Format.double.Rounds v.rational (ofValue v).value := by
  cases v with
  | nan => cases finite
  | infinity => cases finite
  | finite negative m e => exact ⟨negative, m, e, rfl, value_ofValue _⟩

variable {x y : Double} (finite : x.value.isFinite = true) (finite' : y.value.isFinite = true)
include finite

/-- Narrowing rounds once. -/
theorem toSingle_rounds : Format.single.Rounds x.rational x.toSingle.value := by
  unfold rational
  cases known : x.value with
  | nan => simp [known, Value.isFinite] at finite
  | infinity => simp [known, Value.isFinite] at finite
  | finite negative m e =>
    refine ⟨negative, m, e, rfl, ?_⟩
    rw [toSingle, Single.value_ofValue, known]

include finite'

/-- A sum of finite numbers is the exact sum, rounded once. -/
theorem add_rounds : Format.double.Rounds (x.rational + y.rational) (x.add y).value := by
  obtain ⟨proper, sum⟩ := Value.rational_add finite finite'
  exact sum ▸ rounds_ofValue proper

/-- A product of finite numbers is the exact product, rounded once. -/
theorem mul_rounds : Format.double.Rounds (x.rational * y.rational) (x.mul y).value := by
  obtain ⟨proper, product⟩ := Value.rational_mul finite finite'
  exact product ▸ rounds_ofValue proper

/-- A difference of finite numbers is the exact difference, rounded once. -/
theorem sub_rounds : Format.double.Rounds (x.rational - y.rational) (x.sub y).value := by
  obtain ⟨proper', negated⟩ := Value.rational_neg finite'
  obtain ⟨proper, difference⟩ := Value.rational_add finite proper'
  rw [negated, ← sub_eq_add_neg] at difference
  exact difference ▸ rounds_ofValue proper

end Double

/-- Widening changes no number. -/
theorem Single.rational_toDouble {x : Single} (finite : x.isFinite = true) :
    x.toDouble.value.isFinite = true ∧ x.toDouble.rational = x.rational := by
  have widened := x.value_toDouble
  have proper := x.isFinite_value.trans finite
  unfold Double.rational rational
  cases known : x.value with
  | nan => simp [known, Value.isFinite] at proper
  | infinity => simp [known, Value.isFinite] at proper
  | finite negative m e =>
    rw [known] at widened
    obtain ⟨j, widened⟩ := widened
    rw [widened]
    exact ⟨rfl, Value.rational_scale negative m j e⟩

end BoardEval.Number
