import BoardEval.Number.Binary
import Mathlib.Algebra.Group.Nat.Defs

/-!
# Exact rounding

Rounding to a format changes nothing about a number that the format has. Such a
number may be written in many ways, since a factor of two can be moved from the
significand into the exponent; the pattern it rounds to is the same for all of
them, and decoding that pattern gives the one way in which the format writes it.

From this: encoding inverts decoding on every pattern that is not a NaN, and a
number of a format is kept by a format that embeds it. How far a rounding is off
where it is not exact is not treated here.
-/

namespace BoardEval.Number

/-- Each factor of two is one binary digit more. -/
theorem log2_mul_pow {n : Nat} (positive : n ≠ 0) (k : Nat) :
    (n * 2 ^ k).log2 = n.log2 + k := by
  have power : 0 < 2 ^ k := Nat.two_pow_pos k
  have product : n * 2 ^ k ≠ 0 := Nat.mul_ne_zero positive (Nat.ne_of_gt power)
  rw [Nat.log2_eq_iff product, Nat.pow_add, Nat.add_right_comm, Nat.pow_add]
  exact ⟨Nat.mul_le_mul_right _ (Nat.log2_self_le positive),
    (Nat.mul_lt_mul_right power).mpr Nat.lt_log2_self⟩

/-- A rounded quotient does not see a factor that is common to both sides. -/
theorem roundShift_scale (n k j : Nat) : roundShift (n * 2 ^ j) (k + j) = roundShift n k := by
  have power : 0 < 2 ^ j := Nat.two_pow_pos j
  have twice : 2 * (n % 2 ^ k * 2 ^ j) = 2 * (n % 2 ^ k) * 2 ^ j := (Nat.mul_assoc _ _ _).symm
  simp only [roundShift, Nat.pow_eq, Nat.pow_add, Nat.mul_div_mul_right _ _ power,
    Nat.mul_mod_mul_right, twice, Nat.mul_lt_mul_right power,
    Nat.mul_left_inj (Nat.ne_of_gt power)]

/-- A quotient without remainder is not rounded. -/
theorem roundShift_exact (n k : Nat) : roundShift (n * 2 ^ k) k = n := by
  have whole : roundShift n 0 = n := by simp [roundShift, Nat.mod_one]
  calc roundShift (n * 2 ^ k) k = roundShift (n * 2 ^ k) (0 + k) := by rw [Nat.zero_add]
    _ = n := (roundShift_scale n 0 k).trans whole

namespace Format

variable {f : Format}

/-- A magnitude rounds to one pattern however its factors of two are divided
between significand and exponent. -/
theorem roundMagnitude_scale (m j : Nat) (e : Int) :
    f.roundMagnitude (m * 2 ^ j) e = f.roundMagnitude m (e + j) := by
  by_cases zero : m = 0
  · simp [roundMagnitude, zero]
  have product : m * 2 ^ j ≠ 0 := Nat.mul_ne_zero zero (Nat.ne_of_gt (Nat.two_pow_pos j))
  have leading : e + ((m * 2 ^ j).log2 : Nat) - f.fractionBits =
      e + j + m.log2 - f.fractionBits := by
    rw [log2_mul_pow zero]
    omega
  simp only [roundMagnitude, if_neg zero, if_neg product, leading, Nat.pow_eq]
  generalize max f.minExponent (e + j + m.log2 - f.fractionBits) = place
  congr 2
  -- The place may lie below both exponents, between them, or above both.
  by_cases below : place ≤ e
  · have shift : (e + j - place).toNat = j + (e - place).toNat := by omega
    rw [if_pos below, if_pos (by omega), shift, Nat.pow_add, Nat.mul_assoc]
  rw [if_neg below]
  by_cases between : place ≤ e + j
  · have split : m * 2 ^ j = m * 2 ^ (e + j - place).toNat * 2 ^ (place - e).toNat := by
      rw [Nat.mul_assoc, ← Nat.pow_add]
      congr 2
      omega
    rw [if_pos between, split, roundShift_exact]
  · have shift : (place - e).toNat = (place - (e + j)).toNat + j := by omega
    rw [if_neg between, shift, roundShift_scale]

/-- A value is encoded alike however its factors of two are divided between
significand and exponent. -/
theorem encode_scale (negative : Bool) (m j : Nat) (e : Int) :
    f.encode (.finite negative (m * 2 ^ j) e) = f.encode (.finite negative m (e + j)) := by
  simp only [encode, roundMagnitude_scale]

/-- The pattern, without sign, of a significand at a place of the grid. -/
def gridBits (f : Format) (m : Nat) (place : Int) : Nat :=
  m + (place - f.minExponent).toNat * 2 ^ f.fractionBits

/-- A number as the format writes it. The significand has at most the digits that
the format keeps, and all of them unless the place is the lowest one. -/
structure Fits (f : Format) (m : Nat) (place : Int) : Prop where
  lowest : f.minExponent ≤ place
  short : m < 2 ^ (f.fractionBits + 1)
  normal : 2 ^ f.fractionBits ≤ m ∨ place = f.minExponent
  finite : f.gridBits m place < f.infinityBits

/-- A number that the format has is rounded to its own pattern. -/
theorem Fits.roundMagnitude {m : Nat} {place : Int} (fits : f.Fits m place) :
    f.roundMagnitude m place = f.gridBits m place := by
  by_cases zero : m = 0
  · have place : place = f.minExponent :=
      fits.normal.resolve_left (by have := Nat.two_pow_pos f.fractionBits; omega)
    simp [Format.roundMagnitude, gridBits, zero, place]
  have short : m.log2 < f.fractionBits + 1 := (Nat.log2_lt zero).mpr fits.short
  have grid : max f.minExponent (place + m.log2 - f.fractionBits) = place := by
    have lowest := fits.lowest
    rcases fits.normal with normal | lowest
    · have long : ¬m.log2 < f.fractionBits := fun less =>
        Nat.not_lt.mpr normal ((Nat.log2_lt zero).mp less)
      omega
    · omega
  simp only [Format.roundMagnitude, if_neg zero, grid, if_pos (Int.le_refl place), Int.sub_self,
    Int.toNat_zero, Nat.pow_eq, Nat.pow_zero, Nat.mul_one]
  exact Nat.min_eq_right (Nat.le_of_lt fits.finite)

/-- A number with all digits has a field below that of infinity. -/
theorem Fits.field_lt {m : Nat} {place : Int} (fits : f.Fits m place)
    (normal : 2 ^ f.fractionBits ≤ m) : (place - f.minExponent).toNat + 1 < f.topField := by
  have finite : m + (place - f.minExponent).toNat * 2 ^ f.fractionBits <
      f.topField * 2 ^ f.fractionBits := fits.finite
  apply Nat.lt_of_mul_lt_mul_right (a := 2 ^ f.fractionBits)
  rw [Nat.add_mul, Nat.one_mul]
  omega

/-- The leading digit of a number that the format has lies below those of infinity. -/
theorem Fits.leading {m : Nat} {place : Int} (fits : f.Fits m place) (positive : m ≠ 0) :
    place - f.minExponent + m.log2 + 2 ≤ f.topField + f.fractionBits := by
  have short : m.log2 < f.fractionBits + 1 := (Nat.log2_lt positive).mpr fits.short
  have lowest := fits.lowest
  by_cases normal : 2 ^ f.fractionBits ≤ m
  · have field := fits.field_lt normal
    omega
  · have finite := fits.finite
    have few : m.log2 < f.fractionBits := (Nat.log2_lt positive).mpr (Nat.lt_of_not_le normal)
    have ground := fits.normal.resolve_left normal
    have top : 0 < f.topField :=
      Nat.pos_of_ne_zero fun none => by simp [infinityBits, none] at finite
    omega

/-- From infinity on there are as many patterns as fractions, NaNs among them,
before the sign is reached. -/
theorem infinityBits_add (f : Format) : f.infinityBits + 2 ^ f.fractionBits = f.signWeight := by
  have positive : 0 < 2 ^ f.exponentBits := Nat.two_pow_pos _
  rw [infinityBits, topField, signWeight, Nat.pow_eq, Nat.pow_eq, Nat.pow_eq, ← Nat.succ_mul,
    Nat.succ_eq_add_one, Nat.sub_add_cancel positive, Nat.pow_add]

/-- The pattern with the given fields. -/
def pack (f : Format) (negative : Bool) (field fraction : Nat) : Nat :=
  (if negative then f.signWeight else 0) + (field * 2 ^ f.fractionBits + fraction)

section

variable {field fraction : Nat} (inside : field ≤ f.topField)
  (part : fraction < 2 ^ f.fractionBits)
include inside part

/-- The fields lie below the sign. -/
theorem fields_lt : field * 2 ^ f.fractionBits + fraction < f.signWeight := by
  have most : field * 2 ^ f.fractionBits ≤ f.infinityBits := Nat.mul_le_mul_right _ inside
  have whole := f.infinityBits_add
  omega

/-- The fields of a pattern are read back, and its value is decided by them.

Proof: the pattern is written as fraction plus field times the weight of the field
plus the sign, three times with different factors in front, so that quotient and
remainder of each reading are the part asked for. -/
theorem decode_pack (negative : Bool) :
    f.decode (f.pack negative field fraction) =
      if field = f.topField then
        if fraction = 0 then .infinity negative else .nan
      else if field = 0 then .finite negative fraction f.minExponent
      else .finite negative (2 ^ f.fractionBits + fraction) (f.minExponent + (field - 1)) := by
  have low := fields_lt inside part
  have weight : f.signWeight = 2 ^ f.exponentBits * 2 ^ f.fractionBits := by
    rw [signWeight, Nat.pow_eq, Nat.pow_add]
  have bound : field < 2 ^ f.exponentBits := by
    have positive : 0 < 2 ^ f.exponentBits := Nat.two_pow_pos _
    rw [topField, Nat.pow_eq] at inside
    omega
  have fractionRead : f.pack negative field fraction % 2 ^ f.fractionBits = fraction := by
    have aligned : f.pack negative field fraction =
        fraction + ((if negative then 2 ^ f.exponentBits else 0) + field) *
          2 ^ f.fractionBits := by
      rw [pack, weight, Nat.add_mul]
      cases negative <;> simp <;> omega
    rw [aligned, Nat.add_mul_mod_self_right, Nat.mod_eq_of_lt part]
  have fieldRead : f.pack negative field fraction / 2 ^ f.fractionBits % 2 ^ f.exponentBits =
      field := by
    have aligned : f.pack negative field fraction =
        fraction + (field + (if negative then 1 else 0) * 2 ^ f.exponentBits) *
          2 ^ f.fractionBits := by
      rw [pack, weight, Nat.add_mul]
      cases negative <;> simp <;> omega
    rw [aligned, Nat.add_mul_div_right _ _ (Nat.two_pow_pos _), Nat.div_eq_of_lt part,
      Nat.zero_add, Nat.add_mul_mod_self_right, Nat.mod_eq_of_lt bound]
  have signRead : (f.pack negative field fraction / f.signWeight % 2 == 1) = negative := by
    have positive : 0 < f.signWeight := Nat.zero_lt_of_lt low
    cases negative
    · simp [pack, Nat.div_eq_of_lt low]
    · have aligned : f.pack true field fraction =
          field * 2 ^ f.fractionBits + fraction + 1 * f.signWeight := by
        simp only [pack, if_true]
        omega
      rw [aligned, Nat.add_mul_div_right _ _ positive, Nat.div_eq_of_lt low]
      rfl
  simp only [decode, Nat.pow_eq, fractionRead, fieldRead, signRead]

/-- Without its sign a pattern is its two fields. -/
theorem pack_mod (negative : Bool) :
    f.pack negative field fraction % f.signWeight = field * 2 ^ f.fractionBits + fraction := by
  have low := fields_lt inside part
  cases negative
  · simp only [pack, Bool.false_eq_true, if_false, Nat.zero_add]
    exact Nat.mod_eq_of_lt low
  · simp only [pack, if_true, Nat.add_mod_left]
    exact Nat.mod_eq_of_lt low

end

/-- Every pattern has fields. -/
theorem exists_pack {bits : Nat} (pattern : bits < 2 * f.signWeight) :
    ∃ negative field fraction, field ≤ f.topField ∧ fraction < 2 ^ f.fractionBits ∧
      bits = f.pack negative field fraction := by
  have power : 0 < 2 ^ f.fractionBits := Nat.two_pow_pos _
  have whole := f.infinityBits_add
  have positive : 0 < f.signWeight := by omega
  have low := Nat.mod_lt bits positive
  refine ⟨decide (f.signWeight ≤ bits), bits % f.signWeight / 2 ^ f.fractionBits,
    bits % f.signWeight % 2 ^ f.fractionBits, ?_, Nat.mod_lt _ power, ?_⟩
  · apply Nat.le_of_lt_succ
    rw [Nat.div_lt_iff_lt_mul power, Nat.succ_mul]
    have top : f.infinityBits = f.topField * 2 ^ f.fractionBits := rfl
    omega
  · rw [pack, Nat.div_add_mod']
    by_cases negative : f.signWeight ≤ bits
    · have rest : bits % f.signWeight = bits - f.signWeight := by
        rw [Nat.mod_eq_sub_mod negative, Nat.mod_eq_of_lt (by omega)]
      simp only [negative, decide_true, if_true, rest]
      omega
    · simp only [negative, decide_false, Bool.false_eq_true, if_false, Nat.zero_add]
      exact (Nat.mod_eq_of_lt (by omega)).symm

section

variable {bits : Nat} (pattern : bits < 2 * f.signWeight)
include pattern

/-- A finite value is decoded as the format writes it. -/
theorem decode_fits {negative : Bool} {m : Nat} {place : Int}
    (decoded : f.decode bits = .finite negative m place) :
    f.Fits m place ∧ bits = (if negative then f.signWeight else 0) + f.gridBits m place := by
  obtain ⟨sign, field, fraction, inside, part, rfl⟩ := exists_pack pattern
  have next : 2 ^ (f.fractionBits + 1) = 2 ^ f.fractionBits + 2 ^ f.fractionBits := by
    rw [Nat.pow_succ, Nat.mul_two]
  rw [decode_pack inside part] at decoded
  by_cases top : field = f.topField
  · rw [if_pos top] at decoded
    split at decoded <;> contradiction
  have finite : field * 2 ^ f.fractionBits + fraction < f.infinityBits := by
    have less : (field + 1) * 2 ^ f.fractionBits ≤ f.infinityBits :=
      Nat.mul_le_mul_right _ (by omega)
    rw [Nat.add_mul, Nat.one_mul] at less
    omega
  rw [if_neg top] at decoded
  by_cases low : field = 0
  · rw [if_pos low] at decoded
    obtain ⟨rfl, rfl, rfl⟩ := Value.finite.inj decoded
    have grid : f.gridBits fraction f.minExponent = fraction := by simp [gridBits]
    have finite : f.gridBits fraction f.minExponent < f.infinityBits := by
      simpa [grid, low] using finite
    exact ⟨⟨Int.le_refl _, by omega, .inr rfl, finite⟩, by simp [pack, grid, low]⟩
  · rw [if_neg low] at decoded
    obtain ⟨rfl, rfl, rfl⟩ := Value.finite.inj decoded
    have steps : (f.minExponent + ((field : Int) - 1) - f.minExponent).toNat = field - 1 := by omega
    have grid : f.gridBits (2 ^ f.fractionBits + fraction) (f.minExponent + ((field : Int) - 1)) =
        field * 2 ^ f.fractionBits + fraction := by
      have carry : field * 2 ^ f.fractionBits =
          (field - 1) * 2 ^ f.fractionBits + 2 ^ f.fractionBits := by
        rw [← Nat.succ_mul, Nat.succ_eq_add_one, Nat.sub_add_cancel (by omega)]
      rw [gridBits, steps]
      omega
    exact ⟨⟨by omega, by omega, .inl (by omega), by rwa [grid]⟩, by rw [grid, pack]⟩

/-- The kind of a value is read off its pattern without the sign. -/
theorem decode_magnitude :
    match f.decode bits with
    | .nan => f.infinityBits < bits % f.signWeight
    | .infinity _ => bits % f.signWeight = f.infinityBits
    | .finite _ m place => bits % f.signWeight = f.gridBits m place ∧ f.Fits m place := by
  cases decoded : f.decode bits with
  | finite negative m place =>
    obtain ⟨fits, rfl⟩ := decode_fits pattern decoded
    have low : f.gridBits m place < f.signWeight :=
      Nat.lt_of_lt_of_le fits.finite (f.infinityBits_add ▸ Nat.le_add_right _ _)
    refine ⟨?_, fits⟩
    cases negative
    · simp [Nat.mod_eq_of_lt low]
    · simp [Nat.add_mod_left, Nat.mod_eq_of_lt low]
  | infinity =>
    obtain ⟨sign, field, fraction, inside, part, rfl⟩ := exists_pack pattern
    rw [decode_pack inside part] at decoded
    rw [pack_mod inside part]
    split at decoded
    case isTrue top =>
      split at decoded
      case isTrue whole => rw [top, whole]; rfl
      case isFalse => contradiction
    case isFalse => split at decoded <;> contradiction
  | nan =>
    obtain ⟨sign, field, fraction, inside, part, rfl⟩ := exists_pack pattern
    rw [decode_pack inside part] at decoded
    rw [pack_mod inside part]
    split at decoded
    case isTrue top =>
      split at decoded
      case isTrue => contradiction
      case isFalse some =>
        rw [top]
        exact Nat.lt_add_of_pos_right (Nat.pos_of_ne_zero some)
    case isFalse => split at decoded <;> contradiction

/-- Encoding inverts decoding on every pattern of a number. -/
theorem encode_decode (number : f.decode bits ≠ .nan) : f.encode (f.decode bits) = bits := by
  cases decoded : f.decode bits with
  | nan => contradiction
  | infinity negative =>
    obtain ⟨sign, field, fraction, inside, part, rfl⟩ := exists_pack pattern
    rw [decode_pack inside part] at decoded
    split at decoded
    case isTrue top =>
      split at decoded
      case isTrue whole =>
        obtain rfl := Value.infinity.inj decoded
        simp [encode, pack, top, whole, infinityBits, Nat.pow_eq]
      case isFalse => contradiction
    case isFalse => split at decoded <;> contradiction
  | finite negative m place =>
    obtain ⟨fits, rfl⟩ := decode_fits pattern decoded
    rw [encode, fits.roundMagnitude]

end

/-- What the format writes is read back as it was written. -/
theorem Fits.decode_encode {m : Nat} {place : Int} (fits : f.Fits m place) (negative : Bool) :
    f.decode (f.encode (.finite negative m place)) = .finite negative m place := by
  have short := fits.short
  rw [Nat.pow_succ, Nat.mul_two] at short
  have finite := fits.finite
  have steps : ((place - f.minExponent).toNat : Int) = place - f.minExponent :=
    Int.toNat_of_nonneg (by have := fits.lowest; omega)
  rw [encode, fits.roundMagnitude]
  rw [gridBits, infinityBits, Nat.pow_eq] at finite
  unfold gridBits
  generalize stepped : (place - f.minExponent).toNat = step at *
  by_cases normal : 2 ^ f.fractionBits ≤ m
  · -- The leading digit is carried into the field.
    have packed : (if negative then f.signWeight else 0) + (m + step * 2 ^ f.fractionBits) =
        f.pack negative (step + 1) (m - 2 ^ f.fractionBits) := by
      rw [pack, Nat.add_mul, Nat.one_mul]
      omega
    have below := fits.field_lt normal
    rw [stepped] at below
    rw [packed, decode_pack (Nat.le_of_lt below) (by omega), if_neg (Nat.ne_of_lt below),
      if_neg (Nat.succ_ne_zero _), Nat.add_sub_cancel' normal]
    congr 1
    omega
  · have lowest : place = f.minExponent := fits.normal.resolve_left normal
    obtain rfl : step = 0 := by omega
    have packed : (if negative then f.signWeight else 0) + (m + 0 * 2 ^ f.fractionBits) =
        f.pack negative 0 m := by simp [pack]
    have field : 0 ≠ f.topField := by
      intro none
      rw [← none] at finite
      omega
    rw [packed, decode_pack (Nat.zero_le _) (by omega), if_neg field, if_pos rfl, lowest]

/-- An infinity is kept with its sign. -/
theorem decode_encode_infinity (negative : Bool) :
    f.decode (f.encode (.infinity negative)) = .infinity negative := by
  have packed : f.encode (.infinity negative) = f.pack negative f.topField 0 := rfl
  rw [packed, decode_pack (Nat.le_refl _) (Nat.two_pow_pos _), if_pos rfl, if_pos rfl]

/-- A NaN stays one, provided that there is a fraction to tell it from an
infinity. -/
theorem decode_encode_nan (fraction : 0 < f.fractionBits) : f.decode (f.encode .nan) = .nan := by
  have packed : f.encode .nan = f.pack false f.topField (2 ^ (f.fractionBits - 1)) := by
    simp [encode, pack, infinityBits, Nat.pow_eq]
  have part : 2 ^ (f.fractionBits - 1) < 2 ^ f.fractionBits :=
    Nat.pow_lt_pow_right (by decide) (by omega)
  rw [packed, decode_pack (Nat.le_refl _) part, if_pos rfl,
    if_neg (Nat.ne_of_gt (Nat.two_pow_pos _))]

/-- Rounding ends at infinity. -/
theorem roundMagnitude_le (m : Nat) (e : Int) : f.roundMagnitude m e ≤ f.infinityBits := by
  unfold roundMagnitude
  split
  · exact Nat.zero_le _
  · exact Nat.min_le_left _ _

/-- Every value is encoded as a pattern of the format. -/
theorem encode_lt (v : Value) : f.encode v < 2 * f.signWeight := by
  have whole := f.infinityBits_add
  have power : 0 < 2 ^ f.fractionBits := Nat.two_pow_pos _
  cases v with
  | nan =>
    have half : 2 ^ (f.fractionBits - 1) ≤ 2 ^ f.fractionBits :=
      Nat.pow_le_pow_right (by decide) (Nat.sub_le _ _)
    simp only [encode, Nat.pow_eq]
    omega
  | infinity negative => cases negative <;> simp [encode] <;> omega
  | finite negative m e =>
    have bound := f.roundMagnitude_le m e
    cases negative <;> simp [encode] <;> omega

/-- The pattern of a finite value, without the sign, is its rounded magnitude. -/
theorem encode_mod (negative : Bool) (m : Nat) (e : Int) :
    f.encode (.finite negative m e) % f.signWeight = f.roundMagnitude m e := by
  have bound := f.roundMagnitude_le m e
  have whole := f.infinityBits_add
  have power : 0 < 2 ^ f.fractionBits := Nat.two_pow_pos _
  cases negative
  · simp only [encode, Bool.false_eq_true, if_false, Nat.zero_add]
    exact Nat.mod_eq_of_lt (by omega)
  · simp only [encode, if_true, Nat.add_mod_left]
    exact Nat.mod_eq_of_lt (by omega)

/-- Rounding makes no NaN of a number. -/
theorem decode_encode_number {v : Value} (number : v ≠ .nan) : f.decode (f.encode v) ≠ .nan := by
  intro broken
  cases v with
  | nan => contradiction
  | infinity negative => simp [decode_encode_infinity] at broken
  | finite negative m e =>
    have magnitude := decode_magnitude (f.encode_lt (.finite negative m e))
    have bound := f.roundMagnitude_le m e
    rw [broken, encode_mod] at magnitude
    exact Nat.not_lt.mpr bound magnitude

/-- One format has every number of another: it reaches as low and as high and keeps
as many digits. -/
structure Embeds (f g : Format) : Prop where
  lower : g.minExponent ≤ f.minExponent
  wider : f.fractionBits ≤ g.fractionBits
  higher : f.minExponent + f.topField + f.fractionBits ≤
    g.minExponent + g.topField + g.fractionBits
  finite : 0 < g.topField

/-- A number of the smaller format is written by the larger one with more digits. -/
theorem Fits.widen {g : Format} (embeds : f.Embeds g) {m : Nat} {place : Int}
    (fits : f.Fits m place) : ∃ j : Nat, g.Fits (m * 2 ^ j) (place - j) := by
  obtain ⟨lower, wider, higher, top⟩ := embeds
  have lowest := fits.lowest
  have power : 0 < 2 ^ g.fractionBits := Nat.two_pow_pos _
  have infinite : 2 ^ g.fractionBits ≤ g.infinityBits := Nat.le_mul_of_pos_left _ top
  by_cases zero : m = 0
  · refine ⟨(place - g.minExponent).toNat, ?_⟩
    have ground : place - (place - g.minExponent).toNat = g.minExponent := by omega
    have finite : g.gridBits 0 g.minExponent < g.infinityBits := by
      simp only [gridBits, Int.sub_self, Int.toNat_zero, Nat.zero_mul]
      omega
    rw [zero, Nat.zero_mul, ground]
    exact ⟨Int.le_refl _, Nat.two_pow_pos _, .inr rfl, finite⟩
  have short : m.log2 < f.fractionBits + 1 := (Nat.log2_lt zero).mpr fits.short
  have length (j : Nat) : m * 2 ^ j < 2 ^ (m.log2 + 1 + j) := by
    rw [Nat.pow_add]
    exact (Nat.mul_lt_mul_right (Nat.two_pow_pos j)).mpr Nat.lt_log2_self
  by_cases ground : (place - g.minExponent).toNat < g.fractionBits - m.log2
  · -- The lowest place is reached before all digits are used.
    refine ⟨(place - g.minExponent).toNat, ?_⟩
    have reached : place - (place - g.minExponent).toNat = g.minExponent := by omega
    have few : m * 2 ^ (place - g.minExponent).toNat < 2 ^ g.fractionBits :=
      Nat.lt_of_lt_of_le (length _) (Nat.pow_le_pow_right (by decide) (by omega))
    have finite : g.gridBits (m * 2 ^ (place - g.minExponent).toNat) g.minExponent <
        g.infinityBits := by
      simp only [gridBits, Int.sub_self, Int.toNat_zero, Nat.zero_mul]
      omega
    rw [reached]
    exact ⟨Int.le_refl _, by rw [Nat.pow_succ]; omega, .inr rfl, finite⟩
  · refine ⟨g.fractionBits - m.log2, ?_⟩
    have long : 2 ^ g.fractionBits ≤ m * 2 ^ (g.fractionBits - m.log2) := by
      have sum : g.fractionBits = m.log2 + (g.fractionBits - m.log2) := by omega
      calc 2 ^ g.fractionBits = 2 ^ m.log2 * 2 ^ (g.fractionBits - m.log2) := by
            rw [← Nat.pow_add, ← sum]
        _ ≤ m * 2 ^ (g.fractionBits - m.log2) :=
            Nat.mul_le_mul_right _ (Nat.log2_self_le zero)
    have digits : m * 2 ^ (g.fractionBits - m.log2) < 2 ^ (g.fractionBits + 1) :=
      Nat.lt_of_lt_of_le (length _) (Nat.pow_le_pow_right (by decide) (by omega))
    have field : (place - (g.fractionBits - m.log2 : Nat) - g.minExponent).toNat + 2 ≤
        g.topField := by
      have leading := fits.leading zero
      omega
    have finite : g.gridBits (m * 2 ^ (g.fractionBits - m.log2))
        (place - (g.fractionBits - m.log2 : Nat)) < g.infinityBits := by
      have rows : ((place - (g.fractionBits - m.log2 : Nat) - g.minExponent).toNat + 2) *
          2 ^ g.fractionBits ≤ g.infinityBits := Nat.mul_le_mul_right _ field
      rw [Nat.add_mul] at rows
      rw [Nat.pow_succ] at digits
      unfold gridBits
      omega
    exact ⟨by omega, digits, .inl long, finite⟩

/-- The pattern is zero for a zero significand only. -/
theorem Fits.gridBits_zero {m : Nat} {place : Int} (fits : f.Fits m place) :
    f.gridBits m place = 0 ↔ m = 0 := by
  constructor
  · intro none
    rw [gridBits] at none
    omega
  · rintro rfl
    have power := Nat.two_pow_pos f.fractionBits
    have lowest : place = f.minExponent := fits.normal.resolve_left (by omega)
    simp [gridBits, lowest]

/-- A value of the smaller format is kept by the larger one: only zeros are added below the last
digit. -/
theorem decode_encode_widen {g : Format} (embeds : f.Embeds g) (fraction : 0 < g.fractionBits)
    {bits : Nat} (pattern : bits < 2 * f.signWeight) :
    match f.decode bits with
    | .finite negative m e => ∃ j : Nat,
        g.decode (g.encode (.finite negative m e)) = .finite negative (m * 2 ^ j) (e - j)
    | special => g.decode (g.encode special) = special := by
  have magnitude := decode_magnitude pattern
  cases known : f.decode bits with
  | nan => exact decode_encode_nan fraction
  | infinity negative => exact decode_encode_infinity negative
  | finite negative m e =>
    rw [known] at magnitude
    obtain ⟨j, fits⟩ := magnitude.2.widen embeds
    have exponent : e = e - j + j := by omega
    refine ⟨j, ?_⟩
    rw [exponent, ← encode_scale, fits.decode_encode]
    congr 1
    omega

/-- Every half-precision number is a single-precision one. -/
theorem half_embeds : Format.half.Embeds .single := by
  constructor <;> decide

/-- Every single-precision number is a double-precision one. -/
theorem single_embeds : Format.single.Embeds .double := by
  constructor <;> decide

end Format

namespace Single

variable (x : Single)

/-- Any 32 bits are a pattern of the format. -/
theorem pattern : x.bits.toNat < 2 * Format.single.signWeight := x.bits.toNat_lt

/-- A rounded value is the value that is read back. -/
theorem value_ofValue (v : Value) :
    (ofValue v).value = Format.single.decode (Format.single.encode v) := by
  have bound : Format.single.encode v < 2 ^ 32 := Format.encode_lt v
  rw [value, ofValue, UInt32.toNat_ofNat_of_lt' bound]

/-- A number is made again from its value, bit by bit, unless it is a NaN, whose
payload the value does not keep. -/
theorem ofValue_value (number : x.value ≠ .nan) : ofValue x.value = x := by
  rw [ofValue, value, Format.encode_decode x.pattern number, UInt32.ofNat_toNat]

/-- The bits below the sign. -/
theorem toNat_magnitude :
    (x.bits &&& 0x7fffffff).toNat = x.bits.toNat % Format.single.signWeight :=
  (UInt32.toNat_and _ _).trans (Nat.and_two_pow_sub_one_eq_mod x.bits.toNat 31)

/-- What the bit tests say about a number is what its value says. -/
theorem flags :
    match x.value with
    | .nan => x.isNaN = true ∧ x.isFinite = false ∧ x.isZero = false
    | .infinity _ => x.isNaN = false ∧ x.isFinite = false ∧ x.isZero = false
    | .finite _ m _ => x.isNaN = false ∧ x.isFinite = true ∧ (x.isZero = true ↔ m = 0) := by
  have magnitude := Format.decode_magnitude x.pattern
  have infinite : Format.single.infinityBits = 0x7f800000 := rfl
  simp only [isNaN, isFinite, isZero, UInt32.lt_iff_toNat_lt, decide_eq_true_eq,
    decide_eq_false_iff_not, beq_eq_false_iff_ne, beq_iff_eq, ← UInt32.toNat_inj,
    toNat_magnitude, ne_eq]
  rw [← value, infinite] at magnitude
  cases known : x.value with
  | nan =>
    rw [known] at magnitude
    simp at magnitude ⊢
    omega
  | infinity =>
    rw [known] at magnitude
    simp at magnitude ⊢
    omega
  | finite negative m place =>
    rw [known] at magnitude
    obtain ⟨magnitude, fits⟩ := magnitude
    have finite := fits.finite
    have zero := fits.gridBits_zero
    rw [infinite] at finite
    simp [magnitude] at *
    omega

/-- The test of the bits and the case of the value agree on NaNs. -/
theorem value_eq_nan_iff : x.value = .nan ↔ x.isNaN = true := by
  have flags := x.flags
  cases known : x.value <;> simp_all

end Single

namespace Double

variable (x : Double)

/-- Any 64 bits are a pattern of the format. -/
theorem pattern : x.bits.toNat < 2 * Format.double.signWeight := x.bits.toNat_lt

/-- A rounded value is the value that is read back. -/
theorem value_ofValue (v : Value) :
    (ofValue v).value = Format.double.decode (Format.double.encode v) := by
  have bound : Format.double.encode v < 2 ^ 64 := Format.encode_lt v
  rw [value, ofValue, UInt64.toNat_ofNat_of_lt' bound]

/-- A number is made again from its value, bit by bit, unless it is a NaN. -/
theorem ofValue_value (number : x.value ≠ .nan) : ofValue x.value = x := by
  rw [ofValue, value, Format.encode_decode x.pattern number, UInt64.ofNat_toNat]

/-- A zero has a zero significand at the lowest place, and nothing else has. -/
theorem isZero_iff :
    x.isZero = true ↔ ∃ negative, x.value = .finite negative 0 Format.double.minExponent := by
  have magnitude := Format.decode_magnitude x.pattern
  have low : (x.bits &&& 0x7fffffffffffffff).toNat = x.bits.toNat % Format.double.signWeight :=
    (UInt64.toNat_and _ _).trans (Nat.and_two_pow_sub_one_eq_mod x.bits.toNat 63)
  have zero : x.isZero = true ↔ x.bits.toNat % Format.double.signWeight = 0 := by
    rw [isZero, beq_iff_eq, ← UInt64.toNat_inj, low]
    rfl
  rw [zero]
  rw [← value] at magnitude
  cases known : x.value with
  | nan =>
    rw [known] at magnitude
    simp [Nat.ne_of_gt (Nat.zero_lt_of_lt magnitude)]
  | infinity =>
    rw [known] at magnitude
    simp only [magnitude, reduceCtorEq, exists_false, iff_false]
    decide
  | finite negative m place =>
    rw [known] at magnitude
    obtain ⟨magnitude, fits⟩ := magnitude
    rw [magnitude, fits.gridBits_zero]
    constructor
    · rintro rfl
      exact ⟨negative, by rw [fits.normal.resolve_left (by decide)]⟩
    · rintro ⟨_, same⟩
      exact (Value.finite.inj same).2.1

end Double

/-- Widening keeps the value. -/
theorem Single.value_toDouble (x : Single) :
    match x.value with
    | .finite negative m e => ∃ j : Nat, x.toDouble.value = .finite negative (m * 2 ^ j) (e - j)
    | special => x.toDouble.value = special := by
  have widened := Format.decode_encode_widen Format.single_embeds (by decide) x.pattern
  rw [← value] at widened
  rw [toDouble, Double.value_ofValue]
  cases known : x.value <;> rwa [known] at widened

/-- Narrowing undoes widening. -/
theorem Single.toSingle_toDouble (x : Single) (number : x.value ≠ .nan) :
    x.toDouble.toSingle = x := by
  have widened := x.value_toDouble
  have back := x.ofValue_value number
  rw [Double.toSingle]
  cases known : x.value with
  | nan => contradiction
  | infinity negative =>
    rw [known] at widened back
    rw [widened, back]
  | finite negative m e =>
    rw [known] at widened back
    obtain ⟨j, widened⟩ := widened
    have exponent : e - j + j = e := by omega
    rw [widened, ofValue, Format.encode_scale, exponent, ← ofValue, back]

end BoardEval.Number
