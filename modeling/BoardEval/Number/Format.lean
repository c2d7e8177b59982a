/-!
# Binary floating-point formats

A format fixes how many bits of a pattern hold the exponent and how many hold
the fraction. A pattern is decoded to a value that is exact: a sign, a natural
significand and a power of two. Arithmetic is done on values without rounding,
and a value is put back into a format by one rounding to the nearest pattern,
a tie going to the even one.

Patterns of one sign are ordered as the magnitudes they stand for, and
consecutive patterns are neighbouring magnitudes. Rounding uses this: the
significand that was rounded at the right place, plus the number of binades
below it, is the pattern, carries into the next binade included.
-/

namespace BoardEval.Number

/-- Widths of the exponent and fraction fields; the sign takes one more bit. -/
structure Format where
  exponentBits : Nat
  fractionBits : Nat
  deriving DecidableEq, Repr

/-- What a pattern stands for. A finite value is `± significand · 2 ^ exponent`;
zero keeps its sign. The payload of a NaN is not part of its value. -/
inductive Value where
  | nan
  | infinity (negative : Bool)
  | finite (negative : Bool) (significand : Nat) (exponent : Int)
  deriving DecidableEq, Repr

/-- The quotient of `n` by `2 ^ k`, rounded to nearest, ties to even. -/
def roundShift (n k : Nat) : Nat :=
  let quotient := n / Nat.pow 2 k
  let twice := 2 * (n % Nat.pow 2 k)
  if Nat.pow 2 k < twice then quotient + 1
  else if twice = Nat.pow 2 k then quotient + quotient % 2
  else quotient

namespace Format

/-- Half of the exponent range, subtracted from a stored exponent. -/
def bias (f : Format) : Nat := Nat.pow 2 (f.exponentBits - 1) - 1

/-- The exponent of the last place of the smallest magnitudes. -/
def minExponent (f : Format) : Int := 1 - (f.bias : Int) - f.fractionBits

/-- The exponent field that marks infinities and NaNs. -/
def topField (f : Format) : Nat := Nat.pow 2 f.exponentBits - 1

/-- The pattern of positive infinity; every finite magnitude lies below it. -/
def infinityBits (f : Format) : Nat := f.topField * Nat.pow 2 f.fractionBits

/-- The weight of the sign bit. -/
def signWeight (f : Format) : Nat := Nat.pow 2 (f.exponentBits + f.fractionBits)

/-- The value of a pattern. -/
def decode (f : Format) (bits : Nat) : Value :=
  let fraction := bits % Nat.pow 2 f.fractionBits
  let field := bits / Nat.pow 2 f.fractionBits % Nat.pow 2 f.exponentBits
  let negative := bits / f.signWeight % 2 == 1
  if field = f.topField then
    if fraction = 0 then .infinity negative else .nan
  else if field = 0 then .finite negative fraction f.minExponent
  else .finite negative (Nat.pow 2 f.fractionBits + fraction) (f.minExponent + (field - 1))

/-- The pattern, without sign, nearest to `significand · 2 ^ exponent`. -/
def roundMagnitude (f : Format) (significand : Nat) (exponent : Int) : Nat :=
  if significand = 0 then 0
  else
    let place := max f.minExponent (exponent + significand.log2 - f.fractionBits)
    let rounded :=
      if place ≤ exponent then significand * Nat.pow 2 (exponent - place).toNat
      else roundShift significand (place - exponent).toNat
    min f.infinityBits (rounded + (place - f.minExponent).toNat * Nat.pow 2 f.fractionBits)

/-- The pattern of a value: exact where the format has the value, otherwise the
nearest one. Every NaN gets the quiet pattern without payload. -/
def encode (f : Format) : Value → Nat
  | .nan => f.infinityBits + Nat.pow 2 (f.fractionBits - 1)
  | .infinity negative => (if negative then f.signWeight else 0) + f.infinityBits
  | .finite negative significand exponent =>
    (if negative then f.signWeight else 0) + f.roundMagnitude significand exponent

end Format

namespace Value

/-- The value with the opposite sign. -/
def neg : Value → Value
  | .nan => .nan
  | .infinity negative => .infinity (!negative)
  | .finite negative significand exponent => .finite (!negative) significand exponent

/-- A significand with its sign. -/
def signed (negative : Bool) (significand : Nat) : Int :=
  if negative then -(significand : Int) else significand

/-- The exact sum. A zero sum is negative only if both terms are. -/
def add : Value → Value → Value
  | .nan, _ => .nan
  | _, .nan => .nan
  | .infinity a, .infinity b => if a = b then .infinity a else .nan
  | .infinity a, .finite .. => .infinity a
  | .finite .., .infinity b => .infinity b
  | .finite a m i, .finite b n j =>
    let exponent := min i j
    let sum := signed a m * Nat.pow 2 (i - exponent).toNat + signed b n * Nat.pow 2 (j - exponent).toNat
    if sum = 0 then .finite (a && b) 0 exponent
    else .finite (decide (sum < 0)) sum.natAbs exponent

/-- The exact product. -/
def mul : Value → Value → Value
  | .nan, _ => .nan
  | _, .nan => .nan
  | .infinity a, .infinity b => .infinity (a != b)
  | .infinity a, .finite b n _ => if n = 0 then .nan else .infinity (a != b)
  | .finite a m _, .infinity b => if m = 0 then .nan else .infinity (a != b)
  | .finite a m i, .finite b n j => .finite (a != b) (m * n) (i + j)

/-- An integer as a value. -/
def ofInt (n : Int) : Value := .finite (decide (n < 0)) n.natAbs 0

/-- The integer that a value is, if it is one; both zeros are. -/
def toInt? : Value → Option Int
  | .finite negative significand exponent =>
    if 0 ≤ exponent then some (signed negative (significand * Nat.pow 2 exponent.toNat))
    else if significand % Nat.pow 2 (-exponent).toNat = 0 then
      some (signed negative (significand / Nat.pow 2 (-exponent).toNat))
    else none
  | _ => none

/-- The magnitude of an integer under its sign is the integer. -/
theorem signed_natAbs (n : Int) : signed (decide (n < 0)) n.natAbs = n := by
  unfold signed
  split
  · rename_i negative
    rw [decide_eq_true_eq] at negative
    omega
  · rename_i natural
    rw [decide_eq_true_eq] at natural
    omega

/-- An integer is read back from its value. -/
theorem toInt?_ofInt (n : Int) : (ofInt n).toInt? = some n := by
  have magnitude : n.natAbs * Nat.pow 2 (0 : Int).toNat = n.natAbs := Nat.mul_one _
  rw [ofInt, toInt?, if_pos (Int.le_refl 0), magnitude, signed_natAbs]

end Value

end BoardEval.Number
