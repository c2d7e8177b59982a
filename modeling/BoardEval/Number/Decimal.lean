import BoardEval.Number.Binary

/-!
# Decimal numbers

A decimal number is a natural significand times a power of ten. A negative
power makes it a quotient, which a binary format can rarely hold; a quotient is
cut to more bits than any format keeps, and its last bit records whether
something was cut off, so that it rounds as the exact quotient does.

A decimal number can be brought to double precision in two ways. Rounding it
once gives the nearest double. Scaling rounds the significand first and then the
product or quotient with a power of ten; it is off by a last place now and then,
and what is read by scaling has to be read by scaling everywhere.
-/

namespace BoardEval.Number

namespace Value

/-- The quotient of two naturals, the second one positive, to at least 70 bits;
the last bit is set if the quotient was cut off. -/
def ratio (negative : Bool) (n d : Nat) : Value :=
  let shift := 70 + d.log2 - n.log2
  let scaled := n * Nat.pow 2 shift
  let cut := if scaled % d = 0 then 0 else 1
  .finite negative (2 * (scaled / d) + cut) (-(shift : Int) - 1)

/-- The quotient, close enough to round as the exact one does. -/
def div : Value → Value → Value
  | .nan, _ => .nan
  | _, .nan => .nan
  | .infinity _, .infinity _ => .nan
  | .infinity a, .finite b _ _ => .infinity (a != b)
  | .finite a _ _, .infinity b => .finite (a != b) 0 0
  | .finite a m i, .finite b n j =>
    if n = 0 then (if m = 0 then .nan else .infinity (a != b))
    else
      match ratio (a != b) m n with
      | .finite c significand exponent => .finite c significand (exponent + (i - j))
      | other => other

/-- Infinity of either sign. -/
def isInfinite : Value → Bool
  | .infinity _ => true
  | _ => false

end Value

/-- A natural significand times a power of ten. -/
structure Decimal where
  significand : Nat
  exponent : Int
  deriving DecidableEq, Repr

namespace Decimal

/-- Number of decimal digits; zero has none. -/
def digitCount (n : Nat) : Nat := if n = 0 then 0 else (Nat.toDigits 10 n).length

/-- No format reaches this many digits before the point, or sees beyond this
many zeros after it. -/
def digitLimit : Nat := 400

/-- The value of a decimal number. Numbers far beyond all formats become
infinite or zero, as they would when they are rounded. -/
def value (negative : Bool) (d : Decimal) : Value :=
  let digits := digitCount d.significand + d.exponent
  if d.significand = 0 ∨ digits < -(digitLimit : Int) then .finite negative 0 0
  else if (digitLimit : Int) < digits then .infinity negative
  else if 0 ≤ d.exponent then .finite negative (d.significand * Nat.pow 10 d.exponent.toNat) 0
  else .ratio negative d.significand (Nat.pow 10 (-d.exponent).toNat)

end Decimal

namespace Double

/-- Infinity of either sign. -/
def isInfinite (x : Double) : Bool := x.value.isInfinite

/-- The exact quotient, rounded once. -/
def div (x y : Double) : Double := ofValue (x.value.div y.value)

/-- The opposite number: only the bit of the sign changes, also of zeros and of what
is no number. -/
def neg (x : Double) : Double := ⟨x.bits ^^^ 0x8000000000000000⟩

/-- The largest power of ten in double precision. -/
def largestPower : Nat := 308

/-- The double nearest to a power of ten. -/
def powerOfTen (k : Nat) : Double := ofValue (.finite false (Nat.pow 10 k) 0)

/-- Divide by `10 ^ k`, as far as needed in steps of the largest power. -/
def scaleDown (x : Double) (k : Nat) : Double :=
  if k ≤ largestPower then x.div (powerOfTen k)
  else if x.isZero then x
  else (x.div (powerOfTen largestPower)).scaleDown (k - largestPower)
termination_by k
decreasing_by
  simp only [largestPower] at *
  omega

/-- A decimal number by scaling; nothing if it is too large. -/
def scaled? (d : Decimal) : Option Double :=
  let x := ofInt d.significand
  if d.exponent < 0 then some (x.scaleDown (-d.exponent).toNat)
  else if d.exponent ≤ largestPower then
    let y := x.mul (powerOfTen d.exponent.toNat)
    if y.isInfinite then none else some y
  else if x.isZero then some x
  else none

end Double

end BoardEval.Number
