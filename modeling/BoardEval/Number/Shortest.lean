import BoardEval.Number.Decimal

/-!
# Shortest decimal numbers

The shortest decimal number of a single-precision number has the fewest digits
among those that read back as it, and of those it is the nearest. For a given
number of digits only the two neighbours on that decimal grid can be nearest, so
the grids are tried from the coarsest on.

A style says which decimal exponents are written positionally; the others are
written with one digit before the point and an exponent.
-/

namespace BoardEval.Number

/-- A positive rational number. -/
structure Fraction where
  numerator : Nat
  denominator : Nat

namespace Fraction

/-- The magnitude of a finite value. -/
def ofMagnitude (significand : Nat) (exponent : Int) : Fraction :=
  if 0 ≤ exponent then ⟨significand * Nat.pow 2 exponent.toNat, 1⟩
  else ⟨significand, Nat.pow 2 (-exponent).toNat⟩

/-- The exponent of the first decimal digit. -/
def decimalExponent (x : Fraction) : Int :=
  let whole := x.numerator / x.denominator
  if whole = 0 then
    -(Decimal.digitCount ((x.denominator + x.numerator - 1) / x.numerator - 1) : Int)
  else (Decimal.digitCount whole : Int) - 1

/-- The neighbours on the grid of the multiples of `10 ^ p`, the nearer one
first; of two at the same distance the even one. -/
def neighbours (x : Fraction) (p : Int) : List Decimal :=
  let n := x.numerator * Nat.pow 10 (-p).toNat
  let d := x.denominator * Nat.pow 10 p.toNat
  let below : Decimal := ⟨n / d, p⟩
  let above : Decimal := ⟨n / d + 1, p⟩
  let twice := 2 * (n % d)
  if twice < d ∨ (twice = d ∧ n / d % 2 = 0) then [below, above] else [above, below]

end Fraction

namespace Single

/-- The most digits that a single-precision number can need. -/
def digitLimit : Nat := 9

/-- The magnitude of a decimal number in single precision is that of `x`. -/
def isReadFrom (x : Single) (d : Decimal) : Bool :=
  (ofValue (d.value false)).bits == x.bits &&& 0x7fffffff

/-- The shortest decimal number of the magnitude of `x`; zero if `x` is not
finite. -/
def shortest (x : Single) : Decimal :=
  match x.value with
  | .finite _ significand exponent =>
    if significand = 0 then ⟨0, 0⟩
    else
      let magnitude := Fraction.ofMagnitude significand exponent
      let first := magnitude.decimalExponent
      let candidates := (List.range digitLimit).flatMap fun (k : Nat) => magnitude.neighbours (first - k)
      (candidates.find? x.isReadFrom).getD ⟨0, 0⟩
  | _ => ⟨0, 0⟩

end Single

/-- The decimal exponents that are written positionally. -/
structure DecimalStyle where
  lowest : Int
  highest : Int

namespace Decimal

/-- The significant digits, without zeros at the end. -/
def digits (d : Decimal) : List Char :=
  ((Nat.toDigits 10 d.significand).reverse.dropWhile (· = '0')).reverse

/-- The exponent of the first digit. -/
def firstExponent (d : Decimal) : Int :=
  d.exponent + (Nat.toDigits 10 d.significand).length - 1

/-- The digits with a point, which has a digit on both sides. -/
def positional (digits : List Char) (first : Int) : List Char :=
  if first < 0 then '0' :: '.' :: (List.replicate (-first - 1).toNat '0' ++ digits)
  else
    let before := first.toNat + 1
    let padded := digits ++ List.replicate (before - digits.length) '0'
    let after := padded.drop before
    padded.take before ++ '.' :: (if after.isEmpty then ['0'] else after)

/-- One digit, a point if more follow, and an exponent with its sign. -/
def scientific (digits : List Char) (first : Int) : List Char :=
  let mantissa := match digits with
    | d :: e :: rest => d :: '.' :: e :: rest
    | short => short
  let sign := if first < 0 then '-' else '+'
  mantissa ++ 'e' :: sign :: Nat.toDigits 10 first.natAbs

/-- Write a decimal number. -/
def text (style : DecimalStyle) (d : Decimal) : String :=
  String.ofList <|
    if d.significand = 0 then ['0', '.', '0']
    else if style.lowest ≤ d.firstExponent ∧ d.firstExponent ≤ style.highest then
      positional d.digits d.firstExponent
    else scientific d.digits d.firstExponent

end Decimal

end BoardEval.Number
