import BoardEval.Number.Format

/-!
# Single, double and half precision

Single precision is what tensors hold, double precision is what blending
computes in, and half precision is what reduced-precision networks see. Each
type is a bit pattern; equality of two numbers of one type is equality of
patterns, so that two zeros of different sign, or two NaNs with different
payloads, are told apart.
-/

namespace BoardEval.Number

/-- Five bits of exponent and ten of fraction. -/
def Format.half : Format := ⟨5, 10⟩

/-- Eight bits of exponent and 23 of fraction. -/
def Format.single : Format := ⟨8, 23⟩

/-- Eleven bits of exponent and 52 of fraction. -/
def Format.double : Format := ⟨11, 52⟩

/-- A single-precision number. -/
structure Single where
  bits : UInt32
  deriving DecidableEq, Repr

/-- A double-precision number. -/
structure Double where
  bits : UInt64
  deriving DecidableEq, Repr

namespace Single

/-- Positive zero. -/
def zero : Single := ⟨0⟩

/-- Tensors read zero where nothing was written. -/
instance : Inhabited Single := ⟨zero⟩

/-- The number that the bits stand for. -/
def value (x : Single) : Value := Format.single.decode x.bits.toNat

/-- The nearest single-precision number. -/
def ofValue (v : Value) : Single := ⟨UInt32.ofNat (Format.single.encode v)⟩

/-- The nearest single-precision number, ties to the even one. -/
def ofInt (n : Int) : Single := ofValue (.ofInt n)

/-- The exact sum, rounded once. -/
def add (x y : Single) : Single := ofValue (x.value.add y.value)

/-- The exact product, rounded once. -/
def mul (x y : Single) : Single := ofValue (x.value.mul y.value)

/-- The sign bit is flipped, also on a zero and on a NaN. -/
def neg (x : Single) : Single := ⟨x.bits ^^^ 0x80000000⟩

/-- Numerically zero, whatever the sign; a NaN is not. -/
def isZero (x : Single) : Bool := x.bits &&& 0x7fffffff == 0

/-- Beyond infinity, whatever the sign: the exponent is full and the fraction is not
zero. -/
def isNaN (x : Single) : Bool := 0x7f800000 < x.bits &&& 0x7fffffff

/-- Not an infinity and not a NaN. -/
def isFinite (x : Single) : Bool := x.bits &&& 0x7fffffff < 0x7f800000

/-- Round to half precision and widen again. A NaN stays one: it is made quiet
and keeps its sign and the part of its payload that half precision has room
for. -/
def throughHalf (x : Single) : Single :=
  if x.isNaN then ⟨x.bits &&& 0xffffe000 ||| 0x00400000⟩
  else ofValue (Format.half.decode (Format.half.encode x.value))

end Single

namespace Double

/-- Positive zero. -/
def zero : Double := ⟨0⟩

/-- An unspecified number is zero. -/
instance : Inhabited Double := ⟨zero⟩

/-- The number that the bits stand for. -/
def value (x : Double) : Value := Format.double.decode x.bits.toNat

/-- The nearest double-precision number. -/
def ofValue (v : Value) : Double := ⟨UInt64.ofNat (Format.double.encode v)⟩

/-- The nearest double-precision number, ties to the even one. -/
def ofInt (n : Int) : Double := ofValue (.ofInt n)

/-- The number one, without rounding. -/
def one : Double := ofInt 1

/-- The exact sum, rounded once. -/
def add (x y : Double) : Double := ofValue (x.value.add y.value)

/-- The exact difference, rounded once: the sum with the opposite number. -/
def sub (x y : Double) : Double := ofValue (x.value.add y.value.neg)

/-- The exact product, rounded once. -/
def mul (x y : Double) : Double := ofValue (x.value.mul y.value)

/-- Numerically zero, whatever the sign. -/
def isZero (x : Double) : Bool := x.bits &&& 0x7fffffffffffffff == 0

end Double

/-- Widening is exact. -/
def Single.toDouble (x : Single) : Double := .ofValue x.value

/-- Narrowing rounds once, to nearest. -/
def Double.toSingle (x : Double) : Single := .ofValue x.value

end BoardEval.Number
