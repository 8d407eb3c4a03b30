/-!
IEEE 754 binary64 numbers as bit patterns.

A number is its 64-bit word: a sign bit, an 11-bit exponent field and a 52-bit
fraction. Keeping the word keeps everything a calculation can observe, the sign
of a zero and of a NaN included. Arithmetic rounds to nearest with ties to even;
a NaN result takes the sign of the first NaN operand, and a NaN produced by an
invalid operation is negative.
-/
namespace MixedInteger

/-- A binary64 number, held as its word. -/
structure Binary64 where
  bits : UInt64

namespace Binary64

/-- The sign bit; it is set on negative numbers, on `-0` and on negative NaNs. -/
def signBit (x : Binary64) : Bool := (x.bits >>> 63) != 0

/-- The 11-bit biased exponent. -/
def exponentField (x : Binary64) : Nat := ((x.bits >>> 52) &&& 0x7ff).toNat

/-- The 52-bit fraction. -/
def fractionField (x : Binary64) : Nat := (x.bits &&& 0xfffffffffffff).toNat

def isNaN (x : Binary64) : Bool := x.exponentField == 2047 && x.fractionField != 0

/-- Neither an infinity nor a NaN. -/
def isFinite (x : Binary64) : Bool := x.exponentField != 2047

/-- The integral significand, with the hidden bit of a normal number. -/
def significand (x : Binary64) : Nat :=
  if x.exponentField == 0 then x.fractionField else Nat.pow 2 52 + x.fractionField

/-- The magnitude of a finite number is `significand * 2 ^ unitExponent`. -/
def unitExponent (x : Binary64) : Int := (max x.exponentField 1 : Nat) - 1075

/-- The magnitude of a finite number as a quotient of naturals. -/
def magnitude (x : Binary64) : Nat × Nat :=
  if 0 ≤ x.unitExponent then (x.significand * Nat.pow 2 x.unitExponent.toNat, 1)
  else (x.significand, Nat.pow 2 (-x.unitExponent).toNat)

/-- The exact value of a finite number; infinities and NaNs have none. -/
def toRat? (x : Binary64) : Option Rat :=
  if x.isFinite then
    let value := mkRat x.magnitude.1 x.magnitude.2
    some (if x.signBit then -value else value)
  else none

protected def zero : Binary64 := ⟨0⟩

protected def one : Binary64 := ⟨0x3ff0000000000000⟩

def infinity : Binary64 := ⟨0x7ff0000000000000⟩

/-- The NaN that an invalid operation produces. -/
def invalid : Binary64 := ⟨0xfff8000000000000⟩

/-- The same number with the opposite sign bit. -/
protected def neg (x : Binary64) : Binary64 := ⟨x.bits ^^^ 0x8000000000000000⟩

/-- The same number with the sign bit cleared. -/
protected def abs (x : Binary64) : Binary64 := ⟨x.bits &&& 0x7fffffffffffffff⟩

/-- The zero that carries the sign of `x`. -/
def zeroLike (x : Binary64) : Binary64 := if x.signBit then Binary64.zero.neg else .zero

/-- Apply a rounded operation of two operands, passing a NaN operand on. -/
def combine (op : Float → Float → Float) (x y : Binary64) : Binary64 :=
  if x.isNaN then x
  else if y.isNaN then y
  else
    let result := op (Float.ofBits x.bits) (Float.ofBits y.bits)
    if result.isNaN then invalid else ⟨result.toBits⟩

protected def add : Binary64 → Binary64 → Binary64 := combine (· + ·)

protected def sub : Binary64 → Binary64 → Binary64 := combine (· - ·)

protected def mul : Binary64 → Binary64 → Binary64 := combine (· * ·)

protected def div : Binary64 → Binary64 → Binary64 := combine (· / ·)

protected def sqrt (x : Binary64) : Binary64 := combine (fun value _ => value.sqrt) x .zero

instance : Add Binary64 := ⟨Binary64.add⟩
instance : Sub Binary64 := ⟨Binary64.sub⟩
instance : Mul Binary64 := ⟨Binary64.mul⟩
instance : Div Binary64 := ⟨Binary64.div⟩
instance : Neg Binary64 := ⟨Binary64.neg⟩

/-- Numeric order; false when either side is a NaN. -/
protected def lt (x y : Binary64) : Bool := Float.ofBits x.bits < Float.ofBits y.bits

/-- Numeric order or equality; false when either side is a NaN. -/
protected def le (x y : Binary64) : Bool := Float.ofBits x.bits ≤ Float.ofBits y.bits

/-- Numeric equality: the two zeros are equal and a NaN equals nothing. -/
protected def eq (x y : Binary64) : Bool := Float.ofBits x.bits == Float.ofBits y.bits

instance : BEq Binary64 := ⟨Binary64.eq⟩

/-- The smaller number, the other one if one is a NaN, the first of equals. -/
protected def min (x y : Binary64) : Binary64 :=
  if x.isNaN then y else if y.lt x then y else x

/-- The larger number, the other one if one is a NaN, the first of equals. -/
protected def max (x y : Binary64) : Binary64 :=
  if x.isNaN then y else if x.lt y then y else x

/-- The number itself where it is above zero, and zero elsewhere. -/
def positivePart (x : Binary64) : Binary64 := if Binary64.zero.lt x then x else .zero

end Binary64

end MixedInteger
