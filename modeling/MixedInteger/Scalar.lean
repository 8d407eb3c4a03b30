import MixedInteger.Number.Basic

/-!
The arithmetic that presolve, simplex and search share. A solve fixes one scalar
type: rationals, where every comparison is exact and every tolerance is zero, or
binary64 numbers, where comparisons allow for rounding errors.

Operands keep their order everywhere above this module, because binary64 sums
depend on it.
-/
namespace MixedInteger

/-- Operations and tolerances of one arithmetic. -/
class Scalar (α : Type) extends
    Zero α, One α, Add α, Sub α, Mul α, Div α, Neg α, BEq α, LT α, LE α where
  decLt : DecidableLT α
  decLe : DecidableLE α
  /-- Whether the arithmetic makes no rounding errors. -/
  isExact : Bool
  abs : α → α
  /-- The sign of a number, read from its representation: every number that is not
  negative is positive in binary64, where zeros carry a sign. -/
  isPositive : α → Bool
  isNegative : α → Bool
  /-- The largest integer not above, after snapping to an integer within tolerance. -/
  floor : α → α
  /-- The smallest integer not below, with the same snapping. -/
  ceil : α → α
  /-- The nearest integer. -/
  round : α → α
  isIntegral : α → Bool
  /-- Magnitudes up to this count as zero in pivoting. -/
  epsilon : α
  /-- Violations up to this count as none in bounds, rows and integrality. -/
  tolerance : α
  /-- Multiply by one positive factor: rationals become coprime integers, binary64
  numbers get smallest magnitude one. -/
  scaleToIntegers : List α → List α
  ofNumber : Number → α
  toNumber : α → Number

namespace Scalar

variable {α : Type} [Scalar α]

instance (priority := low) : DecidableLT α := decLt
instance (priority := low) : DecidableLE α := decLe

def isZero (x : α) : Bool := x == 0

/-- Zero within the pivoting tolerance. -/
def isNegligible (x : α) : Bool := abs x ≤ epsilon

/-- Positive beyond the pivoting tolerance. -/
def isPos (x : α) : Bool := (epsilon : α) < x

/-- Negative beyond the pivoting tolerance. -/
def isNeg (x : α) : Bool := x < -epsilon

/-- Above another number by more than the feasibility tolerance. -/
def exceeds (x y : α) : Bool := (tolerance : α) < x - y

/-- The part above the integer below, in `[0, 1)`. -/
def fraction (x : α) : α :=
  let part := x - floor x
  if part < 0 then 0 else part

def toBinary64 (x : α) : Binary64 := (toNumber x).toBinary64

def ofBinary64 (x : Binary64) : α := ofNumber (.float x)

/-- The number itself where it is not below zero, and zero elsewhere. -/
def clampZero (x : α) : α := if x < 0 then 0 else x

end Scalar

/-! ### Rationals -/

/-- Multiply by the least common denominator, then divide by the common factor of
the numerators. -/
def primitiveMultiple (values : List Rat) : List Rat :=
  let denominator := values.foldl (fun acc v => Nat.lcm acc v.den) 1
  let integers := values.map (· * (denominator : Rat))
  let factor := integers.foldl (fun acc v => Nat.gcd acc v.num.natAbs) 0
  if factor = 0 || factor = 1 then integers else integers.map (· / (factor : Rat))

instance : Scalar Rat where
  zero := 0
  one := 1
  decLt := inferInstance
  decLe := inferInstance
  isExact := true
  abs q := if q < 0 then -q else q
  isPositive q := 0 < q
  isNegative q := q < 0
  floor q := q.floor
  ceil q := q.ceil
  round q := (q + mkRat 1 2).floor
  isIntegral q := q.den = 1
  epsilon := 0
  tolerance := 0
  scaleToIntegers := primitiveMultiple
  ofNumber
    | .exact q => q
    | .float x => x.toRat?.getD 0
  toNumber := .exact

/-! ### Binary64 numbers -/

namespace Binary64

/-- `10 ^ -9`, the pivoting tolerance. -/
def pivotTolerance : Binary64 := ofFraction false 1 1000000000

/-- `10 ^ -6`, the feasibility tolerance. -/
def feasibilityTolerance : Binary64 := ofFraction false 1 1000000

/-- Within the feasibility tolerance of an integer. -/
def nearInteger (x : Binary64) : Bool := (x - x.round).abs.le feasibilityTolerance

/-- Divide by the smallest magnitude that is not negligible, if there is one. -/
def unitMultiple (values : List Binary64) : List Binary64 :=
  let least := (values.map Binary64.abs).filter pivotTolerance.lt |>.foldl Binary64.min infinity
  if least.isFinite then values.map (· / least) else values

instance : LT Binary64 := ⟨fun x y => x.lt y = true⟩
instance : LE Binary64 := ⟨fun x y => x.le y = true⟩
instance : DecidableLT Binary64 := fun x y => inferInstanceAs (Decidable (x.lt y = true))
instance : DecidableLE Binary64 := fun x y => inferInstanceAs (Decidable (x.le y = true))

end Binary64

instance : Scalar Binary64 where
  zero := .zero
  one := .one
  decLt := inferInstance
  decLe := inferInstance
  isExact := false
  abs := Binary64.abs
  isPositive x := !x.signBit
  isNegative := Binary64.signBit
  floor x := if x.nearInteger then x.round else x.floor
  ceil x := if x.nearInteger then x.round else x.ceil
  round := Binary64.round
  isIntegral := Binary64.nearInteger
  epsilon := Binary64.pivotTolerance
  tolerance := Binary64.feasibilityTolerance
  scaleToIntegers := Binary64.unitMultiple
  ofNumber := Number.toBinary64
  toNumber := .float

end MixedInteger
