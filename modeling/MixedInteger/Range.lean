import MixedInteger.Scalar

/-!
Ranges of columns. A missing bound is infinite. Tightening is monotone: a bound is
only replaced by a strictly tighter one.
-/
namespace MixedInteger

/-- The values between two optional bounds. -/
structure Range (α : Type) where
  lower : Option α
  upper : Option α

namespace Range

variable {α : Type} [Scalar α]

/-- Everything from zero upward. -/
def nonnegative : Range α := ⟨some 0, none⟩

def free : Range α := ⟨none, none⟩

def fixed (value : α) : Range α := ⟨some value, some value⟩

/-- Whether `value` is a tighter lower bound. -/
def raises (range : Range α) (value : α) : Bool :=
  match range.lower with
  | some lower => !decide (value ≤ lower)
  | none => true

/-- Whether `value` is a tighter upper bound. -/
def lowers (range : Range α) (value : α) : Bool :=
  match range.upper with
  | some upper => !decide (upper ≤ value)
  | none => true

/-- Raise the lower bound to `value` where that tightens it. -/
def tightenLower (range : Range α) (value : α) : Range α :=
  if range.raises value then { range with lower := some value } else range

/-- Lower the upper bound to `value` where that tightens it. -/
def tightenUpper (range : Range α) (value : α) : Range α :=
  if range.lowers value then { range with upper := some value } else range

/-- Whether the lower bound is above the upper bound beyond tolerance. -/
def isEmpty (range : Range α) : Bool :=
  match range.lower, range.upper with
  | some lower, some upper => Scalar.exceeds lower upper
  | _, _ => false

/-- Whether the bounds agree up to tolerance. -/
def isFixed (range : Range α) : Bool :=
  match range.lower, range.upper with
  | some lower, some upper => Scalar.abs (upper - lower) ≤ Scalar.tolerance
  | _, _ => false

/-- The distance between the bounds, if both are finite. -/
def width (range : Range α) : Option α :=
  match range.lower, range.upper with
  | some lower, some upper => some (upper - lower)
  | _, _ => none

/-- Whether a value lies between the bounds up to tolerance. -/
def contains (range : Range α) (value : α) : Bool :=
  range.lower.all (fun lower => !Scalar.exceeds lower value) &&
    range.upper.all (fun upper => !Scalar.exceeds value upper)

/-- The distance from a value to the range, without tolerance. -/
def violation (range : Range α) (value : α) : α :=
  match range.lower.filter (value < ·), range.upper.filter (· < value) with
  | some lower, _ => lower - value
  | none, some upper => value - upper
  | none, none => 0

/-- The nearest value of the range, the lower bound being looked at first. -/
def clamp (range : Range α) (value : α) : α :=
  match range.lower.filter (value < ·), range.upper.filter (· < value) with
  | some lower, _ => lower
  | none, some upper => upper
  | none, none => value

/-- The integers between the bounds, as a range with integral bounds. -/
def roundInward (range : Range α) : Range α :=
  ⟨range.lower.map Scalar.ceil, range.upper.map Scalar.floor⟩

/-- Equality of both bounds by value. -/
def same (range other : Range α) : Bool :=
  range.lower == other.lower && range.upper == other.upper

end Range

end MixedInteger
