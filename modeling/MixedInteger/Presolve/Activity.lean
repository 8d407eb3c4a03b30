import MixedInteger.Column

/-!
The least and greatest activity of a row over the box of column ranges. Infinite
contributions are counted beside the sum of the finite ones, so that one column can
be taken out again: if it is the only infinite contributor, the rest is finite.
-/
namespace MixedInteger

/-- Bounds on a row's activity: finite parts and numbers of infinite terms. -/
structure Activity (α : Type) where
  min : α
  minInfinite : Nat
  max : α
  maxInfinite : Nat

/-- The least and greatest value of `a * x` for `x` in a range. -/
def contribution {α : Type} [Scalar α] (a : α) (range : Range α) : Option α × Option α :=
  let atLower := range.lower.map (a * ·)
  let atUpper := range.upper.map (a * ·)
  if Scalar.isPositive a then (atLower, atUpper) else (atUpper, atLower)

namespace Activity

variable {α : Type} [Scalar α]

def zero : Activity α := ⟨0, 0, 0, 0⟩

/-- The activity with the term `a * x` added, for `x` in a range. -/
def addTerm (activity : Activity α) (a : α) (range : Range α) : Activity α :=
  let (least, greatest) := contribution a range
  let (min, minInfinite) := match least with
    | some value => (activity.min + value, activity.minInfinite)
    | none => (activity.min, activity.minInfinite + 1)
  let (max, maxInfinite) := match greatest with
    | some value => (activity.max + value, activity.maxInfinite)
    | none => (activity.max, activity.maxInfinite + 1)
  { min, minInfinite, max, maxInfinite }

/-- The activity of a row's coefficients over the ranges of columns. -/
def ofRow (coefs : List α) (columns : List (Column α)) : Activity α :=
  (coefs.zip columns).foldl (fun activity (a, column) =>
    if Scalar.isZero a then activity else activity.addTerm a column.range) zero

/-- The least activity, if it is finite. -/
def finiteMin (activity : Activity α) : Option α :=
  if activity.minInfinite = 0 then some activity.min else none

/-- The greatest activity, if it is finite. -/
def finiteMax (activity : Activity α) : Option α :=
  if activity.maxInfinite = 0 then some activity.max else none

/-- Take one contribution out of a sum with infinite terms. -/
def residual (sum : α) (infinite : Nat) (own : Option α) : Option α :=
  match infinite, own with
  | 0, some value => some (sum - value)
  | 1, none => some sum
  | _, _ => none

/-- The least activity without the term `a * x`, if it is finite. -/
def residualMin (activity : Activity α) (a : α) (range : Range α) : Option α :=
  residual activity.min activity.minInfinite (contribution a range).1

/-- The greatest activity without the term `a * x`, if it is finite. -/
def residualMax (activity : Activity α) (a : α) (range : Range α) : Option α :=
  residual activity.max activity.maxInfinite (contribution a range).2

end Activity

end MixedInteger
