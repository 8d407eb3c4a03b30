import MixedInteger.Presolve.Activity
import MixedInteger.Presolve.Reduction

/-!
Reductions that narrow ranges: bounds implied by a row and the other columns'
ranges, and the rounding of integral bounds.
-/
namespace MixedInteger.Presolve

variable {α : Type} [Scalar α]

/-- The bounds that `a * x rel b - rest` puts on `x`, where the rest of the row lies
between two optional limits: lower bound first. -/
def impliedBounds (relation : Relation) (a rhs : α) (restMin restMax : Option α) :
    Option α × Option α :=
  let fromMin := if relation = .ge then none else restMin.map fun rest => (rhs - rest) / a
  let fromMax := if relation = .le then none else restMax.map fun rest => (rhs - rest) / a
  if Scalar.isPositive a then (fromMax, fromMin) else (fromMin, fromMax)

/-- Whether a gain over a bound is large enough to be worth recording. -/
def worthwhile (gain candidate : α) : Bool :=
  Scalar.tolerance * (1 + Scalar.abs candidate) < gain

/-- Narrow one column's range by one row. -/
def tightenByRow (index column : Nat) : Reduction α Bool := do
  let row ← rowAt index
  let a ← attempt (row.coef column)
  if Scalar.isNegligible a then return false
  let range := (← columnAt column).range
  let activity := Activity.ofRow row.coefs (← get).program.columns
  let (lower, upper) := impliedBounds row.relation a row.rhs
    (activity.residualMin a range) (activity.residualMax a range)
  let lower := lower.filter fun bound => range.lower.all fun old => worthwhile (bound - old) bound
  let upper := upper.filter fun bound => range.upper.all fun old => worthwhile (old - bound) bound
  if lower.isNone && upper.isNone then return false
  tighten column lower upper

def tightenBounds : Reduction α Bool := do
  let program := (← get).program
  sweep (fun row => sweep (tightenByRow row) (List.range program.columns.length))
    (List.range program.rows.length)

/-- Round the bounds of an integral column inward. -/
def roundBounds (index : Nat) : Reduction α Bool := do
  let column ← columnAt index
  if !column.integral then return false
  let rounded := column.range.roundInward
  setRange index rounded
  if rounded.isEmpty then throw .infeasible
  if rounded.same column.range then return false
  countTightened
  return true

def roundIntegralBounds : Reduction α Bool := do
  sweep roundBounds (List.range (← get).program.columns.length)

end MixedInteger.Presolve
