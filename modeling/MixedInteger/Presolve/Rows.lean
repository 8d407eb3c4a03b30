import MixedInteger.Presolve.Activity
import MixedInteger.Presolve.Reduction

/-!
Reductions that remove rows: rows without coefficients, rows with one coefficient,
which become bounds, and rows whose activity bounds decide them.
-/
namespace MixedInteger.Presolve

variable {α : Type} [Scalar α]

/-- Drop a row without coefficients, or find that it cannot hold. -/
def removeEmptyRow (index : Nat) : Reduction α Bool := do
  let row ← rowAt index
  if row.coefs.all Scalar.isNegligible then
    if !row.relation.holds 0 row.rhs then throw .infeasible
    removeRow index
    return true
  else return false

def removeEmptyRows : Reduction α Bool := do
  sweepDown (← get).program.rows.length removeEmptyRow

/-- Turn a row `a * x rel b` into a bound on its only column. -/
def removeSingletonRow (index : Nat) : Reduction α Bool := do
  let row ← rowAt index
  match row.support with
  | [(column, a)] =>
    let bound := row.rhs / a
    let relation := if Scalar.isNegative a then row.relation.flipped else row.relation
    let _ ← match relation with
      | .le => tighten column none (some bound)
      | .ge => tighten column (some bound) none
      | .eq => tighten column (some bound) (some bound)
    removeRow index
    return true
  | _ => return false

def removeSingletonRows : Reduction α Bool := do
  sweepDown (← get).program.rows.length removeSingletonRow

/-- Whether the activity bounds contradict a row. -/
def contradicts (activity : Activity α) (relation : Relation) (rhs : α) : Bool :=
  let minOver := activity.finiteMin.any (Scalar.exceeds · rhs)
  let maxUnder := activity.finiteMax.any (Scalar.exceeds rhs ·)
  match relation with
  | .le => minOver
  | .ge => maxUnder
  | .eq => minOver || maxUnder

/-- Whether the activity bounds imply an inequality row. -/
def implies (activity : Activity α) (relation : Relation) (rhs : α) : Bool :=
  match relation with
  | .le => activity.finiteMax.any fun greatest => !Scalar.exceeds greatest rhs
  | .ge => activity.finiteMin.any fun least => !Scalar.exceeds rhs least
  | .eq => false

/-- Whether an activity bound meets the right-hand side. -/
def meets (bound : Option α) (rhs : α) : Bool :=
  bound.any fun value => Scalar.abs (value - rhs) ≤ Scalar.tolerance

/-- Pin every column of a row to the bound that attains the least (or greatest)
activity. -/
def forceColumns (atMin : Bool) : List (Nat × α) → Reduction α Unit
  | [] => pure ()
  | (column, a) :: rest => do
    let range := (← columnAt column).range
    let value := if Scalar.isPositive a == atMin then range.lower else range.upper
    match value with
    | some bound => let _ ← tighten column (some bound) (some bound)
    | none => pure ()
    forceColumns atMin rest

/-- Decide a row by its activity bounds: contradicted, implied, or forcing. -/
def checkRowActivity (index : Nat) : Reduction α Bool := do
  let row ← rowAt index
  let activity := Activity.ofRow row.coefs (← get).program.columns
  if contradicts activity row.relation row.rhs then throw .infeasible
  if implies activity row.relation row.rhs then
    removeRow index
    return true
  let forcedLow := row.relation != .ge && meets activity.finiteMin row.rhs
  let forcedHigh := row.relation != .le && meets activity.finiteMax row.rhs
  if forcedLow || forcedHigh then
    forceColumns forcedLow row.support
    removeRow index
    return true
  else return false

def checkRowActivities : Reduction α Bool := do
  sweepDown (← get).program.rows.length checkRowActivity

end MixedInteger.Presolve
