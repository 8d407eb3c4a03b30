import MixedInteger.Program

/-!
Equality form of a program with lower bounds shifted to zero. Every inequality row
gets a slack column; slack columns follow the program's own.
-/
namespace MixedInteger.Simplex

/-- A column of the equality form. -/
structure FormColumn (α : Type) where
  cost : α
  /-- The distance between the bounds, if the upper one is finite. -/
  upper : Option α
  /-- The shift, which is the lower bound. -/
  lower : α
  integral : Bool

/-- An equality row. -/
structure FormRow (α : Type) where
  coefs : List α
  rhs : α

/-- Minimise `cost · z + constant` over the equality rows and `0 ≤ z ≤ upper`. -/
structure StandardForm (α : Type) where
  rows : List (FormRow α)
  columns : List (FormColumn α)
  /-- The objective constant with the shift folded in. -/
  constant : α
  /-- How many columns are the program's own. -/
  programColumns : Nat

variable {α : Type} [Scalar α]

/-- The finite lower bounds of columns, or the first column without one. -/
def lowerBounds : Nat → List (Column α) → Except Malformed (List α)
  | _, [] => .ok []
  | index, column :: rest => do
    let some lower := column.range.lower | throw (.freeColumn index)
    return lower :: (← lowerBounds (index + 1) rest)

/-- The coefficient of each slack column in row `index`: the row's own slack has a
sign by its relation, the others do not occur. -/
def slackCoefs (slackRows : List (Nat × Relation)) (index : Nat) : List α :=
  slackRows.map fun (row, relation) =>
    if row = index then if relation = .le then 1 else -1 else 0

namespace StandardForm

/-- Build the equality form; the program must be well formed and every column
bounded below. -/
def ofProgram (program : Program α) : Except Malformed (StandardForm α) := do
  program.validate
  let lower ← lowerBounds 0 program.columns
  let constant := (program.objective.zip lower).foldl
    (fun total term => total + term.1 * term.2) program.constant
  let slackRows := (program.rows.zipIdx.filter fun (row, _) => row.relation ≠ .eq).map
    fun (row, index) => (index, row.relation)
  let rows := program.rows.zipIdx.map fun (row, index) =>
    { coefs := row.coefs ++ slackCoefs slackRows index
      rhs := row.rhs - dot row.coefs lower : FormRow α }
  let own := (program.columns.zip (program.objective.zip lower)).map fun (column, cost, shift) =>
    { cost, upper := column.range.upper.map (· - shift), lower := shift
      integral := column.integral : FormColumn α }
  let slack : FormColumn α := { cost := 0, upper := none, lower := 0, integral := false }
  return { rows, columns := own ++ slackRows.map fun _ => slack, constant
           programColumns := program.columns.length }

end StandardForm

end MixedInteger.Simplex
