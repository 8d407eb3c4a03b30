import MixedInteger.Column
import MixedInteger.Row

/-!
Linear programs: minimise `objective · x + constant` over the points that satisfy
every row and lie in every column's range, integral columns taking integers.
-/
namespace MixedInteger

/-- A linear program with integrality flags. Counts need not agree; `validate`
checks them. -/
structure Program (α : Type) where
  objective : List α
  constant : α
  rows : List (Row α)
  columns : List (Column α)

namespace Program

variable {α : Type} [Scalar α]

def objectiveValue (program : Program α) (values : List α) : α :=
  dot program.objective values + program.constant

/-- Check that every row has one coefficient per column. -/
def validateRows (program : Program α) : Except Malformed Unit :=
  match rowMismatch? program.columns.length (program.rows.map Row.coefs) with
  | some mismatch => .error (.shape mismatch)
  | none => .ok ()

/-- The first column with an empty range. -/
def emptyColumn? (program : Program α) : Option Malformed :=
  (program.columns.zipIdx.find? fun (column, _) => column.range.isEmpty).map fun (column, index) =>
    .emptyRange index (column.range.lower.map Scalar.toNumber)
      (column.range.upper.map Scalar.toNumber)

/-- Check counts first, objective before rows, then ranges. -/
def validate (program : Program α) : Except Malformed Unit := do
  if program.objective.length ≠ program.columns.length then
    throw (.shape (.objective program.objective.length program.columns.length))
  program.validateRows
  match program.emptyColumn? with
  | some cause => throw cause
  | none => return ()

/-- Whether some column's range is empty. -/
def hasEmptyRange (program : Program α) : Bool := program.columns.any (·.range.isEmpty)

/-- The program with other column ranges, in order. -/
def withRanges (program : Program α) (ranges : List (Range α)) : Program α :=
  let narrowed := program.columns.zipWith (fun column range => { column with range }) ranges
  { program with columns := narrowed ++ program.columns.drop ranges.length }

end Program

end MixedInteger
