import MixedInteger.Presolve.Bounds

/-!
Reductions that eliminate columns: columns fixed by their range, columns in no row,
and continuous columns that one equality row defines and keeps in range.
-/
namespace MixedInteger.Presolve

variable {α : Type} [Scalar α]

/-- Eliminate a column at a value: its terms move to the right-hand sides and to the
objective constant. -/
def removeAtValue (index : Nat) (value : α) : Reduction α Unit := do
  let program := (← get).program
  let rows ← program.rows.mapM fun row => do
    let a ← attempt (row.coef index)
    return if Scalar.isZero a then row else { row with rhs := row.rhs - a * value }
  let cost ← objectiveAt index
  modify fun state => { state with
    program := { program with rows, constant := program.constant + cost * value } }
  removeColumn index (.constant value)

/-- Eliminate a column whose bounds agree. -/
def removeFixedColumn (index : Nat) : Reduction α Bool := do
  let column ← columnAt index
  match column.range.isFixed, column.range.lower with
  | true, some value =>
    removeAtValue index (if column.integral then Scalar.round value else value)
    return true
  | _, _ => return false

def removeFixedColumns : Reduction α Bool := do
  sweepDown (← get).program.columns.length removeFixedColumn

/-- The best value of a column in no row; there is none if the objective improves
without limit. -/
def bestValue (cost : α) (range : Range α) : Option α :=
  if Scalar.isPos cost then range.lower
  else if Scalar.isNeg cost then range.upper
  else
    match range.lower, range.upper with
    | some lower, _ => some lower
    | none, some upper => some (if Scalar.isNegative upper then upper else 0)
    | none, none => some 0

/-- Eliminate a column in no row at its best value. -/
def removeEmptyColumn (index : Nat) : Reduction α Bool := do
  let entries ← (← get).program.rows.mapM fun row => attempt (row.coef index)
  if entries.any fun a => !Scalar.isNegligible a then return false
  let cost ← objectiveAt index
  let column ← columnAt index
  match bestValue cost column.range with
  | some value =>
    removeAtValue index value
    return true
  | none => throw .unbounded

def removeEmptyColumns : Reduction α Bool := do
  sweepDown (← get).program.columns.length removeEmptyColumn

/-- The next row, counted from `index`, in which a column has a coefficient, with the
rows after it. -/
def nextOccurrence (column : Nat) :
    Nat → List (Row α) → Except Fault (Option (Nat × List (Row α)))
  | _, [] => .ok none
  | index, row :: rest =>
    match row.coefs[column]? with
    | none => .error .outOfRange
    | some a =>
      if Scalar.isNegligible a then nextOccurrence column (index + 1) rest
      else .ok (some (index, rest))

/-- The row of a column that occurs in one row only. -/
def soleRow (column : Nat) (rows : List (Row α)) : Except Fault (Option Nat) := do
  match ← nextOccurrence column 0 rows with
  | none => return none
  | some (index, rest) =>
    match ← nextOccurrence column (index + 1) rest with
    | none => return some index
    | some _ => return none

/-- Whether an equality row alone keeps a column inside its range. -/
def impliedFree (row : Row α) (a : α) (range : Range α) (columns : List (Column α)) : Bool :=
  let activity := Activity.ofRow row.coefs columns
  let (lower, upper) := impliedBounds .eq a row.rhs
    (activity.residualMin a range) (activity.residualMax a range)
  range.lower.all (fun bound => lower.any fun implied => !Scalar.exceeds bound implied) &&
    range.upper.all (fun bound => upper.any fun implied => !Scalar.exceeds implied bound)

/-- Whether a column can be eliminated through the row it occurs in. -/
def eliminable? (program : Program α) (index : Nat) (column : Column α) :
    Except Fault (Option Nat) := do
  if column.integral then return none
  let some sole ← soleRow index program.rows | return none
  let row ← inRange program.rows[sole]?
  if row.relation ≠ .eq then return none
  let a ← row.coef index
  return if impliedFree row a column.range program.columns then some sole else none

/-- The first column that can be eliminated through a row, row first. -/
def findEliminable (program : Program α) :
    List (Column α × Nat) → Except Fault (Option (Nat × Nat))
  | [] => .ok none
  | (column, index) :: rest => do
    match ← eliminable? program index column with
    | some row => return some (row, index)
    | none => findEliminable program rest

/-- Add a multiple of the recovery terms to the objective. -/
def foldIntoObjective (cost : α) : List (Nat × α) → List α → Except Fault (List α)
  | [], objective => .ok objective
  | (column, coefficient) :: terms, objective => do
    let old ← inRange objective[column]?
    foldIntoObjective cost terms (objective.set column (old + cost * coefficient))

/-- Eliminate a column through an equality row: replace it by the row solved for it
and drop the row. -/
def substituteOut (rowIndex index : Nat) : Reduction α Unit := do
  let row ← rowAt rowIndex
  let a ← attempt (row.coef index)
  let constant := row.rhs / a
  let terms := (row.coefs.zipIdx.filter fun (coefficient, column) =>
    column ≠ index ∧ !Scalar.isZero coefficient).map fun (coefficient, column) =>
      (column, -(coefficient / a))
  let cost ← objectiveAt index
  if !Scalar.isZero cost then
    let objective ← attempt (foldIntoObjective cost terms (← get).program.objective)
    modify fun state => { state with
      program.objective := objective
      program.constant := state.program.constant + cost * constant }
  removeRow rowIndex
  removeColumn index (.affine constant terms)

/-- Eliminate columns through their rows as long as there is one. Each elimination
takes a column, so the number of columns bounds their number. -/
def eliminateImpliedFree : Nat → Reduction α Bool
  | 0 => pure false
  | fuel + 1 => do
    let program := (← get).program
    match ← attempt (findEliminable program program.columns.zipIdx) with
    | none => return false
    | some (row, column) =>
      substituteOut row column
      let _ ← eliminateImpliedFree fuel
      return true

def removeImpliedFreeColumns : Reduction α Bool := do
  eliminateImpliedFree (← get).program.columns.length

end MixedInteger.Presolve
