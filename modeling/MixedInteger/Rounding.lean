import MixedInteger.Program

/-!
The rounding heuristic: round the integral columns of a point, then repair it by
steps of one on the columns that were fractional, each step being the one that
lowers the squared violation most.
-/
namespace MixedInteger.Rounding

variable {α : Type} [Scalar α]

/-- How many repair steps are made at most. -/
def maxMoves : Nat := 1000

/-- The sum of the squared violations of rows and ranges. -/
def squaredViolation (program : Program α) (values : List α) : α :=
  let rows := program.rows.map fun row => row.violation values
  let ranges := program.columns.zipWith (fun column value => column.range.violation value) values
  (rows ++ ranges).foldl (fun total v => total + v * v) 0

/-- Whether a point satisfies every row and range. -/
def isFeasible (program : Program α) (values : List α) : Bool :=
  program.rows.all (·.holds values) &&
    (program.columns.zip values).all fun (column, value) => column.range.contains value

/-- Round every integral column to the nearest integer in its range. -/
def roundColumns : List (Column α) → List α → Except Fault (List α)
  | [], values => .ok values
  | column :: columns, value :: values => do
    let rounded := if column.integral then column.range.clamp (Scalar.round value) else value
    return rounded :: (← roundColumns columns values)
  | column :: columns, [] =>
    if column.integral then .error .outOfRange else roundColumns columns []

/-- The integral columns whose value was fractional. -/
def fractionalColumns (program : Program α) (values : List α) : List Nat :=
  ((program.columns.zip values).zipIdx.filter fun ((column, value), _) =>
    column.integral && !Scalar.isIntegral value).map Prod.snd

/-- A repair step: a column, its new value and the violation it leads to. -/
structure Move (α : Type) where
  column : Nat
  value : α
  violation : α

/-- The steps of one on the given columns that stay in range. -/
def moves (program : Program α) (values : List α) (rounded : List Nat) : List (Move α) :=
  rounded.flatMap fun index =>
    [-1, 1].filterMap fun step => do
      let value := (← values[index]?) + step
      let column ← program.columns[index]?
      if column.range.contains value then
        some ⟨index, value, squaredViolation program (values.set index value)⟩
      else none

/-- The first step with the least violation below the current one. -/
def bestMove (current : α) (candidates : List (Move α)) : Option (Move α) :=
  candidates.foldl (fun best move =>
    if move.violation < current ∧ best.all (fun old => move.violation < old.violation) then
      some move
    else best) none

/-- Make repair steps until the point is feasible or no step helps. -/
def repair (program : Program α) (rounded : List Nat) : Nat → List α → α → Option (List α)
  | 0, values, _ => if isFeasible program values then some values else none
  | left + 1, values, current =>
    if isFeasible program values then some values
    else
      match bestMove current (moves program values rounded) with
      | none => none
      | some move =>
        repair program rounded left (values.set move.column move.value) move.violation

/-- Round a point and repair it; none if no feasible point is reached. -/
def roundAndRepair (program : Program α) (values : List α) : Except Fault (Option (List α)) := do
  let start ← roundColumns program.columns values
  return repair program (fractionalColumns program values) maxMoves start
    (squaredViolation program start)

end MixedInteger.Rounding
