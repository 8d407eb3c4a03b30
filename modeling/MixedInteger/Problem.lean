import MixedInteger.Model
import MixedInteger.Search.Pool
import MixedInteger.Solution

/-!
A problem under solution. The working program is transformed in place: every column
gets a finite lower bound, by negating it or by splitting it in two, and every row
becomes an equality with a slack column. The reference program keeps the columns that
solutions are stated in.
-/
namespace MixedInteger

/-- A mixed-integer problem owned by one solve. -/
structure Problem (α : Type) where
  /-- The program that relaxations are built from. -/
  working : Program α
  settings : Settings
  stats : Stats := {}
  /-- The program that solutions refer to. -/
  reference : Program α
  /-- The rows that solutions are checked against. -/
  frozen : List (Row α) := []
  /-- The other part of each split column. -/
  partner : List (Option Nat) := []
  /-- Columns eliminated by presolve. -/
  removed : UndoLog α := []
  status : Option SolveStatus := none
  /-- The best point in reference columns. -/
  solution : Option (List α) := none
  optimum : Option α := none
  /-- A lower bound on the optimum. -/
  bound : Option Binary64 := none

namespace Problem

variable {α : Type} [Scalar α]

/-- Wrap a program; only its counts are checked. -/
def ofProgram (program : Program α) (settings : Settings) : Except Refusal (Problem α) :=
  if program.objective.length ≠ program.columns.length then
    .error (.shape (.objective program.objective.length program.columns.length))
  else
    match program.validateRows with
    | .error cause => .error (.program cause)
    | .ok () => .ok { working := program, reference := program, settings }

/-- Replace one coefficient of every row. -/
def mapColumn (column : Nat) (change : α → α) (rows : List (Row α)) : List (Row α) :=
  rows.map fun row => { row with coefs := row.coefs.modify column change }

/-- Replace a column that is only bounded above by its negation. -/
def negateColumn (problem : Problem α) (index : Nat) (column : Column α) (upper : α) : Problem α :=
  { problem with working := { problem.working with
      rows := mapColumn index (- ·) problem.working.rows
      objective := problem.working.objective.modify index (- ·)
      columns := problem.working.columns.set index
        { column with range := ⟨some (-upper), none⟩, orientation := .negated } } }

/-- Split a free column into parts above and below zero; the part below goes to the
end. -/
def splitColumn (problem : Problem α) (index : Nat) (column : Column α) : Problem α :=
  let positive := { column with range := .nonnegative, orientation := .positivePart }
  let negative : Column α :=
    { range := .nonnegative, integral := column.integral, orientation := .negativePart
      origin := some index }
  let position := problem.working.columns.length
  { problem with
    working := { problem.working with
      rows := problem.working.rows.map fun row =>
        { row with coefs := row.coefs ++ (row.coefs[index]?.map (- ·)).toList }
      objective := problem.working.objective ++
        (problem.working.objective[index]?.map (- ·)).toList
      columns := problem.working.columns.set index positive ++ [negative] }
    partner := problem.partner.set index (some position) ++ [some index] }

/-- Give one column a finite lower bound. -/
def boundColumn (problem : Problem α) (index : Nat) : Problem α :=
  match problem.working.columns[index]? with
  | none => problem
  | some column =>
    let traced := { column with origin := some index }
    match column.range.lower, column.range.upper with
    | some _, _ =>
      { problem with working := { problem.working with
          columns := problem.working.columns.set index traced } }
    | none, some upper => problem.negateColumn index traced upper
    | none, none => problem.splitColumn index traced

/-- Give every column a finite lower bound. -/
def boundBelow (problem : Problem α) : Problem α :=
  let count := problem.working.columns.length
  (List.range count).foldl boundColumn { problem with partner := List.replicate count none }

/-- Whether the slack of a row is integral on every integral point: all of the row's
numbers and columns are. -/
def slackIntegral (row : Row α) (columns : List (Column α)) : Bool :=
  Scalar.isIntegral row.rhs && (row.coefs.zip columns).all fun (a, column) =>
    Scalar.isZero a || (Scalar.isIntegral a && column.integral)

/-- Turn one inequality row into an equality with a slack column. -/
def addSlack (problem : Problem α) (index : Nat) : Problem α :=
  match problem.working.rows[index]? with
  | none => problem
  | some row =>
    if row.relation = .eq then problem
    else
      let sign : α := if row.relation = .le then 1 else -1
      let slack : Column α :=
        { range := .nonnegative, slack := true
          integral := slackIntegral row problem.working.columns }
      let rows := problem.working.rows.mapIdx fun other source =>
        { source with
          coefs := source.coefs ++ [if other = index then sign else 0]
          relation := if other = index then .eq else source.relation }
      { problem with
        working := { problem.working with
          rows, objective := problem.working.objective ++ [0]
          columns := problem.working.columns ++ [slack] }
        partner := problem.partner ++ [none] }

/-- Turn every inequality row into an equality. -/
def addSlacks (problem : Problem α) : Problem α :=
  (List.range problem.working.rows.length).foldl addSlack problem

/-- Add one working value to the structural column it stands for. -/
def addWorkingValue (values : List α) (entry : Column α × α) : Except Fault (List α) :=
  let (column, x) := entry
  match column.slack, column.origin with
  | false, some index =>
    match values[index]? with
    | some old => .ok (values.set index (old + column.orientation.sign * x))
    | none => .error .outOfRange
  | _, _ => .ok values

/-- Snap integral columns that are within tolerance of an integer. -/
def snap (columns : List (Column α)) (values : List α) : List α :=
  values.zipWith (fun value column =>
    if column.integral && Scalar.isIntegral value then Scalar.round value else value) columns

/-- Working values as values of the reference columns. -/
def toStructural (problem : Problem α) (working : List α) : Except Fault (List α) := do
  let zero := List.replicate problem.reference.columns.length 0
  let values ← (problem.working.columns.zip working).foldlM addWorkingValue zero
  return snap problem.reference.columns values

/-- What a point in reference columns violates, if anything. -/
def audit (problem : Problem α) (values : List α) : Option Breakdown :=
  match firstViolated problem.frozen values with
  | some row => some (.violatedRow row)
  | none =>
    ((problem.reference.columns.zip values).findIdx? fun (column, value) =>
      !column.range.contains value || (column.integral && !Scalar.isIntegral value)).map
        .violatedColumn

/-- The objective of a point in reference columns. -/
def structuralObjective (problem : Problem α) (values : List α) : α :=
  problem.reference.objectiveValue values

/-- Put eliminated columns back into the solution; the log is used up by that. -/
def expand (problem : Problem α) : Except Fault (Problem α) :=
  match problem.solution with
  | none => .ok problem
  | some values => do
    return { problem with solution := some (← problem.removed.replay values), removed := [] }

/-- The outcome as a minimisation result. -/
def toSolution (problem : Problem α) : Solution where
  status := problem.status.getD .infeasible
  values := (problem.solution.getD []).map Scalar.toNumber
  objective := problem.optimum.map Scalar.toNumber
  bound := problem.bound
  gap := match problem.optimum, problem.bound with
    | some optimum, some bound =>
      some (relativeGap (Scalar.toBinary64 optimum) bound).positivePart
    | _, _ => none
  stats := problem.stats

end Problem

end MixedInteger
