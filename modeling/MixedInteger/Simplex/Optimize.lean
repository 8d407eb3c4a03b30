import MixedInteger.Journal
import MixedInteger.Simplex.Iterate

/-!
Two-phase optimisation of a tableau. Phase one gives every row without a feasible
basic column an artificial one and drives the artificial columns to zero; phase two
minimises the program's objective.
-/
namespace MixedInteger.Simplex

/-- The result of one linear solve. -/
inductive Status where
  | optimal
  | infeasible
  | unbounded
  | iterationLimit
  /-- Phase one broke down numerically. -/
  | error
  deriving DecidableEq

def Status.name : Status → String
  | optimal => "Optimal"
  | infeasible => "Infeasible"
  | unbounded => "Unbounded"
  | iterationLimit => "IterationLimit"
  | error => "Error"

/-- A tableau after a phase, with the rows that were dropped as redundant. -/
structure Phase (α : Type) where
  /-- `none` lets the next phase begin. -/
  status : Option Status
  tableau : Tableau α
  budget : Budget
  dropped : List Nat := []

variable {α : Type} [Scalar α]

namespace Tableau

/-- Whether a row has no feasible basic column. -/
def isPending (tableau : Tableau α) (row : TableauRow α) : Bool :=
  row.basic.isNone || Scalar.exceeds 0 row.rhs ||
    (tableau.basicUpper row).any (Scalar.exceeds row.rhs)

/-- The positions of the pending rows. -/
def pendingRows (tableau : Tableau α) : List Nat :=
  (tableau.rows.zipIdx.filter fun (row, _) => tableau.isPending row).map Prod.snd

/-- Bring a pending row's right-hand side to a value that is not negative. -/
def orientRow (tableau : Tableau α) (index : Nat) : Except Fault (Tableau α) := do
  let some row := tableau.rows[index]? | throw .outOfRange
  if row.basic.any (tableau.columnCount ≤ ·) then throw .outOfRange
  let complemented := if (tableau.basicUpper row).any (Scalar.exceeds row.rhs)
    then tableau.complementBasic index else tableau
  return if complemented.rows[index]?.any (Scalar.isNegative ·.rhs)
    then complemented.negateRow index else complemented

/-- Append one artificial column per pending row and make it basic there. -/
def addArtificials (tableau : Tableau α) (pending : List Nat) : List (TableauRow α) :=
  tableau.rows.mapIdx fun index row =>
    { row with
      coefs := row.coefs ++ pending.map fun other => if other = index then 1 else 0
      basic := match pending.idxOf? index with
        | some k => some (tableau.columnCount + k)
        | none => row.basic }

/-- The sum of the artificial columns, expressed through the nonbasic columns. -/
def artificialCosts (columns : Nat) (pending : List Nat) (rows : List (TableauRow α)) :
    List α × α :=
  let sources := pending.filterMap (rows[·]?)
  let reduced := sources.foldl (fun reduced row => reduced.zipWith (· - ·) (row.coefs.take columns))
    (List.replicate columns 0)
  (reduced ++ List.replicate pending.length 0,
    sources.foldl (fun value row => value + row.rhs) 0)

/-- The largest entry among the first `columns`, the first of equals, with its
column. -/
def largestEntry (columns : Nat) (row : TableauRow α) : Option (Nat × α) :=
  ((row.coefs.take columns).zipIdx.map fun (a, column) => (column, Scalar.abs a)).foldl
    (fun best candidate =>
      if Scalar.isNegligible candidate.2 then best
      else if best.all fun old => old.2 < candidate.2 then some candidate else best) none

/-- Drive the artificial column of one row out of the basis, or drop the row as
redundant. -/
def expelArtificial (columns : Nat) (state : Tableau α × List Nat) (index : Nat) :
    Tableau α × List Nat :=
  let (tableau, dropped) := state
  match tableau.rows[index]? with
  | none => state
  | some row =>
    if row.basic.any (· < columns) then state
    else
      match largestEntry columns row with
      | some (column, _) =>
        let cleared := { tableau with rows := tableau.rows.set index { row with rhs := 0 } }
        (cleared.pivot index column, dropped)
      | none => ({ tableau with rows := tableau.rows.eraseIdx index }, dropped ++ [index])

/-- Set phase one up: orient the pending rows and add their artificial columns. -/
def beginPhaseOne (tableau : Tableau α) (pending : List Nat) : Except Fault (Tableau α) := do
  let oriented ← pending.foldlM orientRow tableau
  let rows := oriented.addArtificials pending
  let (reduced, value) := artificialCosts oriented.columnCount pending rows
  return { oriented with rows, reduced, value, costReady := false }

/-- Leave phase one: expel the artificial columns and restore the program's costs. -/
def endPhaseOne (tableau : Tableau α) : Except Fault (Tableau α × List Nat) := do
  let columns := tableau.columnCount
  let (expelled, dropped) := (List.range tableau.rows.length).reverse.foldl
    (expelArtificial columns) (tableau, [])
  let rows := expelled.rows.map fun row => { row with coefs := row.coefs.take columns }
  return (← { expelled with rows }.rebuildCosts, dropped)

/-- Restore primal feasibility. -/
def phaseOne (tableau : Tableau α) (budget : Budget) : Except Fault (Phase α) := do
  let pending := tableau.pendingRows
  if pending.isEmpty then
    let ready ← if tableau.costReady then pure tableau else tableau.rebuildCosts
    return { status := none, tableau := ready, budget }
  let start ← tableau.beginPhaseOne pending
  let (ending, reached, charged) :=
    iterate start.columnCount (start.iterationBound budget) start budget
  match ending with
  | .unsettled => throw .unsettled
  | .limit => return { status := some .iterationLimit, tableau := reached, budget := charged }
  | .unbounded => return { status := some .error, tableau := reached, budget := charged }
  | .optimal =>
    if Scalar.exceeds reached.value 0 then
      return { status := some .infeasible, tableau := reached, budget := charged }
    let (ready, dropped) ← reached.endPhaseOne
    return { status := none, tableau := ready, budget := charged, dropped }

/-- Minimise the program's objective from a feasible basis. -/
def phaseTwo (phase : Phase α) : Except Fault (Phase α) := do
  let (ending, reached, charged) := iterate phase.tableau.columnCount
    (phase.tableau.iterationBound phase.budget) phase.tableau phase.budget
  let status ← match ending with
    | .optimal => pure Status.optimal
    | .unbounded => pure Status.unbounded
    | .limit => pure Status.iterationLimit
    | .unsettled => throw .unsettled
  return { phase with status := some status, tableau := reached, budget := charged }

/-- Both phases, from the current basis. -/
def optimizePhases (tableau : Tableau α) (budget : Budget) : Except Fault (Phase α) := do
  let phase ← tableau.phaseOne budget
  if phase.status.isSome then return phase else phaseTwo phase

end Tableau

/-- A tableau after optimisation. -/
structure Optimized (α : Type) where
  status : Status
  tableau : Tableau α
  budget : Budget

/-- What an optimisation leaves in the journal. -/
def Phase.journal (before : Tableau α) (phase : Phase α) (status : Status) : Journal :=
  phase.dropped.map (fun row => ⟨.warn, s!"simplex: dropping redundant row {row}"⟩) ++
    [⟨.trace, "simplex: " ++ status.name ++
      s!" after {phase.tableau.iterations - before.iterations} iterations, " ++
      s!"{phase.tableau.rows.length} rows"⟩]

/-- Solve from the current basis. -/
def Tableau.optimize (tableau : Tableau α) (budget : Budget) : Run (Optimized α) := do
  let phase ← Run.guard (tableau.optimizePhases budget)
  let status := phase.status.getD .optimal
  Run.note (phase.journal tableau status)
  return { status, tableau := phase.tableau, budget := phase.budget }

/-- The outcome of solving a program from scratch. -/
structure Solved (α : Type) where
  status : Status
  values : List α
  objective : α
  used : Nat

/-- Solve a program from scratch. -/
def solveProgram (program : Program α) (budget : Budget) : Run (Solved α) := do
  let form ← Run.lift ((StandardForm.ofProgram program).mapError .malformed)
  let result ← (Tableau.ofForm form).optimize budget
  return { status := result.status
           values := result.tableau.solution.take form.programColumns
           objective := result.tableau.objectiveValue
           used := result.budget.used }

end MixedInteger.Simplex
