import MixedInteger.Search.Tree

/-!
The solve pipeline: presolve, integral rounding, the working form, the root
relaxation and the search; and the solution of a model in the arithmetic that its
numbers call for.
-/
namespace MixedInteger

namespace Search

variable {α : Type} [Scalar α]

/-- Take over what presolve left; a status ends the solve. -/
def adoptPresolved (status : Presolve.Status) (reduced : Presolve.State α) :
    SearchM α (Option SolveStatus) := do
  let problem := (← get).problem
  let next := { problem with
    working := reduced.program
    removed := reduced.removed
    stats := { problem.stats with presolve := reduced.counts } }
  let store (problem : Problem α) : SearchM α Unit := modify fun state => { state with problem }
  match status with
  | .infeasible => store next; return some .infeasible
  | .unbounded => store next; return some .unbounded
  | .solved =>
    store { next with solution := some [], optimum := some reduced.program.constant }
    return some .optimal
  | .reduced => store next; return none

/-- Presolve the working program; a status ends the solve. -/
def presolveRoot : SearchM α (Option SolveStatus) := do
  let problem := (← get).problem
  if problem.settings.presolve = .off then return none
  let (status, reduced) ← perform (Presolve.run problem.settings.presolvePasses problem.working
    problem.removed)
  if problem.settings.verbose then
    say .info (s!"presolve: {reduced.counts.rowsRemoved} rows and " ++
      s!"{reduced.counts.columnsRemoved} columns removed, " ++
      s!"{reduced.counts.boundsTightened} bounds tightened")
  adoptPresolved status reduced

/-- Round the bounds of integral columns inward, up to the first range that becomes
empty by it; none are left of it if all stay nonempty. -/
def roundRanges : List (Column α) → List (Column α) × Bool
  | [] => ([], false)
  | column :: rest =>
    if !column.integral then
      let (others, empty) := roundRanges rest
      (column :: others, empty)
    else
      let rounded := { column with range := column.range.roundInward }
      if rounded.range.isEmpty then (rounded :: rest, true)
      else
        let (others, empty) := roundRanges rest
        (rounded :: others, empty)

/-- Round the integral bounds of the working program; false if a range is empty. -/
def roundRoot : SearchM α Bool := do
  let problem := (← get).problem
  let (columns, empty) := roundRanges problem.working.columns
  modify fun state => { state with
    problem := { problem with working := { problem.working with columns } } }
  return !empty

/-- Keep the current program as the reference and bring a copy to working form. -/
def prepareWorking : SearchM α Unit :=
  modify fun state =>
    let problem := { state.problem with
      frozen := state.problem.working.rows, reference := state.problem.working }
    { state with problem := problem.boundBelow.addSlacks }

/-- Solve the root relaxation; a status other than optimal ends the solve. -/
def solveRoot : SearchM α (Except SolveStatus (Node α)) := do
  let problem := (← get).problem
  modify fun state => { state with budget := { limit := problem.settings.iterationLimit } }
  let (status, root) ← solveNode (Node.root problem.working)
  let used := (← get).budget.used
  count fun stats => { stats with
    nodesExplored := stats.nodesExplored + 1, simplexIterations := used }
  match status with
  | .infeasible => return .error .infeasible
  | .unbounded => return .error .unbounded
  | .iterationLimit => return .error .iterationLimit
  | .error => throw (.internal .rootRelaxation)
  | .optimal =>
    if problem.settings.verbose then
      say .info ("root relaxation: " ++ root.approx.fixed 6)
    return .ok root

/-- Everything before the search. The result is the status of a solve that ends
without one. -/
def prepare : SearchM α (Option SolveStatus) := do
  let problem := (← get).problem
  if problem.settings.verbose then
    say .info (s!"constraint matrix: {problem.working.rows.length} rows, " ++
      s!"{problem.working.columns.length} columns")
  if problem.working.hasEmptyRange then return some .infeasible
  match ← presolveRoot with
  | some status => return some status
  | none =>
    if !(← roundRoot) then return some .infeasible
    prepareWorking
    match ← solveRoot with
    | .error status => return some status
    | .ok root =>
      begin root
      return none

/-- Record how the solve ended. -/
def settle (status : SolveStatus) : SearchM α SolveStatus := do
  modify fun state => { state with problem := { state.problem with status := some status } }
  return status

/-- A whole solve on the given clock. -/
def solve (clock : Clock.Readings) : SearchM α SolveStatus := do
  match ← prepare with
  | some status => settle status
  | none =>
    let fuel := stepBound (← get).problem.working
    settle (← conclude (← loop clock fuel 0))

end Search

variable {α : Type} [Scalar α]

/-- How a solve of a problem ended. The problem as it was left and the messages are
kept also when the solve fails. -/
structure Ended (α : Type) where
  outcome : Except Failure SolveStatus
  problem : Problem α
  journal : Journal

/-- Read off the end of a search. -/
def Ended.ofResult : EStateM.Result Failure (Search.State α) SolveStatus → Ended α
  | .ok status state => ⟨.ok status, state.problem, state.journal⟩
  | .error cause state => ⟨.error cause, state.problem, state.journal⟩

/-- The solution of a problem that has been solved, over all of its columns. -/
def Ended.solution (ended : Ended α) : Run Solution := do
  Run.note ended.journal
  let _ ← Run.lift ended.outcome
  return (← Run.guard ended.problem.expand).toSolution

/-- Solve a problem. -/
def Problem.solve (clock : Clock.Readings) (problem : Problem α) : Ended α :=
  .ofResult ((Search.solve clock).run { problem })

namespace Model

/-- The problem of a model in one arithmetic. -/
def toProblem (model : Model) (settings : Settings) : Except Refusal (Problem α) := do
  Problem.ofProgram (← model.toProgram) settings

/-- Solve a model in the arithmetic `α`, as a minimisation. -/
def solveIn (α : Type) [Scalar α] (clock : Clock.Readings) (model : Model) (settings : Settings) :
    Run Solution := do
  let problem : Problem α ← Run.lift ((model.toProblem settings).mapError .refused)
  (problem.solve clock).solution

/-- A minimisation result in the model's own sense. -/
def inOwnSense (model : Model) (solution : Solution) : Solution :=
  if model.maximize then
    { solution with
      objective := solution.objective.map Number.neg
      bound := solution.bound.map (- ·) }
  else solution

/-- Check a model and tell whether it is solved in exact arithmetic. -/
def chooseArithmetic (model : Model) (settings : Settings) : Run Bool := do
  Run.lift (model.validate.mapError .refused)
  let exact := settings.precision.usesExact model.numbers
  if settings.verbose then
    Run.say .info (s!"solving {model.rows.length} rows x {model.columns.length} columns in " ++
      (if exact then "exact" else "floating point") ++ " arithmetic")
  return exact

/-- Solve a model. -/
def solve (clock : Clock.Readings) (model : Model) (settings : Settings) : Run Solution := do
  let exact ← model.chooseArithmetic settings
  let solution ← if exact then solveIn Rat clock model settings
    else solveIn Binary64 clock model settings
  return model.inOwnSense solution

end Model

end MixedInteger
