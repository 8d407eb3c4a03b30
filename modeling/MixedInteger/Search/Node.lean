import MixedInteger.Cut.Gomory
import MixedInteger.Presolve.Passes
import MixedInteger.Search.Branching
import MixedInteger.Simplex.Optimize

/-!
Nodes of the search: the working program under narrower ranges. A node's relaxation
is solved by simplex, after presolve if asked for, and strengthened by Gomory cuts.
-/
namespace MixedInteger.Search

/-- A subproblem with the result of its relaxation. -/
structure Node (α : Type) where
  /-- The range of every working column. -/
  ranges : List (Range α)
  depth : Nat := 0
  /-- The optimal point of the relaxation. -/
  solution : List α := []
  /-- The optimal value of the relaxation. -/
  optimum : α
  /-- The optimal value in binary64. -/
  approx : Binary64 := .zero
  /-- The summed distance of fractional columns to integers. -/
  infeasibility : Binary64 := .zero
  /-- The column whose fractional part is nearest to one half. -/
  mostFractional : Option Nat := none
  /-- The integral columns with a fractional value, slacks apart. -/
  fractional : Fractions := []
  cutsAdded : Nat := 0
  /-- How much the cuts raised the optimal value. -/
  cutImprovement : Binary64 := .zero

/-- What node relaxations need to know of the settings. -/
structure RelaxationOptions where
  presolve : Bool
  presolvePasses : Nat
  maxCuts : Nat

def RelaxationOptions.ofSettings (settings : Settings) : RelaxationOptions where
  presolve := settings.presolve = .full
  presolvePasses := settings.presolvePasses
  maxCuts := settings.maxCuts

variable {α : Type} [Scalar α]

namespace Node

/-- The root over a program's own ranges. -/
def root (program : Program α) : Node α :=
  { ranges := program.columns.map (·.range), optimum := 0 }

/-- A copy one level deeper, still to be solved. -/
def child (node : Node α) : Node α :=
  { ranges := node.ranges, depth := node.depth + 1, optimum := node.optimum, approx := node.approx }

def isIntegral (node : Node α) : Bool := node.fractional.isEmpty

/-- Apply a change to the range of one column. -/
def narrow (node : Node α) (column : Nat) (change : Range α → Range α) : Node α :=
  { node with ranges := node.ranges.modify column change }

/-- Fractional columns seen so far, with the one nearest to one half. -/
structure Census where
  fractional : Fractions := []
  infeasibility : Binary64 := .zero
  mostFractional : Option Nat := none
  closest : Binary64 := .infinity

/-- Count one column. -/
def Census.count (census : Census) (indexed : (α × Column α) × Nat) : Census :=
  let ((value, column), index) := indexed
  if !column.integral || column.slack || Scalar.isIntegral value then census
  else
    let part := Scalar.toBinary64 (Scalar.fraction value)
    let distance := (part - .ofFraction false 1 2).abs
    let nearer := distance < census.closest
    { fractional := census.fractional ++ [(index, part)]
      infeasibility := census.infeasibility + part.min (.one - part)
      mostFractional := if nearer then some index else census.mostFractional
      closest := if nearer then distance else census.closest }

/-- Store an optimal point of the relaxation. -/
def finish (node : Node α) (program : Program α) (solution : List α) (optimum : α) : Node α :=
  let census : Census := (solution.zip program.columns).zipIdx.foldl Census.count {}
  { node with
    fractional := census.fractional
    infeasibility := census.infeasibility
    mostFractional := census.mostFractional
    approx := Scalar.toBinary64 optimum
    optimum, solution }

end Node

/-- A node after its relaxation. -/
structure Relaxed (α : Type) where
  status : Simplex.Status
  node : Node α
  budget : Simplex.Budget

/-- A node and its tableau between cut rounds. -/
structure CutRound (α : Type) where
  node : Node α
  generator : Cut.Generator α
  tableau : Simplex.Tableau α
  budget : Simplex.Budget

/-- Add cuts, one per round, until none is found or none may be added any more. The
status is optimal unless a re-optimisation ended otherwise. -/
def addCuts : Nat → CutRound α → Run (Simplex.Status × CutRound α)
  | 0, round => pure (.optimal, round)
  | left + 1, round => do
    let (generator, found) ← Run.guard (round.generator.generate round.tableau)
    match found with
    | none => return (.optimal, { round with generator })
    | some cut =>
      let before := Scalar.toBinary64 round.tableau.objectiveValue
      let (_, extended) ← Run.guard (round.tableau.addCut cut.coefs cut.rhs)
      let result ← extended.optimize round.budget
      let counted := { round.node with cutsAdded := round.node.cutsAdded + 1 }
      let next := { round with
        generator := generator.record cut, tableau := result.tableau, budget := result.budget
        node := counted }
      if result.status ≠ .optimal then return (result.status, next)
      let raised := Scalar.toBinary64 result.tableau.objectiveValue - before
      addCuts left { next with
        node := { counted with cutImprovement := counted.cutImprovement + raised } }

/-- Solve the tableau of a reduced program, add cuts, and put eliminated columns
back. -/
def relaxReduced (options : RelaxationOptions) (working reduced : Program α) (removed : UndoLog α)
    (node : Node α) (budget : Simplex.Budget) : Run (Relaxed α) := do
  let form ← Run.lift <| (Simplex.StandardForm.ofProgram reduced).mapError fun cause =>
    .refused (.program cause)
  let first ← (Simplex.Tableau.ofForm form).optimize budget
  if first.status ≠ .optimal then
    return { status := first.status, node, budget := first.budget }
  let generator : Cut.Generator α :=
    { program := reduced, base := first.tableau.columnCount }
  let (status, last) ← addCuts (options.maxCuts - node.cutsAdded)
    { node, generator, tableau := first.tableau, budget := first.budget }
  if status ≠ .optimal then
    return { status, node := last.node, budget := last.budget }
  let values ← Run.guard (removed.replay (last.tableau.solution.take reduced.columns.length))
  return {
    status := .optimal
    node := last.node.finish working values last.tableau.objectiveValue
    budget := last.budget }

/-- Solve a node's relaxation: the working program under the node's ranges. -/
def relax (options : RelaxationOptions) (working : Program α) (node : Node α)
    (budget : Simplex.Budget) : Run (Relaxed α) := do
  let program := working.withRanges node.ranges
  if program.hasEmptyRange then return { status := .infeasible, node, budget }
  if !options.presolve then return ← relaxReduced options working program [] node budget
  let (status, state) ← Presolve.run options.presolvePasses program []
  match status with
  | .infeasible => return { status := .infeasible, node, budget }
  | .unbounded => return { status := .unbounded, node, budget }
  | .solved =>
    let values ← Run.guard (state.removed.replay [])
    return { status := .optimal, node := node.finish working values state.program.constant, budget }
  | .reduced => relaxReduced options working state.program state.removed node budget

end MixedInteger.Search
