import MixedInteger.Presolve.Passes
import MixedInteger.Scalar

/-!
Outcomes of a solve: status, counters, the best point found, and how far the best
point is from the bound.
-/
namespace MixedInteger

/-- How a solve ended. -/
inductive SolveStatus where
  | optimal
  | infeasible
  | unbounded
  | nodeLimit
  | iterationLimit
  | timeLimit
  /-- Some subtrees were skipped for being too deep. -/
  | depthLimit
  /-- The best point is within the gap tolerance. -/
  | gapLimit
  deriving DecidableEq

namespace SolveStatus

def name : SolveStatus → String
  | optimal => "Optimal"
  | infeasible => "Infeasible"
  | unbounded => "Unbounded"
  | nodeLimit => "NodeLimit"
  | iterationLimit => "IterationLimit"
  | timeLimit => "TimeLimit"
  | depthLimit => "DepthLimit"
  | gapLimit => "GapLimit"

def isOptimal (status : SolveStatus) : Bool := status = optimal

/-- Whether a configured limit stopped the solve. -/
def isLimit : SolveStatus → Bool
  | optimal | infeasible | unbounded => false
  | _ => true

end SolveStatus

/-- Counters of one solve. -/
structure Stats where
  /-- Relaxations solved, the root included. -/
  nodesExplored : Nat := 0
  nodesPruned : Nat := 0
  maxActiveNodes : Nat := 0
  maxDepth : Nat := 0
  simplexIterations : Nat := 0
  cutsAdded : Nat := 0
  /-- The sum of the bound increases that cuts caused. -/
  cutImprovement : Binary64 := .zero
  heuristicSuccesses : Nat := 0
  incumbentUpdates : Nat := 0
  presolve : Presolve.Counts := {}
  elapsedMs : Nat := 0

/-- The outcome of a solve. -/
structure Solution where
  status : SolveStatus
  /-- The best point, empty if none was found. -/
  values : List Number := []
  objective : Option Number := none
  /-- A bound on the optimum. -/
  bound : Option Binary64 := none
  /-- The relative distance between objective and bound. -/
  gap : Option Binary64 := none
  stats : Stats := {}

/-- Whether a point was found. -/
def Solution.hasPoint (solution : Solution) : Bool := solution.objective.isSome

/-- The gap between a value and a bound relative to the value, or the negated bound
for a value of zero. -/
def relativeGap (value bound : Binary64) : Binary64 :=
  if value == .zero then -bound else (value - bound) / value.abs

/-- An integral point with its objective. -/
structure Incumbent (α : Type) where
  values : List α
  objective : α
  /-- The objective in binary64. -/
  approx : Binary64

/-- The best integral point so far and how often it was replaced. -/
structure IncumbentTracker (α : Type) where
  best : Option (Incumbent α) := none
  updates : Nat := 0

namespace IncumbentTracker

variable {α : Type} [Scalar α]

def approx (tracker : IncumbentTracker α) : Option Binary64 := tracker.best.map (·.approx)

/-- Whether a value cannot beat the best point. -/
def dominates (tracker : IncumbentTracker α) (value : α) : Bool :=
  tracker.best.any (·.objective ≤ value)

/-- Keep a point that is strictly better. -/
def update (tracker : IncumbentTracker α) (values : List α) (objective : α) : IncumbentTracker α :=
  if tracker.dominates objective then tracker
  else { best := some ⟨values, objective, Scalar.toBinary64 objective⟩
         updates := tracker.updates + 1 }

end IncumbentTracker

end MixedInteger
