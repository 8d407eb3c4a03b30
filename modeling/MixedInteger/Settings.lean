import MixedInteger.Number.Basic

/-!
Settings of a solve: arithmetic, limits, search strategy, reductions and output.
-/
namespace MixedInteger

/-- How a branching column is chosen. -/
inductive BranchingRule where
  | pseudocost
  | mostFractional
  | firstFractional
  | lastFractional
  deriving DecidableEq

/-- How the next node is chosen. -/
inductive NodeSelection where
  | depthFirst
  | breadthFirst
  | bestBound
  | bestProjection
  /-- Depth first until a solution is known, then best bound. -/
  | hybrid
  deriving DecidableEq

/-- Where presolve runs. -/
inductive PresolveLevel where
  | off
  /-- At the root and at every node. -/
  | full
  | rootOnly
  deriving DecidableEq

namespace Precision

/-- The precision with a given option name. -/
def ofName? : String → Option Precision
  | "auto" => some auto
  | "exact" => some exact
  | "float" => some float
  | _ => none

end Precision

namespace BranchingRule

/-- The rule with a given option name. -/
def ofName? : String → Option BranchingRule
  | "pseudocost" => some pseudocost
  | "most-fractional" => some mostFractional
  | "first-fractional" => some firstFractional
  | "last-fractional" => some lastFractional
  | _ => none

end BranchingRule

namespace NodeSelection

/-- The selection with a given option name. -/
def ofName? : String → Option NodeSelection
  | "depth-first" => some depthFirst
  | "breadth-first" => some breadthFirst
  | "best-bound" => some bestBound
  | "best-projection" => some bestProjection
  | "hybrid" => some hybrid
  | _ => none

end NodeSelection

namespace PresolveLevel

/-- The level with a given option name. -/
def ofName? : String → Option PresolveLevel
  | "off" => some off
  | "full" => some full
  | "root-only" => some rootOnly
  | _ => none

end PresolveLevel

/-- Settings of a solve. A missing limit does not apply. -/
structure Settings where
  precision : Precision := .auto
  nodeLimit : Option Nat := none
  iterationLimit : Option Nat := none
  /-- In milliseconds. -/
  timeLimit : Option Nat := none
  depthLimit : Option Nat := none
  gapTolerance : Binary64 := .zero
  rule : BranchingRule := .pseudocost
  selection : NodeSelection := .hybrid
  presolve : PresolveLevel := .rootOnly
  presolvePasses : Nat := 100
  /-- Cuts per node relaxation. -/
  maxCuts : Nat := 5
  /-- Whether node solutions are rounded. -/
  heuristic : Bool := true
  verbose : Bool := false
  /-- Progress reports per second. -/
  reportFrequency : Binary64 := .ofFraction false 1 5

/-- A time limit in seconds as whole milliseconds. -/
def Settings.withTimeLimit (settings : Settings) (seconds : Binary64) : Settings :=
  { settings with timeLimit := some (seconds * .ofNat 1000).toUInt64Saturating }

end MixedInteger
