import MixedInteger.Proofs.Ending
import MixedInteger.Proofs.Search.Children
import MixedInteger.Proofs.Search.Relaxation
import MixedInteger.Proofs.Search.Representation

/-! What the search may rely on when it solves a node. The relaxation works on a copy of the working
program in which presolve has removed columns and cuts have been added, but what it leaves is
about the working program itself, in the ranges of the node: a point of it with its objective
and its fractional columns, and a bound on every integral point. -/
namespace MixedInteger.Search

/-- An integral point of a program in the ranges of a node. -/
structure Node.Holds (node : Node Rat) (working : Program Rat) (y : List Rat) : Prop where
  length : y.length = working.columns.length
  rows : ∀ row ∈ working.rows, row.relation.Holds (dot row.coefs y) row.rhs
  within : Within node.ranges y
  integral : working.Integral y

/-- A node stores an optimum over its ranges: a point with its objective, the columns where it is
fractional in ascending order, and a bound on the integral points. -/
structure Node.Solved (node : Node Rat) (working : Program Rat) : Prop where
  length : node.solution.length = working.columns.length
  within : Within node.ranges node.solution
  rows : ∀ row ∈ working.rows, row.relation.Holds (dot row.coefs node.solution) row.rhs
  value : working.objectiveValue node.solution = node.optimum
  fractional : ∀ index, index ∈ node.fractional.map Prod.fst ↔
    ∃ column, working.columns[index]? = some column ∧ column.integral = true ∧
      column.slack = false ∧ ¬ Whole (node.solution.getD index 0)
  ascending : (node.fractional.map Prod.fst).Pairwise (· < ·)
  bound : ∀ y, node.Holds working y → node.optimum ≤ working.objectiveValue y

/-- What the relaxation of a node promises. -/
structure Contract (working : Program Rat) (node : Node Rat) (relaxed : Relaxed Rat) : Prop where
  ranges : relaxed.node.ranges = node.ranges
  optimal : relaxed.status = .optimal → relaxed.node.Solved working
  infeasible : relaxed.status = .infeasible → ∀ y, ¬ node.Holds working y
  sound : relaxed.status ≠ .error

theorem fractionalColumns_ascending (columns : List (Column Rat)) (solution : List Rat) :
    (fractionalColumns columns solution).Pairwise (· < ·) := by
  have places : ((solution.zip columns).zipIdx.map Prod.snd).Pairwise (· < ·) := by
    rw [List.zipIdx_map_snd]
    exact List.pairwise_lt_range'
  exact places.sublist (List.filter_sublist.map _)

variable {working : Program Rat} {node : Node Rat}

/-- The integral points in a node's ranges are the feasible ones under these ranges. -/
theorem Node.holds_iff (same : node.ranges.length = working.columns.length) (y : List Rat) :
    node.Holds working y ↔ (working.withRanges node.ranges).Feasible y := by
  constructor
  · rintro ⟨length, rows, within, integral⟩
    exact ⟨(Program.satisfies_withRanges_iff same y).mpr ⟨length, rows, within⟩,
      (Program.integral_withRanges_iff same y).mpr integral⟩
  · intro held
    obtain ⟨length, rows, within⟩ := (Program.satisfies_withRanges_iff same y).mp held.toSatisfies
    exact ⟨length, rows, within, (Program.integral_withRanges_iff same y).mp held.integral⟩

/-- A relaxation that is right about the program under a node's ranges keeps the contract. -/
theorem RelaxedFrom.contract {relaxed : Relaxed Rat}
    (same : node.ranges.length = working.columns.length)
    (right : RelaxedFrom working (working.withRanges node.ranges) node relaxed) :
    Contract working node relaxed := by
  have means := right.means
  refine ⟨right.ranges, fun optimal => ?_, fun infeasible y held => ?_, fun error => ?_⟩
  · rw [optimal] at means
    obtain ⟨satisfied, value, least, -⟩ := means
    obtain ⟨length, rows, within⟩ := (Program.satisfies_withRanges_iff same _).mp satisfied
    obtain ⟨source, finished⟩ := right.census optimal
    have keys : relaxed.node.fractional.map Prod.fst =
        fractionalColumns working.columns relaxed.node.solution := by
      conv_lhs => rw [finished]
      exact fractional_finish working source _ _
    refine ⟨length, right.ranges ▸ within, rows, value, fun index => ?_,
      keys ▸ fractionalColumns_ascending _ _, fun y held => ?_⟩
    · rw [keys, mem_fractionalColumns_iff]
      constructor
      · rintro ⟨value, column, solved, known, flagged, plain, fractional⟩
        refine ⟨column, known, flagged, plain, ?_⟩
        rwa [List.getD_eq_getElem?_getD, solved]
      · rintro ⟨column, known, flagged, plain, fractional⟩
        obtain ⟨inside, -⟩ := List.getElem?_eq_some_iff.mp known
        have solved := List.getElem?_eq_getElem (length.symm ▸ inside)
        rw [List.getD_eq_getElem?_getD, solved] at fractional
        exact ⟨_, column, solved, known, flagged, plain, fractional⟩
    · refine least y ((Node.holds_iff same y).mp ?_)
      exact ⟨held.length, held.rows, right.ranges ▸ held.within, held.integral⟩
  · rw [infeasible] at means
    exact means y ((Node.holds_iff same y).mp held)
  · rw [error] at means
    exact means

/-- Relaxing a node of a problem in working form does not fail and keeps the contract, whatever
presolve, the number of cuts and the budget are. -/
theorem relax_keeps_contract {source problem : Problem Rat} (structural : source.working.Structural)
    (shaped : source.working.Shaped) (bounds : source.working.WholeBounds)
    (prepared : source.boundBelow.addSlacks.Alike problem)
    (same : node.ranges.length = problem.working.columns.length)
    (narrows : Narrows problem.working.columns node.ranges)
    (whole : WholeRanges problem.working.columns node.ranges)
    (options : RelaxationOptions) (budget : Simplex.Budget) :
    (relax options problem.working node budget).Gives (Contract problem.working node) := by
  have slacking := slacking_addSlacks shaped (bounding_boundBelow structural shaped bounds)
  have gives : (relax options problem.working node budget).Gives
      (RelaxedFrom problem.working (problem.working.withRanges node.ranges) node) :=
    relax_gives ((prepared.shaped slacking.shaped).withRanges same)
      (Program.wholeBounds_withRanges same whole)
      ((prepared.boundedBelow slacking.floor).withRanges same narrows)
      (prepared.equational slacking.equational)
  obtain ⟨relaxed, ran, right⟩ := gives
  exact ⟨relaxed, ran, right.contract same⟩

/-- Presolve and one cut take the root of `ledger` to an integral point with objective `-2`, and no
integral point of it is better. -/
theorem ledger_relaxed : ∃ relaxed,
    (relax ⟨true, 5, 1⟩ ledgerProblem.boundBelow.addSlacks.working
      (Node.root ledgerProblem.boundBelow.addSlacks.working) {}).outcome = .ok relaxed ∧
    relaxed.node.cutsAdded = 1 ∧ relaxed.node.optimum = -2 ∧
    relaxed.node.Solved ledgerProblem.boundBelow.addSlacks.working := by
  have runs : ((relax ⟨true, 5, 1⟩ ledgerProblem.boundBelow.addSlacks.working
      (Node.root ledgerProblem.boundBelow.addSlacks.working) {}).outcome.toOption.any fun relaxed =>
        relaxed.status = .optimal && relaxed.node.cutsAdded = 1 && relaxed.node.optimum = -2) =
      true := by decide +kernel
  obtain ⟨relaxed, ran, checked⟩ := exists_ok_of_any runs
  simp only [Bool.and_eq_true, decide_eq_true_eq] at checked
  obtain ⟨⟨optimal, single⟩, value⟩ := checked
  have bounding : Bounding ledgerProblem.working _ ledgerProblem.boundBelow :=
    bounding_boundBelow ledger_structural ledger_shaped ledger_wholeBounds
  have bounds := (slacking_addSlacks ledger_shaped bounding).bounds
  obtain ⟨same, again, contract⟩ := relax_keeps_contract ledger_structural ledger_shaped
    ledger_wholeBounds (.refl ledgerProblem.boundBelow.addSlacks)
    (show (Node.root _).ranges.length = _ from List.length_map _) (narrows_root _)
    (wholeRanges_root bounds) ⟨true, 5, 1⟩ {}
  obtain rfl := Except.ok.inj (ran.symm.trans again)
  exact ⟨relaxed, ran, single, value, contract.optimal optimal⟩

end MixedInteger.Search
