import MixedInteger.Proofs.Ending
import MixedInteger.Proofs.Search.Children
import MixedInteger.Proofs.Search.Representation

/-! Branching partitions the integral points of a node. The two children of a node on a fractional
column leave out its own solution and nothing else that counts: an integral point that shows
each split column on one side only is in exactly one of them. Setting the other part of a split
column to zero is what needs that restriction, and the points that stand for points of the
program meet it. -/
namespace MixedInteger.Search

/-- No range of the first list admits more than the one of the second at the same place. -/
def Inside (ranges outer : List (Range Rat)) : Prop :=
  ranges.length = outer.length ∧ ∀ (index : Nat) (range whole : Range Rat),
    ranges[index]? = some range → outer[index]? = some whole →
    ∀ value, range.Admits value → whole.Admits value

/-- The two nodes share out the integral points of a node at a value of one of its columns. -/
structure Partitions (problem : Problem Rat) (node : Node Rat) (place : Nat) (value : Rat)
    (down up : Node Rat) : Prop where
  once : ∀ y, Within node.ranges y → problem.working.Integral y → problem.Canonical y →
    Xor (Within down.ranges y) (Within up.ranges y)
  cutOff : ¬ Within down.ranges node.solution ∧ ¬ Within up.ranges node.solution
  contained : Inside down.ranges node.ranges ∧ Inside up.ranges node.ranges
  sameBelow : ∀ index, index ≠ place → down.ranges[index]? = node.ranges[index]?
  sameAbove : ∀ index, index ≠ place →
    ¬ ((0 : Rat) < ⌈value⌉ ∧ (problem.partner[place]?).join = some index) →
    up.ranges[index]? = node.ranges[index]?
  whole : WholeRanges problem.working.columns node.ranges →
    WholeRanges problem.working.columns down.ranges ∧ WholeRanges problem.working.columns up.ranges

variable {problem : Problem Rat} {node : Node Rat} {partner : List (Option Nat)} {place : Nat}
  {value : Rat}

theorem inside_childOn (direction : Direction) :
    Inside (childOn node partner place value direction).ranges node.ranges := by
  have own : Narrows (node.ranges.map Column.continuous) node.ranges := by
    intro index column range known there x held
    rw [List.getElem?_map, there] at known
    obtain rfl := Option.some.inj known
    exact held
  refine ⟨length_childOn direction, fun index range whole there known x held => ?_⟩
  have standing : (node.ranges.map Column.continuous)[index]? = some (Column.continuous whole) := by
    rw [List.getElem?_map, known, Option.map_some]
  exact narrows_childOn own direction index _ range standing there x held

theorem getElem?_down {index : Nat} (different : index ≠ place) :
    (childOn node partner place value .down).ranges[index]? = node.ranges[index]? :=
  List.getElem?_modify_ne _ _ different.symm

/-- The child above changes the range of the other part only if it raises the column above zero. -/
theorem getElem?_up {index : Nat} (different : index ≠ place)
    (apart : ¬ ((0 : Rat) < ⌈value⌉ ∧ (partner[place]?).join = some index)) :
    (childOn node partner place value .up).ranges[index]? = node.ranges[index]? := by
  have raised : (node.ranges.modify place (·.tightenLower (Scalar.ceil value)))[index]? =
      node.ranges[index]? := List.getElem?_modify_ne _ _ different.symm
  unfold childOn
  dsimp only
  split
  · rename_i other positive paired
    rw [Scalar.isPositive_iff, Scalar.ceil_rat] at positive
    have elsewhere : other ≠ index := fun same => apart ⟨positive, same ▸ paired⟩
    exact (List.getElem?_modify_ne _ _ elsewhere).trans raised
  · exact raised

/-- A fractional value is strictly between its floor and its ceiling. -/
theorem floor_lt_ceil_of_fractional (fractional : ¬ Whole value) :
    (⌊value⌋ : Rat) < value ∧ value < ⌈value⌉ :=
  ⟨lt_of_le_of_ne (Int.floor_le value) fun same => fractional ⟨⌊value⌋, same⟩,
    lt_of_le_of_ne (Int.le_ceil value) fun same => fractional ⟨⌈value⌉, same.symm⟩⟩

/-- Branching on an integral column at a fractional value partitions the integral points that
show each split column on one side only. -/
theorem childOn_partitions {column : Column Rat}
    (known : problem.working.columns[place]? = some column) (flagged : column.integral = true)
    (same : node.ranges.length = problem.working.columns.length)
    (solved : node.solution[place]? = some value) (fractional : ¬ Whole value) :
    Partitions problem node place value (childOn node problem.partner place value .down)
      (childOn node problem.partner place value .up) := by
  obtain ⟨below, above⟩ := floor_lt_ceil_of_fractional fractional
  have inside : place < node.ranges.length :=
    same.symm ▸ (List.getElem?_eq_some_iff.mp known).1
  have own : node.solution.getD place 0 = value := by
    rw [List.getD_eq_getElem?_getD, solved, Option.getD_some]
  refine ⟨fun y within integral canonical => ?_, ⟨fun low => ?_, fun high => ?_⟩,
    ⟨inside_childOn _, inside_childOn _⟩, fun index => getElem?_down, fun index => getElem?_up,
    fun whole => ⟨wholeRanges_childOn whole _, wholeRanges_childOn whole _⟩⟩
  · have covered : Within (childOn node problem.partner place value .down).ranges y ∨
        Within (childOn node problem.partner place value .up).ranges y :=
      within_childOn within (integral place column known flagged) fun other paired positive =>
        ((canonical place other paired).resolve_left positive.ne').le
    have apart : Within (childOn node problem.partner place value .down).ranges y →
        ¬ Within (childOn node problem.partner place value .up).ranges y := by
      intro low high
      have least := (within_down_iff.mp low).2 inside
      have most := (within_up_iff.mp high).2.1 inside
      linarith
    rcases covered with low | high
    · exact .inl ⟨low, apart low⟩
    · exact .inr ⟨high, fun low => apart low high⟩
  · have least := (within_down_iff.mp low).2 inside
    rw [own] at least
    exact absurd least (not_le.mpr below)
  · have most := (within_up_iff.mp high).2.1 inside
    rw [own] at most
    exact absurd most (not_le.mpr above)

/-- The relaxation of `ledger` takes `x` to `-5/2`. Branching on its part below zero shares out the
integral points. -/
theorem ledger_partitioned : ∃ relaxed,
    (relax ⟨false, 0, 0⟩ ledgerProblem.boundBelow.addSlacks.working
      (Node.root ledgerProblem.boundBelow.addSlacks.working) {}).outcome = .ok relaxed ∧
    relaxed.node.solution[3]? = some (5 / 2) ∧
    Partitions ledgerProblem.boundBelow.addSlacks relaxed.node 3 (5 / 2)
      (childOn relaxed.node ledgerProblem.boundBelow.addSlacks.partner 3 (5 / 2) .down)
      (childOn relaxed.node ledgerProblem.boundBelow.addSlacks.partner 3 (5 / 2) .up) := by
  have runs : ((relax ⟨false, 0, 0⟩ ledgerProblem.boundBelow.addSlacks.working
      (Node.root ledgerProblem.boundBelow.addSlacks.working) {}).outcome.toOption.any fun relaxed =>
        relaxed.node.ranges.length = ledgerProblem.boundBelow.addSlacks.working.columns.length &&
          relaxed.node.solution[3]? = some (5 / 2)) = true := by decide +kernel
  have integral : (ledgerProblem.boundBelow.addSlacks.working.columns[3]?.any (·.integral)) = true := by
    decide +kernel
  obtain ⟨relaxed, ran, checked⟩ := exists_ok_of_any runs
  obtain ⟨same, solved⟩ := Bool.and_eq_true_iff.mp checked
  obtain ⟨column, known, flagged⟩ := (Option.any_eq_true _ _).mp integral
  have fractional : ¬ Whole (5 / 2) := by
    rw [← Scalar.isIntegral_iff]
    decide +kernel
  exact ⟨relaxed, ran, of_decide_eq_true solved, childOn_partitions known flagged
    (of_decide_eq_true same) (of_decide_eq_true solved) fractional⟩

end MixedInteger.Search
