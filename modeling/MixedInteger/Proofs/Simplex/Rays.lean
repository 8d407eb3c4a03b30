import Mathlib.Algebra.Order.Archimedean.Basic
import MixedInteger.Proofs.Simplex.Certificates
import MixedInteger.Proofs.Simplex.Expulsion

/-! Rays of a tableau. An improving column that nothing limits gives more than cheap solutions:
it gives a direction in which every solution stays a solution, every point of the box stays in
the box, and the cost falls at a fixed rate. So a ray can be followed from any point, not only
from the vertex it was found at. -/
namespace MixedInteger.Simplex

/-- A change of the reading as a change of the value. -/
def TableauColumn.tilt (column : TableauColumn Rat) (change : Rat) : Rat :=
  match column.upper, column.complemented with
  | some _, true => -change
  | _, _ => change

theorem TableauColumn.orient_add_tilt (column : TableauColumn Rat) (x t change : Rat) :
    column.orient (x + t * column.tilt change) = column.orient x + t * change := by
  obtain ⟨cost, upper, lower, integral, complemented⟩ := column
  cases upper <;> cases complemented <;> simp only [orient, tilt] <;> ring

namespace Tableau

/-- The point at a distance along a direction. -/
def along (x direction : Nat → Rat) (t : Rat) (index : Nat) : Rat := x index + t * direction index

/-- A solution in the box, and a direction in which solutions stay solutions, stay in the box
and get cheaper. -/
structure Ray (tableau : Tableau Rat) (start direction : Nat → Rat) (slope : Rat) : Prop where
  held : tableau.Holds start
  inside : InBounds tableau.frame start
  falls : slope < 0
  rows : ∀ x t, tableau.Holds x → tableau.Holds (along x direction t)
  box : ∀ x t, 0 ≤ t → InBounds tableau.frame x → InBounds tableau.frame (along x direction t)
  cost : ∀ x t, tableau.Holds x →
    costAt tableau.frame (along x direction t) = costAt tableau.frame x + t * slope

/-- Enough steps along a falling slope lead below every limit. -/
theorem exists_step_below {slope step : Rat} (falls : slope < 0) (positive : 0 < step)
    (value limit : Rat) : ∃ times : Nat, value + times * step * slope < limit := by
  obtain ⟨times, many⟩ := exists_nat_gt ((value - limit) / (step * -slope))
  refine ⟨times, ?_⟩
  have enough := (div_lt_iff₀ (mul_pos positive (neg_pos.mpr falls))).mp many
  linarith

/-! ### The direction of a column -/

/-- How the readings change when a nonbasic column moves. -/
def columnSlope (tableau : Tableau Rat) (column : Nat) : Nat → Rat :=
  Function.update (tableau.basicReading fun row => -entry row column) column 1

/-- How the values change when a nonbasic column moves. -/
def columnDirection (tableau : Tableau Rat) (column index : Nat) : Rat :=
  match tableau.columns[index]? with
  | some data => data.tilt (tableau.columnSlope column index)
  | none => tableau.columnSlope column index

variable {tableau reached : Tableau Rat} {width column : Nat}

theorem reading_along (tableau : Tableau Rat) (column : Nat) (x : Nat → Rat) (t : Rat) :
    tableau.reading (along x (tableau.columnDirection column) t) =
      fun index => tableau.reading x index + t * tableau.columnSlope column index := by
  funext index
  unfold reading readThrough along columnDirection
  cases tableau.columns[index]? with
  | none => rfl
  | some data => exact data.orient_add_tilt _ _ _

section

variable (vertex : tableau.AtVertex width) (improving : tableau.reduced.getD column 0 < 0)
include vertex improving

theorem basicReading_column (value : TableauRow Rat → Rat) :
    tableau.basicReading value column = 0 :=
  basicReading_nonbasic fun _ member => vertex.not_basic improving member

theorem form_columnSlope {row : TableauRow Rat} (member : row ∈ tableau.rows) :
    form row.coefs (tableau.columnSlope column) = 0 := by
  rw [columnSlope, form_update, basicReading_column vertex improving, form_basicReading vertex member,
    entry]
  ring

theorem form_reduced_columnSlope :
    form tableau.reduced (tableau.columnSlope column) = tableau.reduced.getD column 0 := by
  rw [columnSlope, form_update, basicReading_column vertex improving,
    form_reduced_basicReading vertex]
  ring

omit improving in
/-- A column that nothing limits raises only readings without an upper bound. -/
theorem columnSlope_nonneg (free : ∀ length, 0 ≤ length → tableau.Admissible column length)
    (index : Nat) : 0 ≤ tableau.columnSlope column index ∧
      (tableau.upperAt index ≠ none → tableau.columnSlope column index = 0) := by
  by_cases own : index = column
  · subst own
    rw [columnSlope, Function.update_self]
    refine ⟨zero_le_one, fun bounded => ?_⟩
    obtain ⟨upper, bound⟩ := Option.ne_none_iff_exists'.mp bounded
    have high : max upper 0 + 1 ≤ upper := (free _ (by positivity)).1 upper bound
    have := le_max_left upper 0
    linarith
  · rw [columnSlope, Function.update_of_ne own]
    by_cases basicColumn : ∃ row ∈ tableau.rows, row.basic = some index
    · obtain ⟨row, member, named⟩ := basicColumn
      rw [basicReading_basic vertex.units member named]
      have within := fun length nonneg => (free length nonneg).2 row member
      obtain ⟨low, high⟩ := vertex.within row member
      have falls : entry row column ≤ 0 := by
        by_contra rises
        have step := (within ((row.rhs + 1) / entry row column)
          (div_nonneg (by linarith) (not_le.mp rises).le)).1
        rw [div_mul_cancel₀ _ (not_le.mp rises).ne'] at step
        linarith
      refine ⟨neg_nonneg.mpr falls, fun bounded => ?_⟩
      obtain ⟨upper, bound⟩ := Option.ne_none_iff_exists'.mp bounded
      have basicBound : tableau.basicUpper row = some upper := by
        rw [basicUpper, named]
        exact bound
      by_contra moves
      have negative : entry row column < 0 :=
        lt_of_le_of_ne falls fun zero => moves (by rw [zero, neg_zero])
      have room : 0 ≤ upper - row.rhs + 1 := by
        have := high upper basicBound
        linarith
      have step := (within ((upper - row.rhs + 1) / -entry row column)
        (div_nonneg room (by linarith))).2 upper basicBound
      have moved : (upper - row.rhs + 1) / -entry row column * entry row column =
          -(upper - row.rhs + 1) := by
        rw [div_neg, neg_mul, div_mul_cancel₀ _ negative.ne]
      linarith
    · rw [basicReading_nonbasic fun row member named => basicColumn ⟨row, member, named⟩]
      exact ⟨le_rfl, fun _ => rfl⟩

end

/-- An improving column of a restored tableau that nothing limits is a ray of the tableau it was
restored from. -/
theorem Restored.ray (restored : tableau.Restored reached)
    (improving : reached.reduced.getD column 0 < 0)
    (free : ∀ length, 0 ≤ length → reached.Admissible column length) :
    tableau.Ray reached.vertexPoint (reached.columnDirection column)
      (reached.reduced.getD column 0) := by
  have vertex := restored.vertex
  have moved := reading_along reached column
  have rows : ∀ x t, reached.Holds x → reached.Holds (along x (reached.columnDirection column) t) := by
    intro x t held row member
    have before : form row.coefs (reached.reading x) = row.rhs := held row member
    rw [TableauRow.Meets, moved, form_add_mul, form_columnSlope vertex improving member, before]
    ring
  refine ⟨(restored.holds _).mp (holds_vertexPoint vertex), ?_, improving, fun x t held => ?_,
    fun x t nonneg inside => ?_, fun x t held => ?_⟩
  · rw [← restored.frame]
    exact inBounds_vertexPoint vertex
  · exact (restored.holds _).mp (rows x t ((restored.holds x).mpr held))
  · rw [← restored.frame, inBounds_iff] at inside ⊢
    intro index
    obtain ⟨low, high⟩ := inside index
    obtain ⟨rises, still⟩ := columnSlope_nonneg vertex free index
    simp only [moved]
    refine ⟨add_nonneg low (mul_nonneg nonneg rises), fun upper bound => ?_⟩
    rw [still (by rw [bound]; simp), mul_zero, add_zero]
    exact high upper bound
  · have before := (restored.holds x).mpr held
    rw [← restored.frame, ← restored.price _ (rows x t before), ← restored.price x before, priceAt,
      priceAt, moved, form_add_mul, form_reduced_columnSlope vertex improving]
    ring

end Tableau

end MixedInteger.Simplex
