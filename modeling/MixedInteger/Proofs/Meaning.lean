import MixedInteger.Proofs.Feasible
import MixedInteger.Model

/-! What a model means, in exact numbers and in its own sense. A model's minimisation program
has the same points, and its objective is the model's own up to the sign that turns
maximisation around. -/
namespace MixedInteger.Model

/-- A point of a model: every row, bound and integrality flag is met. Bounds that are not
finite are none. -/
structure Admits (model : Model) (x : List Rat) : Prop where
  length : x.length = model.columns.length
  rows : ∀ row ∈ model.rows,
    row.relation.Holds (dot (row.coefs.map Scalar.ofNumber) x) (Scalar.ofNumber row.rhs)
  lower : ∀ (index : Nat) (column : ModelColumn) (bound : Number),
    model.columns[index]? = some column → column.lower = some bound → bound.isFinite = true →
      Scalar.ofNumber bound ≤ x.getD index 0
  upper : ∀ (index : Nat) (column : ModelColumn) (bound : Number),
    model.columns[index]? = some column → column.upper = some bound → bound.isFinite = true →
      x.getD index 0 ≤ Scalar.ofNumber bound
  integral : ∀ (index : Nat) (column : ModelColumn), model.columns[index]? = some column →
    column.integral = true → Whole (x.getD index 0)

/-- The model's objective at a point. -/
def value (model : Model) (x : List Rat) : Rat :=
  dot (model.objective.map Scalar.ofNumber) x + Scalar.ofNumber model.constant

/-- Strictly better in the model's own sense. -/
def Prefers (model : Model) (first second : Rat) : Prop :=
  if model.maximize then second < first else first < second

/-- The factor that turns the model's objective into one to be minimised. -/
def sense (model : Model) : Rat := if model.maximize then -1 else 1

theorem prefers_iff (model : Model) (first second : Rat) :
    model.Prefers first second ↔ model.sense * first < model.sense * second := by
  unfold Prefers sense
  split <;> simp

theorem sense_mul_self (model : Model) : model.sense * model.sense = 1 := by
  unfold sense
  split <;> norm_num

/-- A column of the minimisation program. -/
def exactColumn (column : ModelColumn) : Column Rat :=
  { range := ⟨boundValue column.lower, boundValue column.upper⟩, integral := column.integral }

/-- A row of the minimisation program. -/
def exactRow (row : Row Number) : Row Rat :=
  ⟨row.coefs.map Scalar.ofNumber, row.relation, Scalar.ofNumber row.rhs⟩

section

variable {model : Model} {program : Program Rat}

theorem toProgram_eq_ok (made : model.toProgram = .ok program) :
    program = {
      objective := model.objective.map fun c => model.sense * Scalar.ofNumber c
      constant := model.sense * Scalar.ofNumber model.constant
      rows := model.rows.map exactRow
      columns := model.columns.map exactColumn } := by
  unfold toProgram at made
  cases checked : model.validate with
  | error cause =>
    rw [checked] at made
    cases made
  | ok =>
    rw [checked] at made
    exact (Except.ok.inj made).symm

theorem structural_toProgram (made : model.toProgram = .ok program) : program.Structural := by
  obtain rfl := toProgram_eq_ok made
  intro column member
  obtain ⟨source, -, rfl⟩ := List.mem_map.mp member
  exact ⟨rfl, rfl⟩

theorem boundValue_eq_some {bound : Option Number} {limit : Rat} :
    boundValue bound = some limit ↔
      ∃ number, bound = some number ∧ number.isFinite = true ∧ Scalar.ofNumber number = limit := by
  simp only [boundValue, Option.map_eq_some_iff, Option.filter_eq_some_iff, and_assoc]

/-- The minimisation program has the points of its model. -/
theorem feasible_toProgram_iff (made : model.toProgram = .ok program) (x : List Rat) :
    program.Feasible x ↔ model.Admits x := by
  obtain rfl := toProgram_eq_ok made
  constructor
  · intro held
    have entry : ∀ (index : Nat) (column : ModelColumn), model.columns[index]? = some column →
        (exactColumn column).range.Admits (x.getD index 0) ∧
          (column.integral = true → Whole (x.getD index 0)) := by
      intro index column known
      have found : (model.columns.map exactColumn)[index]? = some (exactColumn column) := by
        rw [List.getElem?_map, known, Option.map_some]
      exact ⟨held.ranges index _ found, held.integral index _ found⟩
    refine ⟨by simpa using held.length, fun row member => ?_, ?_, ?_, fun index column known =>
      (entry index column known).2⟩
    · exact held.rows _ (List.mem_map_of_mem member)
    · intro index column bound known stated finite
      exact (entry index column known).1.1 _ (boundValue_eq_some.mpr ⟨bound, stated, finite, rfl⟩)
    · intro index column bound known stated finite
      exact (entry index column known).1.2 _ (boundValue_eq_some.mpr ⟨bound, stated, finite, rfl⟩)
  · intro held
    refine ⟨⟨by simpa using held.length, fun row member => ?_, fun index column found => ?_⟩,
      fun index column found flagged => ?_⟩
    · obtain ⟨source, there, rfl⟩ := List.mem_map.mp member
      exact held.rows source there
    · rw [List.getElem?_map, Option.map_eq_some_iff] at found
      obtain ⟨source, known, rfl⟩ := found
      constructor
      · intro limit stated
        obtain ⟨bound, given, finite, rfl⟩ := boundValue_eq_some.mp stated
        exact held.lower index source bound known given finite
      · intro limit stated
        obtain ⟨bound, given, finite, rfl⟩ := boundValue_eq_some.mp stated
        exact held.upper index source bound known given finite
    · rw [List.getElem?_map, Option.map_eq_some_iff] at found
      obtain ⟨source, known, rfl⟩ := found
      exact held.integral index source known flagged

theorem admits_of_toProgram {x : List Rat}
    (held : ∃ program : Program Rat, model.toProgram = .ok program ∧ program.Feasible x) :
    model.Admits x := by
  obtain ⟨program, made, feasible⟩ := held
  exact (feasible_toProgram_iff made x).mp feasible

/-- The minimised objective is the model's own, turned around for maximisation. -/
theorem objectiveValue_toProgram (made : model.toProgram = .ok program) (x : List Rat) :
    program.objectiveValue x = model.sense * model.value x := by
  obtain rfl := toProgram_eq_ok made
  have scaled : model.objective.map (fun c => model.sense * (Scalar.ofNumber c : Rat)) =
      (model.objective.map Scalar.ofNumber).map (model.sense * ·) := by
    rw [List.map_map]
    rfl
  rw [Program.objectiveValue, value, scaled, dot_eq_form, dot_eq_form, form_map_mul, mul_add]

end

end MixedInteger.Model
