import MixedInteger.Proofs.LinearForm
import MixedInteger.Program

/-! What a program over exact numbers means. A point satisfies a program when it has
one value per column, every row holds and every value lies in its column's range; it is
feasible when integral columns take integers as well. Reductions, relaxations and the
search are all stated against these two notions. -/
namespace MixedInteger

namespace Program

/-- Counts agree: one cost per column, one coefficient per row and column. -/
structure Shaped (program : Program Rat) : Prop where
  objective : program.objective.length = program.columns.length
  rows : ∀ row ∈ program.rows, row.coefs.length = program.columns.length

/-- A point of the relaxation: rows and ranges, without integrality. -/
structure Satisfies (program : Program Rat) (x : List Rat) : Prop where
  length : x.length = program.columns.length
  rows : ∀ row ∈ program.rows, row.relation.Holds (dot row.coefs x) row.rhs
  ranges : ∀ (index : Nat) (column : Column Rat), program.columns[index]? = some column →
    column.range.Admits (x.getD index 0)

/-- Integral columns take integers. -/
def Integral (program : Program Rat) (x : List Rat) : Prop :=
  ∀ (index : Nat) (column : Column Rat), program.columns[index]? = some column →
    column.integral = true → Whole (x.getD index 0)

/-- Integral columns other than slacks take integers. -/
def IntegralOffSlacks (program : Program Rat) (x : List Rat) : Prop :=
  ∀ (index : Nat) (column : Column Rat), program.columns[index]? = some column →
    column.integral = true → column.slack = false → Whole (x.getD index 0)

/-- A point of the program itself. -/
structure Feasible (program : Program Rat) (x : List Rat) : Prop extends
    Satisfies program x where
  integral : program.Integral x

/-- Well formed, with a value left for every column. -/
structure Valid (program : Program Rat) : Prop extends Shaped program where
  nonempty : ∀ column ∈ program.columns, column.range.isEmpty = false

/-- Integral columns have integral bounds. -/
def WholeBounds (program : Program Rat) : Prop :=
  ∀ column ∈ program.columns, column.integral = true → column.range.WholeBounds

/-- Every column has a finite lower bound. -/
def BoundedBelow (program : Program Rat) : Prop :=
  ∀ column ∈ program.columns, column.range.lower ≠ none

/-- Every integral column has two bounds. -/
def Boxed (program : Program Rat) : Prop := ∀ column ∈ program.columns,
  column.integral = true → column.range.lower ≠ none ∧ column.range.upper ≠ none

/-- Every row is an equality. -/
def Equational (program : Program Rat) : Prop := ∀ row ∈ program.rows, row.relation = .eq

/-- Every column stands for itself: none is a slack, a part or a negation. -/
def Structural (program : Program Rat) : Prop :=
  ∀ column ∈ program.columns, column.slack = false ∧ column.orientation = .positive

section Checking

variable (program : Program Rat) (x : List Rat)

instance decidableSatisfies : Decidable (program.Satisfies x) :=
  decidable_of_iff (x.length = program.columns.length ∧
      (∀ row ∈ program.rows, row.holds x = true) ∧
      ∀ entry ∈ program.columns.zipIdx, entry.1.range.contains (x.getD entry.2 0) = true) <| by
    simp only [Row.holds, Row.activity, Relation.holds_iff, Range.contains_iff, Prod.forall,
      List.mem_zipIdx_iff_getElem?]
    exact ⟨fun ⟨length, rows, ranges⟩ => ⟨length, rows, fun index column => ranges column index⟩,
      fun held => ⟨held.length, held.rows, fun column index => held.ranges index column⟩⟩

instance decidableIntegral : Decidable (program.Integral x) :=
  decidable_of_iff (∀ entry ∈ program.columns.zipIdx, entry.1.integral = true →
      Scalar.isIntegral (x.getD entry.2 0) = true) <| by
    simp only [Scalar.isIntegral_iff, Prod.forall, List.mem_zipIdx_iff_getElem?]
    exact ⟨fun whole index column => whole column index, fun whole column index =>
      whole index column⟩

instance decidableFeasible : Decidable (program.Feasible x) :=
  decidable_of_iff (program.Satisfies x ∧ program.Integral x)
    ⟨fun ⟨satisfied, integral⟩ => ⟨satisfied, integral⟩, fun held => ⟨held.1, held.2⟩⟩

end Checking

theorem hasEmptyRange_eq_false_iff (program : Program Rat) :
    program.hasEmptyRange = false ↔ ∀ column ∈ program.columns, column.range.isEmpty = false := by
  simp [hasEmptyRange]

theorem not_satisfies_of_hasEmptyRange {program : Program Rat}
    (empty : program.hasEmptyRange = true) (x : List Rat) : ¬ program.Satisfies x := by
  intro held
  obtain ⟨column, member, nothing⟩ := List.any_eq_true.mp empty
  obtain ⟨index, found⟩ := List.mem_iff_getElem?.mp member
  exact Range.not_admits_of_isEmpty nothing _ (held.ranges index column found)

end Program

theorem rowMismatch?_eq_none_iff {α : Type} (expected : Nat) (rows : List (List α)) :
    rowMismatch? expected rows = none ↔ ∀ coefs ∈ rows, coefs.length = expected := by
  simp only [rowMismatch?, Option.map_eq_none_iff, List.find?_eq_none, bne_iff_ne, ne_eq,
    Decidable.not_not]
  constructor
  · intro none coefs member
    obtain ⟨index, bound, rfl⟩ := List.mem_iff_getElem.mp member
    exact none (rows[index], index) (List.mem_zipIdx_iff_getElem?.mpr (by simp [bound]))
  · rintro all ⟨coefs, index⟩ member
    exact all coefs (List.fst_mem_of_mem_zipIdx member)

namespace Program

theorem validateRows_eq_ok_iff (program : Program Rat) :
    program.validateRows = .ok () ↔
      ∀ row ∈ program.rows, row.coefs.length = program.columns.length := by
  have agree := rowMismatch?_eq_none_iff program.columns.length (program.rows.map Row.coefs)
  simp only [List.mem_map, forall_exists_index, and_imp, forall_apply_eq_imp_iff₂] at agree
  rw [← agree, validateRows]
  cases rowMismatch? program.columns.length (program.rows.map Row.coefs) <;> simp

theorem emptyColumn?_eq_none_iff (program : Program Rat) :
    program.emptyColumn? = none ↔ ∀ column ∈ program.columns, column.range.isEmpty = false := by
  simp only [emptyColumn?, Option.map_eq_none_iff, List.find?_eq_none, Bool.not_eq_true]
  constructor
  · intro none column member
    obtain ⟨index, bound, rfl⟩ := List.mem_iff_getElem.mp member
    exact none (program.columns[index], index) (List.mem_zipIdx_iff_getElem?.mpr (by simp [bound]))
  · rintro all ⟨column, index⟩ member
    exact all column (List.fst_mem_of_mem_zipIdx member)

/-- Validation accepts exactly the well formed programs without an empty range. -/
theorem validate_eq_ok_iff (program : Program Rat) :
    program.validate = .ok () ↔ program.Valid := by
  have rows := program.validateRows_eq_ok_iff
  have ranges := program.emptyColumn?_eq_none_iff
  by_cases counts : program.objective.length = program.columns.length
  · cases checked : program.validateRows with
    | error cause =>
      simp only [validate, counts, checked, ne_eq, not_true_eq_false, ↓reduceIte]
      constructor
      · intro impossible
        cases impossible
      · intro valid
        rw [rows.mpr valid.rows] at checked
        cases checked
    | ok =>
      cases empty : program.emptyColumn? with
      | some cause =>
        simp only [validate, counts, checked, empty, ne_eq, not_true_eq_false, ↓reduceIte]
        constructor
        · intro impossible
          cases impossible
        · intro valid
          rw [ranges.mpr valid.nonempty] at empty
          cases empty
      | none =>
        simp only [validate, counts, checked, empty, ne_eq, not_true_eq_false, ↓reduceIte]
        exact ⟨fun _ => ⟨⟨counts, rows.mp checked⟩, ranges.mp empty⟩, fun _ => rfl⟩
  · simp only [validate, counts, ne_eq, not_false_eq_true, ↓reduceIte]
    constructor
    · intro impossible
      cases impossible
    · intro valid
      exact absurd valid.objective counts

end Program

end MixedInteger
