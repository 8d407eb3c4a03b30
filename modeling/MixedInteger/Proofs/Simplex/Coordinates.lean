import MixedInteger.Proofs.LinearForm
import MixedInteger.Simplex.Tableau

/-! What a tableau means. A point `x` gives every column a value in the program's space;
the tableau reads it through shift and orientation. A point solves the tableau when every
row holds there, and lies in the box when every column is between its bounds. Neither
notion depends on the orientation of the columns, so both survive every change that the
iterations make. Columns past the last one are artificial: they have no shift and no
upper bound. -/
namespace MixedInteger.Simplex

/-! ### Shift and orientation -/

namespace TableauColumn

/-- The tableau's reading of a value. -/
def orient (column : TableauColumn Rat) (x : Rat) : Rat :=
  match column.upper, column.complemented with
  | some upper, true => upper - (x - column.lower)
  | _, _ => x - column.lower

/-- The value with a given reading. -/
def restore (column : TableauColumn Rat) (z : Rat) : Rat :=
  match column.upper, column.complemented with
  | some upper, true => column.lower + (upper - z)
  | _, _ => column.lower + z

theorem orient_restore (column : TableauColumn Rat) (z : Rat) :
    column.orient (column.restore z) = z := by
  obtain ⟨cost, upper, lower, integral, complemented⟩ := column
  cases upper <;> cases complemented <;> simp [orient, restore]

/-- Bounds on the reading are the bounds on the value, however the column is oriented. -/
theorem orient_between_iff (column : TableauColumn Rat) (x : Rat) :
    (0 ≤ column.orient x ∧ ∀ upper, column.upper = some upper → column.orient x ≤ upper) ↔
      column.lower ≤ x ∧ ∀ upper, column.upper = some upper → x ≤ column.lower + upper := by
  obtain ⟨cost, upper, lower, integral, complemented⟩ := column
  cases upper with
  | none =>
    cases complemented <;> simp [orient]
  | some upper =>
    cases complemented
    · simp only [orient, Option.some.injEq, forall_eq']
      constructor
      · rintro ⟨low, high⟩
        constructor <;> linarith
      · rintro ⟨low, high⟩
        constructor <;> linarith
    · simp only [orient, Option.some.injEq, forall_eq']
      constructor
      · rintro ⟨low, high⟩
        constructor <;> linarith
      · rintro ⟨low, high⟩
        constructor <;> linarith

/-- Everything about a column but its orientation. -/
def fixedPart (column : TableauColumn Rat) : TableauColumn Rat :=
  { column with complemented := false }

end TableauColumn

/-- A row holds at a reading. -/
def TableauRow.Meets (row : TableauRow Rat) (z : Nat → Rat) : Prop := form row.coefs z = row.rhs

namespace Tableau

/-- The columns without their orientations. Iterations never change them. -/
def frame (tableau : Tableau Rat) : List (TableauColumn Rat) :=
  tableau.columns.map TableauColumn.fixedPart

/-- The reading of a point through a list of columns. -/
def readThrough (columns : List (TableauColumn Rat)) (x : Nat → Rat) (index : Nat) : Rat :=
  match columns[index]? with
  | some column => column.orient (x index)
  | none => x index

/-- A tableau's reading of a point. -/
def reading (tableau : Tableau Rat) : (Nat → Rat) → Nat → Rat := readThrough tableau.columns

/-- The point with a given reading. -/
def pointOf (tableau : Tableau Rat) (z : Nat → Rat) (index : Nat) : Rat :=
  match tableau.columns[index]? with
  | some column => column.restore (z index)
  | none => z index

theorem reading_pointOf (tableau : Tableau Rat) (z : Nat → Rat) :
    tableau.reading (tableau.pointOf z) = z := by
  funext index
  unfold reading readThrough pointOf
  cases tableau.columns[index]? with
  | none => rfl
  | some column => exact column.orient_restore (z index)

/-! ### Solutions, box, costs -/

/-- Every row holds at the point. -/
def Holds (tableau : Tableau Rat) (x : Nat → Rat) : Prop :=
  ∀ row ∈ tableau.rows, row.Meets (tableau.reading x)

theorem holds_iff {tableau : Tableau Rat} {x : Nat → Rat} :
    tableau.Holds x ↔ ∀ (index : Nat) (row : TableauRow Rat), tableau.rows[index]? = some row →
      row.Meets (tableau.reading x) := by
  constructor
  · intro held index row found
    exact held row (List.mem_of_getElem? found)
  · intro held row member
    obtain ⟨index, found⟩ := List.mem_iff_getElem?.mp member
    exact held index row found

/-- Every column is between its bounds; artificial columns are not negative. -/
def InBounds (frame : List (TableauColumn Rat)) (x : Nat → Rat) : Prop :=
  ∀ index, match frame[index]? with
    | some column => column.lower ≤ x index ∧
        ∀ upper, column.upper = some upper → x index ≤ column.lower + upper
    | none => 0 ≤ x index

/-- The program's objective, less its constant. -/
def costAt (frame : List (TableauColumn Rat)) (x : Nat → Rat) : Rat :=
  form (frame.map TableauColumn.cost) fun index =>
    match frame[index]? with
    | some column => x index - column.lower
    | none => x index

/-- The objective that the reduced costs stand for. -/
def priceAt (tableau : Tableau Rat) (x : Nat → Rat) : Rat :=
  tableau.value + form tableau.reduced (tableau.reading x)

theorem length_frame (tableau : Tableau Rat) : tableau.frame.length = tableau.columnCount := by
  simp [frame, columnCount]

theorem columnCount_congr {tableau other : Tableau Rat} (same : other.frame = tableau.frame) :
    other.columnCount = tableau.columnCount := by
  rw [← length_frame, ← length_frame, same]

theorem getElem?_frame (tableau : Tableau Rat) (index : Nat) :
    tableau.frame[index]? = (tableau.columns[index]?).map TableauColumn.fixedPart := by
  simp [frame]

theorem upperAt_eq (tableau : Tableau Rat) (index : Nat) :
    tableau.upperAt index = (tableau.frame[index]?).bind TableauColumn.upper := by
  rw [getElem?_frame, upperAt]
  cases tableau.columns[index]? <;> rfl

theorem upperAt_congr {tableau other : Tableau Rat} (same : other.frame = tableau.frame)
    (index : Nat) : other.upperAt index = tableau.upperAt index := by
  rw [upperAt_eq, upperAt_eq, same]

theorem upperAt_eq_none {tableau : Tableau Rat} {index : Nat}
    (outside : tableau.columnCount ≤ index) : tableau.upperAt index = none := by
  rw [upperAt, List.getElem?_eq_none outside]
  rfl

/-- The box is read the same way in every orientation. -/
theorem inBounds_iff (tableau : Tableau Rat) (x : Nat → Rat) :
    InBounds tableau.frame x ↔ ∀ index, 0 ≤ tableau.reading x index ∧
      ∀ upper, tableau.upperAt index = some upper → tableau.reading x index ≤ upper := by
  refine forall_congr' fun index => ?_
  rw [getElem?_frame, upperAt, reading, readThrough]
  cases tableau.columns[index]? with
  | none => simp
  | some column => exact (column.orient_between_iff (x index)).symm

theorem reading_eq_sub {tableau : Tableau Rat} {index : Nat} {column : TableauColumn Rat}
    (known : tableau.columns[index]? = some column) (plain : column.complemented = false)
    (x : Nat → Rat) : tableau.reading x index = x index - column.lower := by
  simp only [reading, readThrough, known, TableauColumn.orient, plain]
  cases column.upper <;> rfl

/-! ### Changing one orientation -/

theorem frame_toggle (tableau : Tableau Rat) (index : Nat) :
    (tableau.toggle index).map TableauColumn.fixedPart = tableau.frame := by
  refine List.ext_getElem? fun other => ?_
  simp only [toggle, frame, List.getElem?_map, List.getElem?_modify]
  cases tableau.columns[other]? with
  | none => rfl
  | some column =>
    by_cases same : index = other
    · simp [same, TableauColumn.fixedPart]
    · simp [same]

/-- Toggling a column reflects its reading in the upper bound. -/
theorem reading_toggle {tableau other : Tableau Rat} {index : Nat} {upper : Rat}
    (toggled : other.columns = tableau.toggle index) (bound : tableau.upperAt index = some upper)
    (x : Nat → Rat) : other.reading x =
      Function.update (tableau.reading x) index (upper - tableau.reading x index) := by
  funext place
  by_cases same : place = index
  · subst same
    obtain ⟨column, known, finite⟩ := Option.bind_eq_some_iff.mp bound
    simp only [reading, readThrough, toggled, toggle, List.getElem?_modify_eq, known, Function.update_self]
    cases orientation : column.complemented <;>
      simp [TableauColumn.orient, finite, orientation]
  · rw [Function.update_of_ne same]
    simp only [reading, readThrough, toggled, toggle, List.getElem?_modify_ne _ _ (Ne.symm same)]

end Tableau

end MixedInteger.Simplex
