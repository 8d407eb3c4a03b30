import Mathlib.Algebra.BigOperators.Ring.Finset
import MixedInteger.Proofs.Simplex.Coordinates

/-! What the tableau's operations do. Over exact numbers a pivot is one row divided by
the pivot and multiples of it subtracted from the others; a flip and a complement reflect
one column in its upper bound; negating a row negates both sides. All of them keep the
solutions of the rows, and those that touch the reduced costs keep the objective that these
stand for. -/
namespace MixedInteger.Simplex

@[simp] theorem clean_rat (x : Rat) : clean x = x := by
  have exact : Scalar.isExact Rat = true := rfl
  simp [clean, exact]

theorem set_getD_self (coefs : List Rat) (index : Nat) :
    coefs.set index (coefs.getD index 0) = coefs := by
  by_cases inside : index < coefs.length
  · simp [List.getElem?_eq_getElem inside]
  · exact List.set_eq_of_length_le (not_lt.mp inside)

/-! ### Multiples of rows -/

theorem length_subtractMultiple (factor : Rat) (entries pivot : List Rat) :
    (subtractMultiple factor entries pivot).length = entries.length := by
  induction entries generalizing pivot with
  | nil => rfl
  | cons entry entries ih =>
    cases pivot with
    | nil => rfl
    | cons a pivot => simp [subtractMultiple, ih]

theorem subtractMultiple_zero (entries pivot : List Rat) :
    subtractMultiple 0 entries pivot = entries := by
  induction entries generalizing pivot with
  | nil => rfl
  | cons entry entries ih =>
    cases pivot with
    | nil => rfl
    | cons a pivot => simp [subtractMultiple, ih]

theorem getD_subtractMultiple (factor : Rat) {entries pivot : List Rat}
    (same : entries.length = pivot.length) (index : Nat) :
    (subtractMultiple factor entries pivot).getD index 0 =
      entries.getD index 0 - factor * pivot.getD index 0 := by
  induction entries generalizing pivot index with
  | nil =>
    obtain rfl : pivot = [] := List.length_eq_zero_iff.mp same.symm
    simp [subtractMultiple]
  | cons entry entries ih =>
    cases pivot with
    | nil => cases same
    | cons a pivot =>
      have rest := ih (Nat.succ.inj same)
      cases index with
      | zero =>
        by_cases absent : a = 0
        · simp [subtractMultiple, absent]
        · simp [subtractMultiple, absent]
      | succ index => simpa [subtractMultiple] using rest index

theorem form_subtractMultiple (factor : Rat) {entries pivot : List Rat}
    (same : entries.length = pivot.length) (z : Nat → Rat) :
    form (subtractMultiple factor entries pivot) z = form entries z - factor * form pivot z := by
  simp only [form_eq_sum, length_subtractMultiple, getD_subtractMultiple factor same, same]
  rw [Finset.mul_sum, ← Finset.sum_sub_distrib]
  refine Finset.sum_congr rfl fun index _ => ?_
  ring

namespace TableauRow

/-- A row divided by its pivot, with the pivot's column basic. -/
def scaledBy (row : TableauRow Rat) (a : Rat) (column : Nat) : TableauRow Rat :=
  ⟨row.coefs.map (· / a), row.rhs / a, some column⟩

/-- A row less a multiple of another one. -/
def less (row pivot : TableauRow Rat) (factor : Rat) : TableauRow Rat :=
  { row with
    coefs := subtractMultiple factor row.coefs pivot.coefs
    rhs := row.rhs - factor * pivot.rhs }

theorem meets_scaledBy (row : TableauRow Rat) {a : Rat} (nonzero : a ≠ 0) (column : Nat)
    (z : Nat → Rat) : (row.scaledBy a column).Meets z ↔ row.Meets z := by
  simp only [Meets, scaledBy, form_map_div]
  exact div_left_inj' nonzero

theorem meets_less {row pivot : TableauRow Rat} (same : row.coefs.length = pivot.coefs.length)
    (factor : Rat) {z : Nat → Rat} (met : pivot.Meets z) :
    (row.less pivot factor).Meets z ↔ row.Meets z := by
  unfold Meets at met
  simp only [Meets, less, form_subtractMultiple factor same, met]
  exact sub_left_inj

end TableauRow

namespace Tableau

theorem entry_scaledBy (row : TableauRow Rat) (a : Rat) (column index : Nat) :
    entry (row.scaledBy a column) index = entry row index / a := by
  simp only [entry, TableauRow.scaledBy, List.getD_eq_getElem?_getD, List.getElem?_map]
  cases row.coefs[index]? <;> simp

theorem entry_less {row pivot : TableauRow Rat} (same : row.coefs.length = pivot.coefs.length)
    (factor : Rat) (index : Nat) :
    entry (row.less pivot factor) index = entry row index - factor * entry pivot index :=
  getD_subtractMultiple factor same index

theorem lt_length_of_entry {row : TableauRow Rat} {index : Nat} (occurs : entry row index ≠ 0) :
    index < row.coefs.length := by
  by_contra outside
  simp [entry, not_lt.mp outside] at occurs

theorem lt_length_of_unit {row : TableauRow Rat} {index : Nat} (unit : entry row index = 1) :
    index < row.coefs.length :=
  lt_length_of_entry (unit ▸ one_ne_zero)

theorem scaledRow_eq {row : TableauRow Rat} {column : Nat} (occurs : entry row column ≠ 0) :
    scaledRow row column = row.scaledBy (entry row column) column := by
  have one : entry (row.scaledBy (entry row column) column) column = 1 := by
    rw [entry_scaledBy, div_self occurs]
  have kept := set_getD_self (row.scaledBy (entry row column) column).coefs column
  rw [show (row.scaledBy (entry row column) column).coefs.getD column 0 = 1 from one] at kept
  unfold scaledRow
  by_cases unit : entry row column = 1
  · have test : (entry row column == 1) = true := beq_iff_eq.mpr unit
    simp only [test, ↓reduceIte]
    simp only [TableauRow.scaledBy, unit, div_one, List.map_id'] at kept ⊢
    rw [kept]
  · have test : (entry row column == 1) = false := beq_eq_false_iff_ne.mpr unit
    simp only [test, Bool.false_eq_true, ↓reduceIte]
    rw [TableauRow.scaledBy] at kept ⊢
    rw [kept]

theorem eliminateEntry_eq {row pivot : TableauRow Rat} {column : Nat}
    (same : row.coefs.length = pivot.coefs.length) (unit : entry pivot column = 1) :
    eliminateEntry pivot column row = row.less pivot (entry row column) := by
  have gone : entry (row.less pivot (entry row column)) column = 0 := by
    rw [entry_less same, unit, mul_one, sub_self]
  have kept := set_getD_self (row.less pivot (entry row column)).coefs column
  rw [show (row.less pivot (entry row column)).coefs.getD column 0 = 0 from gone] at kept
  unfold eliminateEntry
  by_cases absent : entry row column = 0
  · simp [absent, TableauRow.less, subtractMultiple_zero]
  · have test : Scalar.isZero (entry row column) = false := (Scalar.isZero_eq_false_iff _).mpr absent
    simp only [test, Bool.false_eq_true, ↓reduceIte, clean_rat]
    rw [TableauRow.less] at kept ⊢
    rw [kept]

/-! ### Pivoting -/

/-- Every row and the reduced costs have `width` entries, enough for all columns. -/
structure Wide (tableau : Tableau Rat) (width : Nat) : Prop where
  rows : ∀ row ∈ tableau.rows, row.coefs.length = width
  reduced : tableau.reduced.length = width
  columns : tableau.columnCount ≤ width

section Pivot

variable {tableau : Tableau Rat} {width index column : Nat} {source : TableauRow Rat}

/-- What a pivot leaves in each row. -/
def pivotedRow (source : TableauRow Rat) (index column other : Nat) (row : TableauRow Rat) :
    TableauRow Rat :=
  if other = index then source.scaledBy (entry source column) column
  else row.less (source.scaledBy (entry source column) column) (entry row column)

theorem pivot_eq (wide : tableau.Wide width) (known : tableau.rows[index]? = some source)
    (occurs : entry source column ≠ 0) :
    tableau.pivot index column =
      { tableau with
        rows := tableau.rows.mapIdx (pivotedRow source index column)
        reduced := subtractMultiple (tableau.reduced.getD column 0) tableau.reduced
          (source.scaledBy (entry source column) column).coefs
        value := tableau.value + tableau.reduced.getD column 0 *
          (source.rhs / entry source column) } := by
  have width' := wide.rows source (List.mem_of_getElem? known)
  have unit : entry (source.scaledBy (entry source column) column) column = 1 := by
    rw [entry_scaledBy, div_self occurs]
  have reach : (source.scaledBy (entry source column) column).coefs.length = width := by
    simpa [TableauRow.scaledBy] using width'
  have rows : (tableau.rows.mapIdx fun other row =>
      if other = index then source.scaledBy (entry source column) column
      else eliminateEntry (source.scaledBy (entry source column) column) column row) =
      tableau.rows.mapIdx (pivotedRow source index column) := by
    refine List.ext_getElem? fun other => ?_
    rw [List.getElem?_mapIdx, List.getElem?_mapIdx]
    cases found : tableau.rows[other]? with
    | none => rfl
    | some row =>
      have same := (wide.rows row (List.mem_of_getElem? found)).trans reach.symm
      simp only [Option.map_some, pivotedRow, eliminateEntry_eq same unit]
  have gone : (subtractMultiple (tableau.reduced.getD column 0) tableau.reduced
      (source.scaledBy (entry source column) column).coefs).getD column 0 = 0 := by
    rw [getD_subtractMultiple _ (wide.reduced.trans reach.symm),
      show (source.scaledBy (entry source column) column).coefs.getD column 0 = 1 from unit,
      mul_one, sub_self]
  have kept := set_getD_self (subtractMultiple (tableau.reduced.getD column 0) tableau.reduced
    (source.scaledBy (entry source column) column).coefs) column
  rw [gone] at kept
  simp only [pivot, known, scaledRow_eq occurs, rows]
  by_cases zero : tableau.reduced.getD column 0 = 0
  · have test := (Scalar.isZero_iff _).mpr zero
    rw [zero, subtractMultiple_zero] at kept
    simp only [test, ↓reduceIte, kept]
    simp only [zero, subtractMultiple_zero, zero_mul, add_zero]
  · have test := (Scalar.isZero_eq_false_iff _).mpr zero
    simp only [test, Bool.false_eq_true, ↓reduceIte, kept]
    rfl

theorem getElem?_pivot (wide : tableau.Wide width) (known : tableau.rows[index]? = some source)
    (occurs : entry source column ≠ 0) (other : Nat) :
    (tableau.pivot index column).rows[other]? =
      (tableau.rows[other]?).map (pivotedRow source index column other) := by
  rw [pivot_eq wide known occurs, List.getElem?_mapIdx]

theorem pivot_wide (wide : tableau.Wide width) (known : tableau.rows[index]? = some source)
    (occurs : entry source column ≠ 0) : (tableau.pivot index column).Wide width := by
  refine ⟨fun row member => ?_, ?_, ?_⟩
  · obtain ⟨other, found⟩ := List.mem_iff_getElem?.mp member
    rw [getElem?_pivot wide known occurs, Option.map_eq_some_iff] at found
    obtain ⟨old, there, rfl⟩ := found
    unfold pivotedRow
    split
    · simpa [TableauRow.scaledBy] using wide.rows source (List.mem_of_getElem? known)
    · simpa [TableauRow.less, length_subtractMultiple] using
        wide.rows old (List.mem_of_getElem? there)
  · rw [pivot_eq wide known occurs]
    simpa [length_subtractMultiple] using wide.reduced
  · rw [pivot_eq wide known occurs]
    exact wide.columns

/-- A pivot keeps the solutions: the pivot row is scaled, and multiples of it are
subtracted elsewhere. -/
theorem holds_pivot (wide : tableau.Wide width) (known : tableau.rows[index]? = some source)
    (occurs : entry source column ≠ 0) (x : Nat → Rat) :
    (tableau.pivot index column).Holds x ↔ tableau.Holds x := by
  have reading : (tableau.pivot index column).reading x = tableau.reading x := by
    rw [pivot_eq wide known occurs]
    rfl
  have meets : ∀ (other : Nat) (row : TableauRow Rat), tableau.rows[other]? = some row →
      source.Meets (tableau.reading x) →
        ((pivotedRow source index column other row).Meets (tableau.reading x) ↔
          row.Meets (tableau.reading x)) := by
    intro other row found own
    have met := (source.meets_scaledBy occurs column (tableau.reading x)).mpr own
    unfold pivotedRow
    split
    · rename_i same
      subst same
      obtain rfl : source = row := Option.some.inj (known.symm.trans found)
      exact source.meets_scaledBy occurs column _
    · refine TableauRow.meets_less ?_ _ met
      simpa [TableauRow.scaledBy] using (wide.rows row (List.mem_of_getElem? found)).trans
        (wide.rows source (List.mem_of_getElem? known)).symm
  rw [holds_iff, holds_iff]
  simp only [getElem?_pivot wide known occurs, Option.map_eq_some_iff, reading]
  constructor
  · intro held other row found
    have own : source.Meets (tableau.reading x) := by
      have here := held index _ ⟨source, known, rfl⟩
      simp only [pivotedRow, ↓reduceIte] at here
      exact (source.meets_scaledBy occurs column _).mp here
    exact (meets other row found own).mp (held other _ ⟨row, found, rfl⟩)
  · rintro held other _ ⟨row, found, rfl⟩
    exact (meets other row found (held index source known)).mpr (held other row found)

theorem priceAt_pivot (wide : tableau.Wide width) (known : tableau.rows[index]? = some source)
    (occurs : entry source column ≠ 0) {x : Nat → Rat} (held : tableau.Holds x) :
    (tableau.pivot index column).priceAt x = tableau.priceAt x := by
  have own : form source.coefs (tableau.reading x) = source.rhs :=
    held source (List.mem_of_getElem? known)
  have same : tableau.reduced.length =
      (source.scaledBy (entry source column) column).coefs.length := by
    simpa [TableauRow.scaledBy] using
      wide.reduced.trans (wide.rows source (List.mem_of_getElem? known)).symm
  have scaled : form (source.scaledBy (entry source column) column).coefs (tableau.reading x) =
      source.rhs / entry source column := by
    rw [← own]
    exact form_map_div _ _ _
  rw [pivot_eq wide known occurs]
  simp only [priceAt]
  rw [form_subtractMultiple _ same]
  change _ + (form tableau.reduced (tableau.reading x) - _ *
    form (source.scaledBy (entry source column) column).coefs (tableau.reading x)) = _
  rw [scaled]
  ring

end Pivot

/-! ### Reflecting a column -/

section Reflect

variable {tableau : Tableau Rat} {width index column : Nat} {upper : Rat}

theorem lt_columnCount_of_upperAt (bound : tableau.upperAt column = some upper) :
    column < tableau.columnCount := by
  by_contra outside
  rw [upperAt_eq_none (not_lt.mp outside)] at bound
  cases bound

/-- A row with one column reflected in its upper bound. -/
def reflectedRow (column : Nat) (upper : Rat) (row : TableauRow Rat) : TableauRow Rat :=
  { row with
    coefs := row.coefs.set column (-entry row column)
    rhs := row.rhs - entry row column * upper }

theorem flip_eq (bound : tableau.upperAt column = some upper) :
    tableau.flip column =
      { tableau with
        rows := tableau.rows.map (reflectedRow column upper)
        columns := tableau.toggle column
        reduced := tableau.reduced.set column (-tableau.reduced.getD column 0)
        value := tableau.value + tableau.reduced.getD column 0 * upper } := by
  have rows : (tableau.rows.map fun row =>
      if Scalar.isZero (entry row column) then row
      else { row with
        coefs := row.coefs.set column (-entry row column)
        rhs := clean (row.rhs - entry row column * upper) }) =
      tableau.rows.map (reflectedRow column upper) := by
    refine List.map_congr_left fun row _ => ?_
    simp only [clean_rat, reflectedRow]
    split
    · rename_i zero
      have absent : entry row column = 0 := (Scalar.isZero_iff _).mp zero
      have kept := set_getD_self row.coefs column
      rw [show row.coefs.getD column 0 = 0 from absent] at kept
      rw [absent, neg_zero, kept, zero_mul, sub_zero]
    · rfl
  unfold flip
  simp only [bound, rows]

/-- Reflecting a column in a form and in the point changes the form by a constant. -/
theorem form_reflect {coefs : List Rat} (inside : column < coefs.length) (z : Nat → Rat)
    (upper : Rat) :
    form (coefs.set column (-coefs.getD column 0)) (Function.update z column (upper - z column)) =
      form coefs z - coefs.getD column 0 * upper := by
  have own : (coefs.set column (-coefs.getD column 0)).getD column 0 = -coefs.getD column 0 := by
    simp [inside]
  rw [form_update, form_set inside, own]
  ring

theorem meets_reflectedRow {row : TableauRow Rat} (inside : column < row.coefs.length)
    (z : Nat → Rat) :
    (reflectedRow column upper row).Meets (Function.update z column (upper - z column)) ↔
      row.Meets z := by
  simp only [TableauRow.Meets, reflectedRow, entry, form_reflect inside]
  exact sub_left_inj

theorem flip_wide (wide : tableau.Wide width) (bound : tableau.upperAt column = some upper) :
    (tableau.flip column).Wide width := by
  rw [flip_eq bound]
  refine ⟨fun row member => ?_, by simpa using wide.reduced, ?_⟩
  · obtain ⟨old, found, rfl⟩ := List.mem_map.mp member
    simpa [reflectedRow] using wide.rows old found
  · simpa [columnCount, toggle] using wide.columns

theorem holds_flip (wide : tableau.Wide width) (bound : tableau.upperAt column = some upper)
    (x : Nat → Rat) : (tableau.flip column).Holds x ↔ tableau.Holds x := by
  have inside : column < width := lt_of_lt_of_le (lt_columnCount_of_upperAt bound) wide.columns
  have toggled : (tableau.flip column).columns = tableau.toggle column := by rw [flip_eq bound]
  have rows : (tableau.flip column).rows = tableau.rows.map (reflectedRow column upper) := by
    rw [flip_eq bound]
  unfold Holds
  rw [reading_toggle toggled bound, rows]
  simp only [List.mem_map, forall_exists_index, and_imp, forall_apply_eq_imp_iff₂]
  refine forall_congr' fun row => ?_
  constructor
  · intro met member
    exact (meets_reflectedRow (wide.rows row member ▸ inside) _).mp (met member)
  · intro met member
    exact (meets_reflectedRow (wide.rows row member ▸ inside) _).mpr (met member)

theorem priceAt_flip (wide : tableau.Wide width) (bound : tableau.upperAt column = some upper)
    (x : Nat → Rat) : (tableau.flip column).priceAt x = tableau.priceAt x := by
  have inside : column < width := lt_of_lt_of_le (lt_columnCount_of_upperAt bound) wide.columns
  have toggled : (tableau.flip column).columns = tableau.toggle column := by rw [flip_eq bound]
  have reduced : (tableau.flip column).reduced =
      tableau.reduced.set column (-tableau.reduced.getD column 0) := by rw [flip_eq bound]
  have value : (tableau.flip column).value =
      tableau.value + tableau.reduced.getD column 0 * upper := by rw [flip_eq bound]
  simp only [priceAt, reading_toggle toggled bound, reduced, value]
  rw [form_reflect (wide.reduced.symm ▸ inside)]
  ring

theorem frame_flip (column : Nat) : (tableau.flip column).frame = tableau.frame := by
  cases bound : tableau.upperAt column with
  | none => simp only [flip, bound]
  | some upper =>
    rw [flip_eq bound]
    exact frame_toggle tableau column

/-! ### Complementing a basic column -/

/-- A row through the complement of its basic column. -/
def complementedRow (basic : Nat) (upper : Rat) (row : TableauRow Rat) : TableauRow Rat :=
  { row with
    coefs := (row.coefs.map (- ·)).set basic (entry row basic)
    rhs := upper - row.rhs }

theorem complementBasic_eq {row : TableauRow Rat} {basic : Nat}
    (known : tableau.rows[index]? = some row) (named : row.basic = some basic)
    (bound : tableau.upperAt basic = some upper) :
    tableau.complementBasic index =
      { tableau with
        rows := tableau.rows.set index (complementedRow basic upper row)
        columns := tableau.toggle basic } := by
  have coefs : (row.coefs.mapIdx fun column a =>
      if column = basic ∨ Scalar.isZero a = true then a else -a) =
      (row.coefs.map (- ·)).set basic (entry row basic) := by
    refine List.ext_getElem? fun column => ?_
    rw [List.getElem?_mapIdx, List.getElem?_set, List.getElem?_map, List.length_map]
    by_cases same : basic = column
    · subst same
      by_cases inside : basic < row.coefs.length
      · simp [entry, inside]
      · simp [inside]
    · cases row.coefs[column]? with
      | none => simp [same]
      | some a =>
        by_cases absent : a = 0
        · simp [same, absent]
        · simp [same, Ne.symm same, absent]
  have limit : tableau.basicUpper row = some upper := by
    rw [basicUpper, named]
    exact bound
  unfold complementBasic
  simp only [known, limit, named]
  rw [coefs, complementedRow, named]

theorem meets_complementedRow {row : TableauRow Rat} {basic : Nat} (unit : entry row basic = 1)
    (z : Nat → Rat) :
    (complementedRow basic upper row).Meets (Function.update z basic (upper - z basic)) ↔
      row.Meets z := by
  have inside : basic < row.coefs.length := lt_length_of_unit unit
  have old : (row.coefs.map (- ·)).getD basic 0 = -1 := by
    have here : row.coefs.getD basic 0 = 1 := unit
    simp only [List.getD_eq_getElem?_getD, List.getElem?_map, List.getElem?_eq_getElem inside,
      Option.map_some, Option.getD_some] at here ⊢
    rw [here]
  have own : ((row.coefs.map (- ·)).set basic 1).getD basic 0 = 1 := by simp [inside]
  have value : form (complementedRow basic upper row).coefs
      (Function.update z basic (upper - z basic)) = upper - form row.coefs z := by
    simp only [complementedRow, unit]
    rw [form_update, own, form_set (by simpa using inside), old, form_map_neg]
    ring
  simp only [TableauRow.Meets, value]
  exact sub_right_inj

/-- Basic columns of the settled rows are unit columns: one in their own row and zero in
every other. -/
def UnitColumns (settled : Nat → Prop) (rows : List (TableauRow Rat)) : Prop :=
  ∀ (place other : Nat) (row there : TableauRow Rat) (basic : Nat), settled place →
    rows[place]? = some row → rows[other]? = some there → row.basic = some basic →
      entry there basic = if place = other then 1 else 0

theorem UnitColumns.own {settled : Nat → Prop} {rows : List (TableauRow Rat)}
    (units : UnitColumns settled rows) {place basic : Nat} {row : TableauRow Rat}
    (done : settled place) (found : rows[place]? = some row) (named : row.basic = some basic) :
    entry row basic = 1 := by
  simpa using units place place row row basic done found found named

theorem UnitColumns.other {settled : Nat → Prop} {rows : List (TableauRow Rat)}
    (units : UnitColumns settled rows) {place other basic : Nat} {row there : TableauRow Rat}
    (done : settled place) (found : rows[place]? = some row) (named : row.basic = some basic)
    (elsewhere : rows[other]? = some there) (different : place ≠ other) :
    entry there basic = 0 := by
  simpa [different] using units place other row there basic done found elsewhere named

section Complement

variable {row : TableauRow Rat} {basic : Nat} {settled : Nat → Prop}

theorem entry_complementedRow (column : Nat) :
    entry (complementedRow basic upper row) column =
      if column = basic then entry row basic else -entry row column := by
  simp only [entry, complementedRow, List.getD_eq_getElem?_getD, List.getElem?_set,
    List.getElem?_map, List.length_map]
  by_cases same : basic = column
  · subst same
    by_cases inside : basic < row.coefs.length
    · simp [inside]
    · simp [inside]
  · simp only [same, Ne.symm same, ↓reduceIte]
    cases row.coefs[column]? <;> simp

theorem getElem?_complementBasic (known : tableau.rows[index]? = some row)
    (named : row.basic = some basic) (bound : tableau.upperAt basic = some upper) (other : Nat) :
    (tableau.complementBasic index).rows[other]? =
      if other = index then some (complementedRow basic upper row) else tableau.rows[other]? := by
  obtain ⟨inside, -⟩ := List.getElem?_eq_some_iff.mp known
  rw [complementBasic_eq known named bound]
  by_cases same : other = index
  · subst same
    simp [inside]
  · simp [same, Ne.symm same]

theorem complementBasic_wide (wide : tableau.Wide width) (known : tableau.rows[index]? = some row)
    (named : row.basic = some basic) (bound : tableau.upperAt basic = some upper) :
    (tableau.complementBasic index).Wide width := by
  refine ⟨fun there member => ?_, ?_, ?_⟩
  · obtain ⟨other, found⟩ := List.mem_iff_getElem?.mp member
    rw [getElem?_complementBasic known named bound] at found
    split at found
    · obtain rfl := Option.some.inj found
      simpa [complementedRow] using wide.rows row (List.mem_of_getElem? known)
    · exact wide.rows there (List.mem_of_getElem? found)
  · rw [complementBasic_eq known named bound]
    exact wide.reduced
  · rw [complementBasic_eq known named bound]
    simpa [columnCount, toggle] using wide.columns

theorem frame_complementBasic (index : Nat) :
    (tableau.complementBasic index).frame = tableau.frame := by
  unfold complementBasic
  split
  · rfl
  · split
    · exact frame_toggle tableau _
    · rfl

theorem reading_complementBasic (known : tableau.rows[index]? = some row)
    (named : row.basic = some basic) (bound : tableau.upperAt basic = some upper) (x : Nat → Rat) :
    (tableau.complementBasic index).reading x =
      Function.update (tableau.reading x) basic (upper - tableau.reading x basic) :=
  reading_toggle (by rw [complementBasic_eq known named bound]) bound x

/-- Reflecting a column that a form does not mention leaves the form. -/
theorem form_update_of_absent {coefs : List Rat} (absent : coefs.getD column 0 = 0)
    (z : Nat → Rat) (value : Rat) : form coefs (Function.update z column value) = form coefs z := by
  rw [form_update, absent, zero_mul, add_zero]

/-- Complementing keeps the solutions: no other row mentions the basic column. -/
theorem holds_complementBasic (units : UnitColumns settled tableau.rows) (done : settled index)
    (known : tableau.rows[index]? = some row) (named : row.basic = some basic)
    (bound : tableau.upperAt basic = some upper) (x : Nat → Rat) :
    (tableau.complementBasic index).Holds x ↔ tableau.Holds x := by
  have unit := units.own done known named
  have elsewhere : ∀ (other : Nat) (there : TableauRow Rat), tableau.rows[other]? = some there →
      other ≠ index →
      (there.Meets (Function.update (tableau.reading x) basic (upper - tableau.reading x basic)) ↔
        there.Meets (tableau.reading x)) := by
    intro other there found different
    have absent := units.other done known named found (Ne.symm different)
    unfold TableauRow.Meets
    rw [form_update_of_absent absent]
  rw [holds_iff, holds_iff, reading_complementBasic known named bound]
  simp only [getElem?_complementBasic known named bound]
  constructor
  · intro held other there found
    by_cases same : other = index
    · subst same
      obtain rfl : row = there := Option.some.inj (known.symm.trans found)
      exact (meets_complementedRow unit _).mp (held other _ (if_pos rfl))
    · exact (elsewhere other there found same).mp (held other there (by rw [if_neg same, found]))
  · intro held other there found
    by_cases same : other = index
    · rw [if_pos same] at found
      obtain rfl := Option.some.inj found
      exact (meets_complementedRow unit _).mpr (held index row known)
    · rw [if_neg same] at found
      exact (elsewhere other there found same).mpr (held other there found)

theorem priceAt_complementBasic (known : tableau.rows[index]? = some row)
    (named : row.basic = some basic) (bound : tableau.upperAt basic = some upper)
    (free : tableau.reduced.getD basic 0 = 0) (x : Nat → Rat) :
    (tableau.complementBasic index).priceAt x = tableau.priceAt x := by
  unfold priceAt
  rw [reading_complementBasic known named bound, complementBasic_eq known named bound]
  simp only [form_update_of_absent free]

theorem unitColumns_complementBasic (units : UnitColumns settled tableau.rows)
    (known : tableau.rows[index]? = some row) (named : row.basic = some basic) (bound : tableau.upperAt basic = some upper) :
    UnitColumns settled (tableau.complementBasic index).rows := by
  intro place other here there column settledPlace foundHere foundThere namedHere
  rw [getElem?_complementBasic known named bound] at foundHere foundThere
  -- Every row keeps its basic column, and the settled ones have different basic columns.
  obtain ⟨old, foundOld, sameBasic⟩ : ∃ old, tableau.rows[place]? = some old ∧
      old.basic = some column := by
    split at foundHere
    · rename_i same
      obtain rfl := Option.some.inj foundHere
      exact ⟨row, same ▸ known, namedHere⟩
    · exact ⟨here, foundHere, namedHere⟩
  by_cases same : other = index
  · rw [if_pos same] at foundThere
    obtain rfl := Option.some.inj foundThere
    have value := units place other old row column settledPlace foundOld (same ▸ known) sameBasic
    rw [entry_complementedRow]
    by_cases own : column = basic
    · subst own
      rw [if_pos rfl]
      exact value
    · rw [if_neg own, value]
      have different : place ≠ other := by
        rintro rfl
        obtain rfl : old = row := Option.some.inj (foundOld.symm.trans (same ▸ known))
        exact own (Option.some.inj (sameBasic.symm.trans named))
      simp [different]
  · rw [if_neg same] at foundThere
    exact units place other old there column settledPlace foundOld foundThere sameBasic

end Complement

/-! ### Unit columns and costs after a pivot -/

section AfterPivot

variable {source : TableauRow Rat} {settled : Nat → Prop}

theorem entry_pivotedRow {other : Nat} {row : TableauRow Rat}
    (same : row.coefs.length = source.coefs.length) (place : Nat) :
    entry (pivotedRow source index column other row) place =
      if other = index then entry source place / entry source column
      else entry row place - entry row column * (entry source place / entry source column) := by
  unfold pivotedRow
  split
  · exact entry_scaledBy _ _ _ _
  · rw [entry_less (by simpa [TableauRow.scaledBy] using same), entry_scaledBy]

theorem getD_reduced_pivot (wide : tableau.Wide width) (known : tableau.rows[index]? = some source)
    (occurs : entry source column ≠ 0) (place : Nat) :
    (tableau.pivot index column).reduced.getD place 0 = tableau.reduced.getD place 0 -
      tableau.reduced.getD column 0 * (entry source place / entry source column) := by
  have same : tableau.reduced.length =
      (source.scaledBy (entry source column) column).coefs.length := by
    simpa [TableauRow.scaledBy] using
      wide.reduced.trans (wide.rows source (List.mem_of_getElem? known)).symm
  rw [pivot_eq wide known occurs]
  have value := getD_subtractMultiple (tableau.reduced.getD column 0) same place
  rwa [show (source.scaledBy (entry source column) column).coefs.getD place 0 =
    entry source place / entry source column from entry_scaledBy _ _ _ _] at value

/-- A pivot makes its column a unit column and leaves the others. -/
theorem unitColumns_pivot (wide : tableau.Wide width) (known : tableau.rows[index]? = some source)
    (occurs : entry source column ≠ 0) (units : UnitColumns settled tableau.rows) :
    UnitColumns (fun place => settled place ∨ place = index) (tableau.pivot index column).rows := by
  intro place other here there basic done foundHere foundThere named
  rw [getElem?_pivot wide known occurs, Option.map_eq_some_iff] at foundHere foundThere
  obtain ⟨old, foundOld, rfl⟩ := foundHere
  obtain ⟨row, foundRow, rfl⟩ := foundThere
  have length : row.coefs.length = source.coefs.length :=
    (wide.rows row (List.mem_of_getElem? foundRow)).trans
      (wide.rows source (List.mem_of_getElem? known)).symm
  rw [entry_pivotedRow length]
  by_cases own : place = index
  · obtain rfl : column = basic := by simpa [pivotedRow, own, TableauRow.scaledBy] using named
    rw [own, div_self occurs]
    by_cases same : other = index
    · simp [same]
    · simp [same, Ne.symm same]
  · have namedOld : old.basic = some basic := by
      simpa [pivotedRow, own, TableauRow.less] using named
    have settledPlace : settled place := done.resolve_right own
    have atSource := units.other settledPlace foundOld namedOld known own
    rw [atSource, zero_div, mul_zero, sub_zero]
    by_cases same : other = index
    · simp [same, own]
    · rw [if_neg same]
      exact units place other old row basic settledPlace foundOld foundRow namedOld

end AfterPivot

/-- Negating both sides of a row. -/
def negatedRow (row : TableauRow Rat) : TableauRow Rat :=
  { row with coefs := row.coefs.map (- ·), rhs := -row.rhs }

theorem meets_negatedRow (row : TableauRow Rat) (z : Nat → Rat) :
    (negatedRow row).Meets z ↔ row.Meets z := by
  simp only [TableauRow.Meets, negatedRow, form_map_neg]
  exact neg_inj

theorem getElem?_negateRow (tableau : Tableau Rat) (index other : Nat) :
    (tableau.negateRow index).rows[other]? =
      if index = other then (tableau.rows[other]?).map negatedRow else tableau.rows[other]? := by
  simp only [negateRow, List.getElem?_modify, Option.map_eq_map]
  by_cases same : index = other
  · simp only [same, ↓reduceIte]
    rfl
  · simp [same]

theorem holds_negateRow (tableau : Tableau Rat) (index : Nat) (x : Nat → Rat) :
    (tableau.negateRow index).Holds x ↔ tableau.Holds x := by
  rw [holds_iff, holds_iff]
  have reading : (tableau.negateRow index).reading x = tableau.reading x := rfl
  simp only [getElem?_negateRow, reading]
  constructor
  · intro held other there found
    by_cases same : index = other
    · have met := held other (negatedRow there) (by simp [same, found])
      exact (meets_negatedRow there _).mp met
    · exact held other there (by simp [same, found])
  · intro held other there found
    by_cases same : index = other
    · rw [if_pos same, Option.map_eq_some_iff] at found
      obtain ⟨old, before, rfl⟩ := found
      exact (meets_negatedRow old _).mpr (held other old before)
    · rw [if_neg same] at found
      exact held other there found

end Reflect

end Tableau

end MixedInteger.Simplex
