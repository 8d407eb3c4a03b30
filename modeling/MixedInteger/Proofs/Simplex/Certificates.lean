import MixedInteger.Proofs.Simplex.Iteration

/-! What a vertex proves. The point of a vertex has its basic columns at the right-hand
sides and all others at zero; moving one more column along keeps every row. A vertex
without improving columns is optimal, and an improving column that nothing limits is a ray
along which the objective falls without end. -/
namespace MixedInteger.Simplex.Tableau

/-! ### Points with given basic values -/

/-- The reading with a value for the basic column of each row and zero elsewhere. -/
def basicReading (tableau : Tableau Rat) (value : TableauRow Rat → Rat) (index : Nat) : Rat :=
  ((tableau.rows.find? fun row => row.basic == some index).map value).getD 0

section

variable {tableau : Tableau Rat} {width : Nat} {value : TableauRow Rat → Rat}

/-- Rows with the same basic column are the same row. -/
theorem UnitColumns.unique {rows : List (TableauRow Rat)} (units : UnitColumns (fun _ => True) rows)
    {row other : TableauRow Rat} (here : row ∈ rows) (there : other ∈ rows) {basic : Nat}
    (named : row.basic = some basic) (namedOther : other.basic = some basic) : row = other := by
  obtain ⟨place, found⟩ := List.mem_iff_getElem?.mp here
  obtain ⟨elsewhere, foundOther⟩ := List.mem_iff_getElem?.mp there
  by_cases same : place = elsewhere
  · subst same
    exact Option.some.inj (found.symm.trans foundOther)
  · have zero := units.other trivial found named foundOther same
    rw [units.own trivial foundOther namedOther] at zero
    exact absurd zero one_ne_zero

theorem basicReading_basic (units : UnitColumns (fun _ => True) tableau.rows)
    {row : TableauRow Rat} (member : row ∈ tableau.rows) {basic : Nat}
    (named : row.basic = some basic) : tableau.basicReading value basic = value row := by
  unfold basicReading
  cases found : tableau.rows.find? fun row => row.basic == some basic with
  | none =>
    rw [List.find?_eq_none] at found
    exact absurd (beq_iff_eq.mpr named) (found row member)
  | some other =>
    have namedOther : other.basic = some basic := by simpa using List.find?_some found
    rw [units.unique member (List.mem_of_find?_eq_some found) named namedOther]
    rfl

theorem basicReading_nonbasic {index : Nat}
    (absent : ∀ row ∈ tableau.rows, row.basic ≠ some index) :
    tableau.basicReading value index = 0 := by
  have none : (tableau.rows.find? fun row => row.basic == some index) = none := by
    rw [List.find?_eq_none]
    intro row member
    simpa using absent row member
  rw [basicReading, none]
  rfl

/-- A basic reading gives each row the value chosen for it. -/
theorem form_basicReading (vertex : tableau.AtVertex width) {row : TableauRow Rat}
    (member : row ∈ tableau.rows) : form row.coefs (tableau.basicReading value) = value row := by
  obtain ⟨basic, named⟩ := Option.ne_none_iff_exists'.mp (vertex.named row member)
  obtain ⟨place, found⟩ := List.mem_iff_getElem?.mp member
  have unit : row.coefs.getD basic 0 = 1 := vertex.units.own trivial found named
  rw [form_eq_single basic fun column different => ?_, unit, one_mul,
    basicReading_basic vertex.units member named]
  by_cases basicColumn : ∃ other ∈ tableau.rows, other.basic = some column
  · obtain ⟨other, there, namedOther⟩ := basicColumn
    obtain ⟨elsewhere, foundOther⟩ := List.mem_iff_getElem?.mp there
    have apart : elsewhere ≠ place := by
      rintro rfl
      obtain rfl : other = row := Option.some.inj (foundOther.symm.trans found)
      exact different (Option.some.inj (namedOther.symm.trans named))
    have zero : row.coefs.getD column 0 = 0 :=
      vertex.units.other trivial foundOther namedOther found apart
    rw [zero, zero_mul]
  · rw [basicReading_nonbasic fun other there namedOther => basicColumn ⟨other, there, namedOther⟩,
      mul_zero]

/-- Basic columns cost nothing. -/
theorem form_reduced_basicReading (vertex : tableau.AtVertex width) :
    form tableau.reduced (tableau.basicReading value) = 0 := by
  refine form_eq_zero fun column => ?_
  by_cases basicColumn : ∃ row ∈ tableau.rows, row.basic = some column
  · obtain ⟨row, member, named⟩ := basicColumn
    rw [vertex.free row member column named, zero_mul]
  · rw [basicReading_nonbasic fun row member named => basicColumn ⟨row, member, named⟩, mul_zero]

/-- A basic reading is in the box when every basic column is within its bounds. -/
theorem basicReading_between (vertex : tableau.AtVertex width)
    (within : ∀ row ∈ tableau.rows, tableau.Within row (value row)) (index : Nat) :
    0 ≤ tableau.basicReading value index ∧
      ∀ upper, tableau.upperAt index = some upper → tableau.basicReading value index ≤ upper := by
  by_cases basicColumn : ∃ row ∈ tableau.rows, row.basic = some index
  · obtain ⟨row, member, named⟩ := basicColumn
    rw [basicReading_basic vertex.units member named]
    refine ⟨(within row member).1, fun upper bound => (within row member).2 upper ?_⟩
    rw [basicUpper, named]
    exact bound
  · rw [basicReading_nonbasic fun row member named => basicColumn ⟨row, member, named⟩]
    exact ⟨le_refl 0, fun upper bound => vertex.framed.limits index upper bound⟩

/-! ### The vertex and its rays -/

/-- The point of a vertex. -/
def vertexPoint (tableau : Tableau Rat) : Nat → Rat :=
  tableau.pointOf (tableau.basicReading TableauRow.rhs)

theorem holds_vertexPoint (vertex : tableau.AtVertex width) :
    tableau.Holds tableau.vertexPoint := by
  intro row member
  rw [vertexPoint, reading_pointOf]
  exact form_basicReading vertex member

theorem inBounds_vertexPoint (vertex : tableau.AtVertex width) :
    InBounds tableau.frame tableau.vertexPoint := by
  rw [inBounds_iff, vertexPoint, reading_pointOf]
  exact basicReading_between vertex vertex.within

theorem priceAt_vertexPoint (vertex : tableau.AtVertex width) :
    tableau.priceAt tableau.vertexPoint = tableau.value := by
  rw [priceAt, vertexPoint, reading_pointOf, form_reduced_basicReading vertex, add_zero]

/-- The point reached by moving a nonbasic column from its bound. -/
def movedPoint (tableau : Tableau Rat) (column : Nat) (length : Rat) : Nat → Rat :=
  tableau.pointOf (Function.update
    (tableau.basicReading fun row => row.rhs - length * entry row column) column length)

variable {column : Nat} {length : Rat}

theorem holds_movedPoint (vertex : tableau.AtVertex width)
    (improving : tableau.reduced.getD column 0 < 0) :
    tableau.Holds (tableau.movedPoint column length) := by
  intro row member
  have still : tableau.basicReading (fun row => row.rhs - length * entry row column) column = 0 :=
    basicReading_nonbasic fun row member => vertex.not_basic improving member
  rw [movedPoint, reading_pointOf, TableauRow.Meets, form_update, still,
    form_basicReading vertex member]
  simp only [entry]
  ring

theorem priceAt_movedPoint (vertex : tableau.AtVertex width)
    (improving : tableau.reduced.getD column 0 < 0) :
    tableau.priceAt (tableau.movedPoint column length) =
      tableau.value + tableau.reduced.getD column 0 * length := by
  have still : tableau.basicReading (fun row => row.rhs - length * entry row column) column = 0 :=
    basicReading_nonbasic fun row member => vertex.not_basic improving member
  rw [priceAt, movedPoint, reading_pointOf, form_update, form_reduced_basicReading vertex, still]
  ring

theorem inBounds_movedPoint (vertex : tableau.AtVertex width) (nonneg : 0 ≤ length)
    (admissible : tableau.Admissible column length) :
    InBounds tableau.frame (tableau.movedPoint column length) := by
  rw [inBounds_iff, movedPoint, reading_pointOf]
  intro index
  by_cases own : index = column
  · subst own
    rw [Function.update_self]
    exact ⟨nonneg, admissible.1⟩
  · rw [Function.update_of_ne own]
    exact basicReading_between vertex admissible.2 index

/-- Without improving columns no point of the box is better than the vertex. The columns
that may not enter have to be at zero. -/
theorem value_le_priceAt (tableau : Tableau Rat) {count : Nat}
    (optimal : ∀ column < count, 0 ≤ tableau.reduced.getD column 0) {x : Nat → Rat}
    (inside : InBounds tableau.frame x)
    (rest : ∀ column, count ≤ column → column < tableau.reduced.length →
      tableau.reading x column = 0) :
    tableau.value ≤ tableau.priceAt x := by
  have between := (tableau.inBounds_iff x).mp inside
  have gain : 0 ≤ form tableau.reduced (tableau.reading x) := by
    refine form_nonneg fun column below => ?_
    by_cases first : column < count
    · exact mul_nonneg (optimal column first) (between column).1
    · rw [rest column (not_lt.mp first) below, mul_zero]
  rw [priceAt]
  linarith

/-- An improving column that nothing limits lowers the objective below every limit. -/
theorem exists_priceAt_lt (vertex : tableau.AtVertex width)
    (improving : tableau.reduced.getD column 0 < 0)
    (free : ∀ length, 0 ≤ length → tableau.Admissible column length) (limit : Rat) :
    ∃ x, tableau.Holds x ∧ InBounds tableau.frame x ∧ tableau.priceAt x < limit := by
  let gap := |tableau.value - limit| + 1
  have positive : 0 < gap := by positivity
  let length := gap / -tableau.reduced.getD column 0
  have nonneg : 0 ≤ length := div_nonneg positive.le (by linarith)
  refine ⟨tableau.movedPoint column length, holds_movedPoint vertex improving,
    inBounds_movedPoint vertex nonneg (free length nonneg), ?_⟩
  rw [priceAt_movedPoint vertex improving]
  have drop : tableau.reduced.getD column 0 * length = -gap := by
    have exact := mul_div_cancel₀ gap (neg_ne_zero.mpr improving.ne)
    change -tableau.reduced.getD column 0 * length = gap at exact
    linarith
  have close := le_abs_self (tableau.value - limit)
  rw [drop]
  change tableau.value + -(|tableau.value - limit| + 1) < limit
  linarith

end

/-! ### The computed solution -/

theorem getD_foldl_set (rows : List (TableauRow Rat)) {values : List Rat} {index : Nat}
    (inside : index < values.length) {goal : Rat}
    (agree : ∀ row ∈ rows, row.basic = some index → row.rhs = goal)
    (reached : values.getD index 0 = goal ∨ ∃ row ∈ rows, row.basic = some index) :
    (rows.foldl (fun values row =>
      match row.basic with
      | some column => values.set column row.rhs
      | none => values) values).getD index 0 = goal := by
  induction rows generalizing values with
  | nil => simpa using reached
  | cons row rows ih =>
    have later : ∀ other ∈ rows, other.basic = some index → other.rhs = goal :=
      fun other member => agree other (by simp [member])
    rw [List.foldl_cons]
    cases named : row.basic with
    | none =>
      refine ih inside later ?_
      simpa [named] using reached
    | some column =>
      refine ih (by simpa using inside) later ?_
      by_cases own : column = index
      · subst own
        left
        simpa [inside] using agree row (by simp) named
      · simpa [named, own] using reached

theorem getD_orientedValues {tableau : Tableau Rat}
    (units : UnitColumns (fun _ => True) tableau.rows) {index : Nat}
    (inside : index < tableau.columnCount) :
    tableau.orientedValues.getD index 0 = tableau.basicReading TableauRow.rhs index := by
  unfold orientedValues
  by_cases basicColumn : ∃ row ∈ tableau.rows, row.basic = some index
  · obtain ⟨row, member, named⟩ := basicColumn
    rw [basicReading_basic units member named]
    refine getD_foldl_set _ (by simpa using inside) ?_ (.inr ⟨row, member, named⟩)
    intro other there namedOther
    rw [units.unique there member namedOther named]
  · have absent : ∀ row ∈ tableau.rows, row.basic ≠ some index :=
      fun row member named => basicColumn ⟨row, member, named⟩
    rw [basicReading_nonbasic absent]
    refine getD_foldl_set _ (by simpa using inside) ?_ (.inl (by simp [inside]))
    intro row member named
    exact absurd named (absent row member)

theorem length_orientedValues (tableau : Tableau Rat) :
    tableau.orientedValues.length = tableau.columnCount := by
  have kept : ∀ (rows : List (TableauRow Rat)) (values : List Rat),
      (rows.foldl (fun values row =>
        match row.basic with
        | some column => values.set column row.rhs
        | none => values) values).length = values.length := by
    intro rows
    induction rows with
    | nil => simp
    | cons row rows ih =>
      intro values
      rw [List.foldl_cons, ih]
      cases row.basic <;> simp
  exact (kept _ _).trans List.length_replicate

theorem length_solution (tableau : Tableau Rat) : tableau.solution.length = tableau.columnCount := by
  simp [solution, length_orientedValues, columnCount]

/-- The solution that is read off is the vertex. -/
theorem getD_solution {tableau : Tableau Rat} (units : UnitColumns (fun _ => True) tableau.rows)
    {index : Nat} (inside : index < tableau.columnCount) :
    tableau.solution.getD index 0 = tableau.vertexPoint index := by
  have value := getD_orientedValues units inside
  have there : index < tableau.orientedValues.length := by rwa [length_orientedValues]
  have known := List.getElem?_eq_getElem inside
  rw [List.getD_eq_getElem?_getD, List.getElem?_eq_getElem there, Option.getD_some] at value
  simp only [solution, vertexPoint, pointOf, List.getD_eq_getElem?_getD, List.getElem?_zipWith,
    known, List.getElem?_eq_getElem there, Option.getD_some, value, TableauColumn.restore]
  cases tableau.columns[index].upper <;> cases tableau.columns[index].complemented <;> rfl

end MixedInteger.Simplex.Tableau
