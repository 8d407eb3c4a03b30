import MixedInteger.Proofs.Presolve.BoundTightening
import MixedInteger.Proofs.Presolve.ColumnRemoval

/-! Eliminating a column through the one equality row it occurs in. The row, solved for
the column, gives the value that is put back; the row then holds by construction, no other
row mentions the column, and the value stays in range because the row alone keeps it
there, whatever the other columns do inside theirs. -/
namespace MixedInteger.Presolve

/-! ### The row of a column -/

/-- The search for the next row of a column skips exactly the rows without it. -/
theorem nextOccurrence_spec {column : Nat} {rows : List (Row Rat)}
    (wide : ∀ row ∈ rows, column < row.coefs.length) (start : Nat) :
    (nextOccurrence column start rows = .ok none ∧ ∀ row ∈ rows, row.coefs.getD column 0 = 0) ∨
      ∃ before row after, rows = before ++ row :: after ∧
        nextOccurrence column start rows = .ok (some (start + before.length, after)) ∧
        (∀ other ∈ before, other.coefs.getD column 0 = 0) ∧ row.coefs.getD column 0 ≠ 0 := by
  induction rows generalizing start with
  | nil => exact .inl ⟨rfl, by simp⟩
  | cons row rows ih =>
    obtain ⟨a, here⟩ : ∃ a, row.coefs[column]? = some a :=
      ⟨_, List.getElem?_eq_getElem (wide row (by simp))⟩
    have value : row.coefs.getD column 0 = a := by simp [here]
    by_cases absent : a = 0
    · have skip : nextOccurrence column start (row :: rows) =
          nextOccurrence column (start + 1) rows := by
        simp [nextOccurrence, here, absent]
      rw [skip]
      rcases ih (fun other member => wide other (by simp [member])) (start + 1) with
        ⟨none, zero⟩ | ⟨before, hit, after, rfl, found, zero, occurs⟩
      · exact .inl ⟨none, by simpa [here, absent] using zero⟩
      · refine .inr ⟨row :: before, hit, after, rfl, ?_, by simpa [here, absent] using zero, occurs⟩
        rw [found, List.length_cons, Nat.add_right_comm, Nat.add_assoc start]
    · refine .inr ⟨[], row, rows, rfl, ?_, by simp, value ▸ absent⟩
      simp [nextOccurrence, here, absent]

/-- A column occurs in one row and in no other. -/
structure OccursOnce (program : Program Rat) (rowIndex column : Nat) (row : Row Rat) (a : Rat) :
    Prop where
  found : program.rows[rowIndex]? = some row
  coef : row.coefs[column]? = some a
  occurs : a ≠ 0
  absent : ∀ other ∈ (program.withoutRow rowIndex).rows, other.coefs.getD column 0 = 0

theorem soleRow_spec {program : Program Rat} {column : Nat}
    (wide : ∀ row ∈ program.rows, column < row.coefs.length) :
    ∃ found, soleRow column program.rows = .ok found ∧
      ∀ rowIndex, found = some rowIndex → ∃ row a, OccursOnce program rowIndex column row a := by
  rcases nextOccurrence_spec wide 0 with ⟨none, -⟩ | ⟨before, row, after, rows, first, zero, occurs⟩
  · exact ⟨Option.none, by rw [soleRow, none]; rfl, by simp⟩
  · have wideAfter : ∀ other ∈ after, column < other.coefs.length :=
      fun other member => wide other (by simp [rows, member])
    rcases nextOccurrence_spec wideAfter (0 + before.length + 1) with
      ⟨none, zeroAfter⟩ | ⟨_, _, _, -, second, -, -⟩
    · refine ⟨some (0 + before.length), ?_, ?_⟩
      · rw [soleRow, first]
        simp only [bind, Except.bind, none]
        rfl
      · rintro rowIndex known
        obtain rfl : before.length = rowIndex := by simpa using known
        obtain ⟨a, coef⟩ : ∃ a, row.coefs[column]? = some a :=
          ⟨_, List.getElem?_eq_getElem (wide row (by simp [rows]))⟩
        refine ⟨row, a, by simp [rows], coef, by simpa [coef] using occurs, ?_⟩
        intro other member
        have remaining : other ∈ before ++ after := by
          simpa [Program.withoutRow, rows, List.eraseIdx_append_of_length_le] using member
        rcases List.mem_append.mp remaining with left | right
        · exact zero other left
        · exact zeroAfter other right
    · refine ⟨Option.none, ?_, by simp⟩
      rw [soleRow, first]
      simp only [bind, Except.bind, second]
      rfl

/-- A continuous column that an equality row defines and keeps in range. -/
structure Eliminable (program : Program Rat) (rowIndex index : Nat) (row : Row Rat)
    (column : Column Rat) (a : Rat) : Prop extends
    OccursOnce program rowIndex index row a where
  known : program.columns[index]? = some column
  continuous : column.integral = false
  equality : row.relation = .eq
  implied : impliedFree row a column.range program.columns = true

theorem eliminable?_spec {program : Program Rat} (shaped : program.Shaped) {index : Nat}
    {column : Column Rat} (known : program.columns[index]? = some column) :
    ∃ found, eliminable? program index column = .ok found ∧
      ∀ rowIndex, found = some rowIndex →
        ∃ row a, Eliminable program rowIndex index row column a := by
  obtain ⟨inside, -⟩ := List.getElem?_eq_some_iff.mp known
  have wide : ∀ row ∈ program.rows, index < row.coefs.length :=
    fun row member => shaped.rows row member ▸ inside
  obtain ⟨sole, searched, once⟩ := soleRow_spec wide
  unfold eliminable?
  cases continuous : column.integral with
  | true => exact ⟨none, rfl, by simp⟩
  | false =>
    cases sole with
    | none => exact ⟨none, by rw [searched]; rfl, by simp⟩
    | some rowIndex =>
      obtain ⟨row, a, occurs⟩ := once rowIndex rfl
      have coefficient : row.coef index = .ok a := by rw [Row.coef, occurs.coef]; rfl
      by_cases equality : row.relation = .eq
      · refine ⟨if impliedFree row a column.range program.columns then some rowIndex else none,
          ?_, ?_⟩
        · simp [searched, occurs.found, inRange, equality, coefficient, bind, Except.bind, pure,
            Except.pure]
        · intro other found
          cases implied : impliedFree row a column.range program.columns with
          | false => simp [implied] at found
          | true =>
            obtain rfl : rowIndex = other := by simpa [implied] using found
            exact ⟨row, a, occurs, known, continuous, equality, implied⟩
      · refine ⟨none, ?_, by simp⟩
        simp [searched, occurs.found, inRange, equality, bind, Except.bind, pure, Except.pure]

theorem findEliminable_spec {program : Program Rat} (shaped : program.Shaped)
    {candidates : List (Column Rat × Nat)}
    (listed : ∀ entry ∈ candidates, program.columns[entry.2]? = some entry.1) :
    ∃ found, findEliminable program candidates = .ok found ∧
      ∀ rowIndex index, found = some (rowIndex, index) →
        ∃ row column a, Eliminable program rowIndex index row column a := by
  induction candidates with
  | nil => exact ⟨none, rfl, by simp⟩
  | cons entry rest ih =>
    obtain ⟨column, index⟩ := entry
    obtain ⟨hit, tested, meaning⟩ := eliminable?_spec shaped (listed (column, index) (by simp))
    cases hit with
    | none =>
      obtain ⟨found, searched, known⟩ := ih fun entry member => listed entry (by simp [member])
      refine ⟨found, ?_, known⟩
      rw [findEliminable, tested]
      exact searched
    | some rowIndex =>
      refine ⟨some (rowIndex, index), ?_, ?_⟩
      · rw [findEliminable, tested]
        rfl
      · intro other otherIndex same
        obtain ⟨rfl, rfl⟩ : rowIndex = other ∧ index = otherIndex := by simpa using same
        obtain ⟨row, a, eliminable⟩ := meaning rowIndex rfl
        exact ⟨row, column, a, eliminable⟩

/-! ### The row solved for the column -/

/-- The terms of coefficients, counted from a position, solved for the column at `index`. -/
def solvedTerms (coefs : List Rat) (start index : Nat) (a : Rat) : List (Nat × Rat) :=
  ((coefs.zipIdx start).filter fun (coefficient, column) =>
    column ≠ index ∧ !Scalar.isZero coefficient).map fun (coefficient, column) =>
      (column, -(coefficient / a))

theorem solvedTerms_cons (coefficient : Rat) (coefs : List Rat) (start index : Nat) (a : Rat) :
    solvedTerms (coefficient :: coefs) start index a =
      if start ≠ index ∧ coefficient ≠ 0 then
        (start, -(coefficient / a)) :: solvedTerms coefs (start + 1) index a
      else solvedTerms coefs (start + 1) index a := by
  by_cases kept : start ≠ index ∧ coefficient ≠ 0
  · simp [solvedTerms, List.zipIdx_cons, kept.1, kept.2]
  · simp only [solvedTerms, List.zipIdx_cons, kept, ↓reduceIte]
    rw [List.filter_cons_of_neg]
    simpa using kept

/-- The value of a list of terms. -/
def termSum (z : Nat → Rat) (terms : List (Nat × Rat)) : Rat :=
  (terms.map fun term => term.2 * z term.1).sum

theorem lt_of_mem_solvedTerms {coefs : List Rat} {index : Nat} {a : Rat} {term : Nat × Rat}
    (member : term ∈ solvedTerms coefs 0 index a) : term.1 < coefs.length := by
  obtain ⟨⟨coefficient, column⟩, kept, rfl⟩ := List.mem_map.mp member
  have listed := List.mem_zipIdx_iff_getElem?.mp (List.mem_filter.mp kept).1
  exact (List.getElem?_eq_some_iff.mp listed).1

/-- Where the column itself is zero, the terms sum to the activity over `-a`. -/
theorem termSum_solvedTerms (coefs : List Rat) (start : Nat) {index : Nat} (a : Rat)
    {z : Nat → Rat} (zero : z index = 0) :
    termSum z (solvedTerms coefs start index a) =
      -(form coefs (fun column => z (start + column)) / a) := by
  induction coefs generalizing start with
  | nil => simp [solvedTerms, termSum]
  | cons coefficient coefs ih =>
    have later : (fun column => z (start + 1 + column)) = fun column => z (start + (column + 1)) :=
      funext fun column => congrArg z (by omega)
    have rest := ih (start + 1)
    rw [later] at rest
    rw [solvedTerms_cons, form_cons, add_div, neg_add, ← rest]
    split
    · simp only [termSum, List.map_cons, List.sum_cons, Nat.add_zero]
      ring
    · rename_i dropped
      have nothing : coefficient * z (start + 0) = 0 := by
        by_cases here : start = index
        · rw [Nat.add_zero, here, zero, mul_zero]
        · have : coefficient = 0 := by simpa [here] using dropped
          rw [this, zero_mul]
      rw [nothing, zero_div, neg_zero, zero_add]

theorem addTerms_eq {values : List Rat} {terms : List (Nat × Rat)}
    (inside : ∀ term ∈ terms, term.1 < values.length) (total : Rat) :
    Recovery.addTerms values total terms =
      .ok (total + termSum (fun column => values.getD column 0) terms) := by
  induction terms generalizing total with
  | nil => simp [Recovery.addTerms, termSum]
  | cons term terms ih =>
    obtain ⟨position, coefficient⟩ := term
    have here := List.getElem?_eq_getElem (inside (position, coefficient) (by simp))
    simp only [Recovery.addTerms, here, ih fun term member => inside term (by simp [member]),
      termSum, List.map_cons, List.sum_cons, List.getD_eq_getElem?_getD, Option.getD_some, add_assoc]

/-- Folding terms into an objective adds their value, times the cost, at every point. -/
theorem foldIntoObjective_spec (cost : Rat) {terms : List (Nat × Rat)} {objective : List Rat}
    (inside : ∀ term ∈ terms, term.1 < objective.length) :
    ∃ folded, foldIntoObjective cost terms objective = .ok folded ∧
      folded.length = objective.length ∧ ∀ x, dot folded x =
        dot objective x + cost * termSum (fun column => x.getD column 0) terms := by
  induction terms generalizing objective with
  | nil => exact ⟨objective, rfl, rfl, by simp [termSum]⟩
  | cons term terms ih =>
    obtain ⟨column, coefficient⟩ := term
    have bound := inside (column, coefficient) (by simp)
    have here := List.getElem?_eq_getElem bound
    generalize objective[column] = old at here
    have later : ∀ term ∈ terms, term.1 < (objective.set column (old + cost * coefficient)).length :=
      fun term member => by simpa using inside term (by simp [member])
    obtain ⟨folded, ran, length, value⟩ := ih later
    refine ⟨folded, ?_, by simpa using length, fun x => ?_⟩
    · rw [foldIntoObjective, here]
      exact ran
    · rw [value, dot_set bound]
      simp only [List.getD_eq_getElem?_getD, here, Option.getD_some, termSum, List.map_cons,
        List.sum_cons]
      ring

/-- The value of the column that makes the row hold. -/
def solvedValue (row : Row Rat) (index : Nat) (a : Rat) (y : List Rat) : Rat :=
  (row.rhs - dot row.coefs (y.insertIdx index 0)) / a

theorem termSum_insertIdx (row : Row Rat) {index : Nat} (a : Rat) {y : List Rat}
    (reach : index ≤ y.length) :
    row.rhs / a + termSum (fun column => (y.insertIdx index 0).getD column 0)
      (solvedTerms row.coefs 0 index a) = solvedValue row index a y := by
  rw [termSum_solvedTerms row.coefs 0 a (by simp only [getD_insertIdx reach]; simp), solvedValue,
    dot_eq_form]
  simp only [Nat.zero_add]
  ring

/-- The state reached by substituting a column. -/
structure Substitutes (state next : State Rat) (rowIndex index : Nat) (row : Row Rat)
    (column : Column Rat) (a : Rat) : Prop where
  columns : next.program.columns = state.program.columns.eraseIdx index
  rows : next.program.rows = (state.program.withoutRow rowIndex).rows.map fun other =>
    { other with coefs := other.coefs.eraseIdx index }
  objectiveLength : next.program.objective.length = next.program.columns.length
  objective : ∀ y, y.length + 1 = state.program.columns.length →
    next.program.objectiveValue y =
      state.program.objectiveValue (y.insertIdx index (solvedValue row index a y))
  removed : next.removed = state.removed.push index
    { column with recovery := some (.affine (row.rhs / a) (solvedTerms row.coefs 0 index a)) }

theorem substituteOut_eq (rowIndex index : Nat) : (substituteOut rowIndex index :
    Reduction Rat Unit) = (do
      let row ← rowAt rowIndex
      let a ← attempt (row.coef index)
      let cost ← objectiveAt index
      if !Scalar.isZero cost then
        let objective ← attempt (foldIntoObjective cost (solvedTerms row.coefs 0 index a)
          (← get).program.objective)
        modify fun state => { state with
          program.objective := objective
          program.constant := state.program.constant + cost * (row.rhs / a) }
      removeRow rowIndex
      removeColumn index (.affine (row.rhs / a) (solvedTerms row.coefs 0 index a))) := rfl

theorem ends_substituteOut {state : State Rat} {rowIndex index : Nat} {row : Row Rat}
    {column : Column Rat} {a : Rat} (valid : state.program.Valid)
    (eliminable : Eliminable state.program rowIndex index row column a)
    {ok : Unit → State Rat → Prop} {failed : Verdict → State Rat → Prop}
    (final : ∀ next, Substitutes state next rowIndex index row column a → ok () next) :
    Ends (substituteOut rowIndex index) state ok failed := by
  obtain ⟨inside, -⟩ := List.getElem?_eq_some_iff.mp eliminable.known
  have inObjective : index < state.program.objective.length := valid.objective ▸ inside
  have width := valid.rows row (List.mem_of_getElem? eliminable.found)
  have cost := List.getElem?_eq_getElem inObjective
  generalize state.program.objective[index] = price at cost
  have coefficient : row.coef index = .ok a := by rw [Row.coef, eliminable.coef]; rfl
  have positions : ∀ term ∈ solvedTerms row.coefs 0 index a,
      term.1 < state.program.objective.length := by
    intro term member
    rw [valid.objective, ← width]
    exact lt_of_mem_solvedTerms member
  obtain ⟨folded, ran, length, value⟩ := foldIntoObjective_spec price positions
  -- Whether the objective is rewritten or the column costs nothing, the same equation holds.
  have finish : ∀ middle : State Rat, middle.program.columns = state.program.columns →
      middle.program.rows = state.program.rows → middle.removed = state.removed →
      middle.program.objective.length = state.program.objective.length →
      (∀ x, middle.program.objectiveValue x = state.program.objectiveValue x +
        price * (row.rhs / a + termSum (fun column => x.getD column 0) (solvedTerms row.coefs 0 index a))) →
      Ends (do
        removeRow rowIndex
        removeColumn index (.affine (row.rhs / a) (solvedTerms row.coefs 0 index a))) middle ok failed := by
    intro middle columns rows removed size objective
    simp only [removeRow, ends_bind, ends_modify]
    have unchanged : middle.program.columns[index]? = some column := columns ▸ eliminable.known
    refine ends_removeColumn (by exact unchanged) (size ▸ inObjective) ?_ fun next program log =>
      final next { columns := ?columns, rows := ?rows, objectiveLength := ?length
                   objective := ?objective, removed := by rw [log, ← removed] }
    · intro other member
      have old := List.mem_of_mem_eraseIdx member
      rw [rows] at old
      exact valid.rows other old ▸ inside
    case columns =>
      rw [program, ← columns]
      rfl
    case rows => simp only [program, Program.withoutColumn, Program.withoutRow, rows]
    case length =>
      simp only [program, Program.withoutColumn, List.length_eraseIdx, size, columns,
        valid.objective]
    case objective =>
      intro y count
      have reach : index ≤ y.length := by omega
      have solved := termSum_insertIdx row a reach
      have atZero := objective (y.insertIdx index 0)
      simp only [program, Program.withoutColumn, Program.objectiveValue] at atZero ⊢
      rw [dot_insertIdx (size ▸ inObjective) reach, mul_zero, add_zero,
        dot_insertIdx inObjective reach, mul_zero, add_zero, solved] at atZero
      rw [atZero, dot_insertIdx inObjective reach]
      simp only [List.getD_eq_getElem?_getD, cost, Option.getD_some]
      ring
  simp only [substituteOut_eq, ends_bind, ends_rowAt eliminable.found,
    ends_attempt_ok coefficient, ends_objectiveAt cost]
  split
  · simp only [ends_bind, ends_get, ends_attempt_ok ran, ends_modify]
    refine ends_bind _ _ _ |>.mp (finish _ rfl rfl rfl length fun x => ?_)
    simp only [Program.objectiveValue, value]
    ring
  · rename_i free
    have zero : price = 0 := by simpa using free
    exact ends_bind _ _ _ |>.mp (finish state rfl rfl rfl rfl fun x => by simp [zero])

/-! ### Soundness -/

section

variable {state next : State Rat} {rowIndex index : Nat} {row : Row Rat} {column : Column Rat}
  {a : Rat} {y : List Rat}

theorem dot_solvedValue (eliminable : Eliminable state.program rowIndex index row column a)
    (reach : index ≤ y.length) (value : Rat) :
    dot row.coefs (y.insertIdx index value) = row.rhs ↔ value = solvedValue row index a y := by
  obtain ⟨wide, -⟩ := List.getElem?_eq_some_iff.mp eliminable.coef
  have coef : row.coefs.getD index 0 = a := by simp [eliminable.coef]
  have occurs := eliminable.occurs
  rw [solvedValue, dot_insertIdx wide reach, dot_insertIdx wide reach, coef, mul_zero, add_zero,
    eq_div_iff occurs, eq_sub_iff_add_eq', mul_comm]

/-- The row keeps the solved value in range: the bounds it implies were found to be within
the range for any values that the other columns may take. -/
theorem admits_solvedValue (valid : state.program.Valid)
    (eliminable : Eliminable state.program rowIndex index row column a)
    (length : y.length + 1 = state.program.columns.length)
    (ranges : ∀ (other : Nat) (data : Column Rat),
      (state.program.columns.eraseIdx index)[other]? = some data →
        data.range.Admits (y.getD other 0)) :
    column.range.Admits (solvedValue row index a y) := by
  obtain ⟨inside, -⟩ := List.getElem?_eq_some_iff.mp eliminable.known
  obtain ⟨wide, -⟩ := List.getElem?_eq_some_iff.mp eliminable.coef
  have reach : index ≤ y.length := by omega
  have coef : row.coefs.getD index 0 = a := by simp [eliminable.coef]
  obtain ⟨other, admits⟩ := Range.exists_admits
    (valid.nonempty column (List.mem_of_getElem? eliminable.known))
  have box : Activity.InBox state.program.columns (y.insertIdx index other) := by
    refine Activity.inBox_of_admits ?_ ?_
    · rw [List.length_insertIdx_of_le_length reach, length]
    · exact (forall_columns_insertIdx eliminable.known length
        (fun data => data.range.Admits) other).mpr ⟨admits, ranges⟩
  have own : (y.insertIdx index other).getD index 0 = other := by
    rw [getD_insertIdx reach]
    simp
  have holds : Relation.eq.Holds (dot row.coefs (y.insertIdx index other) -
      a * (y.insertIdx index other).getD index 0 + a * solvedValue row index a y) row.rhs := by
    have solved := (dot_solvedValue eliminable reach _).mpr rfl
    rw [dot_insertIdx wide reach, coef] at solved
    rw [dot_insertIdx wide reach, coef, own, add_sub_cancel_right]
    exact solved
  have bounds := admits_residualBounds box eliminable.known eliminable.coef eliminable.occurs holds
  have kept := eliminable.implied
  simp only [impliedFree, Bool.and_eq_true, Option.all_eq_true, Option.any_eq_true,
    Bool.not_eq_true', ← Bool.not_eq_true, Scalar.exceeds_iff, not_lt] at kept
  refine ⟨fun bound eq => ?_, fun bound eq => ?_⟩
  · obtain ⟨implied, found, le⟩ := kept.1 bound eq
    exact le.trans (bounds.1 implied found)
  · obtain ⟨implied, found, le⟩ := kept.2 bound eq
    exact (bounds.2 implied found).trans le

theorem Substitutes.valid (substitutes : Substitutes state next rowIndex index row column a)
    (valid : state.program.Valid) : next.program.Valid := by
  refine ⟨⟨substitutes.objectiveLength, fun other member => ?_⟩, fun data member => ?_⟩
  · rw [substitutes.rows] at member
    obtain ⟨old, found, rfl⟩ := List.mem_map.mp member
    have width := valid.rows old (List.mem_of_mem_eraseIdx found)
    simp only [substitutes.columns, List.length_eraseIdx, width]
  · rw [substitutes.columns] at member
    exact valid.nonempty data (List.mem_of_mem_eraseIdx member)

/-- A row without the column says the same of a point and of what remains of it. -/
theorem Substitutes.rows_iff (substitutes : Substitutes state next rowIndex index row column a)
    (valid : state.program.Valid)
    (eliminable : Eliminable state.program rowIndex index row column a)
    (length : y.length + 1 = state.program.columns.length) (value : Rat) :
    (∀ other ∈ next.program.rows, other.relation.Holds (dot other.coefs y) other.rhs) ↔
      ∀ other ∈ (state.program.withoutRow rowIndex).rows,
        other.relation.Holds (dot other.coefs (y.insertIdx index value)) other.rhs := by
  obtain ⟨inside, -⟩ := List.getElem?_eq_some_iff.mp eliminable.known
  have activity : ∀ other ∈ (state.program.withoutRow rowIndex).rows,
      dot other.coefs (y.insertIdx index value) = dot (other.coefs.eraseIdx index) y := by
    intro other member
    have width := valid.rows other (List.mem_of_mem_eraseIdx member)
    rw [dot_insertIdx (width ▸ inside) (by omega), eliminable.absent other member, zero_mul,
      add_zero]
  rw [substitutes.rows]
  constructor
  · intro held other member
    rw [activity other member]
    exact held _ (List.mem_map_of_mem member)
  · intro held other member
    obtain ⟨old, found, rfl⟩ := List.mem_map.mp member
    have here := held old found
    rwa [activity old found] at here

/-- Without the column, a feasible point is feasible at the same objective. -/
theorem Substitutes.forth (substitutes : Substitutes state next rowIndex index row column a)
    (valid : state.program.Valid) (eliminable : Eliminable state.program rowIndex index row column a)
    {x : List Rat} (held : state.program.Feasible x) :
    next.program.Feasible (x.eraseIdx index) ∧
      next.program.objectiveValue (x.eraseIdx index) = state.program.objectiveValue x := by
  obtain ⟨inside, -⟩ := List.getElem?_eq_some_iff.mp eliminable.known
  have inX : index < x.length := held.length ▸ inside
  have count : (x.eraseIdx index).length + 1 = state.program.columns.length := by
    rw [List.length_eraseIdx_of_lt inX, held.length]
    omega
  have old := insertIdx_eraseIdx_getD inX
  obtain ⟨rest, own⟩ := (Program.satisfies_withoutRow eliminable.found x).mp held.toSatisfies
  rw [eliminable.equality] at own
  have solved : x.getD index 0 = solvedValue row index a (x.eraseIdx index) := by
    rw [← dot_solvedValue eliminable (by omega), old]
    exact own
  have ranges := (forall_columns_insertIdx eliminable.known count
    (fun data => data.range.Admits) (x.getD index 0)).mp (by rw [old]; exact held.ranges)
  have whole := (forall_columns_insertIdx eliminable.known count
    (fun data entry => data.integral = true → Whole entry) (x.getD index 0)).mp
      (by rw [old]; exact held.integral)
  refine ⟨{ length := ?length, rows := ?rows, ranges := ?ranges, integral := ?integral }, ?value⟩
  case length =>
    rw [substitutes.columns, List.length_eraseIdx_of_lt inX, List.length_eraseIdx_of_lt inside,
      held.length]
  case rows =>
    refine (substitutes.rows_iff valid eliminable count (x.getD index 0)).mpr ?_
    rw [old]
    exact rest.rows
  case ranges =>
    rw [substitutes.columns]
    exact ranges.2
  case integral =>
    unfold Program.Integral
    rw [substitutes.columns]
    exact whole.2
  case value => rw [substitutes.objective _ count, ← solved, old]

theorem Substitutes.reduces (substitutes : Substitutes state next rowIndex index row column a)
    (valid : state.program.Valid)
    (eliminable : Eliminable state.program rowIndex index row column a) : Reduces state next := by
  obtain ⟨inside, -⟩ := List.getElem?_eq_some_iff.mp eliminable.known
  have length : ∀ y, next.program.Satisfies y → y.length + 1 = state.program.columns.length := by
    intro y held
    rw [held.length, substitutes.columns, List.length_eraseIdx_of_lt inside]
    omega
  have width := valid.rows row (List.mem_of_getElem? eliminable.found)
  have recovers : ∀ y, next.program.Satisfies y → Column.recover
      { column with recovery := some (.affine (row.rhs / a) (solvedTerms row.coefs 0 index a)) }
      (y.insertIdx index 0) = .ok (solvedValue row index a y) := by
    intro y held
    have reach : index ≤ y.length := by have := length y held; omega
    rw [← termSum_insertIdx row a reach]
    refine addTerms_eq (fun term member => ?_) _
    rw [List.length_insertIdx_of_le_length reach, length y held, ← width]
    exact lt_of_mem_solvedTerms member
  refine Reduces.of_removal eliminable.known substitutes.columns substitutes.removed recovers
    ?admits ?whole ?rows ?objective ?forth ?equational
  case admits =>
    intro y held
    refine admits_solvedValue valid eliminable (length y held) ?_
    rw [← substitutes.columns]
    exact held.ranges
  case whole =>
    intro y _ integral
    rw [eliminable.continuous] at integral
    cases integral
  case rows =>
    intro y held other member
    have count := length y held
    rcases (Program.mem_rows_iff eliminable.found other).mp member with rfl | rest
    · rw [eliminable.equality]
      exact (dot_solvedValue eliminable (by omega) _).mpr rfl
    · exact (substitutes.rows_iff valid eliminable count _).mp held.rows other rest
  case objective => exact fun y held => (substitutes.objective y (length y held)).symm
  case forth =>
    intro x held
    obtain ⟨feasible, value⟩ := substitutes.forth valid eliminable held
    exact ⟨x.eraseIdx index, feasible, value.le⟩
  case equational =>
    intro equational other member
    rw [substitutes.rows] at member
    obtain ⟨source, there, rfl⟩ := List.mem_map.mp member
    exact equational source (List.mem_of_mem_eraseIdx there)

/-- A column that can be eliminated can be eliminated from the directions, through the same
row. -/
theorem Eliminable.recession (eliminable : Eliminable state.program rowIndex index row column a) :
    Eliminable state.recession.program rowIndex index row.recession column.recession a := by
  refine ⟨⟨?_, eliminable.coef, eliminable.occurs, fun other member => ?_⟩,
    Program.getElem?_recession eliminable.known, rfl, eliminable.equality, ?_⟩
  · simp [State.recession, Program.recession, eliminable.found]
  · simp only [State.recession, ← Program.recession_withoutRow] at member
    obtain ⟨source, there, rfl⟩ := List.mem_map.mp member
    exact eliminable.absent source there
  · have bounds := impliedBounds_recession .eq a row.rhs
      ((Activity.ofRow row.coefs state.program.columns).residualMin a column.range)
      ((Activity.ofRow row.coefs state.program.columns).residualMax a column.range)
    rw [← Activity.residualMin_recession, ← Activity.residualMax_recession] at bounds
    have kept := eliminable.implied
    simp only [impliedFree, Bool.and_eq_true, Option.all_eq_true, Option.any_eq_true] at kept
    change impliedFree row.recession a column.range.recession
      (state.program.columns.map Column.recession) = true
    simp only [impliedFree, Row.recession, bounds, Bool.and_eq_true, Option.all_eq_true,
      Option.any_eq_true, Option.map_eq_some_iff]
    simp only [Range.recession, Option.map_eq_some_iff]
    constructor
    · rintro _ ⟨bound, known, rfl⟩
      obtain ⟨implied, found, -⟩ := kept.1 bound known
      exact ⟨0, ⟨implied, found, rfl⟩, by simp⟩
    · rintro _ ⟨bound, known, rfl⟩
      obtain ⟨implied, found, -⟩ := kept.2 bound known
      exact ⟨0, ⟨implied, found, rfl⟩, by simp⟩

/-- The solved value is linear but for what the right-hand side contributes. -/
theorem solvedValue_recession (row : Row Rat) (index : Nat) (a : Rat) (y : List Rat) :
    solvedValue row.recession index a y = solvedValue row index a y - row.rhs / a := by
  simp only [solvedValue, Row.recession]
  ring

theorem solvedValue_zero {count : Nat} (row : Row Rat) (a : Rat) (wide : index < row.coefs.length)
    (reach : index ≤ count) : solvedValue row index a (List.replicate count 0) = row.rhs / a := by
  rw [solvedValue, dot_insertIdx wide (by simpa using reach), dot_replicate_zero, mul_zero, add_zero,
    sub_zero]

/-- Substituting a column substitutes its direction, by the row at zero. -/
theorem Substitutes.recession (substitutes : Substitutes state next rowIndex index row column a)
    (valid : state.program.Valid)
    (eliminable : Eliminable state.program rowIndex index row column a) :
    Substitutes state.recession next.recession rowIndex index row.recession column.recession a := by
  obtain ⟨inside, -⟩ := List.getElem?_eq_some_iff.mp eliminable.known
  obtain ⟨wide, -⟩ := List.getElem?_eq_some_iff.mp eliminable.coef
  have inObjective : index < state.program.objective.length := valid.objective ▸ inside
  have rows : ∀ program : Program Rat, (program.recession.withoutRow rowIndex).rows =
      (program.withoutRow rowIndex).rows.map Row.recession := by
    intro program
    rw [← Program.recession_withoutRow]
    rfl
  exact {
    columns := by
      simp [State.recession, Program.recession, substitutes.columns, List.eraseIdx_map]
    rows := by
      rw [State.recession, State.recession, rows]
      simp [Program.recession, substitutes.rows, Row.recession, Function.comp_def]
    objectiveLength := by
      simpa [State.recession, Program.recession] using substitutes.objectiveLength
    objective := by
      -- the difference between the objectives at the point and at the origin
      intro y count
      replace count : y.length + 1 = state.program.columns.length := by
        simpa [State.recession, Program.recession] using count
      have reach : index ≤ y.length := by omega
      have here := substitutes.objective y count
      have origin := substitutes.objective (List.replicate y.length 0) (by simpa using count)
      simp only [Program.objectiveValue, dot_insertIdx inObjective reach, dot_replicate_zero,
        dot_insertIdx inObjective (le_of_le_of_eq reach List.length_replicate.symm),
        solvedValue_zero row a wide reach] at here origin
      simp only [State.recession, Program.objectiveValue_recession, solvedValue_recession]
      rw [dot_insertIdx inObjective reach]
      linarith
    removed := by
      simp [State.recession, substitutes.removed, UndoLog.recession, UndoLog.push,
        Column.recession, Recovery.recession, Row.recession] }

theorem Substitutes.refines (substitutes : Substitutes state next rowIndex index row column a)
    (valid : state.program.Valid)
    (eliminable : Eliminable state.program rowIndex index row column a) : Refines state next :=
  ⟨substitutes.reduces valid eliminable,
    (substitutes.recession valid eliminable).reduces valid.recession eliminable.recession⟩

end

theorem eliminateImpliedFree_sound (fuel : Nat) :
    Sound (fun _ => True) (eliminateImpliedFree fuel) fun _ _ => True := by
  induction fuel with
  | zero => exact Sound.pure false fun _ => id
  | succ fuel ih =>
    intro state valid _
    have listed : ∀ entry ∈ state.program.columns.zipIdx,
        state.program.columns[entry.2]? = some entry.1 :=
      fun entry member => List.mem_zipIdx_iff_getElem?.mp member
    obtain ⟨found, searched, meaning⟩ := findEliminable_spec valid.toShaped listed
    simp only [eliminateImpliedFree, ends_bind, ends_get, ends_attempt_ok searched]
    cases found with
    | none => exact ⟨valid, Refines.refl state, trivial⟩
    | some place =>
      obtain ⟨rowIndex, index⟩ := place
      obtain ⟨row, column, a, eliminable⟩ := meaning rowIndex index rfl
      simp only [ends_bind]
      refine ends_substituteOut valid eliminable fun next substitutes => ?_
      have refines := substitutes.refines valid eliminable
      refine (ih next (substitutes.valid valid) trivial).mono ?_ fun _ _ => refines.certified
      rintro _ last ⟨validLast, further, -⟩
      exact ⟨validLast, refines.trans further, trivial⟩

theorem removeImpliedFreeColumns_sound :
    Sound (fun _ => True) removeImpliedFreeColumns fun _ _ => True := by
  refine Sound.get fun seen => ?_
  exact (eliminateImpliedFree_sound seen.program.columns.length).weaken (fun _ _ => trivial)
    fun _ _ => id

end MixedInteger.Presolve
