import MixedInteger.Proofs.Simplex.Iteration

/-! Rebuilding reduced costs. The program's costs are read in the current orientation and
then cleared on every basic column by multiples of its row; on every solution of the rows
the result still stands for the program's objective. -/
namespace MixedInteger.Simplex.Tableau

/-! ### Costs in the current orientation -/

theorem costAt_cons (column : TableauColumn Rat) (frame : List (TableauColumn Rat))
    (x : Nat → Rat) : costAt (column :: frame) x =
      column.cost * (x 0 - column.lower) + costAt frame fun index => x (index + 1) := by
  simp only [costAt, List.map_cons, form_cons, List.getElem?_cons_zero, List.getElem?_cons_succ]

/-- The cost of a column in its orientation. -/
def orientedCost (column : TableauColumn Rat) : Rat :=
  if column.complemented then -column.cost else column.cost

/-- What a column costs where its reading is zero. -/
def costAtZero (column : TableauColumn Rat) : Rat :=
  match column.complemented, column.upper with
  | true, some upper => column.cost * upper
  | _, _ => 0

theorem costAtZero_add {column : TableauColumn Rat}
    (bounded : column.complemented = true → column.upper.isSome = true) (x : Rat) :
    costAtZero column + orientedCost column * column.orient x =
      column.cost * (x - column.lower) := by
  obtain ⟨cost, upper, lower, integral, complemented⟩ := column
  cases complemented with
  | false => cases upper <;> simp [costAtZero, orientedCost, TableauColumn.orient]
  | true =>
    cases upper with
    | none => simp at bounded
    | some upper =>
      simp only [costAtZero, orientedCost, TableauColumn.orient, ↓reduceIte]
      ring

theorem orientedCosts_snd (tableau : Tableau Rat) :
    tableau.orientedCosts.2 = (tableau.columns.map costAtZero).sum := by
  have folded : tableau.orientedCosts.2 = tableau.columns.foldl
      (fun value column => value + costAtZero column) 0 := by
    change tableau.columns.foldl _ 0 = _
    congr 1
    funext value column
    unfold costAtZero
    cases column.complemented <;> cases column.upper <;> simp
  rw [folded, ← List.foldl_map, List.sum_eq_foldl]

/-- The oriented costs stand for the program's costs at every point. -/
theorem orientedCosts_eq (tableau : Tableau Rat) (framed : tableau.Framed) (x : Nat → Rat) :
    tableau.orientedCosts.2 + form tableau.orientedCosts.1 (tableau.reading x) =
      costAt tableau.frame x := by
  have sums : ∀ (columns : List (TableauColumn Rat)) (x : Nat → Rat),
      (∀ column ∈ columns, column.complemented = true → column.upper.isSome = true) →
      (columns.map costAtZero).sum + form (columns.map orientedCost) (readThrough columns x) =
        costAt (columns.map TableauColumn.fixedPart) x := by
    intro columns
    induction columns with
    | nil => intro x _; simp [costAt]
    | cons column columns ih =>
      intro x bounded
      have rest := ih (fun index => x (index + 1)) fun other member => bounded other (by simp [member])
      have here := costAtZero_add (bounded column (by simp)) (x 0)
      simp only [List.map_cons, List.sum_cons, form_cons, costAt_cons]
      rw [← rest]
      change _ + (_ * column.orient (x 0) + form _ (readThrough columns fun index => x (index + 1))) =
        column.cost * (x 0 - column.lower) + _
      rw [← here]
      ring
  rw [orientedCosts_snd]
  exact sums tableau.columns x framed.bounded

/-! ### Clearing basic columns -/

/-- A linear form, with the value it goes with, after a row's basic column is cleared in it. -/
def cleared (sign : Rat) (state : List Rat × Rat) (row : TableauRow Rat) : List Rat × Rat :=
  match row.basic with
  | some basic => (subtractMultiple (state.1.getD basic 0) state.1 row.coefs,
      state.2 + sign * (state.1.getD basic 0 * row.rhs))
  | none => state

theorem length_cleared (sign : Rat) (state : List Rat × Rat) (row : TableauRow Rat) :
    (cleared sign state row).1.length = state.1.length := by
  unfold cleared
  split
  · exact length_subtractMultiple _ _ _
  · rfl

/-- Clearing does not touch a column that the row does not mention. -/
theorem getD_cleared {sign : Rat} {state : List Rat × Rat} {row : TableauRow Rat}
    (same : state.1.length = row.coefs.length) {index : Nat} (absent : entry row index = 0) :
    (cleared sign state row).1.getD index 0 = state.1.getD index 0 := by
  unfold cleared
  split
  · rw [getD_subtractMultiple _ same, show row.coefs.getD index 0 = 0 from absent, mul_zero, sub_zero]
  · rfl

theorem getD_cleared_basic {sign : Rat} {state : List Rat × Rat} {row : TableauRow Rat}
    (same : state.1.length = row.coefs.length) {basic : Nat} (named : row.basic = some basic)
    (unit : entry row basic = 1) : (cleared sign state row).1.getD basic 0 = 0 := by
  simp only [cleared, named]
  rw [getD_subtractMultiple _ same, show row.coefs.getD basic 0 = 1 from unit, mul_one, sub_self]

/-- Where the row holds, clearing moves what it takes from the form into the value. -/
theorem form_cleared {sign : Rat} (unit : sign * sign = 1) {state : List Rat × Rat}
    {row : TableauRow Rat} (same : state.1.length = row.coefs.length) {z : Nat → Rat}
    (met : row.Meets z) :
    form (cleared sign state row).1 z + sign * (cleared sign state row).2 =
      form state.1 z + sign * state.2 := by
  unfold cleared
  split
  · rw [form_subtractMultiple _ same, show form row.coefs z = row.rhs from met, mul_add,
      ← mul_assoc, unit]
    ring
  · rfl

/-- Clearing row after row leaves nothing on basic columns and keeps the form. -/
theorem foldlM_cleared {rows : List (TableauRow Rat)} {width : Nat} {sign : Rat}
    {step : List Rat × Rat → TableauRow Rat → Except Fault (List Rat × Rat)}
    (wide : ∀ row ∈ rows, row.coefs.length = width) (units : UnitColumns (fun _ => True) rows)
    (sign_sq : sign * sign = 1)
    (steps : ∀ row ∈ rows, ∀ state : List Rat × Rat, state.1.length = width →
      step state row = .ok (cleared sign state row))
    {start : List Rat × Rat} (length : start.1.length = width) :
    ∃ final, rows.foldlM step start = .ok final ∧ final.1.length = width ∧
      (∀ row ∈ rows, ∀ basic, row.basic = some basic → final.1.getD basic 0 = 0) ∧
      (∀ index, (∀ row ∈ rows, entry row index = 0) →
        final.1.getD index 0 = start.1.getD index 0) ∧
      ∀ z, (∀ row ∈ rows, row.Meets z) →
        form final.1 z + sign * final.2 = form start.1 z + sign * start.2 := by
  have scan : ∀ (rest before : List (TableauRow Rat)) (state : List Rat × Rat),
      rows = before ++ rest → state.1.length = width →
      (∀ row ∈ before, ∀ basic, row.basic = some basic → state.1.getD basic 0 = 0) →
      ∃ final, rest.foldlM step state = .ok final ∧ final.1.length = width ∧
        (∀ row ∈ rows, ∀ basic, row.basic = some basic → final.1.getD basic 0 = 0) ∧
        (∀ index, (∀ row ∈ rows, entry row index = 0) →
          final.1.getD index 0 = state.1.getD index 0) ∧
        ∀ z, (∀ row ∈ rows, row.Meets z) →
          form final.1 z + sign * final.2 = form state.1 z + sign * state.2 := by
    intro rest
    induction rest with
    | nil =>
      intro before state split length free
      rw [List.append_nil] at split
      rw [split]
      exact ⟨state, rfl, length, free, fun _ _ => rfl, fun _ _ => rfl⟩
    | cons row rest ih =>
      intro before state split length free
      have member : row ∈ rows := by simp [split]
      have found : rows[before.length]? = some row := by simp [split]
      have same : state.1.length = row.coefs.length := length.trans (wide row member).symm
      -- The row's own basic column is cleared, and earlier ones do not occur in it.
      have freed : ∀ other ∈ before ++ [row], ∀ place, other.basic = some place →
          (cleared sign state row).1.getD place 0 = 0 := by
        intro other inside place namedOther
        rcases List.mem_append.mp inside with earlier | own
        · obtain ⟨index, there⟩ := List.mem_iff_getElem?.mp earlier
          obtain ⟨below, -⟩ := List.getElem?_eq_some_iff.mp there
          have elsewhere : rows[index]? = some other := by
            rw [split, List.getElem?_append_left below]
            exact there
          rw [getD_cleared same (units.other trivial elsewhere namedOther found below.ne)]
          exact free other earlier place namedOther
        · obtain rfl := List.mem_singleton.mp own
          exact getD_cleared_basic same namedOther (units.own trivial found namedOther)
      obtain ⟨final, ran, size, zero, others, price⟩ := ih (before ++ [row])
        (cleared sign state row) (by simp [split]) (by rw [length_cleared, length]) freed
      refine ⟨final, ?_, size, zero, fun index absent => ?_, fun z held => ?_⟩
      · rw [List.foldlM_cons, steps row member state length]
        exact ran
      · rw [others index absent, getD_cleared same (absent row member)]
      · rw [price z held, form_cleared sign_sq same (held row member)]
  exact scan rows [] start rfl length (by simp)

theorem clearReduced_eq {state : List Rat × Rat} {row : TableauRow Rat} {basic : Nat}
    (same : state.1.length = row.coefs.length) (named : row.basic = some basic)
    (unit : entry row basic = 1) : clearReduced state row = .ok (cleared 1 state row) := by
  obtain ⟨reduced, value⟩ := state
  have inside : basic < reduced.length := by
    rw [same]
    exact lt_length_of_unit unit
  have known := List.getElem?_eq_getElem inside
  have factor : reduced.getD basic 0 = reduced[basic] := by simp [known]
  have gone : (subtractMultiple (reduced.getD basic 0) reduced row.coefs).getD basic 0 = 0 := by
    rw [getD_subtractMultiple _ same, show row.coefs.getD basic 0 = 1 from unit, mul_one, sub_self]
  have kept := set_getD_self (subtractMultiple (reduced.getD basic 0) reduced row.coefs) basic
  rw [gone] at kept
  rw [factor] at kept
  unfold clearReduced cleared
  simp only [named, known, factor, one_mul]
  by_cases zero : reduced[basic] = 0
  · simp [zero, subtractMultiple_zero, pure, Except.pure]
  · simp [zero, kept, pure, Except.pure]

/-- Rebuilt costs are zero on basic columns and stand for the program's objective. -/
theorem rebuildCosts_spec {tableau : Tableau Rat} (framed : tableau.Framed)
    (wide : ∀ row ∈ tableau.rows, row.coefs.length = tableau.columnCount)
    (units : UnitColumns (fun _ => True) tableau.rows)
    (named : ∀ row ∈ tableau.rows, row.basic ≠ none) :
    ∃ reduced value, tableau.rebuildCosts =
        .ok { tableau with reduced, value, costReady := true } ∧
      reduced.length = tableau.columnCount ∧
      (∀ row ∈ tableau.rows, ∀ basic, row.basic = some basic → reduced.getD basic 0 = 0) ∧
      ∀ x, tableau.Holds x →
        value + form reduced (tableau.reading x) = costAt tableau.frame x := by
  have steps : ∀ row ∈ tableau.rows, ∀ state : List Rat × Rat,
      state.1.length = tableau.columnCount → clearReduced state row = .ok (cleared 1 state row) := by
    intro row member state size
    obtain ⟨basic, known⟩ := Option.ne_none_iff_exists'.mp (named row member)
    obtain ⟨place, found⟩ := List.mem_iff_getElem?.mp member
    exact clearReduced_eq (size.trans (wide row member).symm) known (units.own trivial found known)
  obtain ⟨⟨reduced, value⟩, ran, length, free, -, price⟩ := foldlM_cleared wide units (one_mul 1) steps
    (show tableau.orientedCosts.1.length = tableau.columnCount by simp [orientedCosts, columnCount])
  refine ⟨reduced, value, ?_, length, free, fun x held => ?_⟩
  · unfold rebuildCosts
    rw [show tableau.rows.foldlM clearReduced tableau.orientedCosts = .ok (reduced, value) from ran]
    rfl
  · have kept := price (tableau.reading x) held
    rw [one_mul, one_mul, add_comm, add_comm (form _ _)] at kept
    rw [kept]
    exact orientedCosts_eq tableau framed x

end MixedInteger.Simplex.Tableau
