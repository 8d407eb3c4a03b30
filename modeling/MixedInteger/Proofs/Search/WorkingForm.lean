import MixedInteger.Proofs.Lists
import MixedInteger.Proofs.Search.BoundedBelow

/-! The working form of a program: bounded below, with a slack in every inequality row. Each
point of the reference program has a canonical image among the working columns, made of its
parts and of the residuals of the rows. The image of a feasible point is feasible, integral
slacks included, at the same objective; and the other way round, the reference columns of any
working point have the working objective, and a feasible working point stands for a feasible
point of the reference program. -/
namespace MixedInteger

open Problem (addWorkingValue)

/-! ### Residuals -/

/-- The distance of a point from a row's right-hand side, on the side the row allows. -/
def Row.residual (x : List Rat) (row : Row Rat) : Rat :=
  match row.relation with
  | .le => row.rhs - dot row.coefs x
  | .eq => 0
  | .ge => dot row.coefs x - row.rhs

/-- The rows that get a slack. -/
def inequalities (rows : List (Row Rat)) : List (Row Rat) :=
  rows.filter fun row => row.relation ≠ .eq

/-- The canonical image of a point of the reference program in working columns: a split
column shows its two parts, and a slack shows the residual of its row. -/
def Problem.image (problem : Problem Rat) (x : List Rat) : List Rat :=
  (problem.working.columns.filter fun column => !column.slack).map (Column.part x) ++
    (inequalities problem.reference.rows).map (Row.residual x)

theorem inequalities_take_succ {rows : List (Row Rat)} {done : Nat} {row : Row Rat}
    (known : rows[done]? = some row) : inequalities (rows.take (done + 1)) =
      inequalities (rows.take done) ++ if row.relation = .eq then [] else [row] := by
  rw [List.take_add_one, known, inequalities, List.filter_append, Option.toList_some]
  by_cases equality : row.relation = .eq
  · simp [inequalities, equality]
  · simp [inequalities, equality]

theorem residual_nonneg {row : Row Rat} {x : List Rat}
    (held : row.relation.Holds (dot row.coefs x) row.rhs) : 0 ≤ row.residual x := by
  unfold Row.residual
  cases relation : row.relation with
  | le =>
    rw [relation] at held
    exact sub_nonneg.mpr held
  | eq => exact le_rfl
  | ge =>
    rw [relation] at held
    exact sub_nonneg.mpr held

/-- A slack closes its row. -/
theorem add_residual {row : Row Rat} (inequality : row.relation ≠ .eq) (x : List Rat) :
    dot row.coefs x + (if row.relation = .le then 1 else -1) * row.residual x = row.rhs := by
  unfold Row.residual
  cases relation : row.relation with
  | le => simp
  | eq => exact absurd relation inequality
  | ge => simp

/-- An activity of integral columns and coefficients is an integer. -/
theorem whole_activity {coefs img : List Rat} {columns : List (Column Rat)}
    (allowed : ((coefs.zip columns).all fun (a, column) =>
      Scalar.isZero a || (Scalar.isIntegral a && column.integral)) = true)
    (reach : coefs.length ≤ columns.length)
    (whole : ∀ (place : Nat) (column : Column Rat), columns[place]? = some column →
      column.integral = true → Whole (img.getD place 0)) : Whole (dot coefs img) := by
  refine whole_dot fun place => ?_
  by_cases inside : place < coefs.length
  · have known := List.getElem?_eq_getElem inside
    have there := List.getElem?_eq_getElem (inside.trans_le reach)
    have paired : (coefs.zip columns)[place]? = some (coefs[place], columns[place]) :=
      List.getElem?_zip_eq_some.mpr ⟨known, there⟩
    have entry := List.all_eq_true.mp allowed _ (List.mem_of_getElem? paired)
    simp only [Bool.or_eq_true, Bool.and_eq_true, Scalar.isZero_iff,
      Scalar.isIntegral_iff] at entry
    rw [List.getD_eq_getElem?_getD, known, Option.getD_some]
    rcases entry with zero | ⟨integral, flagged⟩
    · rw [zero, zero_mul]
      exact Whole.zero
    · exact integral.mul (whole place _ there flagged)
  · rw [List.getD_eq_getElem?_getD, List.getElem?_eq_none (not_lt.mp inside), Option.getD_none,
      zero_mul]
    exact Whole.zero

/-! ### One row at a time -/

/-- The image of a point once the first rows have their slacks. -/
def slackImage (reference : Program Rat) (base : Problem Rat) (done : Nat) (x : List Rat) :
    List Rat :=
  base.working.columns.map (Column.part x) ++
    (inequalities (reference.rows.take done)).map (Row.residual x)

/-- The first rows have been turned into equalities. -/
structure Slacking (reference : Program Rat) (base : Problem Rat) (done : Nat)
    (problem : Problem Rat) : Prop where
  shaped : problem.working.Shaped
  constant : problem.working.constant = reference.constant
  bounds : problem.working.WholeBounds
  floor : problem.working.BoundedBelow
  columns : ∃ slacks : List (Column Rat), problem.working.columns = base.working.columns ++ slacks ∧
    (∀ column ∈ slacks, column.slack = true) ∧
    slacks.length = (inequalities (reference.rows.take done)).length
  objective : problem.working.objective = base.working.objective ++
    List.replicate (inequalities (reference.rows.take done)).length 0
  partner : problem.partner = base.partner ++
    List.replicate (inequalities (reference.rows.take done)).length none
  rowCount : problem.working.rows.length = reference.rows.length
  sides : ∀ (index : Nat) (row source : Row Rat), problem.working.rows[index]? = some row →
    reference.rows[index]? = some source → row.rhs = source.rhs ∧
      row.relation = if index < done then .eq else source.relation
  activity : ∀ x, reference.Feasible x → ∀ (index : Nat) (row source : Row Rat),
    problem.working.rows[index]? = some row → reference.rows[index]? = some source →
      dot row.coefs (slackImage reference base done x) =
        if index < done then source.rhs else dot source.coefs x
  entries : ∀ x, reference.Feasible x → ∀ (place : Nat) (column : Column Rat),
    problem.working.columns[place]? = some column →
      column.range.Admits ((slackImage reference base done x).getD place 0) ∧
        (column.integral = true → Whole ((slackImage reference base done x).getD place 0))
  back : ∀ w, problem.working.Satisfies w →
    base.working.Satisfies (w.take base.working.columns.length)

section Step

variable {reference : Program Rat} {base problem : Problem Rat} {done : Nat}

/-- With all columns bounded below, no row has a slack yet. -/
theorem slacking_start (shaped : reference.Shaped)
    (bounding : Bounding reference reference.columns.length base) :
    Slacking reference base 0 base := by
  have rows : ∀ (index : Nat) (row source : Row Rat), base.working.rows[index]? = some row →
      reference.rows[index]? = some source →
      row = { source with coefs := base.working.columns.map (Column.weight source.coefs) } := by
    intro index row source found there
    rw [bounding.rows, List.getElem?_map, there, Option.map_some, staged_all] at found
    exact (Option.some.inj found).symm
  exact {
    shaped := bounding.shaped
    constant := bounding.constant
    bounds := bounding.bounds
    floor := by
      intro column member
      obtain ⟨place, found⟩ := List.mem_iff_getElem?.mp member
      exact (bounding.placed place column found (lt_or_ge _ _)).floor
    columns := ⟨[], by simp [inequalities]⟩
    objective := by simp [inequalities]
    partner := by simp [inequalities]
    rowCount := by rw [bounding.rows, List.length_map]
    sides := by
      intro index row source found there
      rw [rows index row source found there]
      exact ⟨rfl, rfl⟩
    activity := by
      intro x held index row source found there
      have balance := bounding.activity source.coefs x
        (shaped.rows source (List.mem_of_getElem? there)) held.length
      rw [staged_all, staged_all] at balance
      rw [rows index row source found there]
      simpa [slackImage, inequalities] using balance
    entries := by
      intro x held place column found
      have placed := bounding.placed place column found (lt_or_ge _ _)
      have value : (slackImage reference base 0 x).getD place 0 = column.part x := by
        simp [slackImage, inequalities, found]
      rw [value]
      exact ⟨placed.admits x held.toSatisfies, placed.whole x held.integral⟩
    back := by
      intro w held
      rw [← held.length, List.take_length]
      exact held }

theorem Slacking.length_image (slacking : Slacking reference base done problem) (x : List Rat) :
    (slackImage reference base done x).length = problem.working.columns.length := by
  obtain ⟨slacks, columns, -, count⟩ := slacking.columns
  simp [slackImage, columns, count]

/-- The next row still has its relation. -/
theorem Slacking.relation_eq (slacking : Slacking reference base done problem)
    {row source : Row Rat} (known : problem.working.rows[done]? = some row)
    (there : reference.rows[done]? = some source) : row.relation = source.relation := by
  obtain ⟨-, relation⟩ := slacking.sides done row source known there
  rwa [if_neg (lt_irrefl _)] at relation

/-- An equality row is left as it is. -/
theorem Slacking.skip (slacking : Slacking reference base done problem) {source : Row Rat}
    (known : reference.rows[done]? = some source) (equality : source.relation = .eq) :
    Slacking reference base (done + 1) problem := by
  have same : inequalities (reference.rows.take (done + 1)) =
      inequalities (reference.rows.take done) := by
    rw [inequalities_take_succ known, if_pos equality, List.append_nil]
  have images : ∀ x, slackImage reference base (done + 1) x = slackImage reference base done x := by
    intro x
    rw [slackImage, same, slackImage]
  exact { slacking with
    columns := same ▸ slacking.columns
    objective := same ▸ slacking.objective
    partner := same ▸ slacking.partner
    sides := by
      intro index row other found there
      obtain ⟨rhs, relation⟩ := slacking.sides index row other found there
      refine ⟨rhs, ?_⟩
      rw [relation]
      by_cases last : index = done
      · subst last
        obtain rfl := Option.some.inj (known.symm.trans there)
        simp [equality]
      · have order : index < done + 1 ↔ index < done := by omega
        simp [order]
    activity := by
      intro x held index row other found there
      rw [images, slacking.activity x held index row other found there]
      by_cases last : index = done
      · subst last
        obtain rfl := Option.some.inj (known.symm.trans there)
        have met := held.rows source (List.mem_of_getElem? known)
        rw [equality] at met
        rw [if_neg (lt_irrefl _), if_pos (Nat.lt_succ_self _)]
        exact met
      · have order : index < done + 1 ↔ index < done := by omega
        simp [order]
    entries := by
      intro x held place column found
      rw [images]
      exact slacking.entries x held place column found }

/-! ### One slack more -/

/-- The slack of a row. -/
def slackColumn (problem : Problem Rat) (row : Row Rat) : Column Rat :=
  { range := .nonnegative, slack := true
    integral := Problem.slackIntegral row problem.working.columns }

/-- The sign of a slack in its row, and its absence in the others. -/
def slackEntry (done : Nat) (relation : Relation) (index : Nat) : Rat :=
  if index = done then if relation = .le then 1 else -1 else 0

theorem addSlack_eq {row : Row Rat} (known : problem.working.rows[done]? = some row)
    (inequality : row.relation ≠ .eq) :
    problem.addSlack done = { problem with
      working := { problem.working with
        rows := problem.working.rows.mapIdx fun index source =>
          { source with
            coefs := source.coefs ++ [slackEntry done row.relation index]
            relation := if index = done then .eq else source.relation }
        objective := problem.working.objective ++ [0]
        columns := problem.working.columns ++ [slackColumn problem row] }
      partner := problem.partner ++ [none] } := by
  simp only [Problem.addSlack, known, inequality, ↓reduceIte, slackEntry, slackColumn]

theorem columns_addSlack {row : Row Rat} (known : problem.working.rows[done]? = some row)
    (inequality : row.relation ≠ .eq) : (problem.addSlack done).working.columns =
      problem.working.columns ++ [slackColumn problem row] := by
  rw [addSlack_eq known inequality]

theorem getElem?_addSlack {row : Row Rat} (known : problem.working.rows[done]? = some row)
    (inequality : row.relation ≠ .eq) (index : Nat) :
    (problem.addSlack done).working.rows[index]? = (problem.working.rows[index]?).map fun source =>
      { source with
        coefs := source.coefs ++ [slackEntry done row.relation index]
        relation := if index = done then .eq else source.relation } := by
  rw [addSlack_eq known inequality]
  simp

theorem exists_of_addSlack {row other : Row Rat} (known : problem.working.rows[done]? = some row)
    (inequality : row.relation ≠ .eq) {index : Nat}
    (found : (problem.addSlack done).working.rows[index]? = some other) :
    ∃ old, problem.working.rows[index]? = some old ∧ other = { old with
      coefs := old.coefs ++ [slackEntry done row.relation index]
      relation := if index = done then .eq else old.relation } := by
  rw [getElem?_addSlack known inequality, Option.map_eq_some_iff] at found
  obtain ⟨old, before, rfl⟩ := found
  exact ⟨old, before, rfl⟩

theorem shaped_addSlack {row : Row Rat} (known : problem.working.rows[done]? = some row)
    (inequality : row.relation ≠ .eq) (shaped : problem.working.Shaped) :
    (problem.addSlack done).working.Shaped where
  objective := by simp [addSlack_eq known inequality, shaped.objective]
  rows := by
    intro other member
    obtain ⟨index, found⟩ := List.mem_iff_getElem?.mp member
    obtain ⟨old, before, rfl⟩ := exists_of_addSlack known inequality found
    simp [columns_addSlack known inequality, shaped.rows old (List.mem_of_getElem? before)]

theorem forall_columns_addSlack {good : Column Rat → Prop} {row : Row Rat}
    (known : problem.working.rows[done]? = some row) (inequality : row.relation ≠ .eq)
    (old : ∀ column ∈ problem.working.columns, good column) (new : good (slackColumn problem row)) :
    ∀ column ∈ (problem.addSlack done).working.columns, good column := by
  rw [columns_addSlack known inequality, List.forall_mem_append, List.forall_mem_singleton]
  exact ⟨old, new⟩

/-- A row with a slack that is not negative holds without it. -/
theorem holds_of_slack {relation : Relation} (inequality : relation ≠ .eq) {activity slack rhs : Rat}
    (nonneg : 0 ≤ slack) (closed : activity + (if relation = .le then 1 else -1) * slack = rhs) :
    relation.Holds activity rhs := by
  cases relation with
  | le =>
    simp only [↓reduceIte, one_mul] at closed
    change activity ≤ rhs
    linarith
  | eq => exact absurd rfl inequality
  | ge =>
    simp only [reduceCtorEq, ↓reduceIte, neg_mul, one_mul] at closed
    change rhs ≤ activity
    linarith

/-- A point of a problem with one more slack is one without it. -/
theorem satisfies_of_addSlack (shaped : problem.working.Shaped) {row : Row Rat}
    (known : problem.working.rows[done]? = some row) (inequality : row.relation ≠ .eq) {w : List Rat}
    (held : (problem.addSlack done).working.Satisfies w) :
    problem.working.Satisfies (w.take problem.working.columns.length) := by
  have rows := getElem?_addSlack known inequality
  rw [addSlack_eq known inequality] at held rows
  have size : w.length = problem.working.columns.length + 1 := by simpa using held.length
  obtain ⟨front, slack, rfl⟩ : ∃ front slack, w = front ++ [slack] := by
    rcases List.eq_nil_or_concat w with rfl | ⟨front, slack, rfl⟩
    · simp at size
    · exact ⟨front, slack, List.concat_eq_append⟩
  have long : front.length = problem.working.columns.length := by simpa using size
  rw [← long, List.take_left]
  have nonneg : 0 ≤ slack := by
    have there := held.ranges problem.working.columns.length (slackColumn problem row) (by simp)
    rw [← long, List.getD_eq_getElem?_getD, List.getElem?_concat_length] at there
    exact there.1 0 rfl
  refine ⟨long, fun other member => ?_, fun index column found => ?_⟩
  · obtain ⟨index, found⟩ := List.mem_iff_getElem?.mp member
    have there := (rows index).trans (by rw [found, Option.map_some])
    have met := held.rows _ (List.mem_of_getElem? there)
    dsimp only at met
    rw [dot_append ((shaped.rows other member).trans long.symm), dot_cons, dot_nil_left, add_zero] at met
    by_cases last : index = done
    · subst last
      obtain rfl := Option.some.inj (known.symm.trans found)
      rw [slackEntry, if_pos rfl, if_pos rfl] at met
      exact holds_of_slack inequality nonneg met
    · rw [slackEntry, if_neg last, if_neg last, zero_mul, add_zero] at met
      exact met
  · obtain ⟨reach, -⟩ := List.getElem?_eq_some_iff.mp found
    have there := held.ranges index column ((List.getElem?_append_left reach).trans found)
    rwa [List.getD_eq_getElem?_getD, List.getElem?_append_left (long.symm ▸ reach),
      ← List.getD_eq_getElem?_getD] at there

/-- An integral slack takes integers: everything in its row is integral. -/
theorem Slacking.whole_residual (slacking : Slacking reference base done problem)
    {row source : Row Rat} (known : problem.working.rows[done]? = some row)
    (there : reference.rows[done]? = some source) {x : List Rat} (held : reference.Feasible x)
    (flagged : Problem.slackIntegral row problem.working.columns = true) :
    Whole (source.residual x) := by
  obtain ⟨rhs, -⟩ := slacking.sides done row source known there
  have activity := slacking.activity x held done row source known there
  rw [if_neg (lt_irrefl _)] at activity
  simp only [Problem.slackIntegral, Bool.and_eq_true, Scalar.isIntegral_iff] at flagged
  obtain ⟨whole, allowed⟩ := flagged
  have width := slacking.shaped.rows row (List.mem_of_getElem? known)
  have sum := whole_activity allowed width.le fun place column found integral =>
    (slacking.entries x held place column found).2 integral
  rw [activity] at sum
  rw [rhs] at whole
  unfold Row.residual
  split
  · exact whole.sub sum
  · exact Whole.zero
  · exact sum.sub whole

/-- With one slack more, an image shows the residual of its row. -/
theorem slackImage_succ {source : Row Rat} (there : reference.rows[done]? = some source)
    (inequality : source.relation ≠ .eq) (x : List Rat) :
    slackImage reference base (done + 1) x =
      slackImage reference base done x ++ [source.residual x] := by
  rw [slackImage, inequalities_take_succ there, if_neg inequality, List.map_append,
    ← List.append_assoc]
  rfl

/-- The slack closes its own row, and is absent from the others. -/
theorem Slacking.activity_add (slacking : Slacking reference base done problem)
    {row source : Row Rat} (known : problem.working.rows[done]? = some row)
    (there : reference.rows[done]? = some source) (inequality : source.relation ≠ .eq) {x : List Rat}
    (held : reference.Feasible x) {index : Nat} {other origin : Row Rat}
    (found : (problem.addSlack done).working.rows[index]? = some other)
    (here : reference.rows[index]? = some origin) :
    dot other.coefs (slackImage reference base (done + 1) x) =
      if index < done + 1 then origin.rhs else dot origin.coefs x := by
  have relation := slacking.relation_eq known there
  obtain ⟨old, before, rfl⟩ := exists_of_addSlack known (relation ▸ inequality) found
  have width := slacking.shaped.rows old (List.mem_of_getElem? before)
  rw [slackImage_succ there inequality, dot_append (by rw [width, slacking.length_image]), dot_cons,
    dot_nil_left, add_zero, slacking.activity x held index old origin before here]
  by_cases last : index = done
  · subst last
    obtain rfl := Option.some.inj (there.symm.trans here)
    rw [if_neg (lt_irrefl _), if_pos (Nat.lt_succ_self _), slackEntry, if_pos rfl, relation]
    exact add_residual inequality x
  · have order : index < done + 1 ↔ index < done := by omega
    simp [slackEntry, last, order]

/-- The entry of the slack is the residual of its row; all others stay. -/
theorem Slacking.entries_add (slacking : Slacking reference base done problem)
    {row source : Row Rat} (known : problem.working.rows[done]? = some row)
    (there : reference.rows[done]? = some source) (inequality : source.relation ≠ .eq) {x : List Rat}
    (held : reference.Feasible x) {place : Nat} {column : Column Rat}
    (found : (problem.addSlack done).working.columns[place]? = some column) :
    column.range.Admits ((slackImage reference base (done + 1) x).getD place 0) ∧
      (column.integral = true → Whole ((slackImage reference base (done + 1) x).getD place 0)) := by
  have size := slacking.length_image x
  rw [columns_addSlack known (slacking.relation_eq known there ▸ inequality)] at found
  rw [slackImage_succ there inequality]
  rcases lt_trichotomy place problem.working.columns.length with old | rfl | beyond
  · rw [List.getElem?_append_left old] at found
    rw [List.getD_eq_getElem?_getD, List.getElem?_append_left (size.symm ▸ old),
      ← List.getD_eq_getElem?_getD]
    exact slacking.entries x held place column found
  · rw [List.getElem?_concat_length] at found
    obtain rfl := Option.some.inj found
    rw [← size, List.getD_eq_getElem?_getD, List.getElem?_concat_length, Option.getD_some]
    have met := held.rows source (List.mem_of_getElem? there)
    exact ⟨admits_nonnegative (residual_nonneg met), slacking.whole_residual known there held⟩
  · rw [List.getElem?_eq_none (by simpa using beyond)] at found
    cases found

/-- An inequality row gets its slack. -/
theorem Slacking.add (slacking : Slacking reference base done problem) {row source : Row Rat}
    (known : problem.working.rows[done]? = some row) (there : reference.rows[done]? = some source)
    (inequality : source.relation ≠ .eq) :
    Slacking reference base (done + 1) (problem.addSlack done) := by
  have strict : row.relation ≠ .eq := slacking.relation_eq known there ▸ inequality
  have more : inequalities (reference.rows.take (done + 1)) =
      inequalities (reference.rows.take done) ++ [source] := by
    rw [inequalities_take_succ there, if_neg inequality]
  obtain ⟨slacks, columns, all, count⟩ := slacking.columns
  exact {
    shaped := shaped_addSlack known strict slacking.shaped
    constant := by
      rw [addSlack_eq known strict]
      exact slacking.constant
    bounds := forall_columns_addSlack known strict slacking.bounds fun _ => wholeBounds_nonnegative
    floor := forall_columns_addSlack known strict slacking.floor (Option.some_ne_none _)
    columns := by
      refine ⟨slacks ++ [slackColumn problem row], ?_, ?_, by simp [more, count]⟩
      · rw [columns_addSlack known strict, columns, List.append_assoc]
      · rw [List.forall_mem_append, List.forall_mem_singleton]
        exact ⟨all, rfl⟩
    objective := by simp [addSlack_eq known strict, more, slacking.objective, List.replicate_succ']
    partner := by simp [addSlack_eq known strict, more, slacking.partner, List.replicate_succ']
    rowCount := by simp [addSlack_eq known strict, slacking.rowCount]
    sides := by
      intro index other origin found here
      obtain ⟨old, before, rfl⟩ := exists_of_addSlack known strict found
      obtain ⟨side, kind⟩ := slacking.sides index old origin before here
      refine ⟨side, ?_⟩
      by_cases last : index = done
      · simp [last]
      · have order : index < done + 1 ↔ index < done := by omega
        simp [last, kind, order]
    activity := fun _ held _ _ _ => slacking.activity_add known there inequality held
    entries := fun _ held _ _ => slacking.entries_add known there inequality held
    back := by
      intro w held
      have enough : base.working.columns.length ≤ problem.working.columns.length := by
        simp [columns]
      have kept := slacking.back _ (satisfies_of_addSlack slacking.shaped known strict held)
      rwa [List.take_take, min_eq_left enough] at kept }

/-- The next row, whether it is an equality or not. -/
theorem Slacking.step (slacking : Slacking reference base done problem)
    (below : done < reference.rows.length) :
    Slacking reference base (done + 1) (problem.addSlack done) := by
  have there := List.getElem?_eq_getElem below
  have known := List.getElem?_eq_getElem (slacking.rowCount.symm ▸ below)
  have relation := slacking.relation_eq known there
  by_cases equality : reference.rows[done].relation = .eq
  · have untouched : problem.addSlack done = problem := by
      simp [Problem.addSlack, known, relation, equality]
    rw [untouched]
    exact slacking.skip there equality
  · exact slacking.add known there equality

end Step

/-- After all rows, every row of the working program is an equality. -/
theorem slacking_addSlacks {reference : Program Rat} {base : Problem Rat} (shaped : reference.Shaped)
    (bounding : Bounding reference reference.columns.length base) :
    Slacking reference base reference.rows.length base.addSlacks := by
  have start := slacking_start shaped bounding
  have steps : ∀ done ≤ reference.rows.length,
      Slacking reference base done ((List.range done).foldl Problem.addSlack base) := by
    intro done
    induction done with
    | zero =>
      intro _
      exact start
    | succ done ih =>
      intro reach
      rw [List.range_succ, List.foldl_append]
      exact (ih (by omega)).step (by omega)
  have whole := steps reference.rows.length le_rfl
  rw [← start.rowCount] at whole ⊢
  exact whole

/-! ### Back to reference columns -/

theorem addWorkingValue_slack {column : Column Rat} (slack : column.slack = true)
    (values : List Rat) (value : Rat) : addWorkingValue values (column, value) = .ok values := by
  simp only [addWorkingValue, slack]

theorem addWorkingValue_placed {column : Column Rat} {index : Nat} {values : List Rat}
    (plain : column.slack = false) (origin : column.origin = some index)
    (inside : index < values.length) (value : Rat) : addWorkingValue values (column, value) =
      .ok (values.set index (values.getD index 0 + column.orientation.sign * value)) := by
  simp only [addWorkingValue, plain, origin, List.getElem?_eq_getElem inside]
  simp [inside]

/-- Adding up working values in reference columns turns coefficients of the columns into
coefficients of the parts. -/
theorem foldlM_addWorkingValue {count : Nat} {columns : List (Column Rat)} {working values : List Rat}
    (same : working.length = columns.length) (size : values.length = count)
    (traced : ∀ column ∈ columns, column.slack = false →
      ∃ index < count, column.origin = some index) :
    ∃ result, (columns.zip working).foldlM addWorkingValue values = .ok result ∧
      result.length = count ∧ ∀ costs : List Rat, costs.length = count →
        dot costs result = dot costs values + dot (columns.map (Column.weight costs)) working := by
  induction columns generalizing working values with
  | nil => exact ⟨values, rfl, size, by simp⟩
  | cons column columns ih =>
    cases working with
    | nil => simp at same
    | cons value working =>
      have rest : working.length = columns.length := by simpa using same
      have later : ∀ other ∈ columns, other.slack = false →
          ∃ index < count, other.origin = some index :=
        fun other member => traced other (List.mem_cons_of_mem column member)
      simp only [List.zip_cons_cons, List.foldlM_cons, List.map_cons, dot_cons]
      cases slack : column.slack with
      | true =>
        obtain ⟨result, ran, length, total⟩ := ih rest size later
        refine ⟨result, ?_, length, fun costs width => ?_⟩
        · rw [addWorkingValue_slack slack]
          exact ran
        · rw [total costs width, Column.weight, if_pos slack, zero_mul, zero_add]
      | false =>
        obtain ⟨index, inside, origin⟩ := traced column List.mem_cons_self slack
        have reach : index < values.length := size.symm ▸ inside
        have kept : (values.set index (values.getD index 0 +
            column.orientation.sign * value)).length = count := by
          simpa using size
        obtain ⟨result, ran, length, total⟩ := ih rest kept later
        refine ⟨result, ?_, length, fun costs width => ?_⟩
        · rw [addWorkingValue_placed slack origin reach]
          exact ran
        · rw [total costs width, dot_set_right _ reach, Column.weight, if_neg (by simp [slack]),
            origin, Option.getD_some]
          ring

/-- Over exact numbers there is nothing to snap. -/
theorem snap_eq {columns : List (Column Rat)} {values : List Rat}
    (same : values.length = columns.length) : Problem.snap columns values = values := by
  have snapped : ∀ (value : Rat) (column : Column Rat),
      (if column.integral && Scalar.isIntegral value then Scalar.round value else value) = value := by
    intro value column
    split
    · rename_i flagged
      rw [Bool.and_eq_true, Scalar.isIntegral_iff] at flagged
      exact flagged.2.round_eq
    · rfl
  unfold Problem.snap
  simp only [snapped]
  refine List.ext_getElem ?_ fun index _ _ => ?_
  · simp [same]
  · simp

/-! ### The working form -/

/-- The table of partners has an entry for every working column, and partners are columns. -/
structure Problem.Paired (problem : Problem Rat) : Prop where
  length : problem.partner.length = problem.working.columns.length
  inside : ∀ place other : Nat, (problem.partner[place]?).join = some other →
    other < problem.working.columns.length

/-- A column stands for a reference column: for a part of it, if that is free, and otherwise for
the one at its own place, up to its sign. -/
def PartOf (reference : Program Rat) (place : Nat) (column : Column Rat) : Prop :=
  ∃ index data, reference.columns[index]? = some data ∧ column.integral = data.integral ∧
    ((∀ value, data.range.Admits value) ∨ (index = place ∧ ∃ orientation : Orientation,
      ∀ value, column.range.Admits value → data.range.Admits (orientation.sign * value)))

/-- A problem whose working program stands for its reference program. -/
structure Problem.InWorkingForm (problem : Problem Rat) : Prop where
  frozen : problem.frozen = problem.reference.rows
  referenceBounds : problem.reference.WholeBounds
  shaped : problem.working.Shaped
  bounds : problem.working.WholeBounds
  floor : problem.working.BoundedBelow
  equational : problem.working.Equational
  paired : problem.Paired
  image : ∀ x, problem.reference.Feasible x → problem.working.Feasible (problem.image x) ∧
    problem.working.objectiveValue (problem.image x) = problem.reference.objectiveValue x
  structural : ∀ w, w.length = problem.working.columns.length → ∃ values,
    problem.toStructural w = .ok values ∧ values.length = problem.reference.columns.length ∧
      problem.reference.objectiveValue values = problem.working.objectiveValue w ∧
      (problem.working.Satisfies w → problem.working.IntegralOffSlacks w →
        problem.reference.Feasible values)
  apart : ∀ x place other, (problem.partner[place]?).join = some other →
    0 < (problem.image x).getD place 0 → (problem.image x).getD other 0 ≤ 0
  parts : ∀ (place : Nat) (column : Column Rat), problem.working.columns[place]? = some column →
    column.slack = false → PartOf problem.reference place column

/-- A feasible point of the working program stands for one of the reference program. -/
theorem Problem.InWorkingForm.back {problem : Problem Rat} (form : problem.InWorkingForm) {w : List Rat}
    (held : problem.working.Feasible w) : ∃ x, problem.reference.Feasible x ∧
      problem.reference.objectiveValue x = problem.working.objectiveValue w := by
  obtain ⟨values, -, -, value, feasible⟩ := form.structural w held.length
  exact ⟨values, feasible held.toSatisfies fun index column known flagged _ =>
    held.integral index column known flagged, value⟩

section

variable {reference : Program Rat} {base problem : Problem Rat}

theorem image_eq_slackImage (bounding : Bounding reference reference.columns.length base)
    (slacking : Slacking reference base reference.rows.length problem)
    (same : problem.reference = reference) (x : List Rat) :
    problem.image x = slackImage reference base reference.rows.length x := by
  obtain ⟨slacks, columns, all, -⟩ := slacking.columns
  have own : base.working.columns.filter (fun column => !column.slack) = base.working.columns := by
    refine List.filter_eq_self.mpr fun column member => ?_
    obtain ⟨place, found⟩ := List.mem_iff_getElem?.mp member
    simp [(bounding.placed place column found (lt_or_ge _ _)).plain]
  have none : slacks.filter (fun column => !column.slack) = [] := by
    refine List.filter_eq_nil_iff.mpr fun column member => ?_
    simp [all column member]
  rw [Problem.image, columns, List.filter_append, own, none, List.append_nil, same, slackImage,
    List.take_length]

/-- The image of a feasible point is feasible, at the same objective. -/
theorem Slacking.image_feasible (slacking : Slacking reference base reference.rows.length problem)
    (bounding : Bounding reference reference.columns.length base) (shaped : reference.Shaped)
    {x : List Rat} (held : reference.Feasible x) :
    problem.working.Feasible (slackImage reference base reference.rows.length x) ∧
      problem.working.objectiveValue (slackImage reference base reference.rows.length x) =
        reference.objectiveValue x := by
  refine ⟨⟨⟨slacking.length_image x, fun row member => ?_, fun place column found => ?_⟩,
    fun place column found => ?_⟩, ?_⟩
  · obtain ⟨index, found⟩ := List.mem_iff_getElem?.mp member
    obtain ⟨below, -⟩ := List.getElem?_eq_some_iff.mp found
    rw [slacking.rowCount] at below
    have there := List.getElem?_eq_getElem below
    obtain ⟨rhs, relation⟩ := slacking.sides index row _ found there
    have activity := slacking.activity x held index row _ found there
    rw [if_pos below] at relation activity
    rw [relation, activity, rhs]
    rfl
  · exact (slacking.entries x held place column found).1
  · exact (slacking.entries x held place column found).2
  · have price := bounding.activity reference.objective x shaped.objective held.length
    rw [← bounding.objective, staged_all] at price
    have free : dot (List.replicate (inequalities (reference.rows.take reference.rows.length)).length
        (0 : Rat)) ((inequalities (reference.rows.take reference.rows.length)).map
          (Row.residual x)) = 0 := by
      rw [dot_eq_form, form_replicate_zero]
    rw [Program.objectiveValue, Program.objectiveValue, slacking.objective, slackImage,
      dot_append (by simpa using bounding.shaped.objective), price, free, add_zero,
      slacking.constant]

theorem dot_append_zeros {coefs values : List Rat} (reach : coefs.length ≤ values.length)
    (count : Nat) : dot (coefs ++ List.replicate count 0) values =
      dot coefs (values.take coefs.length) := by
  conv_lhs => rw [← List.take_append_drop coefs.length values]
  rw [dot_append (by simpa using reach), dot_comm (List.replicate _ _), dot_replicate_zero, add_zero]

/-- Every working point has values in the reference columns: the signed sums of its parts. -/
theorem Slacking.gathers (slacking : Slacking reference base reference.rows.length problem)
    (bounding : Bounding reference reference.columns.length base)
    (same : problem.reference = reference) {w : List Rat}
    (length : w.length = problem.working.columns.length) :
    ∃ values, problem.toStructural w = .ok values ∧ values.length = reference.columns.length ∧
      Gathers reference.columns.length base.working.columns
        (w.take base.working.columns.length) values := by
  obtain ⟨slacks, columns, all, -⟩ := slacking.columns
  have reach : base.working.columns.length ≤ w.length := by simp [length, columns]
  have traced : ∀ column ∈ problem.working.columns, column.slack = false →
      ∃ index < reference.columns.length, column.origin = some index := by
    intro column member plain
    rw [columns] at member
    rcases List.mem_append.mp member with old | new
    · obtain ⟨place, found⟩ := List.mem_iff_getElem?.mp old
      obtain ⟨index, data, known, origin, -⟩ :=
        (bounding.placed place column found (lt_or_ge _ _)).source
      exact ⟨index, (List.getElem?_eq_some_iff.mp known).1, origin⟩
    · rw [all column new] at plain
      cases plain
  obtain ⟨values, ran, size, total⟩ :=
    foldlM_addWorkingValue length List.length_replicate traced
  have weightless : ∀ costs : List Rat, slacks.map (Column.weight costs) =
      List.replicate slacks.length 0 := by
    intro costs
    refine List.eq_replicate_iff.mpr ⟨List.length_map _, fun weight member => ?_⟩
    obtain ⟨column, there, rfl⟩ := List.mem_map.mp member
    rw [Column.weight, if_pos (all column there)]
  refine ⟨values, ?_, size, fun costs width => ?_⟩
  · unfold Problem.toStructural
    dsimp only
    rw [same, ran]
    exact congrArg Except.ok (snap_eq size)
  · rw [total costs width, dot_replicate_zero, zero_add, columns, List.map_append, weightless,
      dot_append_zeros (by simpa using reach), List.length_map]

/-- Working points go back to reference columns with their objective, and points that are
integral off the slacks go back to feasible ones. -/
theorem Slacking.structural (slacking : Slacking reference base reference.rows.length problem)
    (bounding : Bounding reference reference.columns.length base) (shaped : reference.Shaped)
    (same : problem.reference = reference) {w : List Rat}
    (length : w.length = problem.working.columns.length) :
    ∃ values, problem.toStructural w = .ok values ∧ values.length = reference.columns.length ∧
      reference.objectiveValue values = problem.working.objectiveValue w ∧
      (problem.working.Satisfies w → problem.working.IntegralOffSlacks w →
        reference.Feasible values) := by
  obtain ⟨values, ran, size, gathers⟩ := slacking.gathers bounding same length
  obtain ⟨slacks, columns, -⟩ := slacking.columns
  have reach : base.working.columns.length ≤ w.length := by simp [length, columns]
  refine ⟨values, ran, size, ?_, fun held integral => ⟨?_, ?_⟩⟩
  · have cost := bounding.objective
    rw [staged_all] at cost
    rw [Program.objectiveValue, Program.objectiveValue, gathers _ shaped.objective, slacking.objective,
      dot_append_zeros (by rw [cost, List.length_map]; exact reach), cost, List.length_map,
      slacking.constant]
  · exact bounding.satisfies_of_gathers shaped (slacking.back w held) size gathers
  · refine bounding.integral_of_gathers (fun place column found flagged => ?_) gathers
    obtain ⟨below, -⟩ := List.getElem?_eq_some_iff.mp found
    have plain := (bounding.placed place column found (lt_or_ge _ _)).plain
    have there : problem.working.columns[place]? = some column := by
      rw [columns, List.getElem?_append_left below, found]
    have whole := integral place column there flagged plain
    rwa [List.getD_eq_getElem?_getD, List.getElem?_take_of_lt below, ← List.getD_eq_getElem?_getD]

/-- In the end every row is an equality. -/
theorem Slacking.equational (slacking : Slacking reference base reference.rows.length problem) :
    problem.working.Equational := by
  intro row member
  obtain ⟨index, found⟩ := List.mem_iff_getElem?.mp member
  obtain ⟨below, -⟩ := List.getElem?_eq_some_iff.mp found
  rw [slacking.rowCount] at below
  obtain ⟨-, relation⟩ := slacking.sides index row _ found (List.getElem?_eq_getElem below)
  rw [relation, if_pos below]

/-- Partners are columns from before the slacks, with opposite parts. -/
theorem Slacking.partner_before (slacking : Slacking reference base reference.rows.length problem)
    (bounding : Bounding reference reference.columns.length base) {place other : Nat}
    (paired : (problem.partner[place]?).join = some other) :
    ∃ column data, base.working.columns[place]? = some column ∧
      base.working.columns[other]? = some data ∧ Opposite column data := by
  rw [slacking.partner] at paired
  obtain ⟨below, paired⟩ : place < base.partner.length ∧
      (base.partner[place]?).join = some other := by
    by_cases old : place < base.partner.length
    · rw [List.getElem?_append_left old] at paired
      exact ⟨old, paired⟩
    · rw [List.getElem?_append_right (not_lt.mp old), List.getElem?_replicate] at paired
      split at paired
      · cases paired
      · cases paired
  rw [bounding.partners] at below
  have found := List.getElem?_eq_getElem below
  obtain ⟨data, there, opposite⟩ :=
    (bounding.placed place _ found (lt_or_ge _ _)).pair other paired
  exact ⟨_, data, found, there, opposite⟩

theorem Slacking.paired (slacking : Slacking reference base reference.rows.length problem)
    (bounding : Bounding reference reference.columns.length base) : problem.Paired := by
  obtain ⟨slacks, columns, -, count⟩ := slacking.columns
  constructor
  · rw [slacking.partner, columns, List.length_append, List.length_append, List.length_replicate,
      bounding.partners, count]
  · intro place other paired
    obtain ⟨-, data, -, there, -⟩ := slacking.partner_before bounding paired
    obtain ⟨inside, -⟩ := List.getElem?_eq_some_iff.mp there
    rw [columns, List.length_append]
    omega

/-- Before the slacks, the image shows the parts. -/
theorem getD_slackImage {done place : Nat} {column : Column Rat}
    (known : base.working.columns[place]? = some column) (x : List Rat) :
    (slackImage reference base done x).getD place 0 = column.part x := by
  obtain ⟨inside, -⟩ := List.getElem?_eq_some_iff.mp known
  rw [slackImage, List.getD_eq_getElem?_getD, List.getElem?_append_left (by simpa using inside),
    List.getElem?_map, known]
  rfl

/-- A split column shows a positive part on one side only. -/
theorem Slacking.apart (slacking : Slacking reference base reference.rows.length problem)
    (bounding : Bounding reference reference.columns.length base) (x : List Rat) {place other : Nat}
    (paired : (problem.partner[place]?).join = some other)
    (positive : 0 < (slackImage reference base reference.rows.length x).getD place 0) :
    (slackImage reference base reference.rows.length x).getD other 0 ≤ 0 := by
  obtain ⟨column, data, found, there, opposite⟩ := slacking.partner_before bounding paired
  rw [getD_slackImage found] at positive
  rw [getD_slackImage there]
  exact opposite.apart positive

end

/-- The columns from before the slacks are the ones that are no slacks. -/
theorem Slacking.plain_iff (slacking : Slacking reference base reference.rows.length problem)
    {place : Nat} {column : Column Rat} (bounding : Bounding reference reference.columns.length base) :
    base.working.columns[place]? = some column ↔
      problem.working.columns[place]? = some column ∧ column.slack = false := by
  obtain ⟨slacks, columns, all, -⟩ := slacking.columns
  rw [columns]
  constructor
  · intro found
    obtain ⟨inside, -⟩ := List.getElem?_eq_some_iff.mp found
    exact ⟨(List.getElem?_append_left inside).trans found,
      (bounding.placed place column found (lt_or_ge _ _)).plain⟩
  · rintro ⟨found, plain⟩
    by_cases inside : place < base.working.columns.length
    · rwa [List.getElem?_append_left inside] at found
    · rw [List.getElem?_append_right (not_lt.mp inside)] at found
      cases plain.symm.trans (all column (List.mem_of_getElem? found))

/-- The parts of a problem that its working form does not touch. -/
def Problem.untouched (problem : Problem Rat) :
    Program Rat × List (Row Rat) × UndoLog Rat × Option (List Rat) × Option Rat × Settings :=
  (problem.reference, problem.frozen, problem.removed, problem.solution, problem.optimum,
    problem.settings)

theorem boundColumn_keeps (problem : Problem Rat) (index : Nat) :
    (problem.boundColumn index).untouched = problem.untouched := by
  unfold Problem.boundColumn
  split
  · rfl
  · dsimp only
    split <;> rfl

theorem addSlack_keeps (problem : Problem Rat) (index : Nat) :
    (problem.addSlack index).untouched = problem.untouched := by
  unfold Problem.addSlack
  split
  · rfl
  · split <;> rfl

theorem prepared_keeps (problem : Problem Rat) :
    problem.boundBelow.addSlacks.reference = problem.reference ∧
      problem.boundBelow.addSlacks.frozen = problem.frozen ∧
      problem.boundBelow.addSlacks.removed = problem.removed ∧
      problem.boundBelow.addSlacks.solution = problem.solution ∧
      problem.boundBelow.addSlacks.optimum = problem.optimum ∧
      problem.boundBelow.addSlacks.settings = problem.settings := by
  have kept : problem.boundBelow.addSlacks.untouched = problem.untouched := by
    rw [Problem.addSlacks, foldl_keeps Problem.untouched addSlack_keeps, Problem.boundBelow,
      foldl_keeps Problem.untouched boundColumn_keeps]
    rfl
  simpa only [Problem.untouched, Prod.mk.injEq] using kept

/-- A program of structural columns with integral bounds gets its working form. -/
theorem inWorkingForm_prepared {problem : Problem Rat} (structural : problem.working.Structural)
    (shaped : problem.working.Shaped) (bounds : problem.working.WholeBounds)
    (frozen : problem.frozen = problem.working.rows) (same : problem.reference = problem.working) :
    problem.boundBelow.addSlacks.InWorkingForm := by
  have bounding := bounding_boundBelow structural shaped bounds
  have slacking := slacking_addSlacks shaped bounding
  obtain ⟨keptReference, keptFrozen, -⟩ := prepared_keeps problem
  have reference : problem.boundBelow.addSlacks.reference = problem.working :=
    keptReference.trans same
  have rows : problem.boundBelow.addSlacks.frozen = problem.working.rows :=
    keptFrozen.trans frozen
  have images := image_eq_slackImage bounding slacking reference
  exact {
    frozen := rows.trans (by rw [reference])
    referenceBounds := reference ▸ bounds
    shaped := slacking.shaped
    bounds := slacking.bounds
    floor := slacking.floor
    equational := slacking.equational
    paired := slacking.paired bounding
    image := by
      intro x held
      rw [reference] at held ⊢
      rw [images]
      exact slacking.image_feasible bounding shaped held
    structural := by
      intro w length
      rw [reference]
      exact slacking.structural bounding shaped reference length
    apart := by
      intro x place other paired positive
      rw [images] at positive ⊢
      exact slacking.apart bounding x paired positive
    parts := by
      intro place column known plain
      have found := (slacking.plain_iff bounding).mpr ⟨known, plain⟩
      obtain ⟨index, data, there, -, integral, -, stands⟩ :=
        (bounding.placed place column found (lt_or_ge _ _)).source
      rw [reference]
      exact ⟨index, data, there, integral, stands.imp_right fun ⟨here, back⟩ => ⟨here, _, back⟩⟩ }

/-! ### Branching costs -/

/-- Everything about a column but what branching on it has cost. -/
def Column.core (column : Column Rat) : Column Rat := { column with downCost := {}, upCost := {} }

/-- The same problem, up to branching costs and counters. -/
structure Problem.Alike (problem other : Problem Rat) : Prop where
  settings : other.settings = problem.settings
  reference : other.reference = problem.reference
  frozen : other.frozen = problem.frozen
  partner : other.partner = problem.partner
  removed : other.removed = problem.removed
  rows : other.working.rows = problem.working.rows
  objective : other.working.objective = problem.working.objective
  constant : other.working.constant = problem.working.constant
  columns : other.working.columns.map Column.core = problem.working.columns.map Column.core
  solution : other.solution = problem.solution
  optimum : other.optimum = problem.optimum

namespace Problem.Alike

variable {problem other third : Problem Rat}

theorem refl (problem : Problem Rat) : problem.Alike problem :=
  ⟨rfl, rfl, rfl, rfl, rfl, rfl, rfl, rfl, rfl, rfl, rfl⟩

theorem trans (first : problem.Alike other) (second : other.Alike third) : problem.Alike third :=
  ⟨second.settings.trans first.settings, second.reference.trans first.reference,
    second.frozen.trans first.frozen, second.partner.trans first.partner,
    second.removed.trans first.removed, second.rows.trans first.rows,
    second.objective.trans first.objective, second.constant.trans first.constant,
    second.columns.trans first.columns, second.solution.trans first.solution,
    second.optimum.trans first.optimum⟩

theorem symm (alike : problem.Alike other) : other.Alike problem :=
  ⟨alike.settings.symm, alike.reference.symm, alike.frozen.symm, alike.partner.symm,
    alike.removed.symm, alike.rows.symm, alike.objective.symm, alike.constant.symm,
    alike.columns.symm, alike.solution.symm, alike.optimum.symm⟩

theorem length (alike : problem.Alike other) :
    other.working.columns.length = problem.working.columns.length := by
  have lengths := congrArg List.length alike.columns
  simpa using lengths

theorem ranges (alike : problem.Alike other) :
    other.working.columns.map (·.range) = problem.working.columns.map (·.range) := by
  have cores := congrArg (List.map Column.range) alike.columns
  rw [List.map_map, List.map_map] at cores
  exact cores

/-- Columns at the same place agree but for the costs. -/
theorem column (alike : problem.Alike other) {place : Nat} {column : Column Rat}
    (found : other.working.columns[place]? = some column) :
    ∃ same, problem.working.columns[place]? = some same ∧ same.range = column.range ∧
      same.integral = column.integral ∧ same.slack = column.slack := by
  have entry := congrArg (·[place]?) alike.columns
  simp only [List.getElem?_map, found, Option.map_some] at entry
  obtain ⟨same, there, cores⟩ := Option.map_eq_some_iff.mp entry.symm
  have range : same.core.range = column.core.range := congrArg Column.range cores
  have integral : same.core.integral = column.core.integral := congrArg Column.integral cores
  have slack : same.core.slack = column.core.slack := congrArg Column.slack cores
  exact ⟨same, there, range, integral, slack⟩

theorem image_eq (alike : problem.Alike other) (x : List Rat) : other.image x = problem.image x := by
  have own : ∀ columns : List (Column Rat),
      (columns.filter fun column => !column.slack).map (Column.part x) =
        ((columns.map Column.core).filter fun column => !column.slack).map (Column.part x) := by
    intro columns
    rw [List.filter_map, List.map_map]
    rfl
  rw [Problem.image, Problem.image, own, alike.columns, ← own, alike.reference]

theorem toStructural_eq (alike : problem.Alike other) (w : List Rat) :
    other.toStructural w = problem.toStructural w := by
  have own : ∀ (columns : List (Column Rat)) (values : List Rat),
      (columns.zip w).foldlM addWorkingValue values =
        ((columns.map Column.core).zip w).foldlM addWorkingValue values := by
    intro columns values
    rw [List.zip_map_left, List.foldlM_map]
    rfl
  unfold Problem.toStructural
  dsimp only
  rw [own, alike.columns, ← own, alike.reference]

theorem satisfies_iff (alike : problem.Alike other) (y : List Rat) :
    other.working.Satisfies y ↔ problem.working.Satisfies y := by
  have forth : ∀ {first second : Problem Rat}, first.Alike second → second.working.Satisfies y →
      first.working.Satisfies y := by
    intro first second alike held
    refine ⟨held.length.trans alike.length, fun row member => ?_, fun place column found => ?_⟩
    · exact held.rows row (alike.rows ▸ member)
    · obtain ⟨same, there, range, -⟩ := alike.symm.column found
      rw [← range]
      exact held.ranges place same there
  exact ⟨forth alike, forth alike.symm⟩

theorem integral_iff (alike : problem.Alike other) (y : List Rat) :
    other.working.Integral y ↔ problem.working.Integral y := by
  have forth : ∀ {first second : Problem Rat}, first.Alike second → second.working.Integral y →
      first.working.Integral y := by
    intro first second alike held place column found flagged
    obtain ⟨same, there, -, integral, -⟩ := alike.symm.column found
    exact held place same there (integral.trans flagged)
  exact ⟨forth alike, forth alike.symm⟩

theorem feasible_iff (alike : problem.Alike other) (y : List Rat) :
    other.working.Feasible y ↔ problem.working.Feasible y :=
  ⟨fun held => ⟨(alike.satisfies_iff y).mp held.toSatisfies, (alike.integral_iff y).mp held.integral⟩,
    fun held => ⟨(alike.satisfies_iff y).mpr held.toSatisfies, (alike.integral_iff y).mpr held.integral⟩⟩

theorem objectiveValue_eq (alike : problem.Alike other) (y : List Rat) :
    other.working.objectiveValue y = problem.working.objectiveValue y := by
  rw [Program.objectiveValue, alike.objective, alike.constant, Program.objectiveValue]

theorem integralOffSlacks_iff (alike : problem.Alike other) (y : List Rat) :
    other.working.IntegralOffSlacks y ↔ problem.working.IntegralOffSlacks y := by
  have forth : ∀ {first second : Problem Rat}, first.Alike second →
      second.working.IntegralOffSlacks y → first.working.IntegralOffSlacks y := by
    intro first second alike held place column found flagged plain
    obtain ⟨same, there, -, integral, slack⟩ := alike.symm.column found
    exact held place same there (integral.trans flagged) (slack.trans plain)
  exact ⟨forth alike, forth alike.symm⟩

theorem descends_iff (alike : problem.Alike other) :
    other.working.Descends ↔ problem.working.Descends := by
  have forth : ∀ {first second : Problem Rat}, first.Alike second → second.working.Descends →
      first.working.Descends := by
    rintro first second alike ⟨d, recedes, slope⟩
    obtain ⟨length, rows, ranges⟩ := (Program.satisfies_recession_iff _ d).mp recedes
    refine ⟨d, (Program.satisfies_recession_iff _ d).mpr ⟨length.trans alike.length,
      fun row member => rows row (alike.rows ▸ member), fun place column found => ?_⟩,
      alike.objective ▸ slope⟩
    obtain ⟨same, there, range, -⟩ := alike.symm.column found
    rw [← range]
    exact ranges place same there
  exact ⟨forth alike, forth alike.symm⟩

theorem shaped (alike : problem.Alike other) (shaped : problem.working.Shaped) :
    other.working.Shaped := by
  refine ⟨?_, fun row member => ?_⟩
  · rw [alike.objective, alike.length]
    exact shaped.objective
  · rw [alike.length]
    exact shaped.rows row (alike.rows ▸ member)

theorem boundedBelow (alike : problem.Alike other) (floor : problem.working.BoundedBelow) :
    other.working.BoundedBelow := by
  intro column member
  obtain ⟨place, found⟩ := List.mem_iff_getElem?.mp member
  obtain ⟨same, there, range, -⟩ := alike.column found
  rw [← range]
  exact floor same (List.mem_of_getElem? there)

theorem equational (alike : problem.Alike other) (equational : problem.working.Equational) :
    other.working.Equational :=
  fun row member => equational row (alike.rows ▸ member)

/-- Working form does not depend on branching costs. -/
theorem inWorkingForm (alike : problem.Alike other) (form : problem.InWorkingForm) :
    other.InWorkingForm where
  frozen := by
    rw [alike.frozen, alike.reference]
    exact form.frozen
  referenceBounds := by
    rw [alike.reference]
    exact form.referenceBounds
  shaped := alike.shaped form.shaped
  bounds := by
    intro column member flagged
    obtain ⟨place, found⟩ := List.mem_iff_getElem?.mp member
    obtain ⟨same, there, range, integral, -⟩ := alike.column found
    rw [← range]
    exact form.bounds same (List.mem_of_getElem? there) (integral.trans flagged)
  floor := alike.boundedBelow form.floor
  equational := alike.equational form.equational
  paired := by
    refine ⟨?_, fun place partner paired => ?_⟩
    · rw [alike.partner, alike.length]
      exact form.paired.length
    · rw [alike.partner] at paired
      rw [alike.length]
      exact form.paired.inside place partner paired
  image := by
    intro x held
    rw [alike.reference] at held ⊢
    rw [alike.image_eq, alike.feasible_iff, alike.objectiveValue_eq]
    exact form.image x held
  structural := by
    intro w length
    rw [alike.length] at length
    rw [alike.toStructural_eq, alike.reference, alike.objectiveValue_eq, alike.satisfies_iff,
      alike.integralOffSlacks_iff]
    exact form.structural w length
  apart := by
    intro x place partner paired
    rw [alike.image_eq]
    rw [alike.partner] at paired
    exact form.apart x place partner paired
  parts := by
    intro place column found plain
    obtain ⟨same, there, range, integral, slack⟩ := alike.column found
    have part := form.parts place same there (slack.trans plain)
    rw [PartOf, range, integral] at part
    rw [alike.reference]
    exact part

end Problem.Alike

end MixedInteger
