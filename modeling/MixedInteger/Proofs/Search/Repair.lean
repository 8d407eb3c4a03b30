import MixedInteger.Proofs.Feasible
import MixedInteger.Rounding

/-! The rounding heuristic does not fail on a point with one value per column, and only returns
feasible points. Rounding into a range with integral bounds gives integers, every repair step
moves one value by one, and a point is returned only after its rows and ranges have been
checked. -/
namespace MixedInteger.Rounding

theorem whole_clamp {range : Range Rat} (bounds : range.WholeBounds) {value : Rat}
    (whole : Whole value) : Whole (range.clamp value) := by
  unfold Range.clamp
  split
  · rename_i below
    exact bounds.1 _ (Option.filter_eq_some_iff.mp below).1
  · rename_i above
    exact bounds.2 _ (Option.filter_eq_some_iff.mp above).1
  · exact whole

/-- Integral columns take integers once they are rounded. -/
theorem roundColumns_spec {columns : List (Column Rat)} {values rounded : List Rat}
    (bounds : ∀ column ∈ columns, column.integral = true → column.range.WholeBounds)
    (ran : roundColumns columns values = .ok rounded) :
    rounded.length = values.length ∧ ∀ (index : Nat) (column : Column Rat),
      columns[index]? = some column → column.integral = true → Whole (rounded.getD index 0) := by
  induction columns generalizing values rounded with
  | nil =>
    cases ran
    exact ⟨rfl, fun index column known => nomatch known⟩
  | cons column columns ih =>
    have smaller : ∀ other ∈ columns, other.integral = true → other.range.WholeBounds :=
      fun other member => bounds other (List.mem_cons_of_mem _ member)
    cases values with
    | nil =>
      rw [roundColumns] at ran
      split at ran
      · cases ran
      · rename_i continuous
        obtain ⟨length, whole⟩ := ih smaller ran
        obtain rfl : rounded = [] := List.length_eq_zero_iff.mp length
        refine ⟨rfl, fun index other known flagged => ?_⟩
        simpa using Whole.zero
    | cons value values =>
      rw [roundColumns] at ran
      cases later : roundColumns columns values with
      | error cause =>
        rw [later] at ran
        cases ran
      | ok others =>
        rw [later] at ran
        obtain ⟨length, whole⟩ := ih smaller later
        cases ran
        refine ⟨by simp [length], fun index other known flagged => ?_⟩
        cases index with
        | zero =>
          obtain rfl : column = other := by simpa using known
          have rounds := whole_clamp (bounds column List.mem_cons_self flagged) (Whole.round value)
          simpa [flagged] using rounds
        | succ index => exact whole index other known flagged

theorem exists_roundColumns_ok {columns : List (Column Rat)} {values : List Rat}
    (length : values.length = columns.length) : ∃ rounded, roundColumns columns values = .ok rounded := by
  induction columns generalizing values with
  | nil => exact ⟨values, rfl⟩
  | cons column columns ih =>
    cases values with
    | nil => simp at length
    | cons value values =>
      obtain ⟨others, later⟩ := ih (by simpa using length)
      rw [roundColumns, later]
      exact ⟨_, rfl⟩

theorem isFeasible_iff {program : Program Rat} {values : List Rat}
    (length : values.length = program.columns.length) :
    isFeasible program values = true ↔ program.Satisfies values := by
  simp only [isFeasible, Bool.and_eq_true, List.all_eq_true, Row.holds, Relation.holds_iff,
    Row.activity, Range.contains_iff]
  constructor
  · rintro ⟨rows, ranges⟩
    refine ⟨length, rows, fun index column known => ?_⟩
    obtain ⟨below, -⟩ := List.getElem?_eq_some_iff.mp known
    have there := List.getElem?_eq_getElem (length.symm ▸ below)
    have value : values.getD index 0 = values[index] := by simp [there]
    rw [value]
    refine ranges (column, values[index]) (List.mem_iff_getElem?.mpr ⟨index, ?_⟩)
    exact List.getElem?_zip_eq_some.mpr ⟨known, there⟩
  · intro held
    refine ⟨held.rows, fun pair member => ?_⟩
    obtain ⟨index, found⟩ := List.mem_iff_getElem?.mp member
    obtain ⟨known, there⟩ := List.getElem?_zip_eq_some.mp found
    have inside := held.ranges index pair.1 known
    simpa [there] using inside

/-- The chosen step is one of the candidates and lowers the violation. -/
theorem bestMove_spec {current : Rat} {candidates : List (Move Rat)} {move : Move Rat}
    (found : bestMove current candidates = some move) :
    move ∈ candidates ∧ move.violation < current := by
  have scan : ∀ (rest : List (Move Rat)) (best : Option (Move Rat)),
      rest.foldl (fun best move =>
        if move.violation < current ∧ best.all (fun old => move.violation < old.violation) then
          some move
        else best) best = some move →
      (move ∈ rest ∧ move.violation < current) ∨ best = some move := by
    intro rest
    induction rest with
    | nil => exact fun best => .inr
    | cons first rest ih =>
      intro best reached
      rcases ih _ reached with ⟨later, lower⟩ | now
      · exact .inl ⟨List.mem_cons_of_mem _ later, lower⟩
      · dsimp only at now
        split at now
        · rename_i improves
          obtain rfl := Option.some.inj now
          exact .inl ⟨List.mem_cons_self, improves.1⟩
        · exact .inr now
  rcases scan candidates none found with chosen | impossible
  · exact chosen
  · cases impossible

/-- A repair step moves the value of one listed column by one, inside its range, and records the
violation it leads to. -/
theorem moves_spec {program : Program Rat} {values : List Rat} {rounded : List Nat}
    {move : Move Rat} (member : move ∈ moves program values rounded) :
    ∃ old column step, move.column ∈ rounded ∧ values[move.column]? = some old ∧
      program.columns[move.column]? = some column ∧ (step = -1 ∨ step = 1) ∧
      move.value = old + step ∧ column.range.Admits move.value ∧
      move.violation = squaredViolation program (values.set move.column move.value) := by
  obtain ⟨index, listed, inside⟩ := List.mem_flatMap.mp member
  obtain ⟨step, side, made⟩ := List.mem_filterMap.mp inside
  have unit : step = -1 ∨ step = 1 := by simpa using side
  cases there : values[index]? with
  | none => simp [there] at made
  | some old =>
    cases known : program.columns[index]? with
    | none => simp [there, known] at made
    | some column =>
      simp only [there, known, bind, Option.bind_some, Option.ite_none_right_eq_some,
        Option.some.injEq, Range.contains_iff] at made
      obtain ⟨admitted, rfl⟩ := made
      exact ⟨old, column, step, listed, there, known, unit, rfl, admitted, rfl⟩

theorem whole_of_unit {step : Rat} (unit : step = -1 ∨ step = 1) : Whole step := by
  rcases unit with rfl | rfl
  · exact Whole.one.neg
  · exact Whole.one

theorem integral_set {program : Program Rat} {values : List Rat} (integral : program.Integral values)
    {place : Nat} {old step : Rat} (there : values[place]? = some old) (whole : Whole step) :
    program.Integral (values.set place (old + step)) := by
  intro index column known flagged
  have before := integral index column known flagged
  by_cases same : place = index
  · subst same
    obtain ⟨inside, -⟩ := List.getElem?_eq_some_iff.mp there
    have value : values.getD place 0 = old := by simp [there]
    rw [value] at before
    simpa [inside] using before.add whole
  · simpa [List.getElem?_set_ne same] using before

/-- Repair keeps integral columns integral and returns only points that satisfy the program. -/
theorem repair_feasible {program : Program Rat} {rounded : List Nat} (left : Nat)
    {values repaired : List Rat} {current : Rat} (length : values.length = program.columns.length)
    (integral : program.Integral values)
    (found : repair program rounded left values current = some repaired) :
    program.Feasible repaired := by
  induction left generalizing values current with
  | zero =>
    rw [repair] at found
    split at found
    · rename_i checked
      obtain rfl := Option.some.inj found
      exact ⟨(isFeasible_iff length).mp checked, integral⟩
    · cases found
  | succ left ih =>
    rw [repair] at found
    split at found
    · rename_i checked
      obtain rfl := Option.some.inj found
      exact ⟨(isFeasible_iff length).mp checked, integral⟩
    · split at found
      · cases found
      · rename_i move best
        obtain ⟨old, -, step, -, there, -, unit, value, -⟩ := moves_spec (bestMove_spec best).1
        refine ih (by simpa using length) ?_ found
        rw [value]
        exact integral_set integral there (whole_of_unit unit)

theorem exists_roundAndRepair_ok {program : Program Rat} {values : List Rat}
    (length : values.length = program.columns.length) :
    ∃ found, roundAndRepair program values = .ok found := by
  obtain ⟨rounded, started⟩ := exists_roundColumns_ok length
  rw [roundAndRepair, started]
  exact ⟨_, rfl⟩

/-- Whatever the heuristic returns is feasible. -/
theorem roundAndRepair_feasible {program : Program Rat} (bounds : program.WholeBounds)
    {values repaired : List Rat} (length : values.length = program.columns.length)
    (found : roundAndRepair program values = .ok (some repaired)) : program.Feasible repaired := by
  unfold roundAndRepair at found
  cases started : roundColumns program.columns values with
  | error cause =>
    rw [started] at found
    cases found
  | ok start =>
    rw [started] at found
    obtain ⟨size, whole⟩ := roundColumns_spec bounds started
    exact repair_feasible maxMoves (size.trans length) whole (Except.ok.inj found)

end MixedInteger.Rounding
