import MixedInteger.Proofs.Search.Repair

/-! The points that repair visits. The squared violation is zero exactly at the points that pass
the feasibility check, and each step lowers it, so the trail of a repair never comes back to a
point. Rounding leaves continuous columns alone and puts integral columns on integers of their
ranges; a step keeps both, since it only moves columns that were rounded. Whatever is returned is
the last point of the trail. -/
namespace MixedInteger

theorem Relation.violation_eq_zero_iff (relation : Relation) (lhs rhs : Rat) :
    relation.violation lhs rhs = 0 ↔ relation.Holds lhs rhs := by
  cases relation with
  | le =>
    simp only [violation, Holds, Scalar.isPositive_iff]
    split <;> rename_i side
    · exact ⟨fun zero => absurd zero side.ne', fun held => absurd side (by linarith)⟩
    · exact ⟨fun _ => by linarith, fun _ => rfl⟩
  | eq => simp [violation, Holds, sub_eq_zero]
  | ge =>
    simp only [violation, Holds, Scalar.isNegative_iff]
    split <;> rename_i side
    · exact ⟨fun zero => absurd zero (by linarith), fun held => absurd side (by linarith)⟩
    · exact ⟨fun _ => by linarith, fun _ => rfl⟩

theorem Range.violation_eq_zero_iff (range : Range Rat) (value : Rat) :
    range.violation value = 0 ↔ range.Admits value := by
  unfold violation
  split
  · rename_i lower below
    obtain ⟨known, under⟩ := Option.filter_eq_some_iff.mp below
    have under : value < lower := by simpa using under
    constructor
    · intro zero
      linarith
    · intro admitted
      exact absurd (admitted.1 lower known) (not_le.mpr under)
  · rename_i upper _ above
    obtain ⟨known, past⟩ := Option.filter_eq_some_iff.mp above
    have past : upper < value := by simpa using past
    constructor
    · intro zero
      linarith
    · intro admitted
      exact absurd (admitted.2 upper known) (not_le.mpr past)
  · rename_i above below
    refine ⟨fun _ => ⟨fun lower known => ?_, fun upper known => ?_⟩, fun _ => rfl⟩
    · simpa [known] using above
    · simpa [known] using below

/-- Clamping puts a value into the range, unless the range has no value. -/
theorem Range.admits_clamp {range : Range Rat} (nonempty : range.isEmpty = false) (value : Rat) :
    range.Admits (range.clamp value) := by
  unfold clamp
  split
  · rename_i lower below
    obtain ⟨known, -⟩ := Option.filter_eq_some_iff.mp below
    refine ⟨fun other found => ?_, fun upper found => lower_le_upper nonempty known found⟩
    exact (Option.some.inj (found.symm.trans known)).le
  · rename_i upper _ above
    obtain ⟨known, -⟩ := Option.filter_eq_some_iff.mp above
    refine ⟨fun lower found => lower_le_upper nonempty found known, fun other found => ?_⟩
    exact (Option.some.inj (known.symm.trans found)).le
  · rename_i above below
    refine ⟨fun lower known => ?_, fun upper known => ?_⟩
    · simpa [known] using above
    · simpa [known] using below

namespace Rounding

theorem foldl_squares_eq_zero_iff (list : List Rat) {total : Rat} (nonneg : 0 ≤ total) :
    list.foldl (fun total v => total + v * v) total = 0 ↔ total = 0 ∧ ∀ v ∈ list, v = 0 := by
  induction list generalizing total with
  | nil => simp
  | cons v list ih =>
    have square := mul_self_nonneg v
    rw [List.foldl_cons, ih (add_nonneg nonneg square), add_eq_zero_iff_of_nonneg nonneg square,
      mul_self_eq_zero, List.forall_mem_cons, and_assoc]

/-- The violation is zero exactly where the feasibility check passes. -/
theorem squaredViolation_eq_zero_iff (program : Program Rat) (values : List Rat) :
    squaredViolation program values = 0 ↔ isFeasible program values = true := by
  simp only [squaredViolation, foldl_squares_eq_zero_iff _ le_rfl, true_and, List.forall_mem_append,
    isFeasible, Bool.and_eq_true, List.all_eq_true, List.forall_mem_map, Row.violation, Row.holds,
    Relation.violation_eq_zero_iff, Relation.holds_iff, ← List.map_uncurry_zip_eq_zipWith,
    Function.uncurry, Range.violation_eq_zero_iff, Range.contains_iff]

/-- The point after one repair step; none where repair stops. -/
def mended? (program : Program Rat) (rounded : List Nat) (values : List Rat) :
    Option (List Rat) :=
  if isFeasible program values then none
  else
    (bestMove (squaredViolation program values) (moves program values rounded)).map fun move =>
      values.set move.column move.value

/-- The points that repair visits, in order, when a number of steps is left. -/
def trail (program : Program Rat) (rounded : List Nat) : Nat → List Rat → List (List Rat)
  | 0, values => [values]
  | left + 1, values =>
    match mended? program rounded values with
    | none => [values]
    | some next => values :: trail program rounded left next

/-- One repair step: a listed column moves by one, stays in its range, and the violation
drops. -/
def Mends (program : Program Rat) (rounded : List Nat) (now next : List Rat) : Prop :=
  (∃ index ∈ rounded, ∃ old column step, now[index]? = some old ∧
    program.columns[index]? = some column ∧ (step = -1 ∨ step = 1) ∧
    column.range.Admits (old + step) ∧ next = now.set index (old + step)) ∧
  squaredViolation program next < squaredViolation program now

section Trail

variable {program : Program Rat} {rounded : List Nat}

theorem mends_of_mended? {now next : List Rat}
    (stepped : mended? program rounded now = some next) : Mends program rounded now next := by
  obtain ⟨-, chosen⟩ := Option.ite_none_left_eq_some.mp stepped
  obtain ⟨move, best, rfl⟩ := Option.map_eq_some_iff.mp chosen
  obtain ⟨member, lower⟩ := bestMove_spec best
  obtain ⟨old, column, step, listed, there, known, unit, value, admitted, recorded⟩ :=
    moves_spec member
  rw [recorded] at lower
  rw [value] at admitted lower ⊢
  exact ⟨⟨move.column, listed, old, column, step, there, known, unit, admitted, rfl⟩, lower⟩

theorem repair_succ (left : Nat) (values : List Rat) :
    repair program rounded (left + 1) values (squaredViolation program values) =
      match mended? program rounded values with
      | none => if isFeasible program values then some values else none
      | some next => repair program rounded left next (squaredViolation program next) := by
  rw [repair, mended?]
  split
  · rfl
  · cases best : bestMove (squaredViolation program values) (moves program values rounded) with
    | none => rfl
    | some move =>
      obtain ⟨-, -, -, -, -, -, -, -, -, recorded⟩ := moves_spec (bestMove_spec best).1
      simp only [recorded, Option.map_some]

theorem head?_trail (left : Nat) (values : List Rat) :
    (trail program rounded left values).head? = some values := by
  cases left with
  | zero => rfl
  | succ left =>
    rw [trail]
    split <;> rfl

/-- Repair returns the last point of its trail if that point is feasible, and nothing else. -/
theorem repair_eq_getLast? (left : Nat) (values : List Rat) :
    repair program rounded left values (squaredViolation program values) =
      (trail program rounded left values).getLast?.filter (isFeasible program) := by
  induction left generalizing values with
  | zero => simp [repair, trail, Option.filter]
  | succ left ih =>
    rw [repair_succ, trail]
    cases stepped : mended? program rounded values with
    | none => simp [Option.filter]
    | some next =>
      have first : (trail program rounded left next).head? = some next := head?_trail left next
      obtain ⟨rest, shape⟩ := List.head?_eq_some_iff.mp first
      simp only [ih next, shape, List.getLast?_cons_cons]

/-- Every point of the trail follows from the one before it by a step. -/
theorem isChain_trail (left : Nat) (values : List Rat) :
    (trail program rounded left values).IsChain (Mends program rounded) := by
  induction left generalizing values with
  | zero => exact List.isChain_singleton values
  | succ left ih =>
    rw [trail]
    split
    · exact List.isChain_singleton values
    · rename_i next stepped
      refine List.isChain_cons.mpr ⟨fun first known => ?_, ih next⟩
      rw [head?_trail] at known
      obtain rfl := Option.some.inj known
      exact mends_of_mended? stepped

theorem violation_decreases (left : Nat) (values : List Rat) :
    (trail program rounded left values).Pairwise fun earlier later =>
      squaredViolation program later < squaredViolation program earlier := by
  have drops := (isChain_trail left values).imp fun now next (step : Mends program rounded now next) =>
    step.2
  exact List.isChain_iff_pairwise.mp drops

end Trail

/-- What rounding makes of the values and repair keeps: continuous columns are as they were, and
integral columns take integers of their ranges. -/
structure Rounds (program : Program Rat) (values point : List Rat) : Prop where
  length : point.length = program.columns.length
  continuous : ∀ (index : Nat) (column : Column Rat), program.columns[index]? = some column →
    column.integral = false → point.getD index 0 = values.getD index 0
  integral : ∀ (index : Nat) (column : Column Rat), program.columns[index]? = some column →
    column.integral = true → Whole (point.getD index 0) ∧ column.range.Admits (point.getD index 0)

section Rounds

variable {program : Program Rat} {values : List Rat}

theorem integral_of_mem_fractionalColumns {index : Nat}
    (listed : index ∈ fractionalColumns program values) :
    ∃ column, program.columns[index]? = some column ∧ column.integral = true := by
  obtain ⟨⟨⟨column, value⟩, place⟩, kept, rfl⟩ := List.mem_map.mp listed
  obtain ⟨member, flagged⟩ := List.mem_filter.mp kept
  have found := List.mem_zipIdx_iff_getElem?.mp member
  exact ⟨column, (List.getElem?_zip_eq_some.mp found).1, (Bool.and_eq_true_iff.mp flagged).1⟩

/-- A step on a column that was rounded keeps what rounding made. -/
theorem Rounds.mends {now next : List Rat} (rounds : Rounds program values now)
    (step : Mends program (fractionalColumns program values) now next) :
    Rounds program values next := by
  obtain ⟨⟨place, listed, old, moved, unit, there, known, unitStep, admitted, rfl⟩, -⟩ := step
  obtain ⟨same, found, flagged⟩ := integral_of_mem_fractionalColumns listed
  obtain rfl : moved = same := Option.some.inj (known.symm.trans found)
  obtain ⟨inside, -⟩ := List.getElem?_eq_some_iff.mp there
  refine ⟨by simpa using rounds.length, fun index column located continuous => ?_,
    fun index column located integral => ?_⟩
  · have other : place ≠ index := by
      rintro rfl
      obtain rfl := Option.some.inj (known.symm.trans located)
      simp [flagged] at continuous
    simpa [List.getElem?_set_ne other] using rounds.continuous index column located continuous
  · by_cases same : place = index
    · subst same
      obtain rfl := Option.some.inj (known.symm.trans located)
      have before := (rounds.integral place moved known flagged).1
      have value : now.getD place 0 = old := by simp [there]
      rw [value] at before
      have after : (now.set place (old + unit)).getD place 0 = old + unit := by simp [inside]
      rw [after]
      exact ⟨before.add (whole_of_unit unitStep), admitted⟩
    · simpa [List.getElem?_set_ne same] using rounds.integral index column located integral

/-- Every point of a trail keeps what rounding made of its start. -/
theorem rounds_trail (left : Nat) {start : List Rat} (rounds : Rounds program values start) :
    ∀ point ∈ trail program (fractionalColumns program values) left start,
      Rounds program values point := by
  induction left generalizing start with
  | zero => exact List.forall_mem_singleton.mpr rounds
  | succ left ih =>
    rw [trail]
    split
    · exact List.forall_mem_singleton.mpr rounds
    · rename_i next stepped
      exact List.forall_mem_cons.mpr ⟨rounds, ih (rounds.mends (mends_of_mended? stepped))⟩

/-- The value that rounding gives one column. -/
def roundedValue (column : Column Rat) (value : Rat) : Rat :=
  if column.integral then column.range.clamp (Scalar.round value) else value

theorem roundColumns_eq {columns : List (Column Rat)} {values : List Rat}
    (length : values.length = columns.length) :
    roundColumns columns values = .ok (columns.zipWith roundedValue values) := by
  induction columns generalizing values with
  | nil =>
    obtain rfl := List.length_eq_zero_iff.mp length
    rfl
  | cons column columns ih =>
    cases values with
    | nil => simp at length
    | cons value values =>
      rw [roundColumns, ih (by simpa using length)]
      rfl

theorem rounds_start (bounds : program.WholeBounds)
    (nonempty : ∀ column ∈ program.columns, column.range.isEmpty = false)
    (length : values.length = program.columns.length) :
    Rounds program values (program.columns.zipWith roundedValue values) := by
  have entry : ∀ (index : Nat) (column : Column Rat), program.columns[index]? = some column →
      (program.columns.zipWith roundedValue values).getD index 0 =
        roundedValue column (values.getD index 0) := by
    intro index column known
    obtain ⟨below, -⟩ := List.getElem?_eq_some_iff.mp known
    have there := List.getElem?_eq_getElem (length.symm ▸ below)
    simp [List.getElem?_zipWith, known, there]
  refine ⟨by simp [length], fun index column known continuous => ?_,
    fun index column known flagged => ?_⟩
  · rw [entry index column known, roundedValue, continuous]
    rfl
  · have member := List.mem_of_getElem? known
    simp only [entry index column known, roundedValue, flagged, ↓reduceIte]
    exact ⟨whole_clamp (bounds column member flagged) (Whole.round _),
      Range.admits_clamp (nonempty column member) _⟩

end Rounds

/-- The heuristic always answers. It starts from the rounded and clamped values, which it returns
unchanged if they are feasible already, and follows a trail of steps of one along which the
violation strictly decreases, so that no point comes twice; the violation is zero exactly at the
points that pass the check. What it returns is feasible and has the given values in all
continuous columns. -/
theorem roundAndRepair_descends {program : Program Rat} (valid : program.Valid)
    (bounds : program.WholeBounds) (values : List Rat)
    (length : values.length = program.columns.length) :
    let start := program.columns.zipWith roundedValue values
    let visited := trail program (fractionalColumns program values) maxMoves start
    roundColumns program.columns values = .ok start ∧
    roundAndRepair program values = .ok (visited.getLast?.filter (isFeasible program)) ∧
    (∀ x, roundAndRepair program values = .ok (some x) → program.Feasible x ∧
      ∀ (index : Nat) (column : Column Rat), program.columns[index]? = some column →
        column.integral = false → x[index]? = values[index]?) ∧
    (isFeasible program start = true → roundAndRepair program values = .ok (some start)) ∧
    visited.head? = some start ∧
    visited.IsChain (Mends program (fractionalColumns program values)) ∧
    visited.Pairwise (fun earlier later =>
      squaredViolation program later < squaredViolation program earlier) ∧
    visited.Nodup ∧
    ∀ point, squaredViolation program point = 0 ↔ isFeasible program point = true := by
  intro start visited
  have rounding : roundColumns program.columns values = .ok start := roundColumns_eq length
  have run : roundAndRepair program values =
      .ok (visited.getLast?.filter (isFeasible program)) := by
    rw [roundAndRepair, rounding, ← repair_eq_getLast?]
    rfl
  have drops : visited.Pairwise fun earlier later =>
      squaredViolation program later < squaredViolation program earlier :=
    violation_decreases maxMoves start
  refine ⟨rounding, run, fun x found => ?_, fun feasible => ?_, head?_trail maxMoves start,
    isChain_trail maxMoves start, drops, ?_, squaredViolation_eq_zero_iff program⟩
  · refine ⟨roundAndRepair_feasible bounds length found, fun index column known continuous => ?_⟩
    obtain ⟨last, -⟩ := Option.filter_eq_some_iff.mp (Except.ok.inj (run.symm.trans found))
    have kept := rounds_trail maxMoves (rounds_start bounds valid.nonempty length) x
      (List.mem_of_getLast? last)
    obtain ⟨below, -⟩ := List.getElem?_eq_some_iff.mp known
    have same := kept.continuous index column known continuous
    have here := List.getElem?_eq_getElem (kept.length.symm ▸ below)
    have given := List.getElem?_eq_getElem (length.symm ▸ below)
    simpa [here, given] using same
  · rw [roundAndRepair, rounding]
    simp [bind, Except.bind, pure, Except.pure, repair, feasible, maxMoves]
  · exact drops.imp fun lower same => lower.ne (by rw [same])

/-- Two integral columns that share a row with a continuous one. -/
def tandem : Program Rat where
  objective := [1, 1, 1]
  constant := 0
  rows := [⟨[1, 1, 1], .le, 10/3⟩]
  columns := [{ range := ⟨some 0, some 5⟩, integral := true },
    { range := ⟨some 0, some 5⟩, integral := true }, { range := ⟨some 0, none⟩ }]

/-- Both halves are rounded up, which breaks the row, and one step down mends it. -/
theorem tandem_repaired :
    (tandem.Valid ∧ tandem.WholeBounds) ∧
    roundAndRepair tandem [3/2, 3/2, 1/3] = .ok (some [1, 2, 1/3]) ∧
    tandem.Feasible [1, 2, 1/3] ∧
    trail tandem [0, 1] maxMoves [2, 2, 1/3] = [[2, 2, 1/3], [1, 2, 1/3]] ∧
    [[2, 2, 1/3], [1, 2, (1/3 : Rat)]].Pairwise fun earlier later =>
      squaredViolation tandem later < squaredViolation tandem earlier := by
  have valid : tandem.Valid := ⟨⟨rfl, by decide +kernel⟩, by decide +kernel⟩
  have bounds : tandem.WholeBounds := by
    intro column member flagged
    simp only [tandem, List.mem_cons, List.not_mem_nil, or_false] at member
    rcases member with rfl | rfl | rfl
    · exact ⟨fun lower known => ⟨0, by simpa using known⟩,
        fun upper known => ⟨5, by simpa using known⟩⟩
    · exact ⟨fun lower known => ⟨0, by simpa using known⟩,
        fun upper known => ⟨5, by simpa using known⟩⟩
    · cases flagged
  have run : roundAndRepair tandem [3/2, 3/2, 1/3] = .ok (some [1, 2, 1/3]) := by decide +kernel
  have visited : trail tandem [0, 1] maxMoves [2, 2, 1/3] = [[2, 2, 1/3], [1, 2, 1/3]] := by
    decide +kernel
  obtain ⟨-, -, feasible, -, -, -, drops, -⟩ :=
    roundAndRepair_descends valid bounds [3/2, 3/2, 1/3] rfl
  refine ⟨⟨valid, bounds⟩, run, (feasible _ run).1, visited, ?_⟩
  have listed : fractionalColumns tandem [3/2, 3/2, 1/3] = [0, 1] := by decide +kernel
  have started : tandem.columns.zipWith roundedValue [3/2, 3/2, 1/3] = [2, 2, 1/3] := by
    decide +kernel
  rwa [listed, started, visited] at drops

end Rounding

end MixedInteger
