import Mathlib.Algebra.Order.Archimedean.Basic
import Mathlib.Data.List.InsertIdx
import MixedInteger.Proofs.Presolve.Refinement
import MixedInteger.Presolve.Columns

/-! Eliminating a column. A point of the remaining columns becomes a point of all columns
by putting the recovered value back at the column's position; rows, ranges, integrality
and objective of the two programs agree along this map. Columns are fixed at a value here:
because the range leaves one value, or because no row mentions the column. -/
namespace MixedInteger

theorem getD_insertIdx {y : List Rat} {index : Nat} (reach : index ≤ y.length) (value : Rat)
    (other : Nat) :
    (y.insertIdx index value).getD other 0 =
      if other < index then y.getD other 0 else if other = index then value
      else y.getD (other - 1) 0 := by
  simp only [List.getD_eq_getElem?_getD, List.getElem?_insertIdx]
  split
  · rfl
  · split
    · rename_i same
      subst same
      simp [reach]
    · rfl

theorem set_insertIdx {y : List Rat} {index : Nat} (reach : index ≤ y.length) (old value : Rat) :
    (y.insertIdx index old).set index value = y.insertIdx index value := by
  rw [← List.insertIdx_eraseIdx_self (by rw [List.length_insertIdx_of_le_length reach]; omega) value,
    List.eraseIdx_insertIdx_self]

/-- A point is what remains of it with the removed value put back. -/
theorem insertIdx_eraseIdx_getD {x : List Rat} {index : Nat} (inside : index < x.length) :
    (x.eraseIdx index).insertIdx index (x.getD index 0) = x := by
  rw [List.insertIdx_eraseIdx_self inside.ne]
  simp [List.getElem?_eq_getElem inside]

/-- A property of all columns splits into that of one and that of the others. -/
theorem forall_columns_insertIdx {columns : List (Column Rat)} {index : Nat} {column : Column Rat}
    (known : columns[index]? = some column) {y : List Rat} (length : y.length + 1 = columns.length)
    (property : Column Rat → Rat → Prop) (value : Rat) :
    (∀ (other : Nat) (data : Column Rat), columns[other]? = some data →
        property data ((y.insertIdx index value).getD other 0)) ↔
      property column value ∧ ∀ (other : Nat) (data : Column Rat),
        (columns.eraseIdx index)[other]? = some data → property data (y.getD other 0) := by
  obtain ⟨inside, -⟩ := List.getElem?_eq_some_iff.mp known
  have reach : index ≤ y.length := by omega
  simp only [getD_insertIdx reach]
  constructor
  · intro all
    refine ⟨by simpa using all index column known, fun other data found => ?_⟩
    rw [List.getElem?_eraseIdx] at found
    split at found
    · rename_i before
      simpa [before] using all other data found
    · rename_i after
      have shifted := all (other + 1) data found
      have notBefore : ¬ other + 1 < index := by omega
      have notHere : ¬ other + 1 = index := by omega
      simpa [notBefore, notHere] using shifted
  · rintro ⟨own, rest⟩ other data found
    split
    · rename_i before
      exact rest other data (by rw [List.getElem?_eraseIdx_of_lt before]; exact found)
    · split
      · rename_i same
        subst same
        obtain rfl : column = data := Option.some.inj (known.symm.trans found)
        exact own
      · rename_i notBefore notHere
        refine rest (other - 1) data ?_
        rw [List.getElem?_eraseIdx_of_ge (by omega), Nat.sub_add_cancel (by omega)]
        exact found

namespace Presolve

variable {state next : State Rat} {index : Nat} {column : Column Rat}

/-- Putting a recovered value back and replaying the earlier log. -/
theorem replay_push {log : UndoLog Rat} {entry : Column Rat} {y : List Rat} {value : Rat}
    (reach : index ≤ y.length) (recovers : entry.recover (y.insertIdx index 0) = .ok value) :
    UndoLog.replay (log.push index entry) y = log.replay (y.insertIdx index value) := by
  simp only [UndoLog.push, UndoLog.replay, reach, ↓reduceIte, recovers]
  rw [← set_insertIdx reach 0 value]
  rfl

/-- Eliminating a column is sound when the recovered value completes every point of the
remaining program to one of the program before, and every feasible point leaves one that
is as good. -/
theorem Reduces.of_removal (known : state.program.columns[index]? = some column)
    (columns : next.program.columns = state.program.columns.eraseIdx index)
    {entry : Column Rat} (log : next.removed = state.removed.push index entry)
    {value : List Rat → Rat}
    (recovers : ∀ y, next.program.Satisfies y →
      entry.recover (y.insertIdx index 0) = .ok (value y))
    (admits : ∀ y, next.program.Satisfies y → column.range.Admits (value y))
    (whole : ∀ y, next.program.Satisfies y → column.integral = true → Whole (value y))
    (rows : ∀ y, next.program.Satisfies y → ∀ row ∈ state.program.rows,
      row.relation.Holds (dot row.coefs (y.insertIdx index (value y))) row.rhs)
    (objective : ∀ y, next.program.Satisfies y →
      state.program.objectiveValue (y.insertIdx index (value y)) =
        next.program.objectiveValue y)
    (forth : ∀ x, state.program.Feasible x → ∃ y, next.program.Feasible y ∧
      next.program.objectiveValue y ≤ state.program.objectiveValue x)
    (equational : state.program.Equational → next.program.Equational) : Reduces state next := by
  obtain ⟨inside, -⟩ := List.getElem?_eq_some_iff.mp known
  have left : next.program.columns.Sublist state.program.columns := by
    rw [columns]
    exact List.eraseIdx_sublist _ _
  refine ⟨fun y held => ?_, forth, left.sublistForall₂, equational⟩
  have length : y.length + 1 = state.program.columns.length := by
    rw [held.length, columns, List.length_eraseIdx_of_lt inside]
    omega
  have reach : index ≤ y.length := by omega
  refine ⟨y.insertIdx index (value y), ⟨?_, rows y held, ?_⟩, objective y held, ?_, ?_⟩
  · rw [List.length_insertIdx_of_le_length reach, length]
  · refine (forall_columns_insertIdx known length (fun data => data.range.Admits) _).mpr
      ⟨admits y held, ?_⟩
    rw [← columns]
    exact held.ranges
  · intro integral
    refine (forall_columns_insertIdx known length
      (fun data entry => data.integral = true → Whole entry) _).mpr ⟨whole y held, ?_⟩
    rw [← columns]
    exact integral
  · rw [log]
    exact replay_push reach (recovers y held)

end Presolve

/-! ### Fixing a column at a value -/

theorem Relation.holds_sub (relation : Relation) (lhs rhs term : Rat) :
    relation.Holds lhs (rhs - term) ↔ relation.Holds (lhs + term) rhs := by
  cases relation
  · exact le_sub_iff_add_le
  · exact eq_sub_iff_add_eq
  · exact sub_le_iff_le_add

namespace Program

/-- The program with one column fixed: its terms move to the right-hand sides and to the
constant. -/
def fixColumn (program : Program Rat) (index : Nat) (value : Rat) : Program Rat where
  objective := program.objective.eraseIdx index
  constant := program.constant + program.objective.getD index 0 * value
  rows := program.rows.map fun row =>
    { row with
      coefs := row.coefs.eraseIdx index
      rhs := row.rhs - row.coefs.getD index 0 * value }
  columns := program.columns.eraseIdx index

/-- The program with one column left out. -/
def withoutColumn (program : Program Rat) (index : Nat) : Program Rat :=
  { program with
    objective := program.objective.eraseIdx index
    rows := program.rows.map fun row => { row with coefs := row.coefs.eraseIdx index }
    columns := program.columns.eraseIdx index }

variable {program : Program Rat} {index : Nat} {column : Column Rat} {y : List Rat}

theorem Valid.fixColumn (valid : program.Valid) (value : Rat) :
    (program.fixColumn index value).Valid := by
  refine ⟨⟨?_, fun row member => ?_⟩, fun data member => ?_⟩
  · simp only [Program.fixColumn, List.length_eraseIdx, valid.objective]
  · obtain ⟨old, found, rfl⟩ := List.mem_map.mp member
    simp only [Program.fixColumn, List.length_eraseIdx, valid.rows old found]
  · exact valid.nonempty data (List.mem_of_mem_eraseIdx member)

theorem objectiveValue_fixColumn (shaped : program.Shaped)
    (length : y.length + 1 = program.columns.length) (inside : index < program.columns.length)
    (value : Rat) :
    program.objectiveValue (y.insertIdx index value) =
      (program.fixColumn index value).objectiveValue y := by
  have reach : index ≤ y.length := by omega
  simp only [objectiveValue, fixColumn,
    dot_insertIdx (shaped.objective ▸ inside) reach]
  ring

/-- The fixed program has the points that the value completes. -/
theorem satisfies_fixColumn (shaped : program.Shaped)
    (known : program.columns[index]? = some column)
    (length : y.length + 1 = program.columns.length) (value : Rat) :
    program.Satisfies (y.insertIdx index value) ↔
      (program.fixColumn index value).Satisfies y ∧ column.range.Admits value := by
  obtain ⟨inside, -⟩ := List.getElem?_eq_some_iff.mp known
  have reach : index ≤ y.length := by omega
  have activity : ∀ row ∈ program.rows, dot row.coefs (y.insertIdx index value) =
      dot (row.coefs.eraseIdx index) y + row.coefs.getD index 0 * value :=
    fun row member => dot_insertIdx (shaped.rows row member ▸ inside) reach value
  have ranges := forall_columns_insertIdx known length (fun data => data.range.Admits) value
  constructor
  · intro held
    obtain ⟨own, others⟩ := ranges.mp held.ranges
    refine ⟨⟨?_, fun row member => ?_, others⟩, own⟩
    · simp only [fixColumn, List.length_eraseIdx_of_lt inside]
      omega
    · obtain ⟨old, found, rfl⟩ := List.mem_map.mp member
      rw [Relation.holds_sub, ← activity old found]
      exact held.rows old found
  · rintro ⟨held, own⟩
    refine ⟨?_, fun row member => ?_, ranges.mpr ⟨own, held.ranges⟩⟩
    · rw [List.length_insertIdx_of_le_length reach, length]
    · rw [activity row member, ← Relation.holds_sub]
      exact held.rows _ (List.mem_map_of_mem member)

theorem integral_fixColumn (known : program.columns[index]? = some column)
    (length : y.length + 1 = program.columns.length) (value : Rat) :
    program.Integral (y.insertIdx index value) ↔
      (column.integral = true → Whole value) ∧ (program.fixColumn index value).Integral y :=
  forall_columns_insertIdx known length (fun data entry => data.integral = true → Whole entry) value

/-- Fixing a column at a value is fixing its direction at zero. -/
theorem recession_fixColumn (program : Program Rat) (index : Nat) (value : Rat) :
    (program.fixColumn index value).recession = program.recession.fixColumn index 0 := by
  simp [recession, fixColumn, Row.recession, List.eraseIdx_map, Function.comp_def]

/-- Every feasible point may take a value at one column instead of its own, at no cost. -/
def Allows (program : Program Rat) (index : Nat) (value : Rat) : Prop :=
  ∀ x, program.Feasible x → program.Feasible (x.set index value) ∧
    program.objectiveValue (x.set index value) ≤ program.objectiveValue x

end Program

namespace Presolve

variable {state next : State Rat} {index : Nat} {column : Column Rat} {value : Rat}

/-- The state reached by fixing a column and logging it. -/
structure Fixes (state next : State Rat) (index : Nat) (column : Column Rat) (value : Rat) :
    Prop where
  program : next.program = state.program.fixColumn index value
  removed : next.removed =
    state.removed.push index { column with recovery := some (.constant value) }

/-- Fixing is sound when the column may take the value, and taking it loses nothing. -/
theorem Fixes.reduces (fixes : Fixes state next index column value) (valid : state.program.Valid)
    (known : state.program.columns[index]? = some column) (admits : column.range.Admits value)
    (whole : column.integral = true → Whole value) (allows : state.program.Allows index value) :
    Reduces state next := by
  obtain ⟨inside, -⟩ := List.getElem?_eq_some_iff.mp known
  have length : ∀ y, next.program.Satisfies y → y.length + 1 = state.program.columns.length := by
    intro y held
    rw [held.length, fixes.program]
    simp only [Program.fixColumn, List.length_eraseIdx_of_lt inside]
    omega
  have complete : ∀ y, next.program.Satisfies y →
      state.program.Satisfies (y.insertIdx index value) := by
    intro y held
    refine (Program.satisfies_fixColumn valid.toShaped known (length y held) value).mpr ⟨?_, admits⟩
    rw [← fixes.program]
    exact held
  refine Reduces.of_removal known (by rw [fixes.program]; rfl) fixes.removed
    (fun _ _ => rfl) (fun _ _ => admits) (fun _ _ => whole) (fun y held => (complete y held).rows)
    ?_ ?_ ?_
  · intro y held
    rw [fixes.program]
    exact Program.objectiveValue_fixColumn valid.toShaped (length y held) inside value
  · intro x held
    obtain ⟨moved, le⟩ := allows x held
    have inX : index < x.length := held.length ▸ inside
    have rest : (x.eraseIdx index).length + 1 = state.program.columns.length := by
      rw [List.length_eraseIdx_of_lt inX, held.length]
      omega
    rw [← List.insertIdx_eraseIdx_self inX.ne] at moved le
    rw [Program.objectiveValue_fixColumn valid.toShaped rest inside] at le
    rw [fixes.program]
    refine ⟨x.eraseIdx index, ⟨?_, ?_⟩, le⟩
    · exact ((Program.satisfies_fixColumn valid.toShaped known rest value).mp moved.toSatisfies).1
    · exact ((Program.integral_fixColumn known rest value).mp moved.integral).2
  · intro equational row member
    rw [fixes.program] at member
    obtain ⟨source, there, rfl⟩ := List.mem_map.mp member
    exact equational source there

theorem Fixes.recession (fixes : Fixes state next index column value) :
    Fixes state.recession next.recession index column.recession 0 := by
  constructor
  · simp only [State.recession, fixes.program, Program.recession_fixColumn]
  · simp [State.recession, fixes.removed, UndoLog.recession, UndoLog.push, Column.recession,
      Recovery.recession]

/-- Fixing a column goes for directions as it does for points. -/
theorem Fixes.refines (fixes : Fixes state next index column value) (valid : state.program.Valid)
    (known : state.program.columns[index]? = some column) (admits : column.range.Admits value)
    (whole : column.integral = true → Whole value) (allows : state.program.Allows index value)
    (recedes : state.program.recession.Allows index 0) : Refines state next :=
  ⟨fixes.reduces valid known admits whole allows,
    fixes.recession.reduces valid.recession (Program.getElem?_recession known)
      column.range.admits_recession_zero (by simp [Column.recession]) recedes⟩

/-- A calculation per element that never stops has all results. -/
theorem mapM_eq_pure {β γ : Type} {step : β → Reduction Rat γ} {result : β → γ} {items : List β}
    (known : ∀ item ∈ items, step item = pure (result item)) :
    items.mapM step = (pure (items.map result) : Reduction Rat (List γ)) := by
  induction items with
  | nil => rfl
  | cons item items ih =>
    rw [List.mapM_cons, known item (by simp), ih fun later member => known later (by simp [member])]
    rfl

theorem attempt_coef {row : Row Rat} (inside : index < row.coefs.length) :
    (attempt (row.coef index) : Reduction Rat Rat) = pure (row.coefs.getD index 0) := by
  simp [Row.coef, List.getElem?_eq_getElem inside, inRange, attempt]

theorem ends_removeColumn {recovery : Recovery Rat}
    (known : state.program.columns[index]? = some column)
    (inObjective : index < state.program.objective.length)
    (inRows : ∀ row ∈ state.program.rows, index < row.coefs.length)
    {ok : Unit → State Rat → Prop} {failed : Verdict → State Rat → Prop}
    (final : ∀ next : State Rat, next.program = state.program.withoutColumn index →
      next.removed = state.removed.push index { column with recovery := some recovery } →
        ok () next) :
    Ends (removeColumn index recovery) state ok failed := by
  have guard : index < state.program.objective.length ∧
      state.program.rows.all (index < ·.coefs.length) = true :=
    ⟨inObjective, by simpa using inRows⟩
  simp only [removeColumn, ends_bind, ends_get, ends_columnAt known, if_pos guard, ends_modify]
  exact final _ rfl rfl

/-- The row with the term of a fixed column moved to the right-hand side. -/
private def shiftedRow (index : Nat) (value : Rat) (row : Row Rat) : Row Rat :=
  if Scalar.isZero (row.coefs.getD index 0) then row
  else { row with rhs := row.rhs - row.coefs.getD index 0 * value }

private theorem shiftedRow_eq (index : Nat) (value : Rat) (row : Row Rat) :
    shiftedRow index value row =
      { row with rhs := row.rhs - row.coefs.getD index 0 * value } := by
  unfold shiftedRow
  split
  · rename_i zero
    rw [(Scalar.isZero_iff _).mp zero, zero_mul, sub_zero]
  · rfl

theorem ends_removeAtValue (valid : state.program.Valid)
    (known : state.program.columns[index]? = some column)
    {ok : Unit → State Rat → Prop} {failed : Verdict → State Rat → Prop}
    (final : ∀ next, Fixes state next index column value → ok () next) :
    Ends (removeAtValue index value) state ok failed := by
  obtain ⟨inside, -⟩ := List.getElem?_eq_some_iff.mp known
  have inObjective : index < state.program.objective.length := valid.objective ▸ inside
  have inRows : ∀ row ∈ state.program.rows, index < row.coefs.length :=
    fun row member => valid.rows row member ▸ inside
  have rows : (state.program.rows.mapM fun row => do
      let a ← attempt (row.coef index)
      return if Scalar.isZero a then row else { row with rhs := row.rhs - a * value }) =
      (pure (state.program.rows.map (shiftedRow index value)) : Reduction Rat _) :=
    mapM_eq_pure fun row member => by rw [attempt_coef (inRows row member)]; rfl
  have cost := List.getElem?_eq_getElem inObjective
  simp only [removeAtValue, ends_bind, ends_get, rows, ends_pure, ends_objectiveAt cost,
    ends_modify]
  refine ends_removeColumn ?_ ?_ ?_ fun next program removed => final next ⟨?_, removed⟩
  · exact known
  · exact inObjective
  · intro row member
    obtain ⟨old, found, rfl⟩ := List.mem_map.mp member
    rw [shiftedRow_eq]
    exact inRows old found
  · rw [program]
    simp only [Program.withoutColumn, Program.fixColumn, List.map_map, Function.comp_def,
      shiftedRow_eq, List.getD_eq_getElem?_getD, cost, Option.getD_some]

/-- What the sweeps over columns keep: positions below stay, and bounds stay integral. -/
def Reaches (index : Nat) (state : State Rat) : Prop :=
  index ≤ state.program.columns.length ∧ state.program.WholeBounds

/-- Eliminating a column at a value that loses nothing is a sound step. -/
theorem ends_removeAtValue_allows (valid : state.program.Valid)
    (bounds : state.program.WholeBounds) (known : state.program.columns[index]? = some column)
    (admits : column.range.Admits value) (whole : column.integral = true → Whole value)
    (allows : state.program.Allows index value)
    (recedes : state.program.recession.Allows index 0) :
    Ends (do removeAtValue index value; return true) state
      (fun _ next => next.program.Valid ∧ Refines state next ∧ Reaches index next)
      fun verdict _ => verdict.Certified state.program := by
  obtain ⟨inside, -⟩ := List.getElem?_eq_some_iff.mp known
  rw [ends_bind]
  refine ends_removeAtValue valid known fun next fixes => ?_
  rw [ends_pure]
  refine ⟨?_, fixes.refines valid known admits whole allows recedes, ?_, ?_⟩
  · rw [fixes.program]
    exact valid.fixColumn value
  · rw [fixes.program]
    simp only [Program.fixColumn, List.length_eraseIdx_of_lt inside]
    omega
  · rw [fixes.program]
    exact fun data member => bounds data (List.mem_of_mem_eraseIdx member)

/-- A column whose bounds agree takes the one value that is left. -/
theorem allows_of_fixed {program : Program Rat} (known : program.columns[index]? = some column)
    (low : column.range.lower = some value) (up : column.range.upper = some value) :
    program.Allows index value := by
  intro x held
  have admits := held.ranges index column known
  have own : x.getD index 0 = value := le_antisymm (admits.2 value up) (admits.1 value low)
  have unmoved : x.set index value = x := by
    rw [← own]
    refine List.ext_getElem (by simp) fun other _ there => ?_
    by_cases here : index = other
    · subst here
      simp [there]
    · simp [here]
  rw [unmoved]
  exact ⟨held, le_refl _⟩

/-- A column whose bounds agree has one value to take. -/
theorem removeFixedColumn_sound (index : Nat) :
    Sound (fun state => index < state.program.columns.length ∧ state.program.WholeBounds)
      (removeFixedColumn index) fun _ => Reaches index := by
  rintro state valid ⟨inside, bounds⟩
  have known := List.getElem?_eq_getElem inside
  generalize state.program.columns[index] = column at known
  have stay : state.program.Valid ∧ Refines state state ∧ Reaches index state :=
    ⟨valid, Refines.refl state, inside.le, bounds⟩
  simp only [removeFixedColumn, ends_bind, ends_columnAt known]
  split
  · rename_i value fixed lower
    obtain ⟨same, low, up⟩ := column.range.isFixed_iff.mp fixed
    obtain rfl : same = value := Option.some.inj (low.symm.trans lower)
    have own : column.range.Admits same :=
      ⟨fun bound eq => (Option.some.inj (eq.symm.trans low)).le,
        fun bound eq => (Option.some.inj (eq.symm.trans up)).ge⟩
    have whole : column.integral = true → Whole same := fun flagged =>
      (bounds column (List.mem_of_getElem? known) flagged).1 same low
    have rounded : (if column.integral = true then Scalar.round same else same) = same := by
      split
      · rename_i flagged
        exact (whole flagged).round_eq
      · rfl
    rw [rounded]
    refine ends_removeAtValue_allows valid bounds known own whole (allows_of_fixed known low up) ?_
    refine allows_of_fixed (Program.getElem?_recession known) ?_ ?_
    · simp [Column.recession, Range.recession, low]
    · simp [Column.recession, Range.recession, up]
  · exact stay

theorem removeFixedColumns_sound :
    Sound (fun state => state.program.WholeBounds) removeFixedColumns
      fun _ state => state.program.WholeBounds := by
  refine Sound.get fun seen => ?_
  refine (Sound.sweepDown removeFixedColumn_sound seen.program.columns.length).weaken ?_
    fun _ _ => id
  rintro state ⟨rfl, bounds⟩
  exact ⟨le_refl _, bounds⟩

/-! ### Columns in no row -/

/-- The best value lies in the range, and no other value costs less. -/
theorem bestValue_eq_some {cost : Rat} {range : Range Rat} (nonempty : range.isEmpty = false)
    (best : bestValue cost range = some value) :
    range.Admits value ∧ (range.WholeBounds → Whole value) ∧
      ∀ x, range.Admits x → cost * value ≤ cost * x := by
  have atLower : range.lower = some value → range.Admits value := by
    intro low
    refine ⟨fun bound eq => (Option.some.inj (eq.symm.trans low)).le, fun bound eq => ?_⟩
    exact Range.lower_le_upper nonempty low eq
  have atUpper : range.upper = some value → range.Admits value := by
    intro up
    refine ⟨fun bound eq => ?_, fun bound eq => (Option.some.inj (eq.symm.trans up)).ge⟩
    exact Range.lower_le_upper nonempty eq up
  unfold bestValue at best
  split at best
  · rename_i positive
    rw [Scalar.isPos_iff] at positive
    exact ⟨atLower best, fun whole => whole.1 value best,
      fun x held => mul_le_mul_of_nonneg_left (held.1 value best) positive.le⟩
  · rename_i notPositive
    split at best
    · rename_i negative
      rw [Scalar.isNeg_iff] at negative
      exact ⟨atUpper best, fun whole => whole.2 value best,
        fun x held => mul_le_mul_of_nonpos_left (held.2 value best) negative.le⟩
    · rename_i notNegative
      rw [Scalar.isPos_iff] at notPositive
      rw [Scalar.isNeg_iff] at notNegative
      obtain rfl : cost = 0 := le_antisymm (not_lt.mp notPositive) (not_lt.mp notNegative)
      rcases range with ⟨_ | lower, _ | upper⟩
      · obtain rfl : 0 = value := Option.some.inj best
        exact ⟨by simp [Range.Admits], fun _ => Whole.zero, by simp⟩
      · obtain rfl := Option.some.inj best
        refine ⟨?_, fun whole => ?_, by simp⟩
        · refine ⟨by simp, fun bound eq => ?_⟩
          obtain rfl : upper = bound := Option.some.inj eq
          split
          · exact le_refl _
          · rename_i notBelow
            simpa using notBelow
        · split
          · exact whole.2 upper rfl
          · exact Whole.zero
      · obtain rfl := Option.some.inj best
        exact ⟨atLower rfl, fun whole => whole.1 lower rfl, by simp⟩
      · obtain rfl := Option.some.inj best
        exact ⟨atLower rfl, fun whole => whole.1 lower rfl, by simp⟩

/-- Directions have a best value where values have one, and it is zero. -/
theorem bestValue_recession (cost : Rat) (range : Range Rat) :
    bestValue cost range.recession = (bestValue cost range).map fun _ => 0 := by
  unfold bestValue
  split
  · rfl
  · split
    · rfl
    · rcases range with ⟨_ | lower, _ | upper⟩ <;> simp [Range.recession]

/-- Without a best value, integral steps inside the range lower the cost without limit. -/
theorem exists_step_of_bestValue_eq_none {cost : Rat} {range : Range Rat}
    (none : bestValue cost range = none) {x : Rat} (held : range.Admits x) (gap : Rat) :
    ∃ step, Whole step ∧ range.Admits (x + step) ∧ cost * step < gap := by
  unfold bestValue at none
  split at none
  · rename_i positive
    rw [Scalar.isPos_iff] at positive
    obtain ⟨count, large⟩ := exists_nat_gt (-gap / cost)
    rw [div_lt_iff₀' positive] at large
    refine ⟨-count, (Whole.intCast count).neg, ⟨by simp [none], fun bound eq => ?_⟩, ?_⟩
    · have below := held.2 bound eq
      have nonneg : (0 : Rat) ≤ count := Nat.cast_nonneg count
      linarith
    · linarith
  · split at none
    · rename_i negative
      rw [Scalar.isNeg_iff] at negative
      obtain ⟨count, large⟩ := exists_nat_gt (gap / cost)
      rw [div_lt_iff_of_neg' negative] at large
      refine ⟨count, Whole.intCast count, ⟨fun bound eq => ?_, by simp [none]⟩, large⟩
      have above := held.1 bound eq
      have nonneg : (0 : Rat) ≤ count := Nat.cast_nonneg count
      linarith
    · rcases range with ⟨_ | lower, _ | upper⟩ <;> simp at none

/-- A column in no row may take any value of its range. -/
theorem feasible_set {program : Program Rat} (shaped : program.Shaped)
    (known : program.columns[index]? = some column)
    (absent : ∀ row ∈ program.rows, row.coefs.getD index 0 = 0) {x : List Rat}
    (held : program.Feasible x) (admits : column.range.Admits value)
    (whole : column.integral = true → Whole value) :
    program.Feasible (x.set index value) ∧ program.objectiveValue (x.set index value) =
      program.objectiveValue x +
        program.objective.getD index 0 * (value - x.getD index 0) := by
  obtain ⟨inside, -⟩ := List.getElem?_eq_some_iff.mp known
  have inX : index < x.length := held.length ▸ inside
  have length : (x.eraseIdx index).length + 1 = program.columns.length := by
    rw [List.length_eraseIdx_of_lt inX, held.length]
    omega
  have reach : index ≤ (x.eraseIdx index).length := by omega
  have old := insertIdx_eraseIdx_getD inX
  have new : (x.eraseIdx index).insertIdx index value = x.set index value :=
    List.insertIdx_eraseIdx_self inX.ne value
  have moved : ∀ coefs : List Rat, index < coefs.length → dot coefs (x.set index value) =
      dot coefs x + coefs.getD index 0 * (value - x.getD index 0) := by
    intro coefs wide
    rw [← new]
    conv_rhs => rw [← old]
    rw [dot_insertIdx wide reach, dot_insertIdx wide reach, old]
    ring
  refine ⟨⟨⟨by simpa using held.length, fun row member => ?_, ?_⟩, ?_⟩, ?_⟩
  · rw [moved _ (shaped.rows row member ▸ inside), absent row member, zero_mul, add_zero]
    exact held.rows row member
  · have split := forall_columns_insertIdx known length fun data => data.range.Admits
    rw [← new]
    refine (split value).mpr ⟨admits, ((split (x.getD index 0)).mp ?_).2⟩
    rw [old]
    exact held.ranges
  · have split := forall_columns_insertIdx known length
      fun data entry => data.integral = true → Whole entry
    rw [← new]
    refine (split value).mpr ⟨whole, ((split (x.getD index 0)).mp ?_).2⟩
    rw [old]
    exact held.integral
  · simp only [Program.objectiveValue, moved _ (shaped.objective ▸ inside)]
    ring

/-- A column in no row may take any value of its range that costs least. -/
theorem allows_of_absent {program : Program Rat} (shaped : program.Shaped)
    (known : program.columns[index]? = some column)
    (absent : ∀ row ∈ program.rows, row.coefs.getD index 0 = 0) (admits : column.range.Admits value)
    (whole : column.integral = true → Whole value)
    (least : ∀ x, column.range.Admits x → program.objective.getD index 0 * value ≤
      program.objective.getD index 0 * x) : program.Allows index value := by
  intro x held
  obtain ⟨moved, objective⟩ := feasible_set shaped known absent held admits whole
  have cheaper := least _ (held.ranges index column known)
  refine ⟨moved, ?_⟩
  rw [objective, mul_sub]
  linarith

/-- A column in no row without a best value gives a direction that lowers the objective. -/
theorem descends_of_bestValue_eq_none {program : Program Rat} (valid : program.Valid)
    (known : program.columns[index]? = some column)
    (absent : ∀ row ∈ program.rows, row.coefs.getD index 0 = 0)
    (none : bestValue (program.objective.getD index 0) column.range = none) :
    program.Descends := by
  have still := (program.feasible_recession_iff _).mpr program.satisfies_recession_zero
  have unpriced : bestValue (program.objective.getD index 0) column.range.recession = Option.none := by
    rw [bestValue_recession, none]
    rfl
  obtain ⟨step, -, admits, gain⟩ :=
    exists_step_of_bestValue_eq_none unpriced column.range.admits_recession_zero 0
  have gone : ∀ row ∈ program.recession.rows, row.coefs.getD index 0 = 0 := by
    intro row member
    obtain ⟨source, there, rfl⟩ := List.mem_map.mp member
    exact absent source there
  obtain ⟨moved, objective⟩ := feasible_set valid.recession.toShaped
    (Program.getElem?_recession known) gone still admits (by simp [Column.recession])
  refine ⟨_, moved.toSatisfies, ?_⟩
  rw [← Program.objectiveValue_recession, objective, Program.objectiveValue_recession,
    dot_replicate_zero, getD_replicate_zero, zero_add, zero_add, sub_zero]
  exact gain

/-- A column in no row goes to its best value; without one the objective has no limit. -/
theorem removeEmptyColumn_sound (index : Nat) :
    Sound (fun state => index < state.program.columns.length ∧ state.program.WholeBounds)
      (removeEmptyColumn index) fun _ => Reaches index := by
  rintro state valid ⟨inside, bounds⟩
  have known := List.getElem?_eq_getElem inside
  generalize state.program.columns[index] = column at known
  have inObjective : index < state.program.objective.length := valid.objective ▸ inside
  have cost := List.getElem?_eq_getElem inObjective
  have entries : (state.program.rows.mapM fun row => attempt (row.coef index)) =
      (pure (state.program.rows.map fun row => row.coefs.getD index 0) : Reduction Rat _) :=
    mapM_eq_pure fun row member => attempt_coef (valid.rows row member ▸ inside)
  simp only [removeEmptyColumn, ends_bind, ends_get, entries, ends_pure]
  split
  · exact ⟨valid, Refines.refl state, inside.le, bounds⟩
  · rename_i absent
    have zero : ∀ row ∈ state.program.rows, row.coefs.getD index 0 = 0 := by
      intro row member
      have negligible : ∀ a ∈ state.program.rows.map fun row => row.coefs.getD index 0, a = 0 := by
        simpa using absent
      exact negligible _ (List.mem_map_of_mem member)
    have price : state.program.objective.getD index 0 = state.program.objective[index] := by
      simp [cost]
    simp only [ends_bind, ends_objectiveAt cost, ends_columnAt known, ← price]
    split
    · rename_i value best
      have nonempty := valid.nonempty column (List.mem_of_getElem? known)
      obtain ⟨admits, whole, least⟩ := bestValue_eq_some nonempty best
      have integral : column.integral = true → Whole value := fun flagged =>
        whole (bounds column (List.mem_of_getElem? known) flagged)
      have still : bestValue (state.program.objective.getD index 0) column.range.recession =
          some 0 := by
        rw [bestValue_recession, best]
        rfl
      refine ends_removeAtValue_allows valid bounds known admits integral
        (allows_of_absent valid.toShaped known zero admits integral least) ?_
      refine allows_of_absent valid.recession.toShaped (Program.getElem?_recession known) ?_
        column.range.admits_recession_zero (by simp [Column.recession])
        (bestValue_eq_some column.range.isEmpty_recession still).2.2
      intro row member
      obtain ⟨source, there, rfl⟩ := List.mem_map.mp member
      exact zero source there
    · rename_i none
      refine ⟨fun x held limit => ?_, descends_of_bestValue_eq_none valid known zero none⟩
      obtain ⟨step, whole, admits, gain⟩ := exists_step_of_bestValue_eq_none none
        (held.ranges index column known) (limit - state.program.objectiveValue x)
      obtain ⟨moved, objective⟩ := feasible_set valid.toShaped known zero held admits
        fun flagged => (held.integral index column known flagged).add whole
      refine ⟨_, moved, ?_⟩
      rw [objective, add_sub_cancel_left]
      linarith

theorem removeEmptyColumns_sound :
    Sound (fun state => state.program.WholeBounds) removeEmptyColumns
      fun _ state => state.program.WholeBounds := by
  refine Sound.get fun seen => ?_
  refine (Sound.sweepDown removeEmptyColumn_sound seen.program.columns.length).weaken ?_
    fun _ _ => id
  rintro state ⟨rfl, bounds⟩
  exact ⟨le_refl _, bounds⟩

end Presolve

end MixedInteger
