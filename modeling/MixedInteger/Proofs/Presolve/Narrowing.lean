import MixedInteger.Proofs.Presolve.Refinement

/-! The two changes that most reductions are made of: a column gets another range, and a
row is dropped. Each is sound when what it excludes, or what it forgets, follows from the
rest of the program. -/
namespace MixedInteger

namespace Program

/-- The program with another range for one column. -/
def narrowed (program : Program Rat) (index : Nat) (range : Range Rat) : Program Rat :=
  { program with columns := program.columns.modify index fun column => { column with range } }

/-- The program without one of its rows. -/
def withoutRow (program : Program Rat) (index : Nat) : Program Rat :=
  { program with rows := program.rows.eraseIdx index }

variable {program : Program Rat} {index : Nat}

theorem getElem?_narrowed (range : Range Rat) (other : Nat) :
    (program.narrowed index range).columns[other]? =
      (program.columns[other]?).map fun column =>
        if index = other then { column with range } else column := by
  simp only [narrowed, List.getElem?_modify]
  cases program.columns[other]? <;> by_cases same : index = other <;> simp [same]

/-- A column that gets its own range again stays what it is. -/
theorem narrowed_self {column : Column Rat} (known : program.columns[index]? = some column) :
    program.narrowed index column.range = program := by
  have same : program.columns.modify index (fun data => { data with range := column.range }) =
      program.columns := by
    apply List.ext_getElem?
    intro other
    rw [List.getElem?_modify]
    by_cases here : index = other
    · subst here
      simp [known]
    · simp [here]
  rw [narrowed, same]

theorem satisfies_narrowed {column : Column Rat} (known : program.columns[index]? = some column)
    {range : Range Rat} {extra : Rat → Prop}
    (meaning : ∀ value, range.Admits value ↔ column.range.Admits value ∧ extra value)
    (x : List Rat) :
    (program.narrowed index range).Satisfies x ↔
      program.Satisfies x ∧ extra (x.getD index 0) := by
  have own : (program.narrowed index range).columns[index]? = some { column with range } := by
    simp [getElem?_narrowed, known]
  constructor
  · intro held
    have here := (meaning _).mp (held.ranges index _ own)
    refine ⟨⟨by simpa [narrowed] using held.length, held.rows, ?_⟩, here.2⟩
    intro other data there
    by_cases same : index = other
    · subst same
      obtain rfl : column = data := by simpa [known] using there
      exact here.1
    · exact held.ranges other data (by simp [getElem?_narrowed, there, same])
  · rintro ⟨held, here⟩
    refine ⟨by simpa [narrowed] using held.length, held.rows, ?_⟩
    intro other data there
    by_cases same : index = other
    · subst same
      obtain rfl : { column with range } = data := by simpa [own] using there
      exact (meaning _).mpr ⟨held.ranges index column known, here⟩
    · obtain ⟨old, found, rfl⟩ : ∃ old, program.columns[other]? = some old ∧ old = data := by
        simpa [getElem?_narrowed, same] using there
      exact held.ranges other old found

/-- Another range is another range for directions. -/
theorem recession_narrowed (program : Program Rat) (index : Nat) (range : Range Rat) :
    (program.narrowed index range).recession = program.recession.narrowed index range.recession := by
  simp only [recession, narrowed, Program.mk.injEq, true_and]
  refine List.ext_getElem? fun other => ?_
  simp only [List.getElem?_map, List.getElem?_modify]
  cases program.columns[other]? <;> by_cases same : index = other <;>
    simp [same, Column.recession]

theorem recession_withoutRow (program : Program Rat) (index : Nat) :
    (program.withoutRow index).recession = program.recession.withoutRow index := by
  simp [recession, withoutRow, List.eraseIdx_map]

/-- Only the range of one column changes. -/
theorem columns_narrowed {column : Column Rat} (known : program.columns[index]? = some column)
    {range : Range Rat} (narrower : ∀ value, range.Admits value → column.range.Admits value) :
    List.SublistForall₂ Presolve.Narrower (program.narrowed index range).columns
      program.columns := by
  refine List.sublistForall₂_iff.mpr ⟨_, List.forall₂_iff_get.mpr ⟨by simp [narrowed], ?_⟩,
    List.Sublist.refl _⟩
  intro place _ inside
  have found := @getElem?_narrowed program index range place
  rw [List.getElem?_eq_getElem inside, Option.map_some] at found
  obtain ⟨_, same⟩ := List.getElem?_eq_some_iff.mp found
  rw [List.get_eq_getElem, List.get_eq_getElem, same]
  split
  · rename_i here
    subst here
    obtain rfl := Option.some.inj ((List.getElem?_eq_getElem inside).symm.trans known)
    exact ⟨narrower, rfl, rfl, rfl⟩
  · exact refl_of Presolve.Narrower _

theorem integral_narrowed (range : Range Rat) (x : List Rat) :
    (program.narrowed index range).Integral x ↔ program.Integral x := by
  constructor
  · intro whole other data there flagged
    refine whole other _ (by rw [getElem?_narrowed, there]; rfl) ?_
    split <;> exact flagged
  · intro whole other data there flagged
    rw [getElem?_narrowed, Option.map_eq_some_iff] at there
    obtain ⟨old, found, rfl⟩ := there
    refine whole other old found ?_
    split at flagged <;> exact flagged

theorem mem_narrowed {range : Range Rat} {data : Column Rat}
    (member : data ∈ (program.narrowed index range).columns) :
    data ∈ program.columns ∨ data.range = range := by
  obtain ⟨other, there⟩ := List.mem_iff_getElem?.mp member
  rw [getElem?_narrowed, Option.map_eq_some_iff] at there
  obtain ⟨old, found, rfl⟩ := there
  by_cases same : index = other
  · right
    simp [same]
  · left
    simpa [same] using List.mem_of_getElem? found

theorem Valid.narrowed (valid : program.Valid) {range : Range Rat}
    (nonempty : range.isEmpty = false) : (program.narrowed index range).Valid := by
  refine ⟨⟨by simpa [Program.narrowed] using valid.objective, fun row member => ?_⟩,
    fun data member => ?_⟩
  · simpa [Program.narrowed] using valid.rows row member
  · rcases mem_narrowed member with old | own
    · exact valid.nonempty data old
    · rw [own]
      exact nonempty

theorem mem_rows_iff {row : Row Rat} (known : program.rows[index]? = some row) (other : Row Rat) :
    other ∈ program.rows ↔ other = row ∨ other ∈ (program.withoutRow index).rows := by
  obtain ⟨inside, rfl⟩ := List.getElem?_eq_some_iff.mp known
  have permuted := List.getElem_cons_eraseIdx_perm inside
  rw [← permuted.mem_iff, List.mem_cons]
  rfl

theorem satisfies_withoutRow {row : Row Rat} (known : program.rows[index]? = some row)
    (x : List Rat) :
    program.Satisfies x ↔
      (program.withoutRow index).Satisfies x ∧ row.relation.Holds (dot row.coefs x) row.rhs := by
  constructor
  · intro held
    refine ⟨⟨held.length, fun other member => ?_, held.ranges⟩, ?_⟩
    · exact held.rows other ((mem_rows_iff known other).mpr (.inr member))
    · exact held.rows row ((mem_rows_iff known row).mpr (.inl rfl))
  · rintro ⟨held, own⟩
    refine ⟨held.length, fun other member => ?_, held.ranges⟩
    rcases (mem_rows_iff known other).mp member with rfl | rest
    · exact own
    · exact held.rows other rest

theorem Valid.withoutRow (valid : program.Valid) : (program.withoutRow index).Valid :=
  ⟨⟨valid.objective, fun row member => valid.rows row (List.mem_of_mem_eraseIdx member)⟩,
    valid.nonempty⟩

end Program

namespace Presolve

/-- A change that keeps the log, the objective and the feasible points, and relaxes
nothing. -/
theorem Reduces.of_equivalent {before after : State Rat} (log : after.removed = before.removed)
    (objective : ∀ x, after.program.objectiveValue x = before.program.objectiveValue x)
    (back : ∀ x, after.program.Satisfies x → before.program.Satisfies x)
    (whole : ∀ x, after.program.Integral x ↔ before.program.Integral x)
    (forth : ∀ x, before.program.Feasible x → after.program.Satisfies x)
    (columns : List.SublistForall₂ Narrower after.program.columns before.program.columns)
    (equational : before.program.Equational → after.program.Equational) :
    Reduces before after := by
  refine ⟨fun y held => ?_, fun x held => ?_, columns, equational⟩
  · exact ⟨y, back y held, (objective y).symm, (whole y).mp, by rw [log]⟩
  · exact ⟨x, ⟨forth x held, (whole x).mpr held.integral⟩, (objective x).le⟩

variable {state : State Rat} {index : Nat}

/-- A narrower range is sound when every feasible point lies in it. -/
theorem Reduces.narrowed {column : Column Rat}
    (known : state.program.columns[index]? = some column) {range : Range Rat}
    {extra : Rat → Prop}
    (meaning : ∀ value, range.Admits value ↔ column.range.Admits value ∧ extra value)
    (implied : ∀ x, state.program.Feasible x → extra (x.getD index 0)) {next : State Rat}
    (log : next.removed = state.removed)
    (program : next.program = state.program.narrowed index range) : Reduces state next := by
  refine Reduces.of_equivalent log (fun x => by rw [program]; rfl) ?back ?whole ?forth ?columns
    ?equational
  case back =>
    intro x held
    rw [program] at held
    exact ((Program.satisfies_narrowed known meaning x).mp held).1
  case whole =>
    intro x
    rw [program]
    exact Program.integral_narrowed range x
  case forth =>
    intro x held
    rw [program]
    exact (Program.satisfies_narrowed known meaning x).mpr ⟨held.toSatisfies, implied x held⟩
  case columns =>
    rw [program]
    exact Program.columns_narrowed known fun value held => ((meaning value).mp held).1
  case equational =>
    rw [program]
    exact id

/-- A row may be dropped when the rest of the program implies it. -/
theorem Reduces.withoutRow {row : Row Rat} (known : state.program.rows[index]? = some row)
    (implied : ∀ x, (state.program.withoutRow index).Satisfies x →
      row.relation.Holds (dot row.coefs x) row.rhs) {next : State Rat}
    (log : next.removed = state.removed)
    (program : next.program = state.program.withoutRow index) : Reduces state next := by
  refine Reduces.of_equivalent log (fun x => by rw [program]; rfl) ?back ?whole ?forth ?columns
    ?equational
  case back =>
    intro x held
    rw [program] at held
    exact (Program.satisfies_withoutRow known x).mpr ⟨held, implied x held⟩
  case whole =>
    intro x
    rw [program]
    exact Iff.rfl
  case forth =>
    intro x held
    rw [program]
    exact ((Program.satisfies_withoutRow known x).mp held.toSatisfies).1
  case columns =>
    rw [program]
    exact refl_of _ _
  case equational =>
    rw [program]
    exact fun equational other member => equational other (List.mem_of_mem_eraseIdx member)

/-- A narrower range is sound for directions as well when they respect its new bounds. -/
theorem Refines.narrowed {column : Column Rat}
    (known : state.program.columns[index]? = some column) {range extra : Range Rat}
    (meaning : ∀ value, range.Admits value ↔ column.range.Admits value ∧ extra.Admits value)
    (recedes : ∀ value, range.recession.Admits value ↔
      column.range.recession.Admits value ∧ extra.recession.Admits value)
    (implied : ∀ x, state.program.Feasible x → extra.Admits (x.getD index 0))
    (directed : ∀ d, state.program.recession.Satisfies d →
      extra.recession.Admits (d.getD index 0)) {next : State Rat}
    (log : next.removed = state.removed)
    (program : next.program = state.program.narrowed index range) : Refines state next := by
  refine ⟨Reduces.narrowed known meaning implied log program, ?_⟩
  refine Reduces.narrowed (Program.getElem?_recession known) recedes
    (fun d held => directed d held.toSatisfies) ?_ ?_
  · simp only [State.recession, log]
  · simp only [State.recession, program, Program.recession_narrowed]

/-- A row may be dropped when the rest implies it for points and for directions. -/
theorem Refines.withoutRow {row : Row Rat} (known : state.program.rows[index]? = some row)
    (implied : ∀ x, (state.program.withoutRow index).Satisfies x →
      row.relation.Holds (dot row.coefs x) row.rhs)
    (directed : ∀ d, (state.program.withoutRow index).recession.Satisfies d →
      row.relation.Holds (dot row.coefs d) 0) {next : State Rat}
    (log : next.removed = state.removed)
    (program : next.program = state.program.withoutRow index) : Refines state next := by
  have there : state.recession.program.rows[index]? = some row.recession := by
    simp [State.recession, Program.recession, known]
  refine ⟨Reduces.withoutRow known implied log program, Reduces.withoutRow there ?_ ?_ ?_⟩
  · intro d held
    refine directed d ?_
    rw [Program.recession_withoutRow]
    exact held
  · simp only [State.recession, log]
  · simp only [State.recession, program, Program.recession_withoutRow]

/-! ### Tightening a column -/

/-- The state with one column narrowed, and nothing else but counters changed. -/
def Narrows (state next : State Rat) (index : Nat) (range : Range Rat) : Prop :=
  next.removed = state.removed ∧ next.program = state.program.narrowed index range

/-- Tightening intersects a range with the new bounds, and stops exactly when nothing is
left. -/
theorem ends_tighten {column : Column Rat} (known : state.program.columns[index]? = some column)
    (lower upper : Option Rat) :
    Ends (tighten index lower upper) state
      (fun _ next => ∃ range, Narrows state next index range ∧ range.isEmpty = false ∧
        (∀ value, range.Admits value ↔
          column.range.Admits value ∧ (Range.mk lower upper).Admits value) ∧
        ∀ value, range.recession.Admits value ↔ column.range.recession.Admits value ∧
          (Range.mk lower upper).recession.Admits value)
      fun verdict _ => verdict = .infeasible ∧
        ∀ value, ¬ (column.range.Admits value ∧ (Range.mk lower upper).Admits value) := by
  simp only [tighten, ends_bind, ends_columnAt known]
  generalize same : (upper.elim (lower.elim column.range column.range.tightenLower)
    (lower.elim column.range column.range.tightenLower).tightenUpper) = range
  have meaning : ∀ value, range.Admits value ↔
      column.range.Admits value ∧ (Range.mk lower upper).Admits value := by
    intro value
    subst same
    rw [Range.admits_mk lower upper]
    cases lower <;> cases upper <;>
      simp [Range.admits_tightenLower, Range.admits_tightenUpper, and_assoc]
  have recedes : ∀ value, range.recession.Admits value ↔ column.range.recession.Admits value ∧
      (Range.mk lower upper).recession.Admits value := by
    intro value
    subst same
    rw [Range.admits_recession_iff (Range.mk lower upper)]
    cases lower <;> cases upper <;>
      simp [Range.admits_recession_tightenLower, Range.admits_recession_tightenUpper, and_assoc]
  simp only [setRange, ends_modify]
  cases empty : range.isEmpty with
  | true =>
    simp only [↓reduceIte, ends_bind, ends_throw]
    exact ⟨trivial, fun value held =>
      Range.not_admits_of_isEmpty empty value ((meaning value).mpr held)⟩
  | false =>
    simp only [Bool.false_eq_true, ↓reduceIte]
    split
    · exact ⟨range, ⟨rfl, rfl⟩, empty, meaning, recedes⟩
    · exact ⟨range, ⟨rfl, rfl⟩, empty, meaning, recedes⟩

/-- Tightening by bounds that every feasible point and every direction respects is sound. -/
theorem ends_tighten_implied {column : Column Rat} (valid : state.program.Valid)
    (known : state.program.columns[index]? = some column) {lower upper : Option Rat}
    (implied : ∀ x, state.program.Feasible x → (Range.mk lower upper).Admits (x.getD index 0))
    (directed : ∀ d, state.program.recession.Satisfies d →
      (Range.mk lower upper).recession.Admits (d.getD index 0)) :
    Ends (tighten index lower upper) state
      (fun _ next => next.program.Valid ∧ Refines state next ∧
        ∃ range, Narrows state next index range ∧ (∀ value, range.Admits value ↔
          column.range.Admits value ∧ (Range.mk lower upper).Admits value) ∧
        ∀ value, range.recession.Admits value ↔ column.range.recession.Admits value ∧
          (Range.mk lower upper).recession.Admits value)
      fun verdict _ => verdict.Certified state.program := by
  refine (ends_tighten known lower upper).mono ?_ ?_
  · rintro _ next ⟨range, ⟨log, program⟩, nonempty, meaning, recedes⟩
    refine ⟨?_, Refines.narrowed known meaning recedes implied directed log program,
      range, ⟨log, program⟩, meaning, recedes⟩
    rw [program]
    exact valid.narrowed nonempty
  · rintro verdict _ ⟨rfl, none⟩ x held
    exact none _ ⟨held.ranges index column known, implied x held⟩

end Presolve

end MixedInteger
