import MixedInteger.Proofs.Recession
import MixedInteger.Proofs.Simplex.Phases

/-! The equality form of a program. Its solutions in the box are the points of the program
with their slacks: leaving the slacks out of a solution gives a point of the program, and
every point of the program becomes a solution once each inequality row gets its slack. The
costs agree up to the constant that the shift of the lower bounds leaves. Together with the
two phases this makes a solve from scratch right about the program. -/
namespace MixedInteger.Simplex

/-! ### The parts of the form -/

theorem lowerBounds_eq_ok {columns : List (Column Rat)} {start : Nat} {lower : List Rat}
    (found : lowerBounds start columns = .ok lower) :
    columns.map (fun column => column.range.lower) = lower.map some := by
  induction columns generalizing start lower with
  | nil =>
    obtain rfl : [] = lower := by simpa [lowerBounds] using found
    rfl
  | cons column columns ih =>
    cases bound : column.range.lower with
    | none =>
      rw [lowerBounds] at found
      simp only [bound] at found
      cases found
    | some value =>
      cases rest : lowerBounds (start + 1) columns with
      | error cause => simp [lowerBounds, bound, rest, bind, Except.bind] at found
      | ok others =>
        obtain rfl : value :: others = lower := by
          simpa [lowerBounds, bound, rest, bind, Except.bind, pure, Except.pure] using found
        simp [bound, ih rest]

theorem exists_lowerBounds {columns : List (Column Rat)} (start : Nat)
    (bounded : ∀ column ∈ columns, column.range.lower ≠ none) :
    ∃ lower, lowerBounds start columns = .ok lower := by
  induction columns generalizing start with
  | nil => exact ⟨[], rfl⟩
  | cons column columns ih =>
    obtain ⟨value, bound⟩ := Option.ne_none_iff_exists'.mp (bounded column (by simp))
    obtain ⟨others, rest⟩ := ih (start + 1) fun other member => bounded other (by simp [member])
    exact ⟨value :: others, by simp [lowerBounds, bound, rest, bind, Except.bind, pure, Except.pure]⟩

namespace StandardForm

/-- The rows with a slack, by position, with their relations. -/
def slackRows (program : Program Rat) : List (Nat × Relation) :=
  (program.rows.zipIdx.filter fun (row, _) => row.relation ≠ .eq).map
    fun (row, index) => (index, row.relation)

/-- What building the form from a program says about both. -/
structure Builds (program : Program Rat) (form : StandardForm Rat) (lower : List Rat) : Prop where
  valid : program.Valid
  lowers : program.columns.map (fun column => column.range.lower) = lower.map some
  constant : form.constant = program.constant + dot program.objective lower
  rows : form.rows = program.rows.zipIdx.map fun (row, index) =>
    { coefs := row.coefs ++ slackCoefs (slackRows program) index
      rhs := row.rhs - dot row.coefs lower }
  columns : form.columns =
    ((program.columns.zip (program.objective.zip lower)).map fun (column, cost, shift) =>
      { cost, upper := column.range.upper.map (· - shift), lower := shift
        integral := column.integral }) ++
    (slackRows program).map fun _ => { cost := 0, upper := none, lower := 0, integral := false }
  programColumns : form.programColumns = program.columns.length

theorem builds_of_ofProgram {program : Program Rat} {form : StandardForm Rat}
    (built : ofProgram program = .ok form) : ∃ lower, Builds program form lower := by
  unfold ofProgram at built
  cases valid : program.validate with
  | error cause => simp [valid, bind, Except.bind] at built
  | ok =>
    cases found : lowerBounds 0 program.columns with
    | error cause => simp [valid, found, bind, Except.bind] at built
    | ok lower =>
      simp only [valid, found, bind, Except.bind, pure, Except.pure, Except.ok.injEq] at built
      refine ⟨lower, program.validate_eq_ok_iff.mp valid, lowerBounds_eq_ok found, ?_, ?_, ?_, ?_⟩
      · rw [← built]
        exact foldl_dot _ _ _
      · rw [← built]
        rfl
      · rw [← built]
        rfl
      · rw [← built]

/-- A valid program whose columns are all bounded below has a form. -/
theorem exists_ofProgram {program : Program Rat} (valid : program.Valid)
    (bounded : ∀ column ∈ program.columns, column.range.lower ≠ none) :
    ∃ form, ofProgram program = .ok form := by
  obtain ⟨lower, found⟩ := exists_lowerBounds 0 bounded
  unfold ofProgram
  simp only [program.validate_eq_ok_iff.mpr valid, found, bind, Except.bind]
  exact ⟨_, rfl⟩

end StandardForm

/-! ### Slacks -/

theorem mem_slackRows {program : Program Rat} {index : Nat} {relation : Relation} :
    (index, relation) ∈ StandardForm.slackRows program ↔ ∃ row, program.rows[index]? = some row ∧
      row.relation = relation ∧ relation ≠ .eq := by
  simp only [StandardForm.slackRows, List.mem_map, List.mem_filter, Prod.exists, Prod.mk.injEq,
    List.mem_zipIdx_iff_getElem?, decide_eq_true_eq]
  constructor
  · rintro ⟨row, place, ⟨found, inequality⟩, rfl, rfl⟩
    exact ⟨row, found, rfl, inequality⟩
  · rintro ⟨row, found, rfl, inequality⟩
    exact ⟨row, index, ⟨found, inequality⟩, rfl, rfl⟩

theorem nodup_slackRows (program : Program Rat) :
    ((StandardForm.slackRows program).map Prod.fst).Nodup := by
  have indices : (program.rows.zipIdx.map Prod.snd).Nodup := by
    rw [List.zipIdx_map_snd]
    exact List.nodup_range'
  rw [StandardForm.slackRows, List.map_map]
  exact indices.sublist (List.filter_sublist.map Prod.snd)

/-- The sign of a slack in its row. -/
def slackSign (relation : Relation) : Rat := if relation = .le then 1 else -1

theorem form_slackCoefs {slackRows : List (Nat × Relation)}
    (distinct : (slackRows.map Prod.fst).Nodup) {place index : Nat} {relation : Relation}
    (found : slackRows[place]? = some (index, relation)) (z : Nat → Rat) :
    form (slackCoefs slackRows index) z = slackSign relation * z place := by
  have value : (slackCoefs slackRows index : List Rat).getD place 0 = slackSign relation := by
    simp [slackCoefs, found, slackSign]
  rw [form_eq_single place fun other different => ?_, value]
  cases there : slackRows[other]? with
  | none => simp [slackCoefs, there]
  | some pair =>
    have apart : pair.1 ≠ index := by
      rintro rfl
      have inside : other < (slackRows.map Prod.fst).length := by
        simpa using (List.getElem?_eq_some_iff.mp there).1
      refine different ((List.getElem?_inj inside distinct).mp ?_)
      simp [there, found]
    simp [slackCoefs, there, apart]

theorem form_slackCoefs_of_not_mem {slackRows : List (Nat × Relation)} {index : Nat}
    (absent : ∀ relation, (index, relation) ∉ slackRows) (z : Nat → Rat) :
    form (slackCoefs slackRows index) z = 0 := by
  refine form_eq_zero fun place => ?_
  cases there : slackRows[place]? with
  | none => simp [slackCoefs, there]
  | some pair =>
    have apart : pair.1 ≠ index := by
      rintro rfl
      exact absent pair.2 (List.mem_of_getElem? there)
    simp [slackCoefs, there, apart]

/-! ### The tableau of a form -/

namespace StandardForm.Builds

variable {program : Program Rat} {form : StandardForm Rat} {lower : List Rat}

theorem length_lower (builds : Builds program form lower) :
    lower.length = program.columns.length := by
  have counts := congrArg List.length builds.lowers
  simpa using counts.symm

theorem lower_eq (builds : Builds program form lower) {index : Nat} {column : Column Rat}
    (known : program.columns[index]? = some column) :
    lower[index]? = some (lower.getD index 0) ∧
      column.range.lower = some (lower.getD index 0) := by
  obtain ⟨inside, -⟩ := List.getElem?_eq_some_iff.mp known
  have there := List.getElem?_eq_getElem (builds.length_lower.symm ▸ inside)
  have entry := congrArg (·[index]?) builds.lowers
  simp only [List.getElem?_map, known, there, Option.map_some, Option.some.injEq] at entry
  rw [List.getD_eq_getElem?_getD, there, Option.getD_some]
  exact ⟨rfl, entry⟩

/-- A column of the program in the tableau. -/
theorem column_own (builds : Builds program form lower) {index : Nat} {column : Column Rat}
    (known : program.columns[index]? = some column) :
    (Tableau.ofForm form).columns[index]? = some
      { cost := program.objective.getD index 0
        upper := column.range.upper.map (· - lower.getD index 0)
        lower := lower.getD index 0
        integral := column.integral } := by
  obtain ⟨inside, -⟩ := List.getElem?_eq_some_iff.mp known
  obtain ⟨shift, -⟩ := builds.lower_eq known
  have within : index < program.objective.length := builds.valid.objective.symm ▸ inside
  have cost := List.getElem?_eq_getElem within
  have price : program.objective.getD index 0 = program.objective[index] := by simp [cost]
  simp only [Tableau.ofForm, builds.columns, List.getElem?_map]
  rw [List.getElem?_append_left (by
    simp [builds.length_lower, builds.valid.objective, inside])]
  simp only [List.getElem?_map, List.zip, List.getElem?_zipWith, known, cost, shift,
    Option.map_some, price]

/-- A slack column in the tableau. -/
theorem column_slack (builds : Builds program form lower) {place : Nat}
    (inside : place < (slackRows program).length) :
    (Tableau.ofForm form).columns[program.columns.length + place]? =
      some { cost := 0, upper := none, lower := 0, integral := false } := by
  have own : ((program.columns.zip (program.objective.zip lower)).map fun
      (column, cost, shift) => ({ cost, upper := column.range.upper.map (· - shift), lower := shift
                                  integral := column.integral } : FormColumn Rat)).length =
      program.columns.length := by
    simp [builds.length_lower, builds.valid.objective]
  simp only [Tableau.ofForm, builds.columns, List.getElem?_map]
  rw [List.getElem?_append_right (by rw [own]; omega), own, Nat.add_sub_cancel_left]
  simp [inside]

theorem columnCount (builds : Builds program form lower) :
    (Tableau.ofForm form).columnCount = program.columns.length + (slackRows program).length := by
  simp [Tableau.columnCount, Tableau.ofForm, builds.columns, builds.length_lower,
    builds.valid.objective]

/-- Every position of the tableau is one of the program's, a slack or past the end. -/
theorem position_cases (builds : Builds program form lower) (index : Nat) :
    (∃ column, program.columns[index]? = some column) ∨
      (∃ place < (slackRows program).length, index = program.columns.length + place) ∨
      (program.columns.length ≤ index ∧ (Tableau.ofForm form).columns[index]? = none) := by
  by_cases own : index < program.columns.length
  · exact .inl ⟨_, List.getElem?_eq_getElem own⟩
  · by_cases slack : index < program.columns.length + (slackRows program).length
    · exact .inr (.inl ⟨index - program.columns.length, by omega, by omega⟩)
    · refine .inr (.inr ⟨not_lt.mp own, List.getElem?_eq_none ?_⟩)
      have count := builds.columnCount
      simp only [Tableau.columnCount] at count
      omega

theorem getD_lower_of_le (builds : Builds program form lower) {index : Nat}
    (outside : program.columns.length ≤ index) : lower.getD index 0 = 0 := by
  have past : lower.length ≤ index := by rw [builds.length_lower]; exact outside
  simp [past]

/-- The tableau reads a point by shifting it by the lower bounds. -/
theorem reading_eq (builds : Builds program form lower) (x : Nat → Rat) :
    (Tableau.ofForm form).reading x = fun index => x index - lower.getD index 0 := by
  funext index
  rcases builds.position_cases index with ⟨column, known⟩ | ⟨place, inside, rfl⟩ | ⟨past, none⟩
  · exact Tableau.reading_eq_sub (builds.column_own known) rfl x
  · rw [Tableau.reading_eq_sub (builds.column_slack inside) rfl x,
      builds.getD_lower_of_le (Nat.le_add_right _ _)]
  · rw [builds.getD_lower_of_le past, sub_zero]
    simp only [Tableau.reading, Tableau.readThrough, none]

/-- The box is the program's ranges, with slacks that are not negative. -/
theorem inBounds_iff (builds : Builds program form lower) (x : Nat → Rat) :
    Tableau.InBounds (Tableau.ofForm form).frame x ↔
      (∀ (index : Nat) (column : Column Rat), program.columns[index]? = some column →
        column.range.Admits (x index)) ∧ ∀ index, program.columns.length ≤ index → 0 ≤ x index := by
  have own : ∀ (index : Nat) (column : Column Rat), program.columns[index]? = some column →
      (column.range.Admits (x index) ↔ lower.getD index 0 ≤ x index ∧
        ∀ upper, column.range.upper.map (· - lower.getD index 0) = some upper →
          x index ≤ lower.getD index 0 + upper) := by
    intro index column known
    obtain ⟨-, low⟩ := builds.lower_eq known
    cases high : column.range.upper with
    | none => simp [Range.Admits, low, high]
    | some upper => simp [Range.Admits, low, high]
  constructor
  · intro inside
    refine ⟨fun index column known => ?_, fun index outside => ?_⟩
    · have here := inside index
      rw [Tableau.getElem?_frame, builds.column_own known] at here
      exact (own index column known).mpr here
    · have here := inside index
      rcases builds.position_cases index with ⟨column, known⟩ | ⟨place, below, rfl⟩ | ⟨past, none⟩
      · obtain ⟨below, -⟩ := List.getElem?_eq_some_iff.mp known
        omega
      · rw [Tableau.getElem?_frame, builds.column_slack below] at here
        exact here.1
      · rw [Tableau.getElem?_frame, none] at here
        exact here
  · rintro ⟨ranges, slacks⟩ index
    rw [Tableau.getElem?_frame]
    rcases builds.position_cases index with ⟨column, known⟩ | ⟨place, below, rfl⟩ | ⟨past, none⟩
    · rw [builds.column_own known]
      exact (own index column known).mp (ranges index column known)
    · rw [builds.column_slack below]
      refine ⟨slacks _ (Nat.le_add_right _ _), ?_⟩
      rintro upper ⟨⟩
    · rw [none]
      exact slacks index past

theorem costAt_eq (builds : Builds program form lower) (x : Nat → Rat) :
    Tableau.costAt (Tableau.ofForm form).frame x + form.constant =
      MixedInteger.form program.objective x + program.constant := by
  have costs : (Tableau.ofForm form).frame.map TableauColumn.cost =
      program.objective ++ List.replicate (slackRows program).length 0 := by
    refine List.ext_getElem? fun index => ?_
    rw [List.getElem?_map, Tableau.getElem?_frame]
    rcases builds.position_cases index with ⟨column, known⟩ | ⟨place, below, rfl⟩ | ⟨past, none⟩
    · obtain ⟨inside, -⟩ := List.getElem?_eq_some_iff.mp known
      have within : index < program.objective.length := builds.valid.objective.symm ▸ inside
      rw [builds.column_own known, List.getElem?_append_left within]
      simp [TableauColumn.fixedPart, List.getElem?_eq_getElem within]
    · rw [builds.column_slack below, List.getElem?_append_right (by
        rw [builds.valid.objective]; omega), builds.valid.objective, Nat.add_sub_cancel_left]
      simp [TableauColumn.fixedPart, below]
    · have far : (Tableau.ofForm form).columnCount ≤ index := List.getElem?_eq_none_iff.mp none
      rw [builds.columnCount] at far
      have beyond : (program.objective ++ List.replicate (slackRows program).length
          (0 : Rat)).length ≤ index := by
        simpa [builds.valid.objective] using far
      rw [none, List.getElem?_eq_none beyond]
      rfl
  have shifted : Tableau.costAt (Tableau.ofForm form).frame x =
      MixedInteger.form ((Tableau.ofForm form).frame.map TableauColumn.cost)
        (fun index => x index - lower.getD index 0) := by
    unfold Tableau.costAt
    congr 1
    funext index
    rw [Tableau.getElem?_frame]
    rcases builds.position_cases index with ⟨column, known⟩ | ⟨place, below, rfl⟩ | ⟨past, none⟩
    · rw [builds.column_own known]
      rfl
    · rw [builds.column_slack below, builds.getD_lower_of_le (Nat.le_add_right _ _)]
      rfl
    · rw [none, builds.getD_lower_of_le past, sub_zero]
      rfl
  rw [shifted, costs, form_append, form_replicate_zero, add_zero, form_sub, builds.constant,
    dot_eq_form]
  ring

/-- The rows of the tableau are the program's rows with their slacks. -/
theorem holds_iff (builds : Builds program form lower) (x : Nat → Rat) :
    (Tableau.ofForm form).Holds x ↔ ∀ (index : Nat) (row : Row Rat),
      program.rows[index]? = some row → MixedInteger.form row.coefs x +
        MixedInteger.form (slackCoefs (slackRows program) index)
          (fun place => x (place + program.columns.length)) = row.rhs := by
  have meets : ∀ (index : Nat) (row : Row Rat), program.rows[index]? = some row →
      ((⟨row.coefs ++ slackCoefs (slackRows program) index, row.rhs - dot row.coefs lower, none⟩ :
          TableauRow Rat).Meets ((Tableau.ofForm form).reading x) ↔
        MixedInteger.form row.coefs x + MixedInteger.form (slackCoefs (slackRows program) index)
          (fun place => x (place + program.columns.length)) = row.rhs) := by
    intro index row found
    have width := builds.valid.rows row (List.mem_of_getElem? found)
    have slackPart : (fun place => x (place + row.coefs.length) -
        lower.getD (place + row.coefs.length) 0) = fun place =>
          x (place + program.columns.length) := by
      funext place
      rw [width, builds.getD_lower_of_le (Nat.le_add_left _ _), sub_zero]
    rw [TableauRow.Meets, builds.reading_eq, form_append, slackPart, form_sub, dot_eq_form]
    constructor <;> intro same <;> linarith
  rw [Tableau.holds_iff]
  simp only [Tableau.ofForm, builds.rows, List.map_map, List.getElem?_map, Option.map_eq_some_iff,
    Function.comp_def]
  constructor
  · intro held index row found
    refine (meets index row found).mp (held index _ ⟨(row, index), ?_, rfl⟩)
    simp [List.getElem?_zipIdx, found]
  · rintro held index _ ⟨⟨row, place⟩, found, rfl⟩
    obtain ⟨there, rfl⟩ : program.rows[index]? = some row ∧ index = place := by
      simpa [List.getElem?_zipIdx] using found
    exact (meets index row there).mpr (held index row there)

end StandardForm.Builds

end MixedInteger.Simplex
