import MixedInteger.Proofs.Simplex.EqualityForm

/-! A solve from scratch is right about the program. Solutions of the equality form in
the box and points of the program are two views of the same thing, with equal objectives, so
the status that both phases reach for the tableau holds of the program: an optimal point
cannot be beaten, an infeasible program has no point, and an unbounded one has points below
every limit. -/
namespace MixedInteger.Simplex

/-! ### Points and values -/

/-- The values of the first columns of a point. -/
def firstValues (count : Nat) (x : Nat → Rat) : List Rat := (List.range count).map x

theorem getD_firstValues {count index : Nat} (inside : index < count) (x : Nat → Rat) :
    (firstValues count x).getD index 0 = x index := by
  simp [firstValues, inside]

theorem length_firstValues (count : Nat) (x : Nat → Rat) :
    (firstValues count x).length = count := by
  simp [firstValues]

theorem dot_firstValues {coefs : List Rat} {count : Nat} (width : coefs.length = count)
    (x : Nat → Rat) : dot coefs (firstValues count x) = form coefs x := by
  rw [dot_eq_form]
  refine form_congr fun column inside => ?_
  rw [getD_firstValues (width ▸ inside)]

/-- The solution that is read off a tableau is its vertex. -/
theorem take_solution {tableau : Tableau Rat}
    (units : Tableau.UnitColumns (fun _ => True) tableau.rows) {count : Nat}
    (enough : count ≤ tableau.columnCount) :
    tableau.solution.take count = firstValues count tableau.vertexPoint := by
  have length : (tableau.solution.take count).length = count := by
    rw [List.length_take, Tableau.length_solution]
    omega
  refine List.ext_getElem (by rw [length, length_firstValues]) fun index inside _ => ?_
  have below : index < tableau.columnCount := by omega
  have value := Tableau.getD_solution units below
  have there : index < tableau.solution.length := by rwa [Tableau.length_solution]
  rw [List.getD_eq_getElem?_getD, List.getElem?_eq_getElem there, Option.getD_some] at value
  rw [List.getElem_take, value]
  simp [firstValues]

theorem slackSign_mul_self (relation : Relation) : slackSign relation * slackSign relation = 1 := by
  unfold slackSign
  split <;> norm_num

/-- An inequality holds when its slack is not negative. -/
theorem holds_iff_slack {relation : Relation} (inequality : relation ≠ .eq) (lhs rhs : Rat) :
    relation.Holds lhs rhs ↔ 0 ≤ slackSign relation * (rhs - lhs) := by
  cases relation with
  | le => simp [Relation.Holds, slackSign]
  | eq => exact absurd rfl inequality
  | ge => simp [Relation.Holds, slackSign]

namespace StandardForm.Builds

variable {program : Program Rat} {form : StandardForm Rat} {lower : List Rat}

/-! ### Between the program and its form -/

/-- The tableau of a form is ready for phase one. -/
theorem prepared (builds : Builds program form lower) : (Tableau.ofForm form).Prepared where
  wide := by
    refine ⟨fun row member => ?_, ?_, le_rfl⟩
    · simp only [Tableau.ofForm, builds.rows, List.map_map, List.mem_map, Function.comp_def] at member
      obtain ⟨⟨source, index⟩, there, rfl⟩ := member
      have width := builds.valid.rows source (List.fst_mem_of_mem_zipIdx there)
      rw [builds.columnCount, List.length_append, width, slackCoefs, List.length_map]
    · simp [Tableau.ofForm, Tableau.columnCount]
  framed := by
    constructor
    · intro index upper bound
      rcases builds.position_cases index with ⟨column, known⟩ | ⟨place, inside, rfl⟩ | ⟨past, none⟩
      · rw [Tableau.upperAt, builds.column_own known] at bound
        obtain ⟨high, finite, rfl⟩ := Option.map_eq_some_iff.mp bound
        obtain ⟨-, low⟩ := builds.lower_eq known
        have ordered := Range.lower_le_upper
          (builds.valid.nonempty column (List.mem_of_getElem? known)) low finite
        exact sub_nonneg.mpr ordered
      · rw [Tableau.upperAt, builds.column_slack inside] at bound
        cases bound
      · rw [Tableau.upperAt, none] at bound
        cases bound
    · intro column member complemented
      obtain ⟨source, -, rfl⟩ := List.mem_map.mp member
      cases complemented
  units := by
    intro place other row there basic _ found _ named
    simp only [Tableau.ofForm, List.getElem?_map, Option.map_eq_some_iff] at found
    obtain ⟨source, -, rfl⟩ := found
    cases named
  free := fun ready => nomatch ready
  priced := fun ready => nomatch ready

/-- A solution of the form in the box, without its slacks, is a point of the program. -/
theorem satisfies (builds : Builds program form lower) {x : Nat → Rat}
    (held : (Tableau.ofForm form).Holds x)
    (inside : Tableau.InBounds (Tableau.ofForm form).frame x) :
    program.Satisfies (firstValues program.columns.length x) := by
  obtain ⟨ranges, slacks⟩ := (builds.inBounds_iff x).mp inside
  refine ⟨length_firstValues _ x, fun row member => ?_, fun index column known => ?_⟩
  · obtain ⟨index, found⟩ := List.mem_iff_getElem?.mp member
    have equation := (builds.holds_iff x).mp held index row found
    rw [dot_firstValues (builds.valid.rows row member)]
    by_cases equality : row.relation = .eq
    · rw [form_slackCoefs_of_not_mem, add_zero] at equation
      · rw [equality]
        exact equation
      · intro relation there
        obtain ⟨same, again, rfl, inequality⟩ := mem_slackRows.mp there
        obtain rfl := Option.some.inj (found.symm.trans again)
        exact inequality equality
    · obtain ⟨place, there⟩ :=
        List.mem_iff_getElem?.mp (mem_slackRows.mpr ⟨row, found, rfl, equality⟩)
      rw [form_slackCoefs (nodup_slackRows program) there] at equation
      rw [holds_iff_slack equality, ← equation, add_sub_cancel_left, ← mul_assoc,
        slackSign_mul_self, one_mul]
      exact slacks _ (Nat.le_add_left _ _)
  · obtain ⟨below, -⟩ := List.getElem?_eq_some_iff.mp known
    rw [getD_firstValues below]
    exact ranges index column known

theorem objectiveValue_firstValues (builds : Builds program form lower) (x : Nat → Rat) :
    program.objectiveValue (firstValues program.columns.length x) =
      Tableau.costAt (Tableau.ofForm form).frame x + form.constant := by
  rw [builds.costAt_eq, Program.objectiveValue, dot_firstValues builds.valid.objective]

end StandardForm.Builds

/-- A point of the program with the slacks that its rows leave. -/
def withSlacks (program : Program Rat) (y : List Rat) (index : Nat) : Rat :=
  if index < program.columns.length then y.getD index 0
  else
    match (StandardForm.slackRows program)[index - program.columns.length]? with
    | some (place, relation) => slackSign relation *
        (((program.rows[place]?).map fun row => row.rhs - dot row.coefs y).getD 0)
    | none => 0

namespace StandardForm.Builds

variable {program : Program Rat} {form : StandardForm Rat} {lower : List Rat} {y : List Rat}

theorem firstValues_withSlacks (held : program.Satisfies y) :
    firstValues program.columns.length (withSlacks program y) = y := by
  refine List.ext_getElem ?_ fun index below there => ?_
  · rw [length_firstValues, held.length]
  · rw [length_firstValues] at below
    simp [firstValues, withSlacks, below, there]

/-- With its slacks, a point of the program solves the form. -/
theorem holds_withSlacks (builds : Builds program form lower) (held : program.Satisfies y) :
    (Tableau.ofForm form).Holds (withSlacks program y) := by
  rw [builds.holds_iff]
  intro index row found
  have member := List.mem_of_getElem? found
  rw [← dot_firstValues (builds.valid.rows row member), firstValues_withSlacks held]
  by_cases equality : row.relation = .eq
  · have equation := held.rows row member
    rw [equality] at equation
    rw [form_slackCoefs_of_not_mem, add_zero]
    · exact equation
    · intro relation there
      obtain ⟨same, again, rfl, inequality⟩ := mem_slackRows.mp there
      obtain rfl := Option.some.inj (found.symm.trans again)
      exact inequality equality
  · obtain ⟨place, there⟩ :=
      List.mem_iff_getElem?.mp (mem_slackRows.mpr ⟨row, found, rfl, equality⟩)
    have slack : withSlacks program y (place + program.columns.length) =
        slackSign row.relation * (row.rhs - dot row.coefs y) := by
      simp [withSlacks, there, found]
    rw [form_slackCoefs (nodup_slackRows program) there, slack, ← mul_assoc, slackSign_mul_self]
    ring

/-- With its slacks, a point of the program lies in the box. -/
theorem inBounds_withSlacks (builds : Builds program form lower) (held : program.Satisfies y) :
    Tableau.InBounds (Tableau.ofForm form).frame (withSlacks program y) := by
  rw [builds.inBounds_iff]
  constructor
  · intro index column known
    obtain ⟨below, -⟩ := List.getElem?_eq_some_iff.mp known
    rw [withSlacks, if_pos below]
    exact held.ranges index column known
  · intro index outside
    rw [withSlacks, if_neg (not_lt.mpr outside)]
    cases there : (slackRows program)[index - program.columns.length]? with
    | none => exact le_rfl
    | some pair =>
      obtain ⟨place, relation⟩ := pair
      obtain ⟨row, found, rfl, inequality⟩ := mem_slackRows.mp (List.mem_of_getElem? there)
      simp only [found, Option.map_some, Option.getD_some]
      exact (holds_iff_slack inequality _ _).mp (held.rows row (List.mem_of_getElem? found))

theorem costAt_withSlacks (builds : Builds program form lower) (held : program.Satisfies y) :
    Tableau.costAt (Tableau.ofForm form).frame (withSlacks program y) + form.constant =
      program.objectiveValue y := by
  rw [← builds.objectiveValue_firstValues, firstValues_withSlacks held]

end StandardForm.Builds

/-! ### The solve -/

/-- What the outcome of a linear solve says about the program. -/
def Solved.Means (program : Program Rat) (solved : Solved Rat) : Prop :=
  match solved.status with
  | .optimal => program.Satisfies solved.values ∧
      program.objectiveValue solved.values = solved.objective ∧
      ∀ y, program.Satisfies y → solved.objective ≤ program.objectiveValue y
  | .infeasible => ∀ y, ¬ program.Satisfies y
  | .unbounded => ∀ limit, ∃ y, program.Satisfies y ∧ program.objectiveValue y < limit
  | .iterationLimit => True
  | .error => False

/-- An optimal tableau of the form gives an optimal point of the program. -/
theorem StandardForm.Builds.optimal {program : Program Rat} {form : StandardForm Rat}
    {lower : List Rat} (builds : Builds program form lower) {final : Tableau Rat}
    (restored : (Tableau.ofForm form).Restored final)
    (optimal : ∀ column < (Tableau.ofForm form).columnCount, 0 ≤ final.reduced.getD column 0) :
    program.Satisfies (final.solution.take form.programColumns) ∧
      program.objectiveValue (final.solution.take form.programColumns) = final.objectiveValue ∧
      ∀ y, program.Satisfies y → final.objectiveValue ≤ program.objectiveValue y := by
  obtain ⟨held, inside, cost, least⟩ := restored.optimum optimal
  have enough : program.columns.length ≤ final.columnCount := by
    rw [Tableau.columnCount_congr restored.frame, builds.columnCount]
    omega
  have constant : final.constant = form.constant := restored.constant
  rw [builds.programColumns, take_solution restored.vertex.units enough]
  refine ⟨builds.satisfies held inside, ?_, fun y satisfied => ?_⟩
  · rw [builds.objectiveValue_firstValues, cost, Tableau.objectiveValue, constant]
  · have below := least _ (builds.holds_withSlacks satisfied) (builds.inBounds_withSlacks satisfied)
    rw [← builds.costAt_withSlacks satisfied, Tableau.objectiveValue, constant]
    exact add_le_add_left below _

/-- What the status of an optimisation says about the tableau of the form, it says about the
program. -/
theorem StandardForm.Builds.solved_means {program : Program Rat} {form : StandardForm Rat}
    {lower : List Rat} (builds : Builds program form lower) {status : Status} {final : Tableau Rat}
    (means : status.Means (Tableau.ofForm form) final) (used : Nat) :
    Solved.Means program
      ⟨status, final.solution.take form.programColumns, final.objectiveValue, used⟩ := by
  unfold Solved.Means
  cases status with
  | optimal => exact builds.optimal means.1 means.2
  | infeasible =>
    exact fun y satisfied =>
      means _ (builds.holds_withSlacks satisfied) (builds.inBounds_withSlacks satisfied)
  | unbounded =>
    intro limit
    obtain ⟨x, held, inside, below⟩ := means (limit - form.constant)
    refine ⟨_, builds.satisfies held inside, ?_⟩
    rw [builds.objectiveValue_firstValues]
    linarith
  | iterationLimit => trivial
  | error => exact means

theorem outcome_solveProgram {program : Program Rat} {form : StandardForm Rat}
    (built : StandardForm.ofProgram program = .ok form) (budget : Budget) :
    (solveProgram program budget).outcome =
      ((Tableau.ofForm form).optimize budget).outcome.map fun result =>
        { status := result.status
          values := result.tableau.solution.take form.programColumns
          objective := result.tableau.objectiveValue
          used := result.budget.used } := by
  simp only [solveProgram, built, Run.outcome_bind, Run.outcome_pure]
  rfl

/-- A solve from scratch has an outcome, and a limit on iterations stops it only where there is
one. -/
theorem exists_solved {program : Program Rat} {form : StandardForm Rat}
    (built : StandardForm.ofProgram program = .ok form) (budget : Budget) :
    ∃ solved, (solveProgram program budget).outcome = .ok solved ∧
      (solved.status = .iterationLimit → budget.limit ≠ none) ∧ solved.Means program := by
  obtain ⟨lower, builds⟩ := StandardForm.builds_of_ofProgram built
  obtain ⟨result, ran, -, limited, certifies⟩ := Tableau.optimize_certifies builds.prepared budget
  rw [outcome_solveProgram built, ran]
  exact ⟨_, rfl, limited, builds.solved_means certifies.means _⟩

/-- Solving a program from scratch. Whatever the budget, there is an outcome, every outcome is right
about the program, the solve never breaks down, and only a limit on iterations stops it short. -/
theorem solveProgram_correct {program : Program Rat} {form : StandardForm Rat}
    (built : StandardForm.ofProgram program = .ok form) (budget : Budget) :
    (∃ solved, (solveProgram program budget).outcome = .ok solved) ∧
      ∀ solved, (solveProgram program budget).outcome = .ok solved →
        solved.Means program ∧ (solved.status = .iterationLimit → budget.limit ≠ none) := by
  obtain ⟨solved, ran, limited, means⟩ := exists_solved built budget
  refine ⟨⟨solved, ran⟩, fun other same => ?_⟩
  obtain rfl := Except.ok.inj (ran.symm.trans same)
  exact ⟨means, limited⟩

/-- Minimise `-x - 3 y + 10` over `x + 2 y ≤ 6` and `x - y ≥ -1`, with `x` at least one and
`y` at most three. -/
def wedge : Program Rat where
  objective := [-1, -3]
  constant := 10
  rows := [⟨[1, 2], .le, 6⟩, ⟨[1, -1], .ge, -1⟩]
  columns := [.continuous ⟨some 1, none⟩, .continuous ⟨some 0, some 3⟩]

theorem wedge_optimal : ∃ solved, (solveProgram wedge {}).outcome = .ok solved ∧
    solved.status = .optimal ∧ solved.values = [4 / 3, 7 / 3] ∧
    wedge.Satisfies [4 / 3, 7 / 3] ∧ wedge.objectiveValue [4 / 3, 7 / 3] = 5 / 3 ∧
      ∀ y, wedge.Satisfies y → 5 / 3 ≤ wedge.objectiveValue y := by
  have ran : (match (solveProgram wedge {}).outcome with
      | .ok solved => decide (solved.status = .optimal ∧ solved.values = [4 / 3, 7 / 3] ∧
          solved.objective = 5 / 3)
      | .error _ => false) = true := by decide +kernel
  have built : (match StandardForm.ofProgram wedge with
      | .ok _ => true
      | .error _ => false) = true := by decide +kernel
  split at built
  · rename_i form made
    split at ran
    · rename_i solved ended
      obtain ⟨status, values, objective⟩ := of_decide_eq_true ran
      obtain ⟨means, -⟩ := (solveProgram_correct made {}).2 solved ended
      rw [Solved.Means, status, values, objective] at means
      exact ⟨solved, ended, status, values, means⟩
    · cases ran
  · cases built

end MixedInteger.Simplex
