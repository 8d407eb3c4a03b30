import MixedInteger.Proofs.Ending
import MixedInteger.Proofs.Simplex.Correctness
import MixedInteger.Proofs.Simplex.CutRows

/-! A tableau in use: cuts are added and the tableau is optimised again, in any order. A cut
speaks about the columns as they are oriented when it is added, slacks of the rows and of
earlier cuts included. All of these are affine in the program's own columns, so the cut denotes
one more row of the program. Throughout, the tableau stays a tableau of the program with those
rows: optimising it ends, and ends as a solve of that program from scratch does. -/
namespace MixedInteger.Simplex

/-! ### Affine functions of the program's columns -/

/-- A function of the first `count` values that is a sum of multiples and a constant. -/
def Affine (count : Nat) (value : List Rat → Rat) : Prop :=
  ∃ (slope : Nat → Rat) (start : Rat), ∀ y,
    value y = ∑ index ∈ Finset.range count, slope index * y.getD index 0 + start

namespace Affine

variable {count : Nat} {value other : List Rat → Rat}

theorem const (start : Rat) : Affine count fun _ => start := ⟨fun _ => 0, start, fun _ => by simp⟩

theorem add (first : Affine count value) (second : Affine count other) :
    Affine count fun y => value y + other y := by
  obtain ⟨slope, start, same⟩ := first
  obtain ⟨slope', start', same'⟩ := second
  refine ⟨fun index => slope index + slope' index, start + start', fun y => ?_⟩
  simp only [same, same', add_mul, Finset.sum_add_distrib]
  ring

theorem mul (factor : Rat) (affine : Affine count value) : Affine count fun y => factor * value y := by
  obtain ⟨slope, start, same⟩ := affine
  refine ⟨fun index => factor * slope index, factor * start, fun y => ?_⟩
  simp only [same, mul_add, Finset.mul_sum, mul_assoc]

theorem sub (first : Affine count value) (second : Affine count other) :
    Affine count fun y => value y - other y := by
  simpa [sub_eq_add_neg] using first.add (second.mul (-1))

theorem own {index : Nat} (inside : index < count) : Affine count fun y => y.getD index 0 :=
  ⟨fun other => if other = index then 1 else 0, 0, fun y => by simp [inside]⟩

theorem dot {coefs : List Rat} (width : coefs.length = count) :
    Affine count fun y => MixedInteger.dot coefs y :=
  ⟨fun index => coefs.getD index 0, 0, fun y => by simp only [dot_eq_form, form_eq_sum, width, add_zero]⟩

theorem form (coefs : List Rat) {reading : List Rat → Nat → Rat}
    (affine : ∀ index, Affine count fun y => reading y index) :
    Affine count fun y => MixedInteger.form coefs (reading y) := by
  induction coefs generalizing reading with
  | nil => exact const 0
  | cons a coefs ih =>
    exact ((affine 0).mul a).add (ih fun index => affine (index + 1))

/-- An affine function is known from its values at zero and at the unit points. -/
theorem dot_differences (affine : Affine count value) (y : List Rat) :
    MixedInteger.dot ((List.range count).map fun index =>
        value ((List.replicate count 0).set index 1) - value (List.replicate count 0)) y =
      value y - value (List.replicate count 0) := by
  obtain ⟨slope, start, same⟩ := affine
  have origin : value (List.replicate count 0) = start := by
    rw [same, Finset.sum_eq_zero fun index inside => ?_, zero_add]
    simp [Finset.mem_range.mp inside]
  have unit : ∀ index < count, value ((List.replicate count 0).set index 1) = slope index + start := by
    intro index inside
    rw [same, Finset.sum_eq_single index, List.getD_eq_getElem?_getD, List.getElem?_set_self (by simpa),
      Option.getD_some, mul_one]
    · intro other below different
      have zero : ((List.replicate count 0).set index 1).getD other (0 : Rat) = 0 := by
        rw [List.getD_eq_getElem?_getD, List.getElem?_set_ne (Ne.symm different)]
        simp [Finset.mem_range.mp below]
      rw [zero, mul_zero]
    · intro outside
      exact absurd (Finset.mem_range.mpr inside) outside
  rw [dot_eq_form, form_eq_sum, List.length_map, List.length_range, same y, origin, add_sub_cancel_right]
  refine Finset.sum_congr rfl fun index inside => ?_
  have below := Finset.mem_range.mp inside
  simp [below, unit index below]

end Affine

/-! ### The row that a cut denotes -/

/-- The left-hand side of a cut at a point of the program: the columns of the tableau read the
point with its slacks, and coefficients past the last column are dropped. -/
def cutActivity (program : Program Rat) (tableau : Tableau Rat) (coefs y : List Rat) : Rat :=
  form (coefs.take tableau.columnCount) (tableau.reading (withSlacks program y))

/-- The row over the program's columns that a cut denotes. -/
def cutRow (program : Program Rat) (tableau : Tableau Rat) (coefs : List Rat) (rhs : Rat) : Row Rat :=
  let origin := List.replicate program.columns.length 0
  { coefs := (List.range program.columns.length).map fun index =>
      cutActivity program tableau coefs (origin.set index 1) - cutActivity program tableau coefs origin
    relation := .ge
    rhs := rhs - cutActivity program tableau coefs origin }

/-- The program with one more row. -/
def extendedBy (program : Program Rat) (row : Row Rat) : Program Rat :=
  { program with rows := program.rows ++ [row] }

section Row

variable {program : Program Rat} {tableau : Tableau Rat}

theorem cutRow_eq {coefs row : List Rat} {rhs bound : Rat}
    (same : (cutRow program tableau coefs rhs).coefs = row)
    (sameRhs : (cutRow program tableau coefs rhs).rhs = bound) :
    cutRow program tableau coefs rhs = ⟨row, .ge, bound⟩ := by
  subst same sameRhs
  rfl

theorem affine_withSlacks (shaped : program.Shaped) (index : Nat) :
    Affine program.columns.length fun y => withSlacks program y index := by
  unfold withSlacks
  by_cases own : index < program.columns.length
  · simpa only [own, ↓reduceIte] using Affine.own own
  · simp only [own, ↓reduceIte]
    cases (StandardForm.slackRows program)[index - program.columns.length]? with
    | none => exact .const 0
    | some pair =>
      obtain ⟨place, relation⟩ := pair
      refine Affine.mul _ ?_
      cases known : program.rows[place]? with
      | none => exact .const 0
      | some row =>
        exact (Affine.const row.rhs).sub (.dot (shaped.rows row (List.mem_of_getElem? known)))

theorem affine_cutActivity (shaped : program.Shaped) (coefs : List Rat) :
    Affine program.columns.length (cutActivity program tableau coefs) := by
  refine Affine.form _ fun index => ?_
  have own := affine_withSlacks shaped index
  simp only [Tableau.reading, Tableau.readThrough]
  cases tableau.columns[index]? with
  | none => exact own
  | some column =>
    obtain ⟨cost, upper, lower, integral, complemented⟩ := column
    have shifted := own.sub (.const lower)
    cases upper with
    | none => exact shifted
    | some upper =>
      cases complemented with
      | false => exact shifted
      | true => exact (Affine.const upper).sub shifted

/-- The row holds where the cut does, with the same slack. -/
theorem dot_cutRow (shaped : program.Shaped) (coefs : List Rat) (rhs : Rat) (y : List Rat) :
    dot (cutRow program tableau coefs rhs).coefs y - (cutRow program tableau coefs rhs).rhs =
      cutActivity program tableau coefs y - rhs := by
  have affine : Affine program.columns.length (cutActivity program tableau coefs) :=
    affine_cutActivity shaped coefs
  simp only [cutRow]
  rw [affine.dot_differences]
  ring

theorem valid_extendedBy_cutRow (valid : program.Valid) (coefs : List Rat) (rhs : Rat) :
    (extendedBy program (cutRow program tableau coefs rhs)).Valid := by
  refine ⟨⟨valid.objective, fun row member => ?_⟩, valid.nonempty⟩
  rcases List.mem_append.mp member with own | new
  · exact valid.rows row own
  · obtain rfl := List.mem_singleton.mp new
    simp [cutRow, extendedBy]

end Row

/-! ### Tableaux of a program -/

/-- The tableau is one of the program's form, whatever its basis and orientations. -/
structure Serves (program : Program Rat) (form : StandardForm Rat) (lower : List Rat)
    (tableau : Tableau Rat) : Prop where
  builds : StandardForm.Builds program form lower
  prepared : tableau.Prepared
  frame : tableau.frame = (Tableau.ofForm form).frame
  constant : tableau.constant = form.constant
  holds : ∀ x, tableau.Holds x ↔ (Tableau.ofForm form).Holds x

section Serves

variable {program : Program Rat} {form : StandardForm Rat} {lower : List Rat}
  {tableau next : Tableau Rat}

/-- A solution of the form is its first columns with the slacks that the rows leave. -/
theorem StandardForm.Builds.withSlacks_eq (builds : Builds program form lower) {x : Nat → Rat}
    (held : (Tableau.ofForm form).Holds x) {index : Nat}
    (inside : index < (Tableau.ofForm form).columnCount) :
    withSlacks program (firstValues program.columns.length x) index = x index := by
  unfold withSlacks
  by_cases own : index < program.columns.length
  · rw [if_pos own, getD_firstValues own]
  · rw [builds.columnCount] at inside
    obtain ⟨⟨place, relation⟩, there⟩ : ∃ pair,
        (StandardForm.slackRows program)[index - program.columns.length]? = some pair :=
      ⟨_, List.getElem?_eq_getElem (by omega)⟩
    obtain ⟨row, found, -, -⟩ := mem_slackRows.mp (List.mem_of_getElem? there)
    have equation := (builds.holds_iff x).mp held _ row found
    rw [form_slackCoefs (nodup_slackRows program) there] at equation
    rw [if_neg own, there]
    simp only [found, Option.map_some, Option.getD_some]
    rw [dot_firstValues (builds.valid.rows row (List.mem_of_getElem? found)), ← equation,
      add_sub_cancel_left, ← mul_assoc, slackSign_mul_self, one_mul]
    congr 1
    omega

theorem slackRows_extendedBy (row : Row Rat) (inequality : row.relation ≠ .eq) :
    StandardForm.slackRows (extendedBy program row) =
      StandardForm.slackRows program ++ [(program.rows.length, row.relation)] := by
  simp [StandardForm.slackRows, extendedBy, List.zipIdx_append, inequality]

/-- The form of the program with one more inequality. -/
theorem StandardForm.Builds.extendedBy {extended : StandardForm Rat} {row : Row Rat}
    (builds : Builds program form lower)
    (builds' : Builds (extendedBy program row) extended lower) (inequality : row.relation ≠ .eq) :
    (Tableau.ofForm extended).columns = (Tableau.ofForm form).columns ++ [Tableau.cutSlack] ∧
      extended.constant = form.constant ∧
      ∀ x, (Tableau.ofForm extended).Holds x ↔ (Tableau.ofForm form).Holds x ∧
        MixedInteger.form row.coefs x +
          slackSign row.relation * x (Tableau.ofForm form).columnCount = row.rhs := by
  have slacks : slackRows (Simplex.extendedBy program row) =
      slackRows program ++ [(program.rows.length, row.relation)] := slackRows_extendedBy row inequality
  refine ⟨?_, builds'.constant.trans builds.constant.symm, fun x => ?_⟩
  · simp only [Tableau.ofForm, builds.columns, builds'.columns, slacks, List.map_append,
      List.append_assoc]
    rfl
  · have own : ∀ (index : Nat) (other : Row Rat), program.rows[index]? = some other →
        ∀ z, MixedInteger.form (slackCoefs (slackRows (Simplex.extendedBy program row)) index) z =
          MixedInteger.form (slackCoefs (slackRows program) index) z := by
      intro index other found z
      have before : program.rows.length ≠ index := (List.getElem?_eq_some_iff.mp found).1.ne'
      simp [slacks, slackCoefs, form_append, before, MixedInteger.form]
    have last : ∀ z, MixedInteger.form (slackCoefs (slackRows (Simplex.extendedBy program row))
        program.rows.length) z = slackSign row.relation * z (slackRows program).length :=
      fun z => form_slackCoefs (nodup_slackRows _) (by simp [slacks]) z
    rw [builds.holds_iff, builds'.holds_iff, builds.columnCount, Nat.add_comm]
    constructor
    · intro held
      refine ⟨fun index other found => ?_, ?_⟩
      · rw [← own index other found]
        refine held index other ?_
        rw [Simplex.extendedBy, List.getElem?_append_left (List.getElem?_eq_some_iff.mp found).1, found]
      · have equation := held program.rows.length row (by simp [Simplex.extendedBy])
        rwa [last] at equation
    · rintro ⟨held, equation⟩ index other found
      simp only [Simplex.extendedBy] at found
      by_cases before : index < program.rows.length
      · rw [List.getElem?_append_left before] at found
        rw [own index other found]
        exact held index other found
      · obtain ⟨rfl, rfl⟩ : index = program.rows.length ∧ row = other := by
          rw [List.getElem?_append_right (not_lt.mp before), List.getElem?_singleton] at found
          split at found
          · exact ⟨by omega, Option.some.inj found⟩
          · cases found
        rw [last]
        exact equation

namespace Serves

theorem start (builds : StandardForm.Builds program form lower) :
    Serves program form lower (Tableau.ofForm form) :=
  ⟨builds, builds.prepared, rfl, rfl, fun _ => Iff.rfl⟩

theorem columnCount (serves : Serves program form lower tableau) :
    tableau.columnCount = (Tableau.ofForm form).columnCount :=
  Tableau.columnCount_congr serves.frame

/-- Optimisation leads to another tableau of the program. -/
theorem restored (serves : Serves program form lower tableau) (restored : tableau.Restored next) :
    Serves program form lower next :=
  ⟨serves.builds, restored.prepared, restored.frame.trans serves.frame,
    restored.constant.trans serves.constant, fun x => (restored.holds x).trans (serves.holds x)⟩

/-- At a solution every column of the tableau is what a cut takes it for. -/
theorem activity (serves : Serves program form lower tableau) (coefs : List Rat) {x : Nat → Rat}
    (held : (Tableau.ofForm form).Holds x) :
    MixedInteger.form (coefs.take tableau.columnCount) (tableau.reading x) =
      cutActivity program tableau coefs (firstValues program.columns.length x) := by
  refine form_congr fun index inside => ?_
  have below : index < (Tableau.ofForm form).columnCount := by
    rw [← serves.columnCount]
    exact inside.trans_le (List.length_take_le _ _)
  rw [Tableau.reading_congr rfl (serves.builds.withSlacks_eq held below)]

/-- A cut leads to a tableau of the program with the row that it denotes. -/
theorem addCut (serves : Serves program form lower tableau) (coefs : List Rat) (rhs : Rat) :
    ∃ next extended, tableau.addCut coefs rhs = .ok (tableau.columnCount, next) ∧
      Serves (extendedBy program (cutRow program tableau coefs rhs)) extended lower next := by
  have builds := serves.builds
  have short : (coefs.take tableau.columnCount).length ≤ tableau.columnCount := List.length_take_le _ _
  obtain ⟨next, added, extends'⟩ := Tableau.addCut_spec serves.prepared short rhs
  have same : tableau.addCut coefs rhs = tableau.addCut (coefs.take tableau.columnCount) rhs := by
    simp [Tableau.addCut, List.take_take]
  have valid : (extendedBy program (cutRow program tableau coefs rhs)).Valid :=
    valid_extendedBy_cutRow builds.valid coefs rhs
  obtain ⟨extended, built⟩ := StandardForm.exists_ofProgram valid fun column member => by
    obtain ⟨index, known⟩ := List.mem_iff_getElem?.mp member
    rw [(builds.lower_eq known).2]
    simp
  obtain ⟨lower', builds'⟩ := StandardForm.builds_of_ofProgram built
  obtain rfl : lower = lower' :=
    List.map_injective_iff.mpr (Option.some_injective _) (builds.lowers.symm.trans builds'.lowers)
  obtain ⟨columns, constant, holds⟩ := builds.extendedBy builds' (by simp [cutRow])
  have frame : next.frame = (Tableau.ofForm extended).frame := by
    rw [extends'.frame, serves.frame, Tableau.frame, Tableau.frame, columns, List.map_append]
    rfl
  refine ⟨next, extended, same.trans added, builds', extends'.prepared, frame,
    extends'.constant.trans (serves.constant.trans constant.symm), fun x => ?_⟩
  rw [extends'.holds, holds, serves.holds]
  refine and_congr_right fun held => ?_
  have value : dot (cutRow program tableau coefs rhs).coefs (firstValues program.columns.length x) -
      (cutRow program tableau coefs rhs).rhs = _ := dot_cutRow builds.valid.toShaped coefs rhs _
  rw [dot_firstValues (by simp [cutRow]), ← serves.activity coefs held] at value
  have sign : slackSign (cutRow program tableau coefs rhs).relation = -1 := by simp [cutRow, slackSign]
  rw [sign, ← serves.columnCount]
  constructor <;> intro equation <;> linarith

/-- What a status says about the tableau, it says about the program. -/
theorem solved_means (serves : Serves program form lower tableau) {status : Status}
    (means : status.Means tableau next) (used : Nat) :
    Solved.Means program ⟨status, next.solution.take form.programColumns, next.objectiveValue, used⟩ := by
  refine serves.builds.solved_means ?_ used
  cases status with
  | optimal =>
    obtain ⟨restored, reduced⟩ := means
    rw [serves.columnCount] at reduced
    exact ⟨⟨serves.columnCount ▸ restored.vertex, restored.frame.trans serves.frame,
      restored.constant.trans serves.constant, restored.costReady,
      fun x => (restored.holds x).trans (serves.holds x), restored.price⟩, reduced⟩
  | infeasible =>
    intro x held inside
    exact means x ((serves.holds x).mpr held) (serves.frame ▸ inside)
  | unbounded =>
    intro limit
    obtain ⟨x, held, inside, below⟩ := means limit
    rw [serves.frame] at inside below
    exact ⟨x, (serves.holds x).mp held, inside, below⟩
  | iterationLimit => trivial
  | error => exact means

end Serves

end Serves

/-! ### Sessions -/

/-- A tableau after some cuts and optimisations that ended at an optimum, in any order, with the
program extended by the rows that the cuts denoted when they were added. -/
inductive Session (program : Program Rat) : Program Rat → Tableau Rat → Prop
  | fresh {form : StandardForm Rat} (built : StandardForm.ofProgram program = .ok form) :
      Session program program (Tableau.ofForm form)
  | cut {extended : Program Rat} {tableau next : Tableau Rat} {coefs : List Rat} {rhs : Rat}
      {slack : Nat} (session : Session program extended tableau)
      (added : tableau.addCut coefs rhs = .ok (slack, next)) :
      Session program (extendedBy extended (cutRow extended tableau coefs rhs)) next
  | optimized {extended : Program Rat} {tableau : Tableau Rat} {budget : Budget}
      {result : Optimized Rat} (session : Session program extended tableau)
      (ran : (tableau.optimize budget).outcome = .ok result) (optimal : result.status = .optimal) :
      Session program extended result.tableau

section Session

variable {program extended : Program Rat} {tableau : Tableau Rat}

theorem Session.serves (session : Session program extended tableau) :
    ∃ form lower, Serves extended form lower tableau := by
  induction session with
  | fresh built =>
    obtain ⟨lower, builds⟩ := StandardForm.builds_of_ofProgram built
    exact ⟨_, lower, .start builds⟩
  | cut session added ih =>
    obtain ⟨form, lower, serves⟩ := ih
    obtain ⟨next, extended, again, serves'⟩ := serves.addCut _ _
    obtain ⟨-, rfl⟩ := Prod.mk.inj (Except.ok.inj (again.symm.trans added))
    exact ⟨extended, lower, serves'⟩
  | optimized session ran optimal ih =>
    obtain ⟨form, lower, serves⟩ := ih
    obtain ⟨result, again, means⟩ := Tableau.optimize_spec serves.prepared _
    obtain rfl := Except.ok.inj (again.symm.trans ran)
    rw [optimal] at means
    exact ⟨form, lower, serves.restored means.1⟩

theorem Session.columns (session : Session program extended tableau) :
    extended.columns = program.columns := by
  induction session with
  | fresh => rfl
  | cut _ _ ih => exact ih
  | optimized _ _ _ ih => exact ih

/-- Cuts only add rows. -/
theorem Session.satisfies (session : Session program extended tableau) {y : List Rat}
    (held : extended.Satisfies y) : program.Satisfies y := by
  induction session with
  | fresh => exact held
  | cut _ _ ih => exact ih ⟨held.length, fun row member => held.rows row (by simp [extendedBy, member]),
      held.ranges⟩
  | optimized _ _ _ ih => exact ih held

/-- Two outcomes that are right about one program agree. -/
theorem Solved.Means.agree {first second : Solved Rat} (left : first.Means program)
    (right : second.Means program) (settled : first.status ≠ .iterationLimit)
    (settled' : second.status ≠ .iterationLimit) :
    first.status = second.status ∧ (first.status = .optimal → first.objective = second.objective) := by
  obtain ⟨status, values, objective, used⟩ := first
  obtain ⟨status', values', objective', used'⟩ := second
  cases status with
  | optimal =>
    obtain ⟨held, attained, least⟩ := left
    cases status' with
    | optimal =>
      obtain ⟨held', attained', least'⟩ := right
      exact ⟨rfl, fun _ => le_antisymm (attained' ▸ least _ held') (attained ▸ least' _ held)⟩
    | infeasible => exact absurd held (right values)
    | unbounded =>
      obtain ⟨y, heldY, below⟩ := right objective
      exact absurd (least y heldY) (not_le.mpr below)
    | iterationLimit => exact absurd rfl settled'
    | error => exact right.elim
  | infeasible =>
    refine ⟨?_, by simp⟩
    cases status' with
    | optimal => exact absurd right.1 (left values')
    | infeasible => rfl
    | unbounded =>
      obtain ⟨y, held, -⟩ := right 0
      exact absurd held (left y)
    | iterationLimit => exact absurd rfl settled'
    | error => exact right.elim
  | unbounded =>
    refine ⟨?_, by simp⟩
    cases status' with
    | optimal =>
      obtain ⟨y, held, below⟩ := left objective'
      exact absurd (right.2.2 y held) (not_le.mpr below)
    | infeasible =>
      obtain ⟨y, held, -⟩ := left 0
      exact absurd held (right y)
    | unbounded => rfl
    | iterationLimit => exact absurd rfl settled'
    | error => exact right.elim
  | iterationLimit => exact absurd rfl settled
  | error => exact left.elim

/-- Optimising a tableau of a program without a limit ends as a solve of the program from scratch
does. -/
theorem Serves.optimize_eq_solve {form : StandardForm Rat} {lower : List Rat}
    (serves : Serves program form lower tableau) (used : Nat) :
    ∃ result solved, (tableau.optimize { limit := none, used }).outcome = .ok result ∧
      (solveProgram program {}).outcome = .ok solved ∧ result.status = solved.status ∧
      (result.status = .optimal ∨ result.status = .infeasible ∨ result.status = .unbounded) ∧
      (result.status = .optimal → result.tableau.objectiveValue = solved.objective) ∧
      Solved.Means program ⟨result.status, result.tableau.solution.take form.programColumns,
        result.tableau.objectiveValue, result.budget.used⟩ := by
  obtain ⟨built, made⟩ := StandardForm.exists_ofProgram serves.builds.valid fun column member => by
    obtain ⟨index, known⟩ := List.mem_iff_getElem?.mp member
    rw [(serves.builds.lower_eq known).2]
    simp
  obtain ⟨result, ran, -, limited, certifies⟩ :=
    Tableau.optimize_certifies serves.prepared { limit := none, used }
  obtain ⟨solved, scratch, stopped, right⟩ := exists_solved made {}
  have means := serves.solved_means certifies.means result.budget.used
  have settled : result.status ≠ .iterationLimit := fun limit => limited limit rfl
  obtain ⟨same, value⟩ := means.agree right settled fun limit => stopped limit rfl
  refine ⟨result, solved, ran, scratch, same, ?_, value, means⟩
  cases status : result.status with
  | optimal => simp
  | infeasible => simp
  | unbounded => simp
  | iterationLimit => exact absurd status settled
  | error =>
    rw [status] at means
    exact means.elim

/-- Every optimisation in a session ends, with a status that settles the matter. The bound on
iterations that the loop is given plays no part in this: from where either phase starts, no run
of iterations gets past a fixed length. -/
theorem Session.optimize_ends (session : Session program extended tableau) (used : Nat) :
    (∃ result, (tableau.optimize { limit := none, used }).outcome = .ok result ∧
      (result.status = .optimal ∨ result.status = .infeasible ∨ result.status = .unbounded)) ∧
    (∀ start, tableau.beginPhaseOne tableau.pendingRows = .ok start →
      ∃ bound, ∀ run length, run 0 = start → Tableau.Trail start.columnCount run length →
        length < bound) ∧
    ∀ phase, tableau.phaseOne { limit := none, used } = .ok phase → phase.status = none →
      ∃ bound, ∀ run length, run 0 = phase.tableau →
        Tableau.Trail phase.tableau.columnCount run length → length < bound := by
  obtain ⟨form, lower, serves⟩ := session.serves
  refine ⟨?_, fun start began => ?_, fun phase ran open' => ?_⟩
  · obtain ⟨result, -, ran, -, -, settled, -⟩ := serves.optimize_eq_solve used
    exact ⟨result, ran, settled⟩
  · obtain ⟨start', again, auxiliary⟩ := Tableau.beginPhaseOne_spec serves.prepared
    obtain rfl := Except.ok.inj (again.symm.trans began)
    exact auxiliary.vertex.bounded _
  · obtain ⟨phase', again, -, means⟩ := Tableau.phaseOne_spec serves.prepared { limit := none, used }
    obtain rfl := Except.ok.inj (again.symm.trans ran)
    rw [Tableau.PhaseOneMeans, open'] at means
    exact means.vertex.bounded _

/-- Two rows that are tight at the origin, where a column of the steepest descent brings no
progress, and a column without width. -/
def carousel : Program Rat where
  objective := [-3 / 4, 150, -1 / 50, 6, -1]
  constant := 0
  rows := [⟨[1 / 4, -60, -1 / 25, 9, 0], .le, 0⟩, ⟨[1 / 2, -90, -1 / 50, 3, 0], .le, 0⟩]
  columns := [.continuous .nonnegative, .continuous .nonnegative, .continuous ⟨some 0, some 1⟩,
    .continuous .nonnegative, .continuous (.fixed 2)]

theorem carousel_ends : ∃ form, StandardForm.ofProgram carousel = .ok form ∧
    (∃ result, ((Tableau.ofForm form).optimize {}).outcome = .ok result ∧
      result.status = .optimal ∧ result.tableau.iterations = 8) ∧
    ∀ start, (Tableau.ofForm form).beginPhaseOne (Tableau.ofForm form).pendingRows = .ok start →
      ∃ bound, ∀ run length, run 0 = start → Tableau.Trail start.columnCount run length →
        length < bound := by
  have runs : (do
      let form ← (StandardForm.ofProgram carousel).toOption
      let result ← ((Tableau.ofForm form).optimize {}).outcome.toOption
      guard (result.status = Status.optimal ∧ result.tableau.iterations = 8)).isSome = true := by
    decide +kernel
  obtain ⟨_, runs⟩ := Option.isSome_iff_exists.mp runs
  simp only [bind, Option.bind_eq_some_iff, toOption_eq_some_iff] at runs
  obtain ⟨form, built, result, optimized, status⟩ := runs
  obtain ⟨⟨result', again, -⟩, first, -⟩ := Session.optimize_ends (.fresh built) 0
  obtain rfl := Except.ok.inj (again.symm.trans optimized)
  exact ⟨form, built, ⟨result', again, (Option.guard_eq_some' _).mp status⟩, first⟩

/-- Optimising a tableau in a session is solving its program from scratch: the statuses are the
same, and so are the optimal values. The point that is read off satisfies the rows and ranges of
the program and the row of every cut. A session can always go on with another cut. -/
theorem Session.optimize_agrees (session : Session program extended tableau) (used : Nat) :
    ∃ result solved, (tableau.optimize { limit := none, used }).outcome = .ok result ∧
      (solveProgram extended {}).outcome = .ok solved ∧ result.status = solved.status ∧
      (result.status = .optimal →
        result.tableau.objectiveValue = solved.objective ∧
        extended.objectiveValue (result.tableau.solution.take program.columns.length) =
          result.tableau.objectiveValue ∧
        (∀ y, extended.Satisfies y → result.tableau.objectiveValue ≤ extended.objectiveValue y) ∧
        program.Satisfies (result.tableau.solution.take program.columns.length) ∧
        extended.Satisfies (result.tableau.solution.take program.columns.length)) ∧
      ∀ coefs rhs, ∃ next, tableau.addCut coefs rhs = .ok (tableau.columnCount, next) := by
  obtain ⟨form, lower, serves⟩ := session.serves
  obtain ⟨result, solved, ran, scratch, same, -, value, means⟩ := serves.optimize_eq_solve used
  refine ⟨result, solved, ran, scratch, same, fun optimal => ?_, fun coefs rhs => ?_⟩
  · rw [serves.builds.programColumns, session.columns, Solved.Means, optimal] at means
    exact ⟨value optimal, means.2.1, means.2.2, session.satisfies means.1, means.1⟩
  · obtain ⟨next, -, added, -⟩ := serves.addCut coefs rhs
    exact ⟨next, added⟩

/-- Maximise `x + y` over `x + 2 y ≤ 6`, with `x` at most three and `y` at most two. Both columns
are complemented at the optimum, so that the cut `1 ≤ z 0` says `x ≤ 2`; the second cut is about
the slack of the first. -/
def crate : Program Rat where
  objective := [-1, -1]
  constant := 0
  rows := [⟨[1, 2], .le, 6⟩]
  columns := [.continuous ⟨some 0, some 3⟩, .continuous ⟨some 0, some 2⟩]

theorem crate_agrees : ∃ (tableau : Tableau Rat) (result : Optimized Rat) (solved : Solved Rat),
    Session crate (extendedBy (extendedBy crate ⟨[-1, 0], .ge, -2⟩) ⟨[-1, 0], .ge, -1⟩) tableau ∧
    (tableau.optimize {}).outcome = .ok result ∧ result.status = .optimal ∧
    result.tableau.objectiveValue = -3 ∧ solved.status = .optimal ∧ solved.objective = -3 ∧
    (solveProgram (extendedBy (extendedBy crate ⟨[-1, 0], .ge, -2⟩) ⟨[-1, 0], .ge, -1⟩) {}).outcome =
      .ok solved ∧
    crate.Satisfies (result.tableau.solution.take 2) := by
  have runs : (do
      let form ← (StandardForm.ofProgram crate).toOption
      let first ← ((Tableau.ofForm form).optimize {}).outcome.toOption
      let (_, once) ← (first.tableau.addCut [1] 1).toOption
      let second ← (once.optimize {}).outcome.toOption
      let (_, twice) ← (second.tableau.addCut [0, 0, 0, 1] 1).toOption
      let third ← (twice.optimize {}).outcome.toOption
      let row := cutRow crate first.tableau [1] 1
      let other := cutRow (extendedBy crate row) second.tableau [0, 0, 0, 1] 1
      guard (first.status = Status.optimal ∧ second.status = Status.optimal ∧
        third.status = Status.optimal ∧ third.tableau.objectiveValue = -3 ∧
        row.coefs = [-1, 0] ∧ row.rhs = -2 ∧ other.coefs = [-1, 0] ∧ other.rhs = -1)).isSome =
      true := by decide +kernel
  obtain ⟨_, runs⟩ := Option.isSome_iff_exists.mp runs
  simp only [bind, Option.bind_eq_some_iff, toOption_eq_some_iff, Prod.exists] at runs
  obtain ⟨form, built, first, optimized, _, once, added, second, optimizedOnce, _, twice, addedTwice,
    third, optimizedTwice, checked⟩ := runs
  obtain ⟨optimal, optimalOnce, optimalTwice, value, coefs, rhs, coefsTwice, rhsTwice⟩ :=
    (Option.guard_eq_some' _).mp checked
  have row := cutRow_eq coefs rhs
  rw [row] at coefsTwice rhsTwice
  have other := cutRow_eq coefsTwice rhsTwice
  have session : Session crate
      (extendedBy (extendedBy crate ⟨[-1, 0], .ge, -2⟩) ⟨[-1, 0], .ge, -1⟩) twice := by
    have once := ((Session.fresh built).optimized optimized optimal).cut added
    rw [row] at once
    have twice := (once.optimized optimizedOnce optimalOnce).cut addedTwice
    rwa [other] at twice
  obtain ⟨result, solved, ran, scratch, same, agree, -⟩ := Session.optimize_agrees session 0
  obtain rfl := Except.ok.inj (ran.symm.trans optimizedTwice)
  obtain ⟨equal, -, -, held, -⟩ := agree optimalTwice
  exact ⟨twice, result, solved, session, ran, optimalTwice, value, same ▸ optimalTwice,
    equal ▸ value, scratch, held⟩

end Session

end MixedInteger.Simplex
